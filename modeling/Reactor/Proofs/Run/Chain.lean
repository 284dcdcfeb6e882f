import Reactor.Proofs.Run.Scene
import Reactor.Proofs.Step

/-! What it takes to give an event or a fault to the chain of hooks: a deed that says so, then one
deed for each hook that was reached. -/

namespace Reactor

variable {W S H P : Type} {host : Host W S H P}

inductive Host.CanRequest (host : Host W S H P) : List (Request S) → Prop where
  | event (v : Visit W S H P) (payload : Payload S) (link : Link H) :
      host.CanRequest (v.askAbout host payload link).2.requests
  | fault (v : Visit W S H P) (fault : Fault S H) (link : Link H) :
      host.CanRequest (v.askAboutFault host fault link).2.requests

/-- The deed of a hook that was asked about this socket. -/
def Deed.IsHearing (host : Host W S H P) (h : SocketHandle) : Deed S H → Prop
  | .heard k _ requests _ => k = h ∧ host.CanRequest requests
  | _ => False

namespace Visit

/-- The hooks were asked about the visited socket, and may have changed its metadata. -/
structure Hears (host : Host W S H P) (deeds : List (Deed S H)) (v v' : Visit W S H P) :
    Prop where
  advances : v.session.Advances deeds v'.session
  hearings : ∀ deed ∈ deeds, deed.IsHearing host v.descriptor.handle
  plays : v.session.Plays host v'.session
  descriptor : ∃ m, v'.descriptor = { v.descriptor with metadata := m }

theorem Hears.refl (v : Visit W S H P) : v.Hears host [] v :=
  ⟨.refl _, by simp, .refl _, v.descriptor.metadata, rfl⟩

theorem Hears.trans {deeds more : List (Deed S H)} {v v' v'' : Visit W S H P}
    (h : v.Hears host deeds v') (h' : v'.Hears host more v'') :
    v.Hears host (deeds ++ more) v'' := by
  obtain ⟨m, hm⟩ := h.descriptor
  obtain ⟨m', hm'⟩ := h'.descriptor
  refine ⟨h.advances.trans h'.advances, ?_, h.plays.trans h'.plays, m', by rw [hm', hm]⟩
  intro deed hdeed
  rcases List.mem_append.1 hdeed with hd | hd
  · exact h.hearings deed hd
  · have := h'.hearings deed hd
    rwa [hm] at this

theorem hear_hears (host : Host W S H P) (link : Link H) (payload : Payload S) (v : Visit W S H P) :
    ∃ deeds, v.Hears host deeds (hear host link payload v).2 := by
  rcases hr : v.askAbout host payload link with ⟨policy, r⟩
  refine ⟨[.heard v.descriptor.handle link r.requests r.verdict], ?_, ?_, ?_, r.metadata, ?_⟩
  · simp only [hear, hr]
    exact v.session.advances_absorb v.descriptor.handle link policy r.toReaction
  · have hcan : host.CanRequest (v.askAbout host payload link).2.requests :=
      .event v payload link
    rw [hr] at hcan
    simpa [Deed.IsHearing] using hcan
  · simp only [hear, hr]
    refine .of_note rfl fun registered => ?_
    have he : (v.session.scene registered).Enacts host _ _ := .heard payload link rfl
    rw [hr, ← Session.scene_absorb registered v.descriptor.handle link policy] at he
    exact he
  · simp only [hear, hr]

theorem hearFault_hears (host : Host W S H P) (link : Link H) (error : SocketError)
    (event : Option EventKind) (v : Visit W S H P) :
    ∃ deeds, v.Hears host deeds (hearFault host link error event v).2 := by
  rcases hr : v.askAboutFault host ⟨v.descriptor, error, event⟩ link with ⟨policy, r⟩
  refine ⟨[.heard v.descriptor.handle link r.requests r.verdict], ?_, ?_, ?_,
    v.descriptor.metadata, ?_⟩
  · simp only [hearFault, hr]
    exact v.session.advances_absorb v.descriptor.handle link policy r
  · have hcan : host.CanRequest
        (v.askAboutFault host ⟨v.descriptor, error, event⟩ link).2.requests := .fault v _ link
    rw [hr] at hcan
    simpa [Deed.IsHearing] using hcan
  · simp only [hearFault, hr]
    refine .of_note rfl fun registered => ?_
    have he : (v.session.scene registered).Enacts host _ _ :=
      .heardFault ⟨v.descriptor, error, event⟩ link rfl
    rw [hr, ← Session.scene_absorb registered v.descriptor.handle link policy] at he
    exact he
  · simp only [hearFault, hr]

theorem hearAll_hears (host : Host W S H P) (links : List (Link H)) :
    ∀ (payload : Payload S) (v : Visit W S H P),
      ∃ deeds, v.Hears host deeds (hearAll host links payload v).2 := by
  induction links with
  | nil => intro payload v; exact ⟨[], .refl v⟩
  | cons link links ih =>
      intro payload v
      obtain ⟨deeds, hd⟩ := hear_hears host link payload v
      rw [hearAll]
      rcases hx : hear host link payload v with ⟨p | e | _, t⟩
      all_goals rw [hx] at hd
      · rw [Step.bind_of_done hx]
        obtain ⟨more, hm⟩ := ih p t
        exact ⟨_, hd.trans hm⟩
      · rw [Step.bind_of_cut hx]
        exact ⟨_, hd⟩
      · rw [Step.bind_of_crashed hx]
        exact ⟨_, hd⟩

theorem hearFaultAll_hears (host : Host W S H P) (error : SocketError) (event : Option EventKind)
    (links : List (Link H)) :
    ∀ v : Visit W S H P, ∃ deeds, v.Hears host deeds (hearFaultAll host error event links v).2 := by
  induction links with
  | nil => intro v; exact ⟨[], .refl v⟩
  | cons link links ih =>
      intro v
      obtain ⟨deeds, hd⟩ := hearFault_hears host link error event v
      rw [hearFaultAll]
      rcases hx : hearFault host link error event v with ⟨p | e | _, t⟩
      all_goals rw [hx] at hd
      · rw [Step.bind_of_done hx]
        obtain ⟨more, hm⟩ := ih t
        exact ⟨_, hd.trans hm⟩
      · rw [Step.bind_of_cut hx]
        exact ⟨_, hd⟩
      · rw [Step.bind_of_crashed hx]
        exact ⟨_, hd⟩

def withHandler (v : Visit W S H P) (own : Option H) : Visit W S H P :=
  { v with descriptor := { v.descriptor with handler := own } }

/-- The visit once it is recorded that the chain is given something. -/
def begun (v : Visit W S H P) (deed : SocketHandle → Standing → Deed S H) : Visit W S H P :=
  ⟨v.descriptor, { v.session.note (deed v.descriptor.handle v.descriptor.standing) with
    dispatched := v.session.dispatched + 1 }⟩

/-- The visit as the hooks find it: the deed is recorded, and the handler of the socket itself is
detached. -/
def opened (v : Visit W S H P) (deed : SocketHandle → Standing → Deed S H) : Visit W S H P :=
  (v.begun deed).withHandler none

/-- The hooks that are asked about the visited socket. -/
def links (v : Visit W S H P) : List (Link H) := v.session.chain v.descriptor.handler

section Detached

variable {ε ε' α : Type} {x : Option H → Step (Visit W S H P) ε α} {v t : Visit W S H P}

theorem detached_of_done {a : α} (h : x v.descriptor.handler (v.withHandler none) = (.done a, t)) :
    (detached x : Step (Visit W S H P) ε' _) v =
      (.done (.ok a), t.withHandler v.descriptor.handler) := by
  unfold withHandler at h
  simp only [detached, bind, Step.bind, getDescriptor, modifyDescriptor, Step.modify, Step.attempt,
    h]
  rfl

theorem detached_of_cut {e : ε} (h : x v.descriptor.handler (v.withHandler none) = (.cut e, t)) :
    (detached x : Step (Visit W S H P) ε' _) v =
      (.done (.error e), t.withHandler v.descriptor.handler) := by
  unfold withHandler at h
  simp only [detached, bind, Step.bind, getDescriptor, modifyDescriptor, Step.modify, Step.attempt,
    h]
  rfl

theorem detached_of_crashed
    (h : x v.descriptor.handler (v.withHandler none) = (.crashed, t)) :
    (detached x : Step (Visit W S H P) ε' _) v = (.crashed, t) := by
  unfold withHandler at h
  simp only [detached, bind, Step.bind, getDescriptor, modifyDescriptor, Step.modify, Step.attempt,
    h]

end Detached

theorem stopObserved_of_due {ε : Type} (f : Halt → ε) {v : Visit W S H P}
    (h : v.session.stopDue = true) :
    onSession (Session.checkStop.mapCut f) v = (.cut (f .stop), v) := by
  simp [onSession, Step.within, Step.mapCut, Session.checkStop, h, Ending.mapCut]

theorem stopObserved_of_not_due {ε : Type} (f : Halt → ε) {v : Visit W S H P}
    (h : v.session.stopDue = false) :
    onSession (Session.checkStop.mapCut f) v = (.done (), v) := by
  simp [onSession, Step.within, Step.mapCut, Session.checkStop, h, Ending.mapCut]

def dispatchEnding (kind : EventKind) (stop : Bool) :
    Ending HandlerError (Payload S) → Ending Interrupt (Payload S)
  | .done payload => if stop then .cut (.halt .stop) else .done payload
  | .cut (.socket error) => .cut (.fault error (some kind))
  | .cut (.fatal text) => .cut (.halt (.fatal text))
  | .crashed => .crashed

/-- The visit after the hooks have been asked. A crash leaves the handler of the socket itself
detached. -/
def reattached {ε α : Type} (own : Option H) : Ending ε α × Visit W S H P → Visit W S H P
  | (.crashed, t) => t
  | (_, t) => t.withHandler own

theorem reattached_eq {ε α : Type} (own : Option H) (r : Ending ε α × Visit W S H P) :
    ∃ own', reattached own r = r.2.withHandler own' := by
  rcases r with ⟨a | e | _, t⟩
  · exact ⟨own, rfl⟩
  · exact ⟨own, rfl⟩
  · exact ⟨t.descriptor.handler, rfl⟩

/-- An event is given to the hooks one after the other, and a stop is looked for at the end. -/
theorem dispatch_apply (payload : Payload S) (v : Visit W S H P) :
    dispatch host payload v =
      let r := hearAll host v.links payload (v.opened fun h st => .raised h st payload)
      (dispatchEnding payload.kind r.2.session.stopDue r.1, reattached v.descriptor.handler r) := by
  have hbegin : (beginDispatch fun h st => Deed.raised h st payload) v =
    ((.done () : Ending Interrupt Unit), v.begun fun h st => .raised h st payload) := rfl
  rw [dispatch, Step.bind_of_done hbegin, Step.get_bind]
  rcases h : hearAll host v.links payload (v.opened fun h st => .raised h st payload)
    with ⟨p | (e | e) | _, t⟩
  · rw [Step.bind_of_done (detached_of_done h)]
    have hsame : (t.withHandler v.descriptor.handler).session.stopDue = t.session.stopDue := rfl
    simp only [dispatchEnding]
    cases hs : t.session.stopDue
    · rw [hs] at hsame
      exact Step.bind_of_done (stopObserved_of_not_due Interrupt.halt hsame)
    · rw [hs] at hsame
      exact Step.bind_of_cut (stopObserved_of_due Interrupt.halt hsame)
  · rw [Step.bind_of_done (detached_of_cut h)]
    rfl
  · rw [Step.bind_of_done (detached_of_cut h)]
    rfl
  · rw [Step.bind_of_crashed (detached_of_crashed h)]
    rfl

def reportEnding (stop : Bool) : Ending HandlerError Unit → Ending Halt Unit
  | .cut (.fatal text) => .cut (.fatal text)
  | .crashed => .crashed
  | _ => if stop then .cut .stop else .done ()

/-- A fault is given to the hooks one after the other; a failure of the socket raised there is
dropped. -/
theorem dispatchFault_apply (error : SocketError) (event : Option EventKind)
    (v : Visit W S H P) :
    dispatchFault host error event v =
      let r := hearFaultAll host error event v.links
        (v.opened fun h st => .reported h st error event)
      (reportEnding r.2.session.stopDue r.1, reattached v.descriptor.handler r) := by
  have hbegin : (beginDispatch fun h st => Deed.reported h st error event) v =
    ((.done () : Ending Halt Unit), v.begun fun h st => .reported h st error event) := rfl
  have hcheck : ∀ t : Visit W S H P,
      onSession Session.checkStop (t.withHandler v.descriptor.handler) =
        (if t.session.stopDue then .cut .stop else .done (), t.withHandler v.descriptor.handler) := by
    intro t
    cases hs : t.session.stopDue <;>
      simp [onSession, Step.within, Session.checkStop, withHandler, hs]
  rw [dispatchFault, Step.bind_of_done hbegin, Step.get_bind]
  rcases h : hearFaultAll host error event v.links
    (v.opened fun h st => .reported h st error event) with ⟨p | (e | e) | _, t⟩
  · rw [Step.bind_of_done (detached_of_done h)]
    exact hcheck t
  · rw [Step.bind_of_done (detached_of_cut h)]
    exact hcheck t
  · rw [Step.bind_of_done (detached_of_cut h)]
    rfl
  · rw [Step.bind_of_crashed (detached_of_crashed h)]
    rfl

theorem advances_begun (v : Visit W S H P) (deed : SocketHandle → Standing → Deed S H)
    (hd : (deed v.descriptor.handle v.descriptor.standing).requests = []) :
    v.session.Advances [deed v.descriptor.handle v.descriptor.standing] (v.begun deed).session := by
  have h := v.session.advances_note v.session.world false
    (deed v.descriptor.handle v.descriptor.standing) hd
  exact ⟨h.journal, h.changes, h.nextHandle, h.executing, h.handlers, h.observing, h.stopping⟩

/-- An event that is given to the chain is recorded, and then one deed for each hook reached. The
hooks can change nothing of the descriptor but its metadata. -/
theorem dispatch_advances (host : Host W S H P) (payload : Payload S) (v : Visit W S H P) :
    ∃ hearings, (∀ deed ∈ hearings, deed.IsHearing host v.descriptor.handle) ∧
      v.session.Advances (.raised v.descriptor.handle v.descriptor.standing payload :: hearings)
        (dispatch host payload v).2.session ∧
      ∃ m own, (dispatch host payload v).2.descriptor =
        { v.descriptor with metadata := m, handler := own } := by
  obtain ⟨hearings, hh⟩ := hearAll_hears host v.links payload
    (v.opened fun h st => .raised h st payload)
  obtain ⟨m, hm⟩ := hh.descriptor
  rw [dispatch_apply]
  obtain ⟨own, hown⟩ := reattached_eq v.descriptor.handler
    (hearAll host v.links payload (v.opened fun h st => .raised h st payload))
  refine ⟨hearings, hh.hearings, ?_, m, own, ?_⟩
  · simp only [hown]
    exact (v.advances_begun (fun h st => .raised h st payload) rfl).trans hh.advances
  · simp only [hown, withHandler, hm]
    rfl

/-- An event that is given to the chain is heard as the journal tells. -/
theorem dispatch_plays (host : Host W S H P) (payload : Payload S) (v : Visit W S H P) :
    v.session.Plays host (dispatch host payload v).2.session := by
  obtain ⟨hearings, hh⟩ := hearAll_hears host v.links payload
    (v.opened fun h st => .raised h st payload)
  obtain ⟨own, hown⟩ := reattached_eq v.descriptor.handler
    (hearAll host v.links payload (v.opened fun h st => .raised h st payload))
  have hbegun : v.session.Plays host (v.opened fun h st => .raised h st payload).session :=
    .of_note rfl fun _ => .raised _ _ _
  rw [dispatch_apply]
  simp only [hown]
  exact hbegun.trans hh.plays

theorem hearFaultAll_descriptor (host : Host W S H P) (error : SocketError)
    (event : Option EventKind) (links : List (Link H)) :
    ∀ v : Visit W S H P, (hearFaultAll host error event links v).2.descriptor = v.descriptor := by
  induction links with
  | nil => intro v; rfl
  | cons link links ih =>
      intro v
      have hd : (hearFault host link error event v).2.descriptor = v.descriptor := rfl
      rw [hearFaultAll]
      rcases hx : hearFault host link error event v with ⟨p | e | _, t⟩
      all_goals rw [hx] at hd
      · rw [Step.bind_of_done hx, ih t]
        exact hd
      · rw [Step.bind_of_cut hx]
        exact hd
      · rw [Step.bind_of_crashed hx]
        exact hd

/-- A fault that is given to the chain is recorded, and then one deed for each hook reached. The
hooks can change nothing of the descriptor. -/
theorem dispatchFault_advances (host : Host W S H P) (error : SocketError)
    (event : Option EventKind) (v : Visit W S H P) :
    ∃ hearings, (∀ deed ∈ hearings, deed.IsHearing host v.descriptor.handle) ∧
      v.session.Advances (.reported v.descriptor.handle v.descriptor.standing error event :: hearings)
        (dispatchFault host error event v).2.session ∧
      ∃ own, (dispatchFault host error event v).2.descriptor =
        { v.descriptor with handler := own } := by
  obtain ⟨hearings, hh⟩ := hearFaultAll_hears host error event v.links
    (v.opened fun h st => .reported h st error event)
  have hd := hearFaultAll_descriptor host error event v.links
    (v.opened fun h st => .reported h st error event)
  rw [dispatchFault_apply]
  obtain ⟨own, hown⟩ := reattached_eq v.descriptor.handler
    (hearFaultAll host error event v.links (v.opened fun h st => .reported h st error event))
  refine ⟨hearings, hh.hearings, ?_, own, ?_⟩
  · simp only [hown]
    exact (v.advances_begun (fun h st => .reported h st error event) rfl).trans hh.advances
  · simp only [hown, withHandler, hd]
    rfl

theorem dispatchFault_plays (host : Host W S H P) (error : SocketError)
    (event : Option EventKind) (v : Visit W S H P) :
    v.session.Plays host (dispatchFault host error event v).2.session := by
  obtain ⟨hearings, hh⟩ := hearFaultAll_hears host error event v.links
    (v.opened fun h st => .reported h st error event)
  obtain ⟨own, hown⟩ := reattached_eq v.descriptor.handler
    (hearFaultAll host error event v.links (v.opened fun h st => .reported h st error event))
  have hbegun : v.session.Plays host (v.opened fun h st => .reported h st error event).session :=
    .of_note rfl fun _ => .reported _ _ _ _
  rw [dispatchFault_apply]
  simp only [hown]
  exact hbegun.trans hh.plays

/-- What every hook keeps of the metadata, the hooks keep together, however they end. -/
theorem hearAll_metadata {I : Metadata → Prop}
    (hI : ∀ (v : Visit W S H P) payload link, I v.descriptor.metadata →
      I (v.askAbout host payload link).2.metadata) (links : List (Link H)) :
    ∀ {payload : Payload S} {v : Visit W S H P}, I v.descriptor.metadata →
      I (hearAll host links payload v).2.descriptor.metadata := by
  induction links with
  | nil => exact fun hv => hv
  | cons link links ih =>
      intro payload v hv
      have hone : I (hear host link payload v).2.descriptor.metadata := hI v payload link hv
      rw [hearAll]
      rcases hx : hear host link payload v with ⟨p | e | _, t⟩
      all_goals rw [hx] at hone
      · rw [Step.bind_of_done hx]
        exact ih hone
      · rw [Step.bind_of_cut hx]
        exact hone
      · rw [Step.bind_of_crashed hx]
        exact hone

/-- What every hook keeps of the metadata, a dispatch keeps, however it ends. -/
theorem dispatch_metadata {I : Metadata → Prop}
    (hI : ∀ (v : Visit W S H P) payload link, I v.descriptor.metadata →
      I (v.askAbout host payload link).2.metadata) (payload : Payload S) {v : Visit W S H P}
    (hv : I v.descriptor.metadata) : I (dispatch host payload v).2.descriptor.metadata := by
  rw [dispatch_apply]
  obtain ⟨own, hown⟩ := reattached_eq v.descriptor.handler
    (hearAll host v.links payload (v.opened fun h st => .raised h st payload))
  simp only [hown]
  have hopened : I (v.opened fun h st => .raised h st payload).descriptor.metadata := hv
  exact hearAll_metadata hI v.links hopened

/-- What every hook keeps of the payload and the metadata, the hooks keep together. -/
theorem hearAll_keeps {I : Payload S → Metadata → Prop}
    (hI : ∀ (v : Visit W S H P) payload link, I payload v.descriptor.metadata →
      I (v.askAbout host payload link).2.payload (v.askAbout host payload link).2.metadata)
    (links : List (Link H)) :
    ∀ {payload payload' : Payload S} {v x : Visit W S H P}, I payload v.descriptor.metadata →
      hearAll host links payload v = (.done payload', x) → I payload' x.descriptor.metadata := by
  induction links with
  | nil =>
      rintro payload payload' v x hv ⟨⟩
      exact hv
  | cons link links ih =>
      intro payload payload' v x hv hx
      obtain ⟨payload₁, u, hfirst, hrest⟩ := Step.done_of_bind hx
      have hkept := hI v payload link hv
      refine ih ?_ hrest
      rcases hr : v.askAbout host payload link with ⟨policy, r⟩
      rw [hr] at hkept
      simp only [hear, hr] at hfirst
      rcases hverdict : r.verdict with _ | _ | _
      all_goals rw [hverdict] at hfirst
      all_goals cases hfirst
      exact hkept

/-- What every hook keeps of the payload and the metadata, a dispatch keeps. -/
theorem dispatch_keeps {I : Payload S → Metadata → Prop}
    (hI : ∀ (v : Visit W S H P) payload link, I payload v.descriptor.metadata →
      I (v.askAbout host payload link).2.payload (v.askAbout host payload link).2.metadata)
    {payload payload' : Payload S} {v x : Visit W S H P} (hv : I payload v.descriptor.metadata)
    (hx : dispatch host payload v = (.done payload', x)) : I payload' x.descriptor.metadata := by
  rw [dispatch_apply] at hx
  dsimp only at hx
  rcases hh : hearAll host v.links payload (v.opened fun h st => .raised h st payload)
    with ⟨p | (e | e) | _, t⟩
  all_goals rw [hh] at hx
  · have hopened : I payload (v.opened fun h st => .raised h st payload).descriptor.metadata := hv
    have hkept : I p t.descriptor.metadata := hearAll_keeps hI v.links hopened hh
    obtain rfl := congrArg Prod.snd hx
    have hp := congrArg Prod.fst hx
    simp only [dispatchEnding] at hp
    split at hp
    · cases hp
    · cases hp
      exact hkept
  all_goals cases hx

end Visit

end Reactor
