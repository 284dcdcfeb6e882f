import Reactor.Proofs.Run.Heeding
import Reactor.Run.Disconnect

/-! The work on a socket heeds the hooks: it serves nobody after one of them has asked for a stop or
failed the run, whatever else goes wrong. The last words to a socket are said in any case. -/

namespace Reactor

variable {W S H P : Type} {host : Host W S H P}

/-! ## A dispatch -/

namespace Visit

open Step

theorem hear_idles (link : Link H) (payload : Payload S) : Idles (hear host link payload) := by
  refine idles_of_calm fun v => ?_
  rcases hr : v.askAbout host payload link with ⟨policy, r⟩
  refine ⟨[.heard v.descriptor.handle link r.requests r.verdict], ?_, by simp [Deed.service?], ?_⟩
  · simp only [hear, hr]
    exact v.session.proceeds_absorb v.descriptor.handle link policy r.toReaction
  · simp only [hear, hr]
    rcases r.verdict with _ | (_ | text) | _ <;>
      simp [Surfaces, fatals, Deed.fatal?, Ending.map, Failure.fatal?, Failure.halt?, Halt.fatal?]

theorem hearFault_idles (link : Link H) (error : SocketError) (event : Option EventKind) :
    Idles (hearFault host link error event) := by
  refine idles_of_calm fun v => ?_
  rcases hr : v.askAboutFault host ⟨v.descriptor, error, event⟩ link with ⟨policy, r⟩
  refine ⟨[.heard v.descriptor.handle link r.requests r.verdict], ?_, by simp [Deed.service?], ?_⟩
  · simp only [hearFault, hr]
    exact v.session.proceeds_absorb v.descriptor.handle link policy r
  · simp only [hearFault, hr]
    rcases r.verdict with _ | (_ | text) | _ <;>
      simp [Surfaces, fatals, Deed.fatal?, Failure.fatal?, Failure.halt?, Halt.fatal?]

theorem hearAll_idles (host : Host W S H P) (links : List (Link H)) :
    ∀ payload : Payload S, Idles (hearAll host links payload) := by
  induction links with
  | nil => exact fun payload => idles_pure payload
  | cons link links ih => exact fun payload => (hear_idles link payload).bind ih

theorem hearFaultAll_idles (host : Host W S H P) (error : SocketError) (event : Option EventKind)
    (links : List (Link H)) : Idles (hearFaultAll host error event links) := by
  induction links with
  | nil => exact idles_pure ()
  | cons link links ih => exact (hearFault_idles link error event).bind fun _ => ih

/-- A hook that fails the run is the last one that is asked. -/
theorem hear_prompt (link : Link H) (payload : Payload S) : Prompt (hear host link payload) := by
  intro v _
  rcases hr : v.askAbout host payload link with ⟨policy, r⟩
  refine ⟨[.heard v.descriptor.handle link r.requests r.verdict], ?_, ?_⟩
  · simp only [hear, hr]
    exact v.session.proceeds_absorb v.descriptor.handle link policy r.toReaction
  · simp only [hear, hr]
    rcases r.verdict with _ | (_ | text) | _
    · trivial
    · trivial
    · exact ⟨[], _, rfl, rfl⟩
    · trivial

theorem hearFault_prompt (link : Link H) (error : SocketError) (event : Option EventKind) :
    Prompt (hearFault host link error event) := by
  intro v _
  rcases hr : v.askAboutFault host ⟨v.descriptor, error, event⟩ link with ⟨policy, r⟩
  refine ⟨[.heard v.descriptor.handle link r.requests r.verdict], ?_, ?_⟩
  · simp only [hearFault, hr]
    exact v.session.proceeds_absorb v.descriptor.handle link policy r
  · simp only [hearFault, hr]
    rcases r.verdict with _ | (_ | text) | _
    · trivial
    · trivial
    · exact ⟨[], _, rfl, rfl⟩
    · trivial

theorem hearAll_prompt (host : Host W S H P) (links : List (Link H)) :
    ∀ payload : Payload S, Prompt (hearAll host links payload) := by
  induction links with
  | nil => exact fun payload => prompt_of_same (fun _ => rfl) fun _ => rfl
  | cons link links ih =>
      exact fun payload => (hear_prompt link payload).bind (hear_idles link payload) ih

theorem hearFaultAll_prompt (host : Host W S H P) (error : SocketError)
    (event : Option EventKind) (links : List (Link H)) :
    Prompt (hearFaultAll host error event links) := by
  induction links with
  | nil => exact prompt_of_same (fun _ => rfl) fun _ => rfl
  | cons link links ih =>
      exact (hearFault_prompt link error event).bind (hearFault_idles link error event) fun _ => ih

/-- What it takes to give something to the chain: the deed that says so, and then the hooks. -/
theorem proceeds_opened (v : Visit W S H P) (deed : SocketHandle → Standing → Deed S H)
    (hd : (deed v.descriptor.handle v.descriptor.standing).requests = []) :
    v.session.Proceeds [deed v.descriptor.handle v.descriptor.standing]
      (v.opened deed).session := by
  have h := v.session.proceeds_note v.session.world false
    (deed v.descriptor.handle v.descriptor.standing) hd
  exact ⟨h.journal, h.executing, h.stopping, h.stop⟩

theorem session_reattached {ε α : Type} (own : Option H) (r : Ending ε α × Visit W S H P) :
    (reattached own r).session = r.2.session := by
  obtain ⟨own', h⟩ := reattached_eq own r
  rw [h]
  rfl

theorem surfaces_dispatchEnding {deeds : List (Deed S H)} {kind : EventKind} {stop : Bool}
    {ending : Ending HandlerError (Payload S)} (h : Surfaces deeds ending) :
    Surfaces deeds (dispatchEnding kind stop ending) := by
  rcases ending with p | (e | text) | _
  · intro _
    rw [h.nil_of_done, dispatchEnding]
    split <;> rfl
  · exact fun _ => h (by simp)
  · exact fun _ => h (by simp)
  · exact fun hne => absurd rfl hne

theorem surfaces_reportEnding {deeds : List (Deed S H)} {stop : Bool}
    {ending : Ending HandlerError Unit} (h : Surfaces deeds ending) :
    Surfaces deeds (reportEnding stop ending) := by
  have hchecked : (if stop then .cut .stop else .done () : Ending Halt Unit).fatal? = none := by
    split <;> rfl
  rcases ending with p | (e | text) | _
  · exact fun _ => (h (by simp)).trans hchecked.symm
  · exact fun _ => (h (by simp)).trans hchecked.symm
  · exact fun _ => h (by simp)
  · exact fun hne => absurd rfl hne

/-- A stop that is due has been asked for. -/
theorem stopRequested_of_due {s : Session W S H P} (h : s.stopDue = true) :
    s.context.control.stopRequested = true := by
  simp only [Session.stopDue, Bool.and_eq_true] at h
  exact h.2

theorem explains_dispatchEnding {deeds : List (Deed S H)} {s : Session W S H P} {kind : EventKind}
    {ending : Ending HandlerError (Payload S)} (h : Explains deeds s ending.halt?) :
    Explains deeds s (dispatchEnding kind s.stopDue ending).halt? := by
  rcases ending with p | (e | text) | _
  · rw [dispatchEnding]
    split
    · rename_i hs
      exact stopRequested_of_due hs
    · trivial
  · trivial
  · exact h
  · trivial

theorem explains_reportEnding {deeds : List (Deed S H)} {s : Session W S H P}
    {ending : Ending HandlerError Unit} (h : Explains deeds s ending.halt?) :
    Explains deeds s (reportEnding s.stopDue ending).halt? := by
  have hchecked : Explains deeds s
      (if s.stopDue then .cut .stop else .done () : Ending Halt Unit).halt? := by
    split
    · rename_i hs
      exact stopRequested_of_due hs
    · trivial
  rcases ending with p | (e | text) | _
  · exact hchecked
  · exact hchecked
  · exact h
  · trivial

theorem dispatch_prompt (payload : Payload S) : Prompt (dispatch host payload) := by
  intro v hv
  have hopened := v.proceeds_opened (fun h st => .raised h st payload) rfl
  obtain ⟨hearings, hp, hx⟩ := hearAll_prompt host v.links payload
    (v.opened fun h st => .raised h st payload) (hopened.executing.trans hv)
  rw [dispatch_apply]
  simp only [HasSession.session, session_reattached]
  exact ⟨_, hopened.trans hp, explains_dispatchEnding (hx.after rfl)⟩

theorem dispatchFault_prompt (error : SocketError) (event : Option EventKind) :
    Prompt (dispatchFault host error event) := by
  intro v hv
  have hopened := v.proceeds_opened (fun h st => .reported h st error event) rfl
  obtain ⟨hearings, hp, hx⟩ := hearFaultAll_prompt host error event v.links
    (v.opened fun h st => .reported h st error event) (hopened.executing.trans hv)
  rw [dispatchFault_apply]
  simp only [HasSession.session, session_reattached]
  exact ⟨_, hopened.trans hp, explains_reportEnding (hx.after rfl)⟩

/-- An event is recorded, and then what the hooks do. A value says that no stop is due. -/
theorem dispatch_proceeds (host : Host W S H P) (payload : Payload S) {v : Visit W S H P}
    (hv : v.session.context.control.executing = true) : ∃ hearings : List (Deed S H),
      v.session.Proceeds (.raised v.descriptor.handle v.descriptor.standing payload :: hearings)
        (dispatch host payload v).2.session ∧ (∀ deed ∈ hearings, deed.service? = none) ∧
      Surfaces hearings (dispatch host payload v).1 ∧
      ∀ a, (dispatch host payload v).1 = .done a →
        (dispatch host payload v).2.session.stopDue = false := by
  have hopened := v.proceeds_opened (fun h st => .raised h st payload) rfl
  obtain ⟨hearings, hp, hidle, hsurf⟩ := hearAll_idles host v.links payload
    (v.opened fun h st => .raised h st payload) (hopened.executing.trans hv)
  rw [dispatch_apply]
  dsimp only
  rw [session_reattached]
  refine ⟨hearings, hopened.trans hp, hidle, surfaces_dispatchEnding hsurf, fun a ha => ?_⟩
  rcases hr : (hearAll host v.links payload (v.opened fun h st => .raised h st payload)).1
    with p | (e | text) | _
  all_goals
    rw [hr] at ha
    simp only [dispatchEnding] at ha
  · split at ha
    · cases ha
    · rename_i hs
      simpa using hs
  all_goals cases ha

/-- A fault is recorded, and then what the hooks do. A value says that no stop is due. -/
theorem dispatchFault_proceeds (host : Host W S H P) (error : SocketError)
    (event : Option EventKind) {v : Visit W S H P}
    (hv : v.session.context.control.executing = true) :
    ∃ hearings : List (Deed S H), v.session.Proceeds
        (.reported v.descriptor.handle v.descriptor.standing error event :: hearings)
        (dispatchFault host error event v).2.session ∧
      (∀ deed ∈ hearings, deed.service? = none) ∧
      Surfaces hearings (dispatchFault host error event v).1 ∧
      ∀ a, (dispatchFault host error event v).1 = .done a →
        (dispatchFault host error event v).2.session.stopDue = false := by
  have hopened := v.proceeds_opened (fun h st => .reported h st error event) rfl
  obtain ⟨hearings, hp, hidle, hsurf⟩ := hearFaultAll_idles host error event v.links
    (v.opened fun h st => .reported h st error event) (hopened.executing.trans hv)
  rw [dispatchFault_apply]
  dsimp only
  rw [session_reattached]
  refine ⟨hearings, hopened.trans hp, hidle, surfaces_reportEnding hsurf, fun a ha => ?_⟩
  have hchecked : ∀ {stop : Bool}, (if stop then .cut .stop else .done () : Ending Halt Unit) =
      .done a → stop = false := by
    intro stop h
    cases stop with
    | true => cases h
    | false => rfl
  rcases hr : (hearFaultAll host error event v.links
    (v.opened fun h st => .reported h st error event)).1 with p | (e | text) | _
  all_goals rw [hr] at ha
  · exact hchecked ha
  · exact hchecked ha
  · cases ha
  · cases ha

/-- In an active session, a stop that is not due has not been asked for. -/
theorem stopRequested_of_not_due {s : Session W S H P} (hs : s.Active) (h : s.stopDue = false) :
    s.context.control.stopRequested = false := by
  simpa [Session.stopDue, hs.2] using h

theorem dispatch_heeds (payload : Payload S) : Heeds (dispatch host payload) := by
  intro v hv
  obtain ⟨hearings, hp, hidle, hsurf, hdone⟩ := dispatch_proceeds host payload hv.1
  have hraised : Heeded [(Deed.raised v.descriptor.handle v.descriptor.standing payload :
      Deed S H)] := List.pairwise_singleton _ _
  obtain ⟨deeds, hp', hexplains⟩ := dispatch_prompt payload v hv.1
  rw [hp.unique hp'] at hexplains
  refine ⟨_, hp, ?_, hsurf, fun a ha => ?_, hexplains⟩
  · exact hraised.append (heeded_of_idle hidle) (.inr hidle)
  · rw [ha] at hsurf
    have hcalm : fatals hearings = [] := hsurf.nil_of_done
    exact hp.calm hv.1 (stopRequested_of_not_due (hv.proceeds hp) (hdone a ha)) hcalm

/-- An event that is not about service. -/
theorem dispatch_idles {payload : Payload S} (hc : payload.kind ≠ .connected)
    (ht : payload.kind.isTraffic = false) : Idles (dispatch host payload) := by
  intro v hv
  obtain ⟨hearings, hp, hidle, hsurf, -⟩ := dispatch_proceeds host payload hv
  refine ⟨_, hp, fun deed hd => ?_, hsurf⟩
  rcases List.mem_cons.1 hd with rfl | hd
  · exact if_neg (by simp [hc, ht])
  · exact hidle deed hd

theorem dispatchFault_idles (error : SocketError) (event : Option EventKind) :
    Idles (dispatchFault host error event) := by
  intro v hv
  obtain ⟨hearings, hp, hidle, hsurf, -⟩ := dispatchFault_proceeds host error event hv
  refine ⟨_, hp, fun deed hd => ?_, hsurf⟩
  rcases List.mem_cons.1 hd with rfl | hd
  · rfl
  · exact hidle deed hd

theorem dispatchFault_checks (error : SocketError) (event : Option EventKind) :
    ChecksStop (dispatchFault host error event) := by
  intro v hv a ha
  obtain ⟨hearings, hp, -, -, hdone⟩ :=
    dispatchFault_proceeds host error event hv.1
  exact stopRequested_of_not_due (hv.proceeds hp) (hdone a ha)

/-! ## The work on a socket -/

section Work

variable {ε : Type} [Failure ε]

theorem modifyDescriptor_heeds (f : Descriptor S H → Descriptor S H) :
    Heeds (modifyDescriptor f : Step (Visit W S H P) ε Unit) :=
  heeds_of_same (fun _ => rfl) fun _ => rfl

theorem getDescriptor_heeds : Heeds (getDescriptor : Step (Visit W S H P) ε _) :=
  heeds_of_same (fun _ => rfl) fun _ => rfl

theorem callSocket_heeds {α : Type} (call : W → S → SocketAnswer W S α)
    (record : Ending SocketError α → SocketCall) :
    Heeds (callSocket call record : Step (Visit W S H P) SocketError α) := by
  refine heeds_of_calm fun v => ⟨_, v.session.proceeds_note _ _ _ rfl, ?_, ?_⟩
  · intro deed hd
    obtain rfl := List.mem_singleton.1 hd
    rfl
  · rcases (callSocket call record v).1 with _ | _ | _ <;> rfl

theorem dismiss_heeds (client : S) :
    Heeds (dismiss host client : Step (Visit W S H P) ε Unit) := by
  refine heeds_of_calm fun v => ⟨_, v.session.proceeds_note _ false _ rfl, ?_, rfl⟩
  intro deed hd
  obtain rfl := List.mem_singleton.1 hd
  rfl

/-- A read involves no hook. -/
theorem readSocket_heeds (r : ReadOperation) :
    Heeds ((readSocket host r).attempt : Step (Visit W S H P) ε _) := by
  refine heeds_attempt_of_calm fun v => ⟨_, v.session.proceeds_note _ _ _ rfl, ?_⟩
  intro deed hd
  obtain rfl := List.mem_singleton.1 hd
  rfl

theorem unlessComplete_heeds {work : Step (Visit W S H P) ε Unit} (h : Heeds work) :
    Heeds (unlessComplete work) := by
  refine getDescriptor_heeds.bind fun d => ?_
  split
  · exact heeds_pure ()
  · exact h

end Work

theorem fail_idles (error : SocketError) (event : Option EventKind) :
    Idles (fail host error event) := by
  refine (dispatchFault_idles error event).attempt_bind (fun _ => ?_) fun halt => ?_
  · exact idles_of_same (fun _ => rfl) fun _ => rfl
  · exact (yields_of_cut halt (fun _ => ⟨rfl, rfl⟩) rfl).idles

theorem fail_checks (error : SocketError) (event : Option EventKind) :
    ChecksStop (fail host error event) :=
  (dispatchFault_checks error event).attempt_bind (fun _ _ => rfl) fun _ _ _ h => by cases h

theorem fail_prompt (error : SocketError) (event : Option EventKind) :
    Prompt (fail host error event) := by
  refine (dispatchFault_prompt error event).attempt_bind (dispatchFault_idles error event)
    (fun _ => ?_) fun halt => ?_
  · exact prompt_of_same (fun _ => rfl) fun _ => rfl
  · exact (yields_of_cut halt (fun _ => ⟨rfl, rfl⟩) rfl).relays

/-- A stop that was asked for while a socket was worked on is observed, also if the socket fails. -/
theorem settle_heeds {work : Step (Visit W S H P) Interrupt Unit} (h : Heeds work) :
    Heeds (settle host work) := by
  refine h.attempt_bind heeds_pure fun e => ?_
  cases e with
  | fault error event =>
      refine ⟨fail_idles error event, fail_checks error event, fun _ hh => ?_, fun _ => ?_⟩
      · cases hh
      · exact fail_prompt error event
  | halt halt => exact yields_cut halt rfl

theorem connect_heeds : Heeds (connect host) := by
  refine getDescriptor_heeds.bind fun d => ?_
  split
  · exact heeds_pure ()
  refine (modifyDescriptor_heeds _).bind fun _ => heeds_get.bind fun v => ?_
  split
  · exact heeds_pure ()
  split
  · exact heeds_cut rfl
  · exact callSocket_heeds _ _

theorem connectOrFail_heeds : Heeds (connectOrFail host) :=
  settle_heeds (connect_heeds.mapCut fun _ => rfl)

theorem ensureConnected_heeds : Heeds (ensureConnected host) := by
  refine getDescriptor_heeds.bind fun d => ?_
  split
  · exact heeds_pure true
  refine (Heeds.mapCut (f := (Interrupt.fault · none)) (callSocket_heeds _ _) fun _ => rfl).bind
    fun established => ?_
  split
  · refine (modifyDescriptor_heeds _).bind fun _ => ?_
    exact (dispatch_heeds .connected).bind fun _ => heeds_pure _
  · exact heeds_pure _

theorem welcome_heeds (client : S) (address : String) : Heeds (welcome host client address) := by
  refine (dispatch_heeds _).attempt_bind (fun payload => ?_) fun interrupt => ?_
  · refine (modifyDescriptor_heeds _).bind fun _ => ?_
    dsimp only
    split
    · exact dismiss_heeds _
    · exact heeds_pure ()
  · exact yields_of_cut interrupt (fun _ => ⟨rfl, rfl⟩) rfl

theorem finishRead_heeds (outcome : Except SocketError (ReadOutcome S)) :
    Heeds (finishRead host outcome) := by
  rcases outcome with error | (snapshot | frame | ⟨client, address⟩)
  · cases error with
    | accept cause =>
        have hreport : Heeds (dispatchFault host (.accept cause) none) :=
          (dispatchFault_idles _ none).heeds (dispatchFault_checks _ none)
            (dispatchFault_prompt _ none)
        exact (Heeds.mapCut (f := Interrupt.halt) hreport fun _ => rfl).bind
          fun _ => modifyDescriptor_heeds _
    | _ => exact heeds_cut rfl
  · exact modifyDescriptor_heeds _
  · refine (modifyDescriptor_heeds _).bind fun _ => ?_
    exact (dispatch_heeds _).bind fun payload => modifyDescriptor_heeds _
  · exact welcome_heeds client address

theorem serveRead_heeds : Heeds (serveRead host) := by
  refine ensureConnected_heeds.bind fun connected => ?_
  split
  · refine getDescriptor_heeds.bind fun d => ?_
    split
    · refine (modifyDescriptor_heeds _).bind fun _ => ?_
      exact (readSocket_heeds _).bind fun outcome => finishRead_heeds outcome
    · exact heeds_pure ()
  · exact heeds_pure ()

theorem writeSocket_heeds (data : Bytes) (outOfBand : Bool) :
    Heeds (writeSocket host data outOfBand) :=
  (callSocket_heeds _ _).mapCut fun _ => rfl

theorem flush_heeds (backlog : WriteBacklog) : Heeds (flush host backlog) := by
  refine (modifyDescriptor_heeds _).bind fun _ => (modifyDescriptor_heeds _).bind fun _ => ?_
  refine (writeSocket_heeds _ _).bind fun written => ?_
  dsimp only
  split <;> exact modifyDescriptor_heeds _

theorem writePayload_heeds (next : Option Operation) : Heeds (writePayload host next) := by
  refine (modifyDescriptor_heeds _).bind fun _ => getDescriptor_heeds.bind fun d => ?_
  split
  · rename_i w _
    have hfinish : ∀ written : Nat, Heeds (if written < w.data.length then
          modifyDescriptor fun d =>
            { d with backlog := some ⟨w.data.drop written, w.outOfBand, next⟩ }
        else modifyDescriptor (·.adoptNext next) : Step (Visit W S H P) Interrupt Unit) := by
      intro written
      split <;> exact modifyDescriptor_heeds _
    dsimp only
    split
    · exact (writeSocket_heeds _ _).bind hfinish
    · exact (heeds_pure 0).bind hfinish
  · exact modifyDescriptor_heeds _

theorem announceWrite_heeds (w : WriteOperation) : Heeds (announceWrite host w) := by
  refine (modifyDescriptor_heeds _).bind fun _ => (dispatch_heeds _).bind fun payload => ?_
  split
  · exact unlessComplete_heeds ((modifyDescriptor_heeds _).bind fun _ => writePayload_heeds _)
  · exact heeds_pure ()

theorem serveWrite_heeds : Heeds (serveWrite host) := by
  refine ensureConnected_heeds.bind fun connected => ?_
  split
  · refine getDescriptor_heeds.bind fun d => ?_
    split
    · exact flush_heeds _
    · exact announceWrite_heeds _
    · exact heeds_pure ()
  · exact heeds_pure ()

/-! ## The last words to a socket -/

theorem close_idles {ε : Type} [Failure ε] :
    Idles (close host : Step (Visit W S H P) ε Unit) := by
  refine idles_of_calm fun v => ⟨_, v.session.proceeds_note _ false _ rfl, ?_, fun _ => rfl⟩
  intro deed hd
  obtain rfl := List.mem_singleton.1 hd
  rfl

theorem notify_idles {payload : Payload S} (hc : payload.kind ≠ .connected)
    (ht : payload.kind.isTraffic = false) : Idles (notify host payload) := by
  refine (dispatch_idles hc ht).attempt_bind (fun _ => idles_pure ()) fun e => ?_
  rcases e with ⟨error, event⟩ | (_ | text)
  · refine (dispatchFault_idles error event).attempt_bind (fun _ => idles_pure ()) fun e => ?_
    cases e with
    | stop => exact idles_pure ()
    | fatal text => exact (yields_cut (Halt.fatal text) rfl).idles
  · exact idles_pure ()
  · exact (yields_cut (Halt.fatal text) rfl).idles

end Visit

end Reactor
