import Reactor.Proofs.Run.Work
import Reactor.Run.Disconnect

/-! What the journal gains while a socket is worked on and while leave is taken of it. -/

namespace Reactor

variable {W S H P : Type} {host : Host W S H P}

def Deed.IsWork (host : Host W S H P) (h : SocketHandle) (running : Bool) : Deed S H → Prop
  | .called k st _ => k = h ∧ st.running = running
  | .raised k st payload =>
      k = h ∧ st.running = running ∧ (payload.kind = .connected ∨ payload.kind.isTraffic = true)
  | .reported k st _ _ => k = h ∧ st.running = running
  | .heard k _ requests _ => k = h ∧ host.CanRequest requests
  | .dismissed k => k = h
  | _ => False

theorem Deed.IsHearing.isWork {h : SocketHandle} {running : Bool} {deed : Deed S H}
    (hd : deed.IsHearing host h) : deed.IsWork host h running := by
  cases deed with
  | heard => exact hd
  | _ => exact hd.elim

namespace Visit

/-- Work was done on the visited socket, as the deeds tell. -/
structure Worked (host : Host W S H P) (deeds : List (Deed S H)) (v v' : Visit W S H P) :
    Prop where
  advances : v.session.Advances deeds v'.session
  work : ∀ deed ∈ deeds, deed.IsWork host v.descriptor.handle v.descriptor.running
  handle : v'.descriptor.handle = v.descriptor.handle
  running : v'.descriptor.running = v.descriptor.running

theorem Worked.trans {deeds more : List (Deed S H)} {v v' v'' : Visit W S H P}
    (h : v.Worked host deeds v') (h' : v'.Worked host more v'') :
    v.Worked host (deeds ++ more) v'' := by
  refine ⟨h.advances.trans h'.advances, ?_, h'.handle.trans h.handle, h'.running.trans h.running⟩
  intro deed hdeed
  rcases List.mem_append.1 hdeed with hd | hd
  · exact h.work deed hd
  · have := h'.work deed hd
    rwa [h.handle, h.running] at this

theorem Quiet.worked {v v' : Visit W S H P} (h : v.Quiet host v') :
    ∃ deeds, v.Worked host deeds v' := by
  cases h with
  | rework h => exact ⟨[], .refl _, by simp, h.handle, h.running⟩
  | call =>
      refine ⟨_, v.session.advances_note _ _ _ rfl, ?_, rfl, rfl⟩
      intro deed hd
      obtain rfl := List.mem_singleton.1 hd
      exact ⟨rfl, rfl⟩
  | dismiss =>
      refine ⟨_, v.session.advances_note _ false _ rfl, ?_, rfl, rfl⟩
      intro deed hd
      obtain rfl := List.mem_singleton.1 hd
      rfl

theorem worked_dispatch (host : Host W S H P) (v : Visit W S H P) (payload : Payload S)
    (hk : payload.kind = .connected ∨ payload.kind.isTraffic = true) :
    ∃ deeds, v.Worked host deeds (dispatch host payload v).2 := by
  obtain ⟨hearings, hh, hadv, m, own, hd⟩ := dispatch_advances host payload v
  refine ⟨_, hadv, ?_, by rw [hd], by rw [hd]⟩
  intro deed hdeed
  rcases List.mem_cons.1 hdeed with rfl | hdeed
  · exact ⟨rfl, rfl, hk⟩
  · exact (hh deed hdeed).isWork

theorem Move.worked {v v' : Visit W S H P} (h : v.Move host v') :
    ∃ deeds, v.Worked host deeds v' := by
  cases h with
  | quiet h => exact h.worked
  | announce h =>
      obtain ⟨deeds, hw⟩ := worked_dispatch host { v with
        descriptor := v.descriptor.mapMetadata fun m => { m with connectFinish := true } }
        .connected (.inl rfl)
      exact ⟨deeds, hw.advances, hw.work, hw.handle, hw.running⟩
  | raise payload hk _ => exact worked_dispatch host v payload (.inr hk)
  | report error event =>
      obtain ⟨hearings, hh, hadv, own, hd⟩ := dispatchFault_advances host error event v
      refine ⟨_, hadv, ?_, by rw [hd], by rw [hd]⟩
      intro deed hdeed
      rcases List.mem_cons.1 hdeed with rfl | hdeed
      · exact ⟨rfl, rfl⟩
      · exact (hh deed hdeed).isWork

theorem Moves.worked {v v' : Visit W S H P} (h : v.Moves host v') :
    ∃ deeds, v.Worked host deeds v' := by
  induction h with
  | refl => exact ⟨[], .refl _, by simp, rfl, rfl⟩
  | tail _ hmove ih =>
      obtain ⟨deeds, hd⟩ := ih
      obtain ⟨more, hm⟩ := hmove.worked
      exact ⟨_, hd.trans hm⟩

end Visit

theorem Step.Works.moves {ε α : Type} {x : Step (Visit W S H P) ε α} (h : Step.Works host x)
    (v : Visit W S H P) : v.Moves host (x v).2 := by
  obtain ⟨⟨t, hm, rfl | ⟨-, hc⟩⟩, -⟩ := h v trivial
  · exact hm
  · exact hc.elim

/-! ## Taking leave -/

/-- What is recorded while a socket is given a last event: the event, perhaps followed by a report
of the failure in which it ended. -/
inductive LastWord (host : Host W S H P) (h : SocketHandle) (running : Bool)
    (payload : Payload S) : List (Deed S H) → Prop where
  | heard {standing : Standing} {hearings : List (Deed S H)} (hr : standing.running = running)
      (hh : ∀ deed ∈ hearings, deed.IsHearing host h) :
      LastWord host h running payload (.raised h standing payload :: hearings)
  | failed {standing standing' : Standing} {hearings more : List (Deed S H)}
      (error : SocketError) (hr : standing.running = running)
      (hh : ∀ deed ∈ hearings, deed.IsHearing host h)
      (hm : ∀ deed ∈ more, deed.IsHearing host h) :
      LastWord host h running payload (.raised h standing payload ::
        (hearings ++ .reported h standing' error (some payload.kind) :: more))

/-- The deed is one of those with which a socket is given a last event. -/
def Deed.IsLast (host : Host W S H P) (h : SocketHandle) (kind : EventKind) : Deed S H → Prop
  | .raised k _ payload => k = h ∧ payload.kind = kind
  | .reported k _ _ event => k = h ∧ event = some kind
  | .heard k _ requests _ => k = h ∧ host.CanRequest requests
  | _ => False

theorem Deed.IsHearing.isLast {h : SocketHandle} {kind : EventKind} {deed : Deed S H}
    (hd : deed.IsHearing host h) : deed.IsLast host h kind := by
  cases deed with
  | heard => exact hd
  | _ => exact hd.elim

theorem LastWord.isLast {h : SocketHandle} {running : Bool} {payload : Payload S}
    {deeds : List (Deed S H)} (hw : LastWord host h running payload deeds) :
    ∀ deed ∈ deeds, deed.IsLast host h payload.kind := by
  intro deed hd
  cases hw with
  | heard _ hh =>
      rcases List.mem_cons.1 hd with rfl | hd
      · exact ⟨rfl, rfl⟩
      · exact (hh deed hd).isLast
  | failed error _ hh hm =>
      simp only [List.mem_cons, List.mem_append] at hd
      rcases hd with rfl | hd | rfl | hd
      · exact ⟨rfl, rfl⟩
      · exact (hh deed hd).isLast
      · exact ⟨rfl, rfl⟩
      · exact (hm deed hd).isLast

/-- What is recorded while leave is taken of a socket. Only one that was not announced may go
without a farewell. -/
inductive Leavetaking (host : Host W S H P) (d : Descriptor S H) : List (Deed S H) → Prop where
  | silent {finale : List (Deed S H)} (hd : d.metadata.connectFinish = false)
      (hf : LastWord host d.handle d.running .finalize finale) :
      Leavetaking host d (.closed d.handle :: finale)
  | told {farewell finale : List (Deed S H)}
      (hw : LastWord host d.handle d.running .disconnected farewell)
      (hf : LastWord host d.handle d.running .finalize finale) :
      Leavetaking host d (farewell ++ .closed d.handle :: finale)

/-- Whatever is recorded then is the closing of the socket, or comes of one of its last events. -/
theorem Leavetaking.closed_or_isLast {d : Descriptor S H} {deeds : List (Deed S H)}
    (hl : Leavetaking host d deeds) {deed : Deed S H} (hd : deed ∈ deeds) :
    deed = .closed d.handle ∨ ∃ kind : EventKind, (kind = .disconnected ∨ kind = .finalize) ∧
      deed.IsLast host d.handle kind := by
  cases hl with
  | silent _ hf =>
      rcases List.mem_cons.1 hd with rfl | hd
      · exact .inl rfl
      · exact .inr ⟨_, .inr rfl, hf.isLast deed hd⟩
  | told hw hf =>
      simp only [List.mem_append, List.mem_cons] at hd
      rcases hd with hd | rfl | hd
      · exact .inr ⟨_, .inl rfl, hw.isLast deed hd⟩
      · exact .inl rfl
      · exact .inr ⟨_, .inr rfl, hf.isLast deed hd⟩

namespace Visit

theorem dispatch_fault {payload : Payload S} {v : Visit W S H P} {error : SocketError}
    {event : Option EventKind} (h : (dispatch host payload v).1 = .cut (.fault error event)) :
    event = some payload.kind := by
  rw [dispatch_apply] at h
  revert h
  dsimp only
  rcases (hearAll host v.links payload (v.opened fun h st => .raised h st payload)).1
    with p | (e | e) | _
  · cases hs : (hearAll host v.links payload
      (v.opened fun h st => .raised h st payload)).2.session.stopDue <;> simp [dispatchEnding]
  · simp only [dispatchEnding, Ending.cut.injEq, Interrupt.fault.injEq]
    exact fun h => h.2.symm
  · simp [dispatchEnding]
  · simp [dispatchEnding]

def notifyEnding : Ending Halt Unit → Ending Halt Unit
  | .cut (.fatal text) => .cut (.fatal text)
  | .crashed => .crashed
  | _ => .done ()

/-- A last event is dispatched, and its failure reported. -/
theorem notify_apply (host : Host W S H P) (payload : Payload S) (v : Visit W S H P) :
    (∃ error, (dispatch host payload v).1 = .cut (.fault error (some payload.kind)) ∧
      notify host payload v =
        let r := dispatchFault host error (some payload.kind) (dispatch host payload v).2
        (notifyEnding r.1, r.2)) ∨
    ∃ ending, (∀ halt, ending = .cut halt → ∃ text, halt = .fatal text) ∧
      notify host payload v = (ending, (dispatch host payload v).2) := by
  rcases h : dispatch host payload v with ⟨p | (⟨error, event⟩ | (_ | text)) | _, t⟩
  · exact .inr ⟨.done (), by simp, by rw [notify, Step.bind_of_done (Step.attempt_of_done h)]; rfl⟩
  · have hcut : (dispatch host payload v).1 = .cut (.fault error event) := by rw [h]
    obtain rfl := dispatch_fault hcut
    refine .inl ⟨error, rfl, ?_⟩
    rw [notify, Step.bind_of_done (Step.attempt_of_cut h)]
    dsimp only
    rcases hf : dispatchFault host error (some payload.kind) t with ⟨u | (_ | text) | _, t'⟩
    · rw [Step.bind_of_done (Step.attempt_of_done hf)]; rfl
    · rw [Step.bind_of_done (Step.attempt_of_cut hf)]; rfl
    · rw [Step.bind_of_done (Step.attempt_of_cut hf)]; rfl
    · rw [Step.bind_of_crashed (Step.attempt_of_crashed hf)]; rfl
  · exact .inr ⟨.done (), by simp, by rw [notify, Step.bind_of_done (Step.attempt_of_cut h)]; rfl⟩
  · refine .inr ⟨.cut (.fatal text), ?_, ?_⟩
    · rintro halt ⟨⟩
      exact ⟨text, rfl⟩
    · rw [notify, Step.bind_of_done (Step.attempt_of_cut h)]; rfl
  · exact .inr ⟨.crashed, by simp,
      by rw [notify, Step.bind_of_crashed (Step.attempt_of_crashed h)]⟩

/-- Only a failure of the run cuts a notification short. -/
theorem notify_cut {payload : Payload S} {v : Visit W S H P} {halt : Halt}
    (h : (notify host payload v).1 = .cut halt) : ∃ text, halt = .fatal text := by
  rcases notify_apply host payload v with ⟨error, -, heq⟩ | ⟨ending, hend, heq⟩
  · rw [heq] at h
    dsimp only at h
    rcases hr : (dispatchFault host error (some payload.kind) (dispatch host payload v).2).1
      with u | (_ | text) | _
    all_goals rw [hr] at h
    all_goals cases h
    exact ⟨text, rfl⟩
  · rw [heq] at h
    exact hend halt h

/-- The same socket, except for its metadata and the handler of its own. -/
def Kin (v v' : Visit W S H P) : Prop :=
  ∃ m own, v'.descriptor = { v.descriptor with metadata := m, handler := own }

theorem notify_deeds (host : Host W S H P) (payload : Payload S) (v : Visit W S H P) :
    ∃ deeds, LastWord host v.descriptor.handle v.descriptor.running payload deeds ∧
      v.session.Advances deeds (notify host payload v).2.session ∧
      v.Kin (notify host payload v).2 := by
  obtain ⟨hearings, hh, hadv, m, own, hd⟩ := dispatch_advances host payload v
  rcases notify_apply host payload v with ⟨error, -, heq⟩ | ⟨ending, -, heq⟩
  · obtain ⟨more, hm, hadv', own', hd'⟩ := dispatchFault_advances host error
      (some payload.kind) (dispatch host payload v).2
    have hhandle : (dispatch host payload v).2.descriptor.handle = v.descriptor.handle := by
      rw [hd]
    rw [hhandle] at hm hadv'
    rw [heq]
    dsimp only
    refine ⟨_, LastWord.failed error ?_ hh hm, hadv.trans hadv', m, own', ?_⟩
    · rfl
    · rw [hd', hd]
  · rw [heq]
    exact ⟨_, .heard rfl hh, hadv, m, own, hd⟩

/-- Whether the visited socket is told of its disconnection. -/
def toldOff (host : Host W S H P) (v : Visit W S H P) : Bool :=
  v.descriptor.metadata.connectFinish || host.sockets.isOpen v.session.world v.descriptor.socket

/-- The part of taking leave that comes before the closing. -/
def farewell (host : Host W S H P) (v : Visit W S H P) : Ending Halt Unit × Visit W S H P :=
  if v.toldOff host then notify host .disconnected v else (.done (), v)

def closed (host : Host W S H P) (v : Visit W S H P) : Visit W S H P :=
  ((close host : Step (Visit W S H P) Halt Unit) v).2

/-- The part of taking leave that comes after the closing. -/
def finale (host : Host W S H P) (v : Visit W S H P) : Ending Halt Unit × Visit W S H P :=
  notify host .finalize ((v.farewell host).2.closed host)

/-- The failure that came first is the one that counts. -/
def leaveEnding : Ending Halt Unit → Ending Halt Unit → Ending Halt Unit
  | _, .crashed => .crashed
  | .cut halt, _ => .cut halt
  | _, ending => ending

theorem takeLeave_of_crashed {v : Visit W S H P} (h : (v.farewell host).1 = .crashed) :
    takeLeave host v = v.farewell host := by
  rcases hf : v.farewell host with ⟨ending, t⟩
  rw [hf] at h
  obtain rfl : ending = .crashed := h
  have hx : (if v.toldOff host then notify host .disconnected else pure ()) v =
      ((.crashed : Ending Halt Unit), t) := by
    rw [← hf, farewell]
    split <;> rfl
  rw [takeLeave, Step.get_bind]
  refine (Step.bind_of_crashed (Step.attempt_of_crashed hx)).trans ?_
  rfl

/-- Leave is taken in three parts, unless a crash ends it. -/
theorem takeLeave_apply {v : Visit W S H P} (h : (v.farewell host).1 ≠ .crashed) :
    takeLeave host v = (leaveEnding (v.farewell host).1 (v.finale host).1, (v.finale host).2) := by
  have hx : (if v.toldOff host then notify host .disconnected else pure ()) v =
      v.farewell host := by
    rw [farewell]
    split <;> rfl
  have hclose : ∀ t : Visit W S H P, (close host : Step _ Halt Unit) t = (.done (), t.closed host) :=
    fun _ => rfl
  rw [takeLeave, Step.get_bind, finale]
  rcases hf : v.farewell host with ⟨(_ | halt | _), t⟩
  · rw [hf] at hx
    refine (Step.bind_of_done (Step.attempt_of_done hx)).trans ?_
    rw [Step.bind_of_done (hclose t)]
    rcases hn : notify host .finalize (t.closed host) with ⟨(_ | halt | _), t'⟩
    · rw [Step.bind_of_done (Step.attempt_of_done hn)]; rfl
    · rw [Step.bind_of_done (Step.attempt_of_cut hn)]; rfl
    · rw [Step.bind_of_crashed (Step.attempt_of_crashed hn)]; rfl
  · rw [hf] at hx
    refine (Step.bind_of_done (Step.attempt_of_cut hx)).trans ?_
    rw [Step.bind_of_done (hclose t)]
    rcases hn : notify host .finalize (t.closed host) with ⟨(_ | halt | _), t'⟩
    · rw [Step.bind_of_done (Step.attempt_of_done hn)]; rfl
    · rw [Step.bind_of_done (Step.attempt_of_cut hn)]; rfl
    · rw [Step.bind_of_crashed (Step.attempt_of_crashed hn)]; rfl
  · exact absurd (by rw [hf]) h

theorem advances_closed (host : Host W S H P) (v : Visit W S H P) :
    v.session.Advances [.closed v.descriptor.handle] (v.closed host).session :=
  v.session.advances_note _ false _ rfl

theorem finale_deeds (host : Host W S H P) (v : Visit W S H P) (hk : v.Kin (v.farewell host).2) :
    ∃ deeds, LastWord host v.descriptor.handle v.descriptor.running .finalize deeds ∧
      (v.farewell host).2.session.Advances (.closed v.descriptor.handle :: deeds)
        (v.finale host).2.session := by
  obtain ⟨m, own, hd⟩ := hk
  obtain ⟨deeds, hw, hadv, -⟩ :=
    notify_deeds host .finalize ((v.farewell host).2.closed host)
  have hc := advances_closed host (v.farewell host).2
  have hhandle : ((v.farewell host).2.closed host).descriptor.handle = v.descriptor.handle := by
    show (v.farewell host).2.descriptor.handle = _
    rw [hd]
  have hrunning : ((v.farewell host).2.closed host).descriptor.running = v.descriptor.running := by
    show (v.farewell host).2.descriptor.running = _
    rw [hd]
  rw [hhandle, hrunning] at hw
  rw [hd] at hc
  exact ⟨deeds, hw, hc.trans hadv⟩

/-- What taking leave adds to the journal. A crash may end it before the socket is closed. -/
theorem takeLeave_deeds (host : Host W S H P) (v : Visit W S H P) :
    ∃ deeds, v.session.Advances deeds (takeLeave host v).2.session ∧
      (Leavetaking host v.descriptor deeds ∨ (takeLeave host v).1 = .crashed ∧
        LastWord host v.descriptor.handle v.descriptor.running .disconnected deeds) := by
  by_cases ht : v.toldOff host = true
  · have hf : v.farewell host = notify host .disconnected v := if_pos ht
    obtain ⟨deeds, hw, hadv, hk⟩ := notify_deeds host .disconnected v
    rw [← hf] at hadv hk
    by_cases hc : (v.farewell host).1 = .crashed
    · rw [takeLeave_of_crashed hc]
      exact ⟨deeds, hadv, .inr ⟨hc, hw⟩⟩
    · obtain ⟨more, hm, hadv'⟩ := finale_deeds host v hk
      rw [takeLeave_apply hc]
      exact ⟨_, hadv.trans hadv', .inl (.told hw hm)⟩
  · have hf : v.farewell host = (.done (), v) := if_neg ht
    have hk : v.Kin (v.farewell host).2 := by
      rw [hf]
      exact ⟨_, _, rfl⟩
    obtain ⟨more, hm, hadv⟩ := finale_deeds host v hk
    rw [takeLeave_apply (by simp [hf])]
    rw [hf] at hadv
    refine ⟨_, hadv, .inl (.silent ?_ hm)⟩
    unfold toldOff at ht
    simp only [Bool.or_eq_true, not_or, Bool.not_eq_true] at ht
    exact ht.1

/-- Leave is taken in full, unless a handler fails the run. -/
theorem takeLeave_cut {v : Visit W S H P} {halt : Halt}
    (h : (takeLeave host v).1 = .cut halt) : ∃ text, halt = .fatal text := by
  by_cases hc : (v.farewell host).1 = .crashed
  · rw [takeLeave_of_crashed hc, hc] at h
    cases h
  have hfarewell : ∀ halt, (v.farewell host).1 = .cut halt → ∃ text, halt = .fatal text := by
    intro halt hf
    unfold farewell at hf
    split at hf
    · exact notify_cut hf
    · cases hf
  rw [takeLeave_apply hc] at h
  dsimp only at h
  rcases hg : (v.finale host).1 with u | halt' | _
  · rcases hf : (v.farewell host).1 with u' | halt' | _
    all_goals rw [hf, hg] at h
    all_goals cases h
    exact hfarewell _ hf
  · rcases hf : (v.farewell host).1 with u' | halt' | _
    all_goals rw [hf, hg] at h
    all_goals cases h
    · exact notify_cut hg
    · exact hfarewell _ hf
    · exact notify_cut hg
  · rw [hg] at h
    rcases hf : (v.farewell host).1 with u' | halt' | _
    all_goals rw [hf] at h
    all_goals cases h

end Visit

end Reactor
