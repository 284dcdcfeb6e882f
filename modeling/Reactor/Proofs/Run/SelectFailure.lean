import Reactor.Proofs.Run.Failing

/-! Where a selection fails: it is the last thing that is done in the ticks, and no other selection
fails in the whole run. -/

namespace Reactor

variable {W S H P : Type} {host : Host W S H P}

open Step

theorem Deed.exists_of_selectFails {deed : Deed S H} (hd : deed.selectFails = true) :
    ∃ interests error, deed = .selected interests (.error error) := by
  cases deed with
  | selected interests result =>
      cases result with
      | error error => exact ⟨interests, error, rfl⟩
      | ok ready => cases hd
  | _ => cases hd

theorem Deed.IsWork.selectFails {h : SocketHandle} {running : Bool} {deed : Deed S H}
    (hd : deed.IsWork host h running) : deed.selectFails = false := by
  cases deed with
  | selected => exact hd.elim
  | _ => rfl

theorem Deed.IsLast.selectFails {h : SocketHandle} {kind : EventKind} {deed : Deed S H}
    (hd : deed.IsLast host h kind) : deed.selectFails = false := by
  cases deed with
  | selected => exact hd.elim
  | _ => rfl

theorem Leavetaking.selectFails {d : Descriptor S H} {deeds : List (Deed S H)}
    (hl : Leavetaking host d deeds) : ∀ deed ∈ deeds, deed.selectFails = false := by
  intro deed hd
  obtain rfl | ⟨kind, -, hlast⟩ := hl.closed_or_isLast hd
  · rfl
  · exact hlast.selectFails

namespace Session

variable {s s' s'' : Session W S H P} {error : IoError}

/-- The session has gone on, and no selection has failed on the way. -/
def Unfailing (s s' : Session W S H P) : Prop :=
  ∃ deeds : List (Deed S H), s'.journal = s.journal ++ deeds ∧
    ∀ deed ∈ deeds, deed.selectFails = false

theorem Unfailing.of_same (h : s'.journal = s.journal) : s.Unfailing s' :=
  ⟨[], by rw [h, List.append_nil], by simp⟩

theorem Unfailing.of_note {deed : Deed S H} (h : s'.journal = s.journal ++ [deed])
    (hd : deed.selectFails = false) : s.Unfailing s' :=
  ⟨[deed], h, by simpa using hd⟩

theorem Unfailing.mem_iff (h : s.Unfailing s') {deed : Deed S H} (hd : deed.selectFails = true) :
    deed ∈ s'.journal ↔ deed ∈ s.journal := by
  obtain ⟨deeds, hj, hclear⟩ := h
  rw [hj, List.mem_append]
  refine ⟨fun hmem => hmem.resolve_right fun hnew => ?_, .inl⟩
  rw [hclear deed hnew] at hd
  cases hd

theorem Unfailing.trans (h : s.Unfailing s') (h' : s'.Unfailing s'') : s.Unfailing s'' := by
  obtain ⟨deeds, hj, hd⟩ := h
  obtain ⟨more, hj', hd'⟩ := h'
  refine ⟨deeds ++ more, by rw [hj', hj, List.append_assoc], fun deed hmem => ?_⟩
  exact (List.mem_append.1 hmem).elim (hd deed) (hd' deed)

/-- The session has gone on to a failed selection, and no other has failed on the way. -/
def FailsWith (error : IoError) (s s' : Session W S H P) : Prop :=
  ∃ m interests, s.Unfailing m ∧ s'.journal = m.journal ++ [.selected interests (.error error)]

theorem Unfailing.failsWith (h : s.Unfailing s') (hf : s'.FailsWith error s'') :
    s.FailsWith error s'' := by
  obtain ⟨m, interests, hm, hj⟩ := hf
  exact ⟨m, interests, h.trans hm, hj⟩

end Session

namespace Run

variable {config : ExecutorConfig} {r t : Run W S H P}

/-- In the course of this work no selection fails. -/
def SelectsWell {ε α : Type} (x : Step (Run W S H P) ε α) : Prop :=
  ∀ r : Run W S H P, r.session.Unfailing (x r).2.session

section Rules

variable {ε ε' α β : Type} {x : Step (Run W S H P) ε α} {f : α → Step (Run W S H P) ε β}

theorem selectsWell_of_same (h : ∀ r, (x r).2.session.journal = r.session.journal) :
    SelectsWell x := fun r => .of_same (h r)

theorem selectsWell_pure (a : α) : SelectsWell (pure a : Step (Run W S H P) ε α) :=
  selectsWell_of_same fun _ => rfl

theorem selectsWell_cut (e : ε) : SelectsWell (Step.cut e : Step (Run W S H P) ε α) :=
  selectsWell_of_same fun _ => rfl

theorem SelectsWell.seq (hx : SelectsWell x) (hf : ∀ a, SelectsWell (f a)) :
    SelectsWell (x >>= f) := by
  intro r
  have hfirst := hx r
  rcases h : x r with ⟨a | e | _, m⟩
  all_goals rw [h] at hfirst
  · rw [bind_of_done h]
    exact hfirst.trans (hf a m)
  · rw [bind_of_cut h]
    exact hfirst
  · rw [bind_of_crashed h]
    exact hfirst

theorem SelectsWell.attempt (hx : SelectsWell x) :
    SelectsWell (x.attempt : Step (Run W S H P) ε' (Except ε α)) := by
  intro r
  have hfirst := hx r
  rcases h : x r with ⟨a | e | _, m⟩
  all_goals rw [h] at hfirst
  · rw [attempt_of_done h]
    exact hfirst
  · rw [attempt_of_cut h]
    exact hfirst
  · rw [attempt_of_crashed h]
    exact hfirst

/-- The work goes on to a failed selection at most, and says so then. -/
def LeavesOff (x : Step (Run W S H P) Halt (Option Exit)) : Prop :=
  ∀ r, r.session.Unfailing (x r).2.session ∨
    ∃ error, (x r).1 = .done (some (.selectFailed error)) ∧
      r.session.FailsWith error (x r).2.session

theorem SelectsWell.leavesOff {x : Step (Run W S H P) Halt (Option Exit)} (h : SelectsWell x) :
    LeavesOff x := fun r => .inl (h r)

theorem SelectsWell.bind_leavesOff {x : Step (Run W S H P) Halt α}
    {f : α → Step (Run W S H P) Halt (Option Exit)} (hx : SelectsWell x)
    (hf : ∀ a, LeavesOff (f a)) : LeavesOff (x >>= f) := by
  intro r
  have hfirst := hx r
  rcases h : x r with ⟨a | halt | _, m⟩
  all_goals rw [h] at hfirst
  · rw [bind_of_done h]
    refine (hf a m).imp hfirst.trans ?_
    rintro ⟨error, hend, hfails⟩
    exact ⟨error, hend, hfirst.failsWith hfails⟩
  · rw [bind_of_cut h]
    exact .inl hfirst
  · rw [bind_of_crashed h]
    exact .inl hfirst

end Rules

/-! ## The stages -/

theorem visit_selectsWell {ε : Type} {work : Step (Visit W S H P) ε Unit} (h : SocketHandle)
    (hw : Step.Works host work) : SelectsWell (visit h work) := by
  intro r
  rcases hd : r.registry.get? h with _ | d
  · rw [visit_of_none work hd]
    exact .of_same rfl
  · obtain ⟨deeds, hadv, hwork⟩ := visit_advances hw hd
    exact ⟨deeds, hadv.journal, fun deed hmem => (hwork deed hmem).selectFails⟩

theorem checkStop_selectsWell :
    SelectsWell (onSession Session.checkStop : Step (Run W S H P) Halt Unit) :=
  selectsWell_of_same fun r => by rw [checkStop_apply]

theorem forEachActive_selectsWell (duty : Duty) (handles : List SocketHandle) :
    SelectsWell (forEachActive handles (duty.work host)) := by
  induction handles with
  | nil => exact selectsWell_pure ()
  | cons h rest ih =>
      rw [forEachActive_cons]
      refine (checkStop_selectsWell.seq fun _ => ?_).seq fun _ => ih
      exact visit_selectsWell h (Visit.unlessComplete_works duty.work_works)

theorem ioStage_selectsWell (ready : Readiness) : SelectsWell (ioStage host ready) :=
  (forEachActive_selectsWell .reading _).seq fun _ => forEachActive_selectsWell .writing _

theorem consider_unfailing (host : Host W S H P) (pass : AdmissionPass W S H P)
    (d : Descriptor S H) : pass.session.Unfailing (pass.consider host d).2.session := by
  unfold AdmissionPass.consider
  split
  · exact .of_same rfl
  split
  · exact .of_same rfl
  split
  · exact .of_same rfl
  unfold AdmissionPass.ask Session.decide
  rcases host.policy.decide pass.session.world pass.session.policy d
    pass.session.context.context with ⟨decision, policy, world, stop⟩
  have hj : (({ pass.session with policy := policy, world := world }.stopIf stop).note
      (.decided d.handle decision)).journal =
        pass.session.journal ++ [.decided d.handle decision] := by
    simp [Session.note]
  cases decision <;> exact .of_note hj rfl

theorem admission_selectsWell :
    SelectsWell (admission host : Step (Run W S H P) Halt (List SocketHandle)) := by
  intro r
  have hstart : r.session.Unfailing (⟨false, [], r.session⟩ : AdmissionPass W S H P).session :=
    .of_same rfl
  exact HandleMap.traverse_keeps
    (I := fun pass : AdmissionPass W S H P => r.session.Unfailing pass.session)
    (fun pass d hpass => hpass.trans (consider_unfailing host pass d)) hstart

theorem disconnect_selectsWell (h : SocketHandle) : SelectsWell (disconnect host h) := by
  intro r
  rcases hd : r.registry.get? h with _ | d
  · rw [disconnect_of_none hd]
    exact .of_same rfl
  · obtain ⟨deeds, hadv, hleave | ⟨-, hword⟩⟩ := disconnect_advances host hd
    · exact ⟨deeds, hadv.journal, hleave.selectFails⟩
    · exact ⟨deeds, hadv.journal, fun deed hmem => (hword.isLast deed hmem).selectFails⟩

theorem disconnectAll_selectsWell (handles : List SocketHandle) :
    SelectsWell (disconnectAll host handles) := by
  induction handles with
  | nil => exact selectsWell_pure ()
  | cons h rest ih =>
      refine (disconnect_selectsWell h).attempt.seq fun first => ?_
      refine ih.attempt.seq fun others => ?_
      split
      · exact selectsWell_cut _
      · exact selectsWell_cut _
      · exact selectsWell_pure ()

theorem disconnectStage_selectsWell : SelectsWell (disconnectStage host) :=
  fun r => disconnectAll_selectsWell (Registry.completed r.registry) r

/-- A selection that fails is the last thing of its stage, which ends in its error. -/
theorem selectStage_cases (host : Host W S H P) (timeout : Duration) (admitted : List SocketHandle)
    (r : Run W S H P) :
    (∃ ready, (selectStage host timeout admitted r).1 = .done ready ∧
        r.session.Unfailing (selectStage host timeout admitted r).2.session) ∨
      ∃ error, (selectStage host timeout admitted r).1 = .cut error ∧
        r.session.FailsWith error (selectStage host timeout admitted r).2.session := by
  unfold selectStage
  dsimp only
  split
  · exact .inl ⟨.none, rfl, .of_same rfl⟩
  rcases host.select r.session.world (r.interests host admitted) timeout
    with ⟨error | ready, world, stop⟩
  · refine .inr ⟨error, rfl, r.session, r.interests host admitted, .of_same rfl, ?_⟩
    simp [Session.note]
  · have hj : (({ r.session with world := world }.stopIf stop).note
        (.selected (r.interests host admitted) (.ok ready))).journal =
          r.session.journal ++ [.selected (r.interests host admitted) (.ok ready)] := by
      simp [Session.note]
    exact .inl ⟨ready, rfl, .of_note hj rfl⟩

theorem serviceOf_leavesOff (config : ExecutorConfig) (admitted : List SocketHandle) :
    LeavesOff (serviceOf host config admitted) := by
  have hconnect : SelectsWell (connectStage host admitted) :=
    forEachActive_selectsWell .opening admitted
  refine hconnect.bind_leavesOff fun _ => checkStop_selectsWell.bind_leavesOff fun _ r => ?_
  rcases selectStage_cases host config.pollTimeout admitted r with
    ⟨ready, hend, hselect⟩ | ⟨error, hend, hselect⟩
  all_goals
    rcases hs : selectStage host config.pollTimeout admitted r with ⟨ending, m⟩
    rw [hs] at hend hselect
    obtain rfl := hend
  · rw [bind_of_done (attempt_of_done hs)]
    have hio : SelectsWell (ioStage host ready >>= fun _ => pure (none : Option Exit)) :=
      (ioStage_selectsWell ready).seq fun _ => selectsWell_pure none
    exact .inl (hselect.trans (hio m))
  · rw [bind_of_done (attempt_of_cut hs)]
    exact .inr ⟨error, rfl, hselect⟩

theorem service_leavesOff (config : ExecutorConfig) : LeavesOff (service host config) := by
  refine checkStop_selectsWell.bind_leavesOff fun _ => ?_
  refine (selectsWell_of_same fun _ => rfl).bind_leavesOff fun r => ?_
  split
  · exact (selectsWell_pure _).leavesOff
  · exact admission_selectsWell.bind_leavesOff fun admitted => serviceOf_leavesOff config admitted

theorem attend_leavesOff (config : ExecutorConfig) : LeavesOff (attend host config) := by
  intro r
  have hleave : SelectsWell (leaveAfter host none) :=
    disconnectStage_selectsWell.seq fun _ => selectsWell_pure none
  rw [attend_eq]
  rcases hs : service host config r with ⟨(_ | exit) | halt | _, m⟩
  all_goals
    have hservice := (service_leavesOff config : LeavesOff (service host config)) r
    rw [hs] at hservice
  · rw [bind_of_done hs]
    rcases hservice with hservice | ⟨error, hend, -⟩
    · exact .inl (hservice.trans (hleave m))
    · cases hend
  · rw [bind_of_done hs]
    exact hservice
  · rw [bind_of_cut hs]
    exact hservice.imp id fun ⟨_, hend, _⟩ => by cases hend
  · rw [bind_of_crashed hs]
    exact hservice.imp id fun ⟨_, hend, _⟩ => by cases hend

/-- Ticks go on to a failed selection at most, and end by it then. -/
theorem ticks_leaveOff (host : Host W S H P) (config : ExecutorConfig) (fuel : Nat) :
    ∀ r : Run W S H P, r.session.Unfailing (ticks host config fuel r).2.session ∨
      ∃ error, (ticks host config fuel r).1 = .done (.selectFailed error) ∧
        r.session.FailsWith error (ticks host config fuel r).2.session := by
  induction fuel with
  | zero => exact fun _ => .inl (.of_same rfl)
  | succ fuel ih =>
      intro r
      have happlied : r.session.Unfailing r.applied.session := .of_same rfl
      rcases hx : attend host config r.applied with ⟨last, m⟩
      rw [ticks_apply, attendTicks_apply fuel hx]
      rcases attend_leavesOff config r.applied with hattend | ⟨error, hend, hattend⟩
      all_goals rw [hx] at hattend
      · have hm := happlied.trans hattend
        rcases tickEnding? last with _ | ending
        · refine (ih m).imp hm.trans ?_
          rintro ⟨error, hend, hfails⟩
          exact ⟨error, hend, hm.failsWith hfails⟩
        · exact .inl hm
      · rw [hx] at hend
        obtain rfl : last = .done (some (.selectFailed error)) := hend
        exact .inr ⟨error, rfl, happlied.failsWith hattend⟩

theorem windDown_selectsWell (exit : Exit) : SelectsWell (windDown host exit) := by
  have hreport : ∀ (error : IoError) (handles : List SocketHandle),
      SelectsWell (reportSelectFailure host error handles) := by
    intro error handles
    induction handles with
    | nil => exact selectsWell_pure ()
    | cons h rest ih =>
        exact (visit_selectsWell h (Visit.reportFailure_works error)).seq fun _ => ih
  have hconclude : SelectsWell (conclude host exit) := by
    cases exit with
    | drained | stopped => exact selectsWell_of_same fun _ => rfl
    | selectFailed error => exact fun r => hreport error r.registry.keys r
  have hpart : SelectsWell (part host) := by
    refine disconnectStage_selectsWell.attempt.seq fun result => ?_
    split
    · exact selectsWell_cut _
    · exact selectsWell_pure ()
  rw [windDown_eq]
  exact (selectsWell_of_same fun _ => rfl).seq fun _ => hconclude.seq fun _ => hpart

/-! ## A whole run -/

theorem closeDown_unfailing (host : Host W S H P) (x : Ending RunFailure Unit × Run W S H P) :
    x.2.session.Unfailing (closeDown host x).2.session := by
  have hclose : ∀ r : Run W S H P, r.session.Unfailing (closeAll host r).session := by
    refine fun r => ⟨_, journal_closeAll host r, fun deed hd => ?_⟩
    obtain ⟨h, -, rfl⟩ := List.mem_map.1 hd
    rfl
  have hfinish : ∀ r : Run W S H P, r.session.Unfailing (finishPolicy host r).session :=
    fun r => .of_note rfl rfl
  rcases x with ⟨_ | (text | _) | _, t⟩
  · exact (hfinish t).trans (hclose _)
  · exact (hclose t).trans (hfinish _)
  · exact .of_same rfl
  · exact .of_same rfl

/-- Nothing is selected in a run after its ticks. -/
theorem perform_unfailing (host : Host W S H P) (config : ExecutorConfig) (fuel : Nat)
    (r : Run W S H P) :
    (ticks host config fuel (startPolicy host r)).2.session.Unfailing
      (perform host config fuel r).2.session := by
  rw [perform_eq]
  refine .trans ?_ (closeDown_unfailing host _)
  rcases ht : ticks host config fuel (startPolicy host r) with ⟨exit | e | _, t⟩
  · rw [body, bind_of_done ht]
    exact windDown_selectsWell exit t
  · rw [body, bind_of_cut ht]
    exact .of_same rfl
  · rw [body, bind_of_crashed ht]
    exact .of_same rfl

/-- If a selection fails in a run, its ticks end by that. -/
theorem ticks_of_selectFails {fuel : Nat} {interests : List Interest} {error : IoError}
    (hr : ∀ deed ∈ r.session.journal, deed.selectFails = false)
    (hfails : .selected interests (.error error) ∈
      (perform host config fuel r).2.session.journal) :
    ∃ t earlier, ticks host config fuel (startPolicy host r) = (.done (.selectFailed error), t) ∧
      t.session.journal = earlier ++ [.selected interests (.error error)] := by
  have hstart : r.session.Unfailing (startPolicy host r).session := .of_note rfl rfl
  have hclear : ∀ s : Session W S H P, r.session.Unfailing s →
      .selected interests (.error error) ∉ s.journal := fun s hs hmem => by
    cases hr _ ((hs.mem_iff rfl).1 hmem)
  have hmem := ((perform_unfailing host config fuel r).mem_iff rfl).1 hfails
  rcases ticks_leaveOff host config fuel (startPolicy host r) with
    hunfailing | ⟨error', hend, m, interests', hm, hlast⟩
  · exact absurd hmem (hclear _ (hstart.trans hunfailing))
  · rw [hlast, List.mem_append] at hmem
    cases List.mem_singleton.1 (hmem.resolve_left (hclear m (hstart.trans hm)))
    exact ⟨_, m.journal, Prod.ext hend rfl, hlast⟩

end Run

end Reactor
