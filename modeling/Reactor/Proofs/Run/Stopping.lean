import Reactor.Proofs.Run.Obedience
import Reactor.Proofs.Run.Ownership
import Reactor.Proofs.Run.Ticks

/-! A run that a hook has asked to stop, or has failed: it serves nobody any more, and the ticks are
over before the next one has begun to serve. -/

namespace Reactor

variable {W S H P : Type} {host : Host W S H P}

open Step

namespace Visit

/-- The failure that came first surfaces. -/
theorem surfaces_leaveEnding {deeds more : List (Deed S H)} {first others : Ending Halt Unit}
    (hfirst : Surfaces deeds first) (hne : first ≠ .crashed)
    (hfatal : ∀ halt, first = .cut halt → ∃ text, halt = .fatal text)
    (hothers : Surfaces more others) : Surfaces (deeds ++ more) (leaveEnding first others) := by
  rcases first with _ | halt | _
  · rw [Surfaces, fatals_append, hfirst.nil_of_done, List.nil_append]
    rcases others with _ | halt | _ <;> exact hothers
  · obtain ⟨text, rfl⟩ := hfatal halt rfl
    have hall : (fatals (deeds ++ more)).head? = some text := by
      rw [fatals_append]
      exact head?_append_of_head? (hfirst hne) _
    rcases others with _ | halt | _
    · exact fun _ => hall
    · exact fun _ => hall
    · exact fun h => absurd rfl h
  · exact absurd rfl hne

theorem farewell_idles (host : Host W S H P) :
    Idles (fun v => v.farewell host : Step (Visit W S H P) Halt Unit) := by
  intro v hv
  by_cases ht : v.toldOff host = true
  · have hf : v.farewell host = notify host .disconnected v := if_pos ht
    simp only [hf]
    exact notify_idles (by simp [Payload.kind]) rfl v hv
  · have hf : v.farewell host = (.done (), v) := if_neg ht
    simp only [hf]
    exact idles_pure () v hv

theorem takeLeave_idles : Idles (takeLeave host) := by
  have hfinale : Idles (close host >>= fun _ => notify host .finalize) :=
    close_idles.bind fun _ => notify_idles (by simp [Payload.kind]) rfl
  intro v hv
  obtain ⟨deeds, hp, hidle, hsurf⟩ := farewell_idles host v hv
  by_cases hc : (v.farewell host).1 = .crashed
  · rw [takeLeave_of_crashed hc]
    exact ⟨deeds, hp, hidle, hsurf⟩
  · have hfatal : ∀ halt, (v.farewell host).1 = .cut halt → ∃ text, halt = .fatal text := by
      intro halt hf
      unfold farewell at hf
      split at hf
      · exact notify_cut hf
      · cases hf
    obtain ⟨more, hp', hidle', hsurf'⟩ := hfinale (v.farewell host).2 (hp.executing.trans hv)
    have hlast : (close host >>= fun _ => notify host .finalize : Step _ Halt Unit)
        (v.farewell host).2 = v.finale host := bind_of_done rfl
    rw [hlast] at hp' hsurf'
    rw [takeLeave_apply hc]
    dsimp only
    refine ⟨deeds ++ more, hp.trans hp', fun deed hd => ?_,
      surfaces_leaveEnding hsurf hc hfatal hsurf'⟩
    exact (List.mem_append.1 hd).elim (hidle deed) (hidle' deed)

theorem reportFailure_idles (error : IoError) : Idles (reportFailure host error) := by
  refine (dispatchFault_idles _ none).attempt_bind (fun _ => ?_) fun halt => ?_
  · exact idles_of_same (fun _ => rfl) fun _ => rfl
  · cases halt with
    | stop => exact idles_of_same (fun _ => rfl) fun _ => rfl
    | fatal text => exact (yields_cut (RunFailure.fatal text) rfl).idles

end Visit

namespace Run

section Lifts

variable {ε : Type} [Failure ε] {x : Step (Visit W S H P) ε Unit}

theorem visit_heeds (h : SocketHandle) (hx : Heeds x) : Heeds (visit h x) := by
  intro r hr
  rcases hd : r.registry.get? h with _ | d
  · rw [visit_of_none x hd]
    exact heeds_pure () r hr
  · rw [visit_of_some x hd]
    exact hx ⟨d, r.session⟩ hr

theorem visit_idles (h : SocketHandle) (hx : Idles x) : Idles (visit h x) := by
  intro r hr
  rcases hd : r.registry.get? h with _ | d
  · rw [visit_of_none x hd]
    exact idles_pure () r hr
  · rw [visit_of_some x hd]
    exact hx ⟨d, r.session⟩ hr

theorem checkStop_heeds : Heeds (onSession Session.checkStop : Step (Run W S H P) Halt Unit) := by
  intro r hr
  rw [checkStop_apply]
  cases hs : r.session.stopDue with
  | true =>
      exact ⟨[], .refl _, .nil, fun _ => rfl, (fun _ hdone => by cases hdone),
        Visit.stopRequested_of_due hs⟩
  | false => exact ⟨[], .refl _, .nil, fun _ => rfl, by simp, trivial⟩

theorem proceeds_applied (r : Run W S H P) : r.session.Proceeds [] r.applied.session where
  journal := (List.append_nil _).symm
  executing := rfl
  stopping := rfl
  stop _ h := by
    have hbefore : r.session.context.control.stopRequested = true := by simpa using h
    exact hbefore

theorem applyChanges_idles : Idles (applyChanges : Step (Run W S H P) ε Unit) :=
  idles_of_calm fun r => ⟨[], r.proceeds_applied, by simp, fun _ => rfl⟩

end Lifts

/-! ## A tick -/

theorem forEachActive_heeds {work : Step (Visit W S H P) Halt Unit} (hw : Heeds work)
    (handles : List SocketHandle) : Heeds (forEachActive handles work) := by
  induction handles with
  | nil => exact heeds_pure ()
  | cons h rest ih =>
      rw [forEachActive_cons]
      refine (checkStop_heeds.bind fun _ => ?_).bind fun _ => ih
      exact visit_heeds h (Visit.unlessComplete_heeds hw)

theorem ioStage_heeds (ready : Readiness) : Heeds (ioStage host ready) :=
  (forEachActive_heeds (Visit.settle_heeds Visit.serveRead_heeds) _).bind fun _ =>
    forEachActive_heeds (Visit.settle_heeds Visit.serveWrite_heeds) _

theorem consider_proceeds (host : Host W S H P) (pass : AdmissionPass W S H P)
    (d : Descriptor S H) :
    ∃ deeds, (∀ deed ∈ deeds, deed.callsOff = false) ∧
      pass.session.Proceeds deeds (pass.consider host d).2.session := by
  unfold AdmissionPass.consider
  split
  · exact ⟨[], by simp, .refl _⟩
  split
  · exact ⟨[], by simp, .refl _⟩
  split
  · exact ⟨[], by simp, .refl _⟩
  rcases hv : host.policy.decide pass.session.world pass.session.policy d
    pass.session.context.context with ⟨decision, policy, world, stop⟩
  have h := Session.proceeds_note { pass.session with policy := policy } world stop
    (.decided d.handle decision) rfl
  refine ⟨[.decided d.handle decision], ?_, ?_⟩
  · intro deed hdeed
    obtain rfl := List.mem_singleton.1 hdeed
    rfl
  · have hs : (pass.ask host d).2.session = (({ pass.session with
        policy := policy, world := world }.stopIf stop).note (.decided d.handle decision)) := by
      simp only [AdmissionPass.ask, Session.decide, hv]
      cases decision <;> rfl
    rw [hs]
    exact ⟨h.journal, h.executing, h.stopping, h.stop⟩

theorem admission_heeds : Heeds (admission host : Step (Run W S H P) Halt _) := by
  refine heeds_of_calm fun r => ?_
  let I (pass : AdmissionPass W S H P) : Prop :=
    ∃ deeds, (∀ deed ∈ deeds, deed.callsOff = false) ∧ r.session.Proceeds deeds pass.session
  have hstart : I ⟨false, [], r.session⟩ := ⟨[], by simp, .refl _⟩
  have hend : I (HandleMap.traverse r.registry (AdmissionPass.consider host)
      ⟨false, [], r.session⟩).2 := by
    refine HandleMap.traverse_keeps (I := I) ?_ hstart
    rintro pass d ⟨deeds, hcalm, hp⟩
    obtain ⟨more, hcalm', hp'⟩ := consider_proceeds host pass d
    refine ⟨deeds ++ more, fun deed hd => ?_, hp.trans hp'⟩
    exact (List.mem_append.1 hd).elim (hcalm deed) (hcalm' deed)
  obtain ⟨deeds, hcalm, hp⟩ := hend
  exact ⟨deeds, hp, hcalm, rfl⟩

/-- What a selection comes to is a value in any case; it involves no hook. -/
theorem selectStage_heeds (timeout : Duration) (admitted : List SocketHandle) :
    Heeds ((selectStage host timeout admitted).attempt : Step (Run W S H P) Halt _) := by
  refine heeds_attempt_of_calm fun r => ?_
  unfold selectStage
  dsimp only
  split
  · exact ⟨[], .refl _, by simp⟩
  · refine ⟨_, r.session.proceeds_note _ _ _ rfl, ?_⟩
    intro deed hd
    obtain rfl := List.mem_singleton.1 hd
    rfl

theorem disconnect_idles (host : Host W S H P) (h : SocketHandle) : Idles (disconnect host h) := by
  intro r hr
  rcases hd : r.registry.get? h with _ | d
  · rw [disconnect_of_none hd]
    exact idles_pure () r hr
  · rw [disconnect_of_some hd]
    exact Visit.takeLeave_idles ⟨d, r.session⟩ hr

theorem disconnect_cut (host : Host W S H P) {h : SocketHandle} {r : Run W S H P} {halt : Halt}
    (hx : (disconnect host h r).1 = .cut halt) : ∃ text, halt = .fatal text := by
  rcases hd : r.registry.get? h with _ | d
  · rw [disconnect_of_none hd] at hx
    cases hx
  · rw [disconnect_of_some hd] at hx
    exact Visit.takeLeave_cut hx

theorem disconnectAll_idles (handles : List SocketHandle) :
    Idles (disconnectAll host handles) := by
  induction handles with
  | nil => exact idles_pure ()
  | cons h rest ih =>
      intro r hr
      obtain ⟨deeds, hp, hidle, hsurf⟩ := disconnect_idles host h r hr
      rcases hx : disconnect host h r with ⟨ending, t⟩
      have hfatal : ∀ halt, ending = .cut halt → ∃ text, halt = .fatal text :=
        fun halt he => disconnect_cut host (h := h) (r := r) (by rw [hx, he])
      rw [hx] at hp hsurf
      by_cases hc : ending = .crashed
      · rw [hc] at hx
        rw [disconnectAll, bind_of_crashed (attempt_of_crashed hx)]
        exact ⟨deeds, hp, hidle, fun hne => absurd rfl hne⟩
      · obtain ⟨more, hp', hidle', hsurf'⟩ := ih t (hp.executing.trans hr)
        rw [disconnectAll_cons rest hx hc]
        refine ⟨deeds ++ more, hp.trans hp', fun deed hd => ?_,
          Visit.surfaces_leaveEnding hsurf hc hfatal hsurf'⟩
        exact (List.mem_append.1 hd).elim (hidle deed) (hidle' deed)

theorem disconnectStage_idles : Idles (disconnectStage host) :=
  fun r hr => disconnectAll_idles (Registry.completed r.registry) r hr

theorem serviceOf_heeds (config : ExecutorConfig) (admitted : List SocketHandle) :
    Heeds (serviceOf host config admitted) := by
  have hconnect : Heeds (connectStage host admitted) :=
    forEachActive_heeds Visit.connectOrFail_heeds admitted
  refine hconnect.bind fun _ => checkStop_heeds.bind fun _ => ?_
  refine (selectStage_heeds _ admitted).bind fun result => ?_
  split
  · exact heeds_pure _
  · exact (ioStage_heeds _).bind fun _ => heeds_pure _

theorem service_heeds (config : ExecutorConfig) : Heeds (service host config) := by
  refine checkStop_heeds.bind fun _ => heeds_get.bind fun r => ?_
  split
  · exact heeds_pure _
  · exact admission_heeds.bind fun admitted => serviceOf_heeds config admitted

theorem attend_orders (host : Host W S H P) (config : ExecutorConfig) :
    Orders (attend host config) := by
  rw [attend_eq]
  refine (service_heeds config).bind_orders fun exit => ?_
  cases exit with
  | none => exact (disconnectStage_idles.bind fun _ => idles_pure _).orders
  | some exit => exact (idles_pure _).orders

/-! ## The ticks -/

/-- Before a tick has begun to serve, a stop that was asked for is observed. -/
theorem ticks_of_stopRequested (config : ExecutorConfig) (fuel : Nat) {r : Run W S H P}
    (hr : r.session.Active) (hs : r.session.context.control.stopRequested = true) :
    ticks host config (fuel + 1) r = (.done .stopped, r.applied) := by
  have hdue : r.applied.session.stopDue = true := by
    show (!r.session.stopping && r.session.context.control.stopRequested) = true
    rw [hr.2, hs]
    rfl
  have hcheck : onSession Session.checkStop r.applied = (.cut .stop, r.applied) := by
    rw [checkStop_apply, if_pos hdue]
  have hattend : attend host config r.applied = (.cut .stop, r.applied) :=
    Step.bind_of_cut hcheck
  rw [ticks_apply, attendTicks, Step.bind_of_done (Step.attempt_of_cut hattend)]
  rfl

/-- Nothing more is done by ticks before which a stop has been asked for. -/
theorem ticks_quiet (host : Host W S H P) (config : ExecutorConfig) (fuel : Nat) {r : Run W S H P}
    (hr : r.session.Active) (hs : r.session.context.control.stopRequested = true) :
    r.session.Proceeds [] (ticks host config fuel r).2.session ∧
      (ticks host config fuel r).1.fatal? = none := by
  cases fuel with
  | zero => exact ⟨.refl _, rfl⟩
  | succ fuel =>
      rw [ticks_of_stopRequested config fuel hr hs]
      exact ⟨r.proceeds_applied, rfl⟩

theorem ticks_orders (host : Host W S H P) (config : ExecutorConfig) (fuel : Nat) :
    Orders (ticks host config fuel) := by
  induction fuel with
  | zero => exact (heeds_cut rfl).orders
  | succ fuel ih =>
      intro r hr
      rw [ticks_apply]
      obtain ⟨deeds, hp, hheeded, hsurf⟩ := attend_orders host config r.applied hr
      rcases hx : attend host config r.applied with ⟨(_ | exit) | (_ | text) | _, t⟩
      all_goals
        rw [hx] at hp hsurf
        replace hp : r.session.Proceeds deeds t.session := r.proceeds_applied.trans hp
      · rw [attendTicks, bind_of_done (attempt_of_done hx)]
        have ht : t.session.Active := hr.proceeds hp
        have hcalm : fatals deeds = [] := hsurf.nil_of_done
        have hnone : ∀ {more : List (Deed S H)} {ending : Ending RunFailure Exit},
            Surfaces more ending → Surfaces (deeds ++ more) ending := by
          intro more ending hmore hne
          rw [fatals_append, hcalm, List.nil_append]
          exact hmore hne
        cases hs : t.session.context.control.stopRequested with
        | true =>
            obtain ⟨hp', hquiet⟩ := ticks_quiet host config fuel ht hs
            refine ⟨deeds ++ [], hp.trans hp', ?_, hnone fun _ => hquiet.symm⟩
            rwa [List.append_nil]
        | false =>
            obtain ⟨more, hp', hheeded', hsurf'⟩ := ih t ht
            refine ⟨deeds ++ more, hp.trans hp', ?_, hnone hsurf'⟩
            exact hheeded.append hheeded' (.inl (hp.calm hr.1 hs hcalm))
      · rw [attendTicks, bind_of_done (attempt_of_done hx)]
        exact ⟨deeds, hp, hheeded, fun _ => hsurf (by simp)⟩
      · rw [attendTicks, bind_of_done (attempt_of_cut hx)]
        exact ⟨deeds, hp, hheeded, fun _ => hsurf (by simp)⟩
      · rw [attendTicks, bind_of_done (attempt_of_cut hx)]
        exact ⟨deeds, hp, hheeded, fun _ => hsurf (by simp)⟩
      · rw [attendTicks, bind_of_crashed (attempt_of_crashed hx)]
        exact ⟨deeds, hp, hheeded, fun hne => absurd rfl hne⟩

/-! ## The winding down -/

theorem reportSelectFailure_idles (error : IoError) (handles : List SocketHandle) :
    Idles (reportSelectFailure host error handles) := by
  induction handles with
  | nil => exact idles_pure ()
  | cons h rest ih => exact (visit_idles h (Visit.reportFailure_idles error)).bind fun _ => ih

theorem conclude_idles (exit : Exit) : Idles (conclude host exit) := by
  cases exit with
  | drained => exact idles_pure ()
  | stopped => exact applyChanges_idles.bind fun _ => idles_of_same (fun _ => rfl) fun _ => rfl
  | selectFailed error =>
      have hget : Idles (Step.get : Step (Run W S H P) RunFailure _) :=
        idles_of_same (fun _ => rfl) fun _ => rfl
      exact hget.bind fun r => reportSelectFailure_idles error _

theorem part_idles : Idles (part host) := by
  refine disconnectStage_idles.attempt_bind (fun _ => idles_pure ()) fun halt => ?_
  cases halt with
  | stop => exact idles_pure ()
  | fatal text => exact (yields_cut (RunFailure.fatal text) rfl).idles

/-- Work that takes no further tick. -/
def Finishes {σ α : Type} (x : Step σ RunFailure α) : Prop := ∀ s, (x s).1 ≠ .cut .unfinished

theorem Finishes.attempt_bind {σ ε α β : Type} {x : Step σ ε α}
    {f : Except ε α → Step σ RunFailure β} (hf : ∀ result, Finishes (f result)) :
    Finishes (x.attempt >>= f) := by
  intro s
  rcases h : x s with ⟨a | e | _, t⟩
  · rw [bind_of_done (attempt_of_done h)]
    exact hf (.ok a) t
  · rw [bind_of_done (attempt_of_cut h)]
    exact hf (.error e) t
  · rw [bind_of_crashed (attempt_of_crashed h)]
    simp

theorem Finishes.bind {σ α β : Type} {x : Step σ RunFailure α} {f : α → Step σ RunFailure β}
    (hx : Finishes x) (hf : ∀ a, Finishes (f a)) : Finishes (x >>= f) := by
  intro s
  have hs := hx s
  rcases h : x s with ⟨a | e | _, t⟩
  · rw [bind_of_done h]
    exact hf a t
  · rw [bind_of_cut h]
    rw [h] at hs
    simpa using hs
  · rw [bind_of_crashed h]
    simp

theorem finishes_done {σ α : Type} {x : Step σ RunFailure α} (h : ∀ s, ∃ a, (x s).1 = .done a) :
    Finishes x := by
  intro s
  obtain ⟨a, ha⟩ := h s
  simp [ha]

theorem reportFailure_finishes (error : IoError) :
    Finishes (Visit.reportFailure host error) := by
  refine Finishes.attempt_bind fun result => ?_
  split
  · exact fun _ => by simp [Step.cut]
  · exact finishes_done fun _ => ⟨(), rfl⟩

theorem reportSelectFailure_finishes (error : IoError) (handles : List SocketHandle) :
    Finishes (reportSelectFailure host error handles) := by
  induction handles with
  | nil => exact finishes_done fun _ => ⟨(), rfl⟩
  | cons h rest ih =>
      have hvisit : Finishes (visit h (Visit.reportFailure host error)) := by
        intro r
        rcases hd : r.registry.get? h with _ | d
        · simp [visit_of_none _ hd]
        · rw [visit_of_some _ hd]
          exact reportFailure_finishes error _
      exact hvisit.bind fun _ => ih

/-- However the ticks have ended, no further one is needed. -/
theorem windDown_finishes (exit : Exit) : Finishes (windDown host exit) := by
  have hconclude : Finishes (conclude host exit) := by
    cases exit with
    | drained | stopped => exact finishes_done fun _ => ⟨(), rfl⟩
    | selectFailed error => exact fun r => reportSelectFailure_finishes error _ r
  have hpart : Finishes (part host) := by
    refine Finishes.attempt_bind fun result => ?_
    split
    · exact fun _ => by simp [Step.cut]
    · exact finishes_done fun _ => ⟨(), rfl⟩
  rw [windDown_eq]
  have hleave : Finishes (Step.modify leavingOff : Step (Run W S H P) RunFailure Unit) :=
    finishes_done fun _ => ⟨(), rfl⟩
  exact hleave.bind fun _ => hconclude.bind fun _ => hpart

theorem windDown_apply (exit : Exit) (r : Run W S H P) :
    windDown host exit r = (conclude host exit >>= fun _ => part host) r.leavingOff := by
  rw [windDown_eq]
  rfl

/-- While a run is wound down nobody is served. -/
theorem windDown_idle (host : Host W S H P) (exit : Exit) {r : Run W S H P}
    (hr : r.session.context.control.executing = true) : ∃ deeds : List (Deed S H),
      (windDown host exit r).2.session.journal = r.session.journal ++ deeds ∧
      (∀ deed ∈ deeds, deed.service? = none) ∧ Surfaces deeds (windDown host exit r).1 := by
  rw [windDown_apply]
  obtain ⟨deeds, hp, hidle, hsurf⟩ :=
    ((conclude_idles exit).bind fun _ => part_idles) r.leavingOff hr
  exact ⟨deeds, hp.journal, hidle, hsurf⟩

/-! ## A whole run -/

theorem body_orders (host : Host W S H P) (config : ExecutorConfig) (fuel : Nat) {r : Run W S H P}
    (hr : r.session.Active) : ∃ deeds : List (Deed S H),
      (body host config fuel r).2.session.journal = r.session.journal ++ deeds ∧
      Heeded deeds ∧ Surfaces deeds (body host config fuel r).1 := by
  obtain ⟨deeds, hp, hheeded, hsurf⟩ := ticks_orders host config fuel r hr
  rcases hx : ticks host config fuel r with ⟨exit | e | _, t⟩
  all_goals rw [hx] at hp hsurf
  · rw [body, bind_of_done hx]
    obtain ⟨more, hj, hidle, hsurf'⟩ := windDown_idle host exit (hp.executing.trans hr.1)
    refine ⟨deeds ++ more, ?_, hheeded.append (heeded_of_idle hidle) (.inr hidle), fun hne => ?_⟩
    · have hticks : t.session.journal = r.session.journal ++ deeds := hp.journal
      refine hj.trans ?_
      rw [← List.append_assoc, ← hticks]
    · rw [fatals_append, hsurf.nil_of_done, List.nil_append]
      exact hsurf' hne
  · rw [body, bind_of_cut hx]
    exact ⟨deeds, hp.journal, hheeded, fun _ => hsurf (by simp)⟩
  · rw [body, bind_of_crashed hx]
    exact ⟨deeds, hp.journal, hheeded, fun hne => absurd rfl hne⟩

/-- At its end a run is left to the policy, and what it still holds is closed. -/
theorem perform_apply (host : Host W S H P) (config : ExecutorConfig) (fuel : Nat)
    (r : Run W S H P) : ∃ tail : List (Deed S H),
      (∀ deed ∈ tail, deed.service? = none ∧ deed.callsOff = false) ∧
      (perform host config fuel r).2.session.journal =
        (body host config fuel (startPolicy host r)).2.session.journal ++ tail ∧
      (perform host config fuel r).1 = (body host config fuel (startPolicy host r)).1 := by
  have hclosed : ∀ r : Run W S H P, ∃ tail : List (Deed S H),
      (∀ deed ∈ tail, deed.service? = none ∧ deed.callsOff = false) ∧
        (closeAll host r).session.journal = r.session.journal ++ tail := by
    refine fun r => ⟨_, fun deed hd => ?_, journal_closeAll host r⟩
    obtain ⟨h, -, rfl⟩ := List.mem_map.1 hd
    exact ⟨rfl, rfl⟩
  rw [perform_eq]
  rcases hx : body host config fuel (startPolicy host r) with ⟨_ | (text | _) | _, t⟩
  · obtain ⟨tail, htail, hj⟩ := hclosed (finishPolicy host t)
    refine ⟨.policyFinished :: tail, ?_, hj.trans (List.append_assoc _ _ _), rfl⟩
    simpa [Deed.service?, Deed.callsOff, Deed.asksStop, Deed.requests, Deed.fatal?] using htail
  · obtain ⟨tail, htail, hj⟩ := hclosed t
    refine ⟨tail ++ [.policyFinished], fun deed hd => ?_, ?_, rfl⟩
    · rcases List.mem_append.1 hd with hd | hd
      · exact htail deed hd
      · obtain rfl := List.mem_singleton.1 hd
        exact ⟨rfl, rfl⟩
    · show (closeAll host t).session.journal ++ [.policyFinished] = _
      rw [hj, List.append_assoc]
  · exact ⟨[], by simp, (List.append_nil _).symm, rfl⟩
  · exact ⟨[], by simp, (List.append_nil _).symm, rfl⟩

/-- If a hook has asked for a stop, or the ticks are over anyway, one more tick is enough. -/
theorem ticks_end (config : ExecutorConfig) {fuel : Nat} {r : Run W S H P}
    (hr : r.session.Active) {deeds : List (Deed S H)}
    (hj : (body host config fuel r).2.session.journal = r.session.journal ++ deeds)
    (hstop : deeds.any Deed.asksStop = true) :
    (ticks host config (fuel + 1) r).1 ≠ .cut .unfinished := by
  obtain ⟨made, hp, -, -⟩ := ticks_orders host config fuel r hr
  by_cases hend : (ticks host config fuel r).1 = .cut .unfinished
  · rcases hx : ticks host config fuel r with ⟨ending, t⟩
    rw [hx] at hend hp
    obtain rfl : ending = .cut .unfinished := hend
    rw [body, bind_of_cut hx] at hj
    obtain rfl : made = deeds := List.append_cancel_left (hp.journal.symm.trans hj)
    have hs : t.session.context.control.stopRequested = true := hp.stop hr.1 (.inr hstop)
    rw [ticks_add 1 hx, ticks_of_stopRequested config 0 (hr.proceeds hp) hs]
    simp
  · rw [ticks_over 1 (Prod.ext rfl rfl) hend]
    exact hend

/-- A run that is not interrupted while it ticks is not interrupted at all. -/
theorem body_finishes {config : ExecutorConfig} {fuel : Nat} {r : Run W S H P}
    (h : (ticks host config fuel r).1 ≠ .cut .unfinished) :
    (body host config fuel r).1 ≠ .cut .unfinished := by
  rcases hx : ticks host config fuel r with ⟨exit | e | _, t⟩
  all_goals rw [hx] at h
  · rw [body, bind_of_done hx]
    exact windDown_finishes exit t
  · rw [body, bind_of_cut hx]
    simpa using h
  · rw [body, bind_of_crashed hx]
    simp

/-- In a whole run nobody is served after a hook has called the run off, and the first failure that
a hook raises is the one in which the run ends. -/
theorem perform_orders (host : Host W S H P) (config : ExecutorConfig) (fuel : Nat)
    {r : Run W S H P} (hr : r.session.Active) : ∃ deeds : List (Deed S H),
      (perform host config fuel r).2.session.journal =
        (startPolicy host r).session.journal ++ deeds ∧
      Heeded deeds ∧ Surfaces deeds (perform host config fuel r).1 := by
  obtain ⟨deeds, hj, hheeded, hsurf⟩ :=
    body_orders host config fuel (r := startPolicy host r) hr
  obtain ⟨tail, htail, hj', hending⟩ := perform_apply host config fuel r
  have hidle : ∀ deed ∈ tail, deed.service? = none := fun deed hd => (htail deed hd).1
  refine ⟨deeds ++ tail, ?_, hheeded.append (heeded_of_idle hidle) (.inr hidle), fun hne => ?_⟩
  · rw [hj', hj, List.append_assoc]
  · have hnone : fatals tail = [] :=
      fatals_eq_nil.2 fun deed hd => (Deed.callsOff_eq_false.1 (htail deed hd).2).2
    rw [hending] at hne ⊢
    rw [fatals_append, hnone, List.append_nil]
    exact hsurf hne

end Run

end Reactor
