import Reactor.Proofs.Run.Moves
import Reactor.Proofs.Run.Places

/-! The books of the policy that bounds the number of sockets in flight: along a whole run, the
places that are taken are those of the sockets that take part and those that were lost. -/

namespace Reactor

variable {W S H : Type} {host : Host W S H ConstantLimitPolicy} {K : Nat}

theorem Deed.IsAside.plain {deed : Deed S H} (hd : deed.IsAside) :
    deed.isHeard = false ∧ deed.parts = false := by
  cases deed with
  | decided | selected => exact ⟨rfl, rfl⟩
  | _ => exact hd.elim

/-! ## The admission -/

namespace AdmissionPass

variable {pass : AdmissionPass W S H ConstantLimitPolicy}

/-- No more places are taken than there are, and all of them if somebody has to wait. -/
structure Limited (K : Nat) (pass : AdmissionPass W S H ConstantLimitPolicy) : Prop where
  limit : pass.session.policy.limit = K
  bounded : pass.session.policy.inFlight ≤ K
  full : pass.deferred = true → pass.session.policy.inFlight = K

theorem ask_granted (hp : host.policy = .constantLimit) (d : Descriptor S H)
    (hroom : pass.session.policy.inFlight < pass.session.policy.limit) :
    (pass.ask host d).1.running = true ∧ (pass.ask host d).2.deferred = pass.deferred ∧
      (pass.ask host d).2.session.policy =
        { pass.session.policy with inFlight := pass.session.policy.inFlight + 1 } := by
  simp [ask, Session.decide, hp, PolicyRules.constantLimit, ConstantLimitPolicy.decide, hroom,
    Descriptor.judged, take, Session.note, Session.stopIf]

theorem ask_deferred (hp : host.policy = .constantLimit) (d : Descriptor S H)
    (hroom : ¬ pass.session.policy.inFlight < pass.session.policy.limit) :
    (pass.ask host d).1.running = d.running ∧ (pass.ask host d).2.deferred = true ∧
      (pass.ask host d).2.session.policy = pass.session.policy := by
  simp [ask, Session.decide, hp, PolicyRules.constantLimit, ConstantLimitPolicy.decide, hroom,
    Descriptor.judged, Session.note, Session.stopIf]

/-- What the admission does to a socket and to the policy: nothing, or it takes a place for a socket
that did not have one. -/
theorem consider_cases (hp : host.policy = .constantLimit) (hl : pass.Limited K)
    (d : Descriptor S H) :
    (pass.consider host d).2.Limited K ∧
      ((pass.consider host d).1.running = d.running ∧
          (pass.consider host d).2.session.policy = pass.session.policy ∨
        d.running = false ∧ (pass.consider host d).1.running = true ∧
          (pass.consider host d).2.session.policy.inFlight =
            pass.session.policy.inFlight + 1) := by
  have hlimit := hl.limit
  have hbounded := hl.bounded
  unfold consider
  split
  · exact ⟨hl, .inl ⟨rfl, rfl⟩⟩
  split
  · exact ⟨⟨hlimit, hbounded, hl.full⟩, .inl ⟨rfl, rfl⟩⟩
  rename_i hr
  rw [Bool.not_eq_true] at hr
  split
  · exact ⟨hl, .inl ⟨rfl, rfl⟩⟩
  rename_i hd
  by_cases hroom : pass.session.policy.inFlight < pass.session.policy.limit
  · obtain ⟨hrun, hdefer, hpolicy⟩ := ask_granted hp d hroom
    refine ⟨⟨?_, ?_, ?_⟩, .inr ⟨hr, hrun, ?_⟩⟩
    · rw [hpolicy]
      exact hlimit
    · rw [hpolicy]
      exact Nat.succ_le_of_lt (hlimit ▸ hroom)
    · rw [hdefer]
      exact fun h => absurd h hd
    · rw [hpolicy]
  · obtain ⟨hrun, hdefer, hpolicy⟩ := ask_deferred hp d hroom
    refine ⟨⟨?_, ?_, fun _ => ?_⟩, .inl ⟨hrun, hpolicy⟩⟩
    · rw [hpolicy]
      exact hlimit
    · rw [hpolicy]
      exact hbounded
    · rw [hpolicy]
      omega

/-- Whoever is left waiting has made the others wait as well. -/
theorem consider_waiting (hp : host.policy = .constantLimit) (d : Descriptor S H)
    (hc : (pass.consider host d).1.isComplete = false)
    (hr : (pass.consider host d).1.running = false) :
    (pass.consider host d).2.deferred = true := by
  revert hc hr
  unfold consider
  split
  · rename_i hc
    exact fun h => by simp [hc] at h
  split
  · rename_i hr
    exact fun _ h => by simp [hr] at h
  split
  · rename_i hd
    exact fun _ _ => hd
  intro _ hr
  by_cases hroom : pass.session.policy.inFlight < pass.session.policy.limit
  · obtain ⟨hrun, -⟩ := ask_granted hp d hroom
    rw [hrun] at hr
    cases hr
  · obtain ⟨-, hdefer, -⟩ := ask_deferred hp d hroom
    exact hdefer

theorem consider_deferred {pass : AdmissionPass W S H ConstantLimitPolicy} (d : Descriptor S H)
    (hd : pass.deferred = true) : (pass.consider host d).2.deferred = true := by
  unfold consider
  split
  · exact hd
  split
  · exact hd
  · exact hd

end AdmissionPass

namespace Run

/-- What the policy and the registry are after an admission. -/
theorem admitted_limited (hp : host.policy = .constantLimit)
    (r : Run W S H ConstantLimitPolicy) (hl : r.session.policy.limit = K)
    (hb : r.session.policy.inFlight ≤ K) :
    (r.admitted host).session.policy.limit = K ∧ (r.admitted host).session.policy.inFlight ≤ K ∧
      (r.admitted host).session.policy.inFlight + Registry.runningCount r.registry =
        r.session.policy.inFlight + Registry.runningCount (r.admitted host).registry ∧
      ((∃ h d, (r.admitted host).registry.get? h = some d ∧ d.isComplete = false ∧
          d.running = false) → (r.admitted host).session.policy.inFlight = K) := by
  have hstart : (⟨false, [], r.session⟩ : AdmissionPass W S H ConstantLimitPolicy).Limited K :=
    ⟨hl, hb, fun h => by cases h⟩
  have hkeep : ∀ (pass : AdmissionPass W S H ConstantLimitPolicy) (d : Descriptor S H),
      pass.Limited K → (pass.consider host d).2.Limited K := fun pass d h =>
    (AdmissionPass.consider_cases hp h d).1
  have hend := HandleMap.traverse_keeps (m := r.registry) hkeep hstart
  have hcount := HandleMap.countP_traverse (m := r.registry) (f := AdmissionPass.consider host)
    (I := AdmissionPass.Limited K) (g := fun pass => pass.session.policy.inFlight)
    (p := fun d => d.running) (q := fun d => d.running) hkeep ?_ hstart
  · refine ⟨hend.limit, hend.bounded, hcount, ?_⟩
    rintro ⟨h, d, hd, hc, hrun⟩
    exact hend.full (HandleMap.traverse_leaves (J := fun d pass =>
      d.isComplete = false → d.running = false → pass.deferred = true)
      (fun _ d => AdmissionPass.consider_waiting hp d)
      (fun _ _ d hw hc hr => AdmissionPass.consider_deferred d (hw hc hr))
      (HandleMap.mem_values.2 ⟨h, hd⟩) hc hrun)
  · intro pass d hpass
    obtain ⟨-, ⟨hsame, hpolicy⟩ | ⟨hbefore, hafter, hpolicy⟩⟩ :=
      AdmissionPass.consider_cases hp hpass d
    · rw [hsame, hpolicy]
    · rw [hbefore, hafter, hpolicy]
      simp

theorem runningCount_apply {r : Registry S H} (c : Change S) :
    Registry.runningCount (r.apply c) = Registry.runningCount r := by
  unfold Registry.runningCount
  cases c with
  | register g =>
      rcases hg : HandleMap.get? r g.handle with _ | d
      · rw [Registry.apply_register_new hg, HandleMap.countP_insert hg]
        rfl
      · rw [Registry.apply_register_known hg]
        exact HandleMap.countP_modify _ fun _ _ => rfl
  | deregister h => exact HandleMap.countP_modify _ fun _ _ => rfl
  | setOperation h operation =>
      refine HandleMap.countP_modify _ fun d _ => ?_
      split <;> rfl

theorem runningCount_applied (r : Run W S H ConstantLimitPolicy) :
    Registry.runningCount r.applied.registry = Registry.runningCount r.registry :=
  Registry.foldl_apply_keeps
    (I := fun registry _ => Registry.runningCount registry = Registry.runningCount r.registry)
    (fun _ c _ h => (runningCount_apply c).trans h) _ _ rfl

/-- The books of the policy. -/
structure Metered (K : Nat) (r : Run W S H ConstantLimitPolicy) : Prop where
  limit : r.session.policy.limit = K
  observing : r.session.observing = true
  bounded : r.session.policy.inFlight ≤ K
  balance : r.session.policy.inFlight =
    Registry.runningCount r.registry + lost r.session.journal

variable {r r' : Run W S H ConstantLimitPolicy}

theorem Metered.steady (hm : r.Metered K) (hs : r.session.Steady r'.session)
    (hc : Registry.runningCount r'.registry = Registry.runningCount r.registry) :
    r'.Metered K := by
  refine ⟨?_, hs.observing.trans hm.observing, ?_, ?_⟩
  · rw [hs.policy]
    exact hm.limit
  · rw [hs.policy]
    exact hm.bounded
  · rw [hs.policy, hs.lost, hc]
    exact hm.balance

theorem Metered.visited (hm : r.Metered K) (hp : host.policy = .constantLimit)
    (hk : host.handlers.KeepsFinalize) {ε : Type}
    {x : Step (Visit W S H ConstantLimitPolicy) ε Unit} (hx : Step.Works host x)
    {h : SocketHandle} {d : Descriptor S H} (hd : r.registry.get? h = some d) :
    (visit h x r).2.Metered K := by
  have hmoves := hx.moves ⟨d, r.session⟩
  obtain ⟨deeds, hw⟩ := hmoves.worked
  have hs := hmoves.steady hp hk hm.observing
  rw [visit_of_some x hd]
  refine hm.steady hs (HandleMap.countP_modify _ fun d' hd' => ?_)
  rw [hd] at hd'
  rw [← Option.some.inj hd']
  exact hw.running

theorem selectStage_policy (timeout : Duration) (admitted : List SocketHandle)
    (r : Run W S H ConstantLimitPolicy) :
    (selectStage host timeout admitted r).2.session.policy = r.session.policy := by
  unfold selectStage
  dsimp only
  split
  · rfl
  · cases (host.select r.session.world (r.interests host admitted) timeout).stop <;> rfl

/-- A socket that leaves gives back its place, or it is lost. -/
theorem Metered.left (hm : r.Metered K) (hp : host.policy = .constantLimit)
    (hk : host.handlers.KeepsFinalize) {h : SocketHandle} {d : Descriptor S H}
    (hd : r.registry.get? h = some d) (hl : (disconnect host h r).1 ≠ .crashed) :
    (disconnect host h r).2.Metered K := by
  rw [disconnect_of_some hd] at hl ⊢
  have hv := Visit.takeLeave_vacates (v := ⟨d, r.session⟩) hp hk hm.observing hl
  have hc := HandleMap.countP_erase hd fun d => d.running
  have hb := hm.balance
  have hle := hm.bounded
  have hlimit := hv.limit.trans hm.limit
  have hobserving := hv.observing.trans hm.observing
  rcases hv.fate with ⟨hflight, hlost⟩ | ⟨hflight, hlost⟩
  all_goals
    refine ⟨hlimit, hobserving, ?_, ?_⟩
    all_goals
      unfold Registry.runningCount at *
      dsimp only at *
      omega

theorem Metered.serves (hm : r.Metered K) (hp : host.policy = .constantLimit)
    (hk : host.handlers.KeepsFinalize) (h : r.Serves host r') : r'.Metered K := by
  cases h with
  | visited duty hd => exact hm.visited hp hk duty.work_works hd
  | selected timeout admitted =>
      obtain ⟨deeds, hsel, hadv⟩ := selectStage_advances host timeout admitted r
      refine hm.steady ⟨selectStage_policy timeout admitted r, hadv.observing, ?_⟩ ?_
      · rw [hadv.journal]
        exact lost_append_of_plain _ fun deed hd => (hsel deed hd).plain
      · rw [selectStage_registry]
  | left hd hc hl => exact hm.left hp hk hd hl

theorem Metered.admitted (hm : r.Metered K) (hp : host.policy = .constantLimit) :
    (r.admitted host).Metered K := by
  obtain ⟨deeds, hv, hadv⟩ := r.admitted_advances host
  obtain ⟨hlimit, hbounded, hcount, -⟩ := admitted_limited hp r hm.limit hm.bounded
  have hlost : lost (r.admitted host).session.journal = lost r.session.journal := by
    rw [hadv.journal]
    exact lost_append_of_plain _ fun deed hd => (hv deed hd).plain
  refine ⟨hlimit, hadv.observing.trans hm.observing, hbounded, ?_⟩
  have hb := hm.balance
  rw [hlost]
  omega

theorem Metered.move (hm : r.Metered K) (hp : host.policy = .constantLimit)
    (hk : host.handlers.KeepsFinalize) (h : r.Move host r') : r'.Metered K := by
  cases h with
  | applied => exact hm.steady ⟨rfl, rfl, rfl⟩ (runningCount_applied r)
  | admitted => exact hm.admitted hp
  | served h => exact hm.serves hp hk h
  | leavingOff => exact ⟨hm.limit, hm.observing, hm.bounded, hm.balance⟩
  | dismissed => exact hm.steady (.refl _) (HandleMap.countP_map _ fun _ _ => rfl)
  | reported h =>
      obtain ⟨error, hd⟩ := h
      exact hm.visited hp hk (Visit.reportFailure_works error) hd

/-- The books of the policy are kept all along a run. -/
theorem Metered.moves (hm : r.Metered K) (hp : host.policy = .constantLimit)
    (hk : host.handlers.KeepsFinalize) (h : r.Moves host r') : r'.Metered K := by
  induction h with
  | refl => exact hm
  | tail _ hmove ih => exact ih.move hp hk hmove

/-- No more sockets take part than there are places. -/
theorem Metered.runningCount_le (hm : r.Metered K) : Registry.runningCount r.registry ≤ K := by
  have hb := hm.balance
  have hle := hm.bounded
  omega

end Run

end Reactor
