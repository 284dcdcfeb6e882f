import Reactor.Proofs.Run.Coherence

/-! The parts of the registered descriptors agree with each other all along a run. -/

namespace Reactor

variable {W S H P : Type} {host : Host W S H P}

/-- The policy may let the descriptor in or hold it back; one that takes part already is not asked
about. -/
theorem Descriptor.Coherent.considered {d : Descriptor S H} (hd : d.Coherent)
    (pass : AdmissionPass W S H P) : (pass.consider host d).1.Coherent := by
  unfold AdmissionPass.consider
  split
  · exact hd
  split
  · exact hd
  rename_i hr
  have hwaiting : d.running = false := Bool.eq_false_iff.2 hr
  have hback : d.running = true → true = false := fun h => absurd h hr
  split
  · exact hd.judged hwaiting hback
  unfold AdmissionPass.ask
  rcases pass.session.decide host d with ⟨decision, session⟩
  cases decision with
  | grant => exact hd.judged hwaiting fun _ => rfl
  | skip => exact hd.judged hwaiting hback
  | defer => exact hd.judged hwaiting hback

namespace Registry

def Coherent (r : Registry S H) : Prop := ∀ h d, HandleMap.get? r h = some d → d.Coherent

variable {r : Registry S H}

theorem Coherent.modify (hr : r.Coherent) (h : SocketHandle)
    {f : Descriptor S H → Descriptor S H} (hf : ∀ d, d.Coherent → (f d).Coherent) :
    Coherent (HandleMap.modify r h f) := by
  intro k d' hd'
  rw [HandleMap.get?_modify] at hd'
  split at hd'
  · obtain ⟨d, hd, rfl⟩ := Option.map_eq_some_iff.1 hd'
    exact hf d (hr k d hd)
  · exact hr k d' hd'

theorem Coherent.apply (hr : r.Coherent) (c : Change S) : (r.apply c).Coherent := by
  cases c with
  | register g =>
      rcases hg : HandleMap.get? r g.handle with _ | d
      · rw [apply_register_new hg]
        intro k d' hd'
        rw [HandleMap.get?_insert hg] at hd'
        split at hd'
        · cases hd'
          exact Descriptor.coherent_new _ _ _ _
        · exact hr k d' hd'
      · rw [apply_register_known hg]
        exact hr.modify _ fun d hd => Descriptor.coherent_setOperation hd.admitted _
  | deregister h => exact hr.modify h fun d hd => hd.markComplete
  | setOperation h operation =>
      refine hr.modify h fun d hd => ?_
      split
      · exact hd
      · exact Descriptor.coherent_setOperation hd.admitted operation

end Registry

namespace Run

variable {r r' : Run W S H P}

/-- A visit that leaves its descriptor in order leaves all of them in order. -/
theorem coherent_visit {ε : Type} {x : Step (Visit W S H P) ε Unit} (hr : r.registry.Coherent)
    {h : SocketHandle} {d : Descriptor S H} (hd : r.registry.get? h = some d)
    (hx : (x ⟨d, r.session⟩).2.descriptor.Coherent) : (visit h x r).2.registry.Coherent := by
  rw [visit_of_some x hd]
  exact hr.modify h fun _ _ => hx

theorem Serves.coherent (hs : host.SelectsAmong) (hm : host.KeepsConnection)
    (hr : r.registry.Coherent) (h : r.Serves host r') : r'.registry.Coherent := by
  cases h with
  | @visited h d duty hd hc hrunning =>
      have hcoherent := hr h d hd
      exact coherent_visit hr hd ((Visit.duty_tidies hm duty).coherent
        (v := ⟨d, r.session⟩) ⟨hcoherent, hc, hrunning hs⟩ hcoherent)
  | selected timeout admitted =>
      rw [selectStage_registry]
      exact hr
  | left hd => exact fun k d' hk => hr k d' (disconnect_get? hd hk).2

/-- Whatever a run does, it leaves every descriptor in order. -/
theorem Move.coherent (hs : host.SelectsAmong) (hm : host.KeepsConnection)
    (hr : r.registry.Coherent) (h : r.Move host r') : r'.registry.Coherent := by
  cases h with
  | applied =>
      exact Registry.foldl_apply_keeps (I := fun registry _ => registry.Coherent)
        (fun _ c _ h => h.apply c) _ _ hr
  | admitted =>
      intro h d' hd'
      obtain ⟨d, pass, hd, rfl⟩ := HandleMap.of_get?_traverse hd'
      exact (hr h d hd).considered pass
  | served h => exact h.coherent hs hm hr
  | leavingOff => exact hr
  | dismissed =>
      intro h d' hd'
      simp only [Run.dismissed, HandleMap.get?_map] at hd'
      obtain ⟨d, hd, rfl⟩ := Option.map_eq_some_iff.1 hd'
      exact (hr h d hd).markComplete
  | reported h =>
      obtain @⟨h, d, error, hd⟩ := h
      exact coherent_visit hr hd ((Visit.reportFailure_tidies error).coherent
        (v := ⟨d, r.session⟩) (hr h d hd) (hr h d hd))

theorem coherent_of_moves (hs : host.SelectsAmong) (hm : host.KeepsConnection)
    (hr : r.registry.Coherent) (h : r.Moves host r') : r'.registry.Coherent := by
  induction h with
  | refl => exact hr
  | tail _ hmove ih => exact hmove.coherent hs hm ih

end Run

end Reactor
