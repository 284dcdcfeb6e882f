import Reactor.Proofs.Executor.Sample
import Reactor.Proofs.Run.Metered
import Reactor.Proofs.Run.Services
import Reactor.Proofs.Run.Ticks

/-! The policy that bounds the number of sockets in flight keeps its bound in every run. -/

namespace Reactor.Executor

variable {W S H : Type} {e : Executor S H ConstantLimitPolicy} {K taken : Nat}
  {host : Host W S H ConstantLimitPolicy} {context : ExecutionContext} {world : W}

/-- A run begins with all places free and nobody taking part. -/
theorem Sound.metered (hs : e.Sound) (ha : e.admission = ⟨⟨K, taken⟩, true⟩)
    (hp : host.policy = .constantLimit) :
    (Run.startPolicy host (e.started context world)).Metered K := by
  have hpolicy : (Run.startPolicy host (e.started context world)).session.policy = ⟨K, 0⟩ := by
    have hadm : e.admission.policy = ⟨K, taken⟩ := by rw [ha]
    simp only [Run.startPolicy, started, beginning, hp, hadm]
    rfl
  have hobserving : (Run.startPolicy host (e.started context world)).session.observing = true := by
    simp only [Run.startPolicy, started, beginning, ha]
    rfl
  have hnobody : Registry.runningCount e.registry = 0 := by
    refine List.countP_eq_zero.2 fun d hd => ?_
    obtain ⟨h, hd⟩ := HandleMap.mem_values.1 hd
    simp [hs.waiting h d hd]
  refine ⟨?_, hobserving, ?_, ?_⟩
  · rw [hpolicy]
  · rw [hpolicy]
    exact Nat.zero_le K
  · rw [hpolicy]
    exact hnobody.symm

/-- With the policy that bounds the number of sockets in flight and a selector that polls, no more
sockets take part than there are places, whatever the handlers do, as long as they do not make
another event of the last one of a socket, or a last one of another. Sockets are called, and events
about their connection and their traffic are raised, only while they take part. So no tick serves
more sockets than there are places. -/
theorem execute_bounds_service (he : e.Reachable W) (hidle : e.control.executing = false)
    {limit : Nat} (ha : e.admission = ⟨⟨max limit 1, taken⟩, true⟩)
    (host : Host W S H ConstantLimitPolicy) (hp : host.policy = .constantLimit)
    (poll : W → List (Nat × PollFlags) → Nat → PollAnswer × W)
    (hs : host.select = pollingSelector poll) (hk : host.handlers.KeepsFinalize) (fuel : Nat)
    (context : ExecutionContext) (world : W) :
    (∀ r, (Run.startPolicy host (e.started context world)).Moves host r →
        Registry.runningCount r.registry ≤ max limit 1) ∧
      (∀ s ∈ services (e.execute host fuel context world).journal, s.2.running = true) ∧
      ∀ n r, Run.ticks host e.config n (Run.startPolicy host (e.started context world)) =
          (.cut .unfinished, r) →
        ∃ deeds, (Run.tick host e.config r).2.session.journal = r.session.journal ++ deeds ∧
          ((services deeds).map Prod.fst).dedup.length ≤ max limit 1 := by
  have hsound := he.sound hidle
  have hselect := selectsAmong_polling hs
  have hmetered : ∀ r, (Run.startPolicy host (e.started context world)).Moves host r →
      r.Metered (max limit 1) := fun r hm => (hsound.metered ha hp).moves hp hk hm
  refine ⟨fun r hm => (hmetered r hm).runningCount_le, ?_, fun n r hr => ?_⟩
  · obtain ⟨last, hm, -, hend⟩ := hsound.ends host fuel context world
    rw [execute_apply host fuel context world hidle]
    dsimp only
    rw [hend.serviced]
    exact Run.services_of_moves hselect hsound.keyed (fun s hmem => by cases hmem) hm
  · have hm : (Run.startPolicy host (e.started context world)).Moves host r :=
      (Run.ticks_follows e.config n).moves_to hsound.keyed hr (by simp)
    obtain ⟨deeds, hj, hd⟩ := Run.tick_services hselect e.config
      (Run.keyed_of_moves hsound.keyed hm)
    refine ⟨deeds, hj, ?_⟩
    have hle := (hmetered _ ((hm.tail .applied).tail .admitted)).runningCount_le
    refine Nat.le_trans (Run.length_le_runningCount (List.nodup_dedup _) fun h hmem => ?_) hle
    obtain ⟨s, hs, rfl⟩ := List.mem_map.1 (List.mem_dedup.1 hmem)
    exact hd s hs

/-- Two sockets and one place, and a hook that registers a third socket when the first one is
connected. -/
def crowded : Executor Unit Sample.Hook ConstantLimitPolicy :=
  Sample.executor PolicyRules.constantLimit (.new 1) (Sample.on ⟨1⟩ .connected 1 (.done ()))

theorem execute_bounds_service_crowded :
    crowded.Reachable Unit ∧ crowded.control.executing = false ∧
      crowded.admission = ⟨⟨max 1 1, 0⟩, true⟩ ∧
      (Sample.host PolicyRules.constantLimit).handlers.KeepsFinalize ∧
      (∀ s ∈ services
        (crowded.execute (Sample.host .constantLimit) 9 .empty ()).journal, s.2.running = true) ∧
      ∃ s, s ∈ services (crowded.execute (Sample.host .constantLimit) 9 .empty ()).journal ∧
        s.1 = ⟨3⟩ := by
  have he : crowded.Reachable Unit := Sample.executor_reachable _ _ _
  have hk : (Sample.host PolicyRules.constantLimit).handlers.KeepsFinalize := fun _ _ _ _ => Iff.rfl
  refine ⟨he, rfl, rfl, hk, ?_, ?_⟩
  · exact (execute_bounds_service he rfl rfl (Sample.host .constantLimit) rfl Sample.poll rfl hk 9
      .empty ()).2.1
  · have hthird : (services (crowded.execute (Sample.host .constantLimit) 9 .empty ()).journal).any
        (fun s => s.1 = ⟨3⟩) = true := by
      decide +kernel
    obtain ⟨s, hmem, hs⟩ := List.any_eq_true.1 hthird
    exact ⟨s, hmem, by simpa using hs⟩

end Reactor.Executor
