import Reactor.Proofs.Executor.Bound

/-! Where the places of the policy are. A socket that leaves gives its place back only if no handler
fails at its last event; otherwise the place stays taken for the rest of the run. -/

namespace Reactor.Executor

variable {W S H : Type} {e : Executor S H ConstantLimitPolicy} {taken : Nat}

/-- At the beginning of every tick, the places that are taken are those of the sockets that take
part and those that were lost. So the policy counts just the sockets that take part as long as no
handler has failed at the last event of one of them. A socket is left waiting by the admission only
when the sockets that take part and the lost places make up the limit. -/
theorem execute_counts_places (he : e.Reachable W) (hidle : e.control.executing = false)
    {limit : Nat} (ha : e.admission = ⟨⟨max limit 1, taken⟩, true⟩)
    (host : Host W S H ConstantLimitPolicy) (hp : host.policy = .constantLimit)
    (hk : host.handlers.KeepsFinalize) (context : ExecutionContext) (world : W) (n : Nat)
    (r : Run W S H ConstantLimitPolicy)
    (hr : Run.ticks host e.config n (Run.startPolicy host (e.started context world)) =
      (.cut .unfinished, r)) :
    r.session.policy.inFlight = Registry.runningCount r.registry + lost r.session.journal ∧
      (r.session.policy.inFlight = Registry.runningCount r.registry ↔
        ¬ PartingFailed r.session.journal) ∧
      ((∃ h d, (r.applied.admitted host).registry.get? h = some d ∧ d.isComplete = false ∧
          d.running = false) →
        Registry.runningCount (r.applied.admitted host).registry + lost r.session.journal =
          max limit 1) := by
  have hsound := he.sound hidle
  have hm : (Run.startPolicy host (e.started context world)).Moves host r :=
    (Run.ticks_follows e.config n).moves_to hsound.keyed hr (by simp)
  have hmetered := (hsound.metered ha hp).moves hp hk hm
  have hbalance := hmetered.balance
  have hexact : r.session.policy.inFlight = Registry.runningCount r.registry ↔
      ¬ PartingFailed r.session.journal := by
    rw [← lost_pos_iff]
    omega
  refine ⟨hbalance, hexact, fun hwaiting => ?_⟩
  have happlied : r.applied.Metered (max limit 1) := hmetered.move hp hk .applied
  obtain ⟨-, -, hcount, hfull⟩ :=
    Run.admitted_limited hp r.applied happlied.limit happlied.bounded
  have hafter := hfull hwaiting
  have hsame := happlied.balance
  have hlost : lost r.applied.session.journal = lost r.session.journal := rfl
  omega

/-- Two sockets and one place, and a handler that fails at the last event of the first one. -/
def leaking : Executor Unit Sample.Hook ConstantLimitPolicy :=
  Sample.executor PolicyRules.constantLimit (.new 1)
    (Sample.on ⟨1⟩ .finalize 0 (.cut (.socket (.peer "late"))))

/-- The run of the executor when its second tick begins. -/
def leaked : Ending RunFailure Exit × Run Unit Unit Sample.Hook ConstantLimitPolicy :=
  Run.ticks (Sample.host .constantLimit) leaking.config 1
    (Run.startPolicy (Sample.host .constantLimit) (leaking.started .empty ()))

theorem execute_counts_places_leaking :
    leaking.Reachable Unit ∧ leaking.control.executing = false ∧
      leaking.admission = ⟨⟨max 1 1, 0⟩, true⟩ ∧
      (Sample.host PolicyRules.constantLimit).handlers.KeepsFinalize ∧
      leaked.1 = .cut .unfinished ∧ PartingFailed leaked.2.session.journal ∧
      leaked.2.session.policy.inFlight ≠ Registry.runningCount leaked.2.registry := by
  have he : leaking.Reachable Unit := Sample.executor_reachable _ _ _
  have hk : (Sample.host PolicyRules.constantLimit).handlers.KeepsFinalize :=
    fun _ _ _ _ => Iff.rfl
  have hunfinished : leaked.1 = .cut .unfinished := by
    decide +kernel
  have hlost : 0 < lost leaked.2.session.journal := by
    decide +kernel
  have hfailed := lost_pos_iff.1 hlost
  have hr : leaked = (.cut .unfinished, leaked.2) := by rw [← hunfinished]
  obtain ⟨-, hexact, -⟩ := execute_counts_places he rfl rfl (Sample.host .constantLimit) rfl hk
    .empty () 1 leaked.2 hr
  exact ⟨he, rfl, rfl, hk, hunfinished, hfailed, fun h => hexact.1 h hfailed⟩

/-- The only place is lost with the first socket: the second one is left waiting although nobody
takes part. -/
theorem leaking_waits :
    leaked.1 = .cut .unfinished ∧ leaked.2.session.policy.inFlight = 1 ∧
      Registry.runningCount leaked.2.registry = 0 ∧
      Registry.runningCount
        (leaked.2.applied.admitted (Sample.host .constantLimit)).registry = 0 ∧
      ((leaked.2.applied.admitted (Sample.host .constantLimit)).registry.get? ⟨2⟩).map
        (fun d => (d.isComplete, d.running)) = some (false, false) := by
  decide +kernel

end Reactor.Executor
