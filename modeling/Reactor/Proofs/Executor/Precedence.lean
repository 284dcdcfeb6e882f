import Reactor.Proofs.Executor.Sample
import Reactor.Proofs.Executor.Stop
import Reactor.Proofs.Run.Precedence

/-! First come, first served, in every run with the policy that bounds the number of sockets in
flight. -/

namespace Reactor.Executor

variable {W S H P : Type} {e : Executor S H P} {host : Host W S H P} {context : ExecutionContext}
  {world : W}

/-- A run begins with nobody let in. -/
theorem Sound.ranked (hs : e.Sound) :
    (Run.startPolicy host (e.started context world)).Ranked where
  order := .nil
  known h hh := by
    have hchanges : (Run.startPolicy host (e.started context world)).session.context.changes = [] :=
      hs.changes
    refine ⟨hs.supply h (hh.resolve_right fun hmem => by cases hmem), fun k hk => ?_⟩
    rw [hchanges] at hk
    cases hk
  running h d hd hrun := by
    rw [hs.waiting h d hd] at hrun
    cases hrun
  waiting h d _ _ _ k hk := by cases hk

/-- Whenever a socket takes part in a run with the policy that bounds the number of sockets in
flight, every socket that was registered before it and has something left to do takes part as well,
whatever the handlers register meanwhile. So sockets are let in in the order of their handles. -/
theorem execute_admits_in_order {e : Executor S H ConstantLimitPolicy} (he : e.Reachable W)
    (hidle : e.control.executing = false) (host : Host W S H ConstantLimitPolicy)
    (hp : host.policy = .constantLimit) (context : ExecutionContext) (world : W) :
    (∀ r, (Run.startPolicy host (e.started context world)).Moves host r →
        (∀ h k d d', r.registry.get? h = some d → r.registry.get? k = some d' →
          h.number < k.number → d.isComplete = false → d'.running = true → d.running = true) ∧
        (granted r.session.journal).Pairwise fun h k => h.number < k.number) ∧
      ∀ fuel, (granted (e.execute host fuel context world).journal).Pairwise
        fun h k => h.number < k.number := by
  have hs := he.sound hidle
  have hranked : ∀ r, (Run.startPolicy host (e.started context world)).Moves host r → r.Ranked :=
    fun r hm => hs.ranked.moves (neverSkips_constantLimit hp) (hs.accounted host context world)
      hs.supply hm
  refine ⟨fun r hm => ⟨fun h k d d' hd hd' hlt hc hrun => ?_, (hranked r hm).order⟩, fun fuel => ?_⟩
  · exact (hranked r hm).precedes hd hd' hlt hc hrun
  · obtain ⟨last, hm, -, hend⟩ := hs.ends host fuel context world
    rw [journal_execute hidle, hend.granted_eq]
    exact (hranked last hm).order

/-- Two places, and a hook that registers a third socket when the first one is connected. -/
def paired : Executor Unit Sample.Hook ConstantLimitPolicy :=
  Sample.executor PolicyRules.constantLimit (.new 2) (Sample.on ⟨1⟩ .connected 1 (.done ()))

/-- The second socket takes part after the first admission, and so does the first one. In the whole
run the third one is let in last. -/
theorem execute_admits_in_order_paired :
    paired.Reachable Unit ∧ paired.control.executing = false ∧
      granted (paired.execute (Sample.host .constantLimit) 9 .empty ()).journal =
        [⟨1⟩, ⟨2⟩, ⟨3⟩] ∧
      (granted (paired.execute (Sample.host .constantLimit) 9 .empty ()).journal).Pairwise
        (fun h k => h.number < k.number) ∧
      ∃ r d d', (Run.startPolicy (Sample.host .constantLimit) (paired.started .empty ())).Moves
          (Sample.host .constantLimit) r ∧
        r.registry.get? ⟨1⟩ = some d ∧ r.registry.get? ⟨2⟩ = some d' ∧ d.isComplete = false ∧
        d'.running = true ∧ d.running = true := by
  have he : paired.Reachable Unit := Sample.executor_reachable _ _ _
  obtain ⟨hstates, hjournal⟩ :=
    execute_admits_in_order he rfl (Sample.host .constantLimit) rfl .empty ()
  let r := (Run.startPolicy (Sample.host .constantLimit) (paired.started .empty ())).admitted
    (Sample.host .constantLimit)
  have hm : (Run.startPolicy (Sample.host .constantLimit) (paired.started .empty ())).Moves
      (Sample.host .constantLimit) r := .single .admitted
  obtain ⟨d, hd⟩ : ∃ d, r.registry.get? ⟨1⟩ = some d := ⟨_, rfl⟩
  obtain ⟨d', hd'⟩ : ∃ d', r.registry.get? ⟨2⟩ = some d' := ⟨_, rfl⟩
  have hactive : (r.registry.get? ⟨1⟩).map (·.isComplete) = some false := by decide +kernel
  have hrunning : (r.registry.get? ⟨2⟩).map (·.running) = some true := by decide +kernel
  rw [hd] at hactive
  rw [hd'] at hrunning
  have hc : d.isComplete = false := Option.some.inj hactive
  have hrun : d'.running = true := Option.some.inj hrunning
  exact ⟨he, rfl, by decide +kernel, hjournal 9, r, d, d', hm, hd, hd', hc, hrun,
    (hstates r hm).1 ⟨1⟩ ⟨2⟩ d d' hd hd' (by decide) hc hrun⟩

end Reactor.Executor
