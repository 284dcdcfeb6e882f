import Reactor.Proofs.Executor.Sample
import Reactor.Proofs.Run.OrderedRun
import Reactor.Proofs.Run.Ticks

/-! The events of every socket are in order, and a run that ends well has told every socket that it
held of its end. -/

namespace Reactor.Executor

variable {W S H P : Type} {e : Executor S H P} {host : Host W S H P} {context : ExecutionContext}
  {world : W}

theorem Sound.orderly (hs : e.Sound)
    (hfresh : ∀ h d, e.registry.get? h = some d → d.metadata.connectFinish = false) :
    (Run.startPolicy host (e.started context world)).Orderly := by
  refine ⟨fun h d hd => ?_, fun h => ⟨.fresh, rfl⟩, fun h hne => absurd rfl hne, fun g hg => ?_⟩
  · have hstage : d.stage = .fresh := by
      unfold Descriptor.stage
      rw [hfresh h d hd]
      rfl
    rw [hstage]
    rfl
  · have hchanges : (Run.startPolicy host (e.started context world)).session.context.changes = [] :=
      hs.changes
    rw [hchanges] at hg
    cases hg

/-- The events of every socket are in order, however the run ends. -/
theorem Sound.accepted (hs : e.Sound) (hm : host.KeepsConnection) (hf : host.RegistersFresh)
    (hfresh : ∀ h d, e.registry.get? h = some d → d.metadata.connectFinish = false)
    (context : ExecutionContext) (world : W) (fuel : Nat) (h : SocketHandle) :
    ∃ t, Stage.fresh.after? (notices h
      (Run.perform host e.config fuel (e.started context world)).2.session.journal) = some t := by
  obtain ⟨last, hmoves, ha, hend⟩ := hs.ends host fuel context world
  have ho := (hs.orderly hfresh).moves (hs.accounted host context world) hs.supply hm hf hmoves
  exact ho.ends ha.keyed hend h

/-- A run that ends well has told every socket that it held of its end. -/
theorem Sound.finalized (hs : e.Sound) {fuel : Nat}
    (hdone : (Run.perform host e.config fuel (e.started context world)).1 = .done ())
    {h : SocketHandle}
    (hreg : (Run.startPolicy host (e.started context world)).Registered host e.config h) :
    .event .finalize ∈ notices h
      (Run.perform host e.config fuel (e.started context world)).2.session.journal := by
  obtain ⟨t, hx, he, hlast⟩ := Run.perform_done host e.config fuel hs.keyed hdone
  obtain ⟨r, hmem, hbefore, hafter⟩ := hreg.moves hs.keyed hx
  rw [hlast, Run.notices_closeAll, Run.notices_finishPolicy]
  refine (Run.finalized_of_moves (Run.keyed_of_moves hs.keyed hbefore) hafter
    (.inl hmem)).resolve_left fun hleft => ?_
  obtain ⟨d, hd⟩ := HandleMap.mem_keys.1 hleft
  rw [he h] at hd
  cases hd

/-- Sockets that are registered before their connection has been established go through their
events in order, whatever the hooks do, as long as they do not assign the mark of an established
connection themselves. After a run that ends well every socket that was ever registered has been
told of its end once. -/
theorem execute_lifecycle (he : e.Reachable W) (host : Host W S H P)
    (hm : host.KeepsConnection) (hf : host.RegistersFresh)
    (hfresh : ∀ h d, e.registry.get? h = some d → d.metadata.connectFinish = false) (fuel : Nat)
    (context : ExecutionContext) (world : W) :
    (∀ h, Lifecycle (notices h (e.execute host fuel context world).journal)) ∧
      ((e.execute host fuel context world).ending = .done () →
        ∀ h, (Run.startPolicy host (e.started context world)).Registered host e.config h →
          (notices h (e.execute host fuel context world).journal).count (.event .finalize) = 1) := by
  cases hexec : e.control.executing with
  | true =>
      rw [execute_executing host fuel context world hexec]
      have hnone : Stage.fresh.after? [] = some .fresh := rfl
      exact ⟨fun _ => Stage.lifecycle hnone, fun h => by cases h⟩
  | false =>
      have hs := he.sound hexec
      rw [execute_apply host fuel context world hexec]
      have hlife : ∀ h, Lifecycle (notices h
          (Run.perform host e.config fuel (e.started context world)).2.session.journal) := by
        intro h
        obtain ⟨t, ht⟩ := hs.accepted hm hf hfresh context world fuel h
        exact Stage.lifecycle ht
      refine ⟨hlife, fun hdone h hreg => Nat.le_antisymm (hlife h).finalizeOnce ?_⟩
      refine List.count_pos_iff.2 (hs.finalized ?_ hreg)
      revert hdone
      rcases Run.perform host e.config fuel (e.started context world) with ⟨_ | (text | _) | _, r⟩
      · exact fun _ => rfl
      · exact fun h => by cases h
      · exact fun h => by cases h
      · exact fun h => by cases h

/-- Two sockets, and a hook that registers a third when the first one is connected. -/
def spawning : Executor Unit Sample.Hook Unit :=
  Sample.executor PolicyRules.noLimit () (Sample.on ⟨1⟩ .connected 1 (.done ()))

/-- A socket that was registered during the run has its last event once. -/
theorem execute_lifecycle_spawning :
    spawning.Reachable Unit ∧ (Sample.host .noLimit).KeepsConnection ∧
      (Sample.host .noLimit).RegistersFresh ∧
      (∀ h d, spawning.registry.get? h = some d → d.metadata.connectFinish = false) ∧
      (spawning.execute (Sample.host .noLimit) 5 .empty ()).ending = .done () ∧
      (Run.startPolicy (Sample.host .noLimit) (spawning.started .empty ())).Registered
        (Sample.host .noLimit) spawning.config ⟨3⟩ ∧
      (notices ⟨3⟩ (spawning.execute (Sample.host .noLimit) 5 .empty ()).journal).count
        (.event .finalize) = 1 := by
  have he : spawning.Reachable Unit := Sample.executor_reachable _ _ _
  have hm : (Sample.host .noLimit).KeepsConnection := Sample.keepsConnection
  have hf : (Sample.host .noLimit).RegistersFresh := Sample.registersFresh
  have hfresh : ∀ h d, spawning.registry.get? h = some d → d.metadata.connectFinish = false :=
    Sample.executor_fresh _ _ _
  have hdone : (spawning.execute (Sample.host .noLimit) 5 .empty ()).ending = .done () := by
    decide +kernel
  have hreg : (Run.startPolicy (Sample.host .noLimit) (spawning.started .empty ())).Registered
      (Sample.host .noLimit) spawning.config ⟨3⟩ := by
    refine .of_ticks 1 ?_ ?_
    · decide +kernel
    · decide +kernel
  exact ⟨he, hm, hf, hfresh, hdone, hreg,
    (execute_lifecycle he _ hm hf hfresh 5 .empty ()).2 hdone ⟨3⟩ hreg⟩

end Reactor.Executor
