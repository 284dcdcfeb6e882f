import Reactor.Proofs.Executor.Enrolment
import Reactor.Proofs.Run.Muting
import Reactor.Proofs.Run.Replay

/-! What hooks ask for besides a stop waits for the next tick, and is granted in order. -/

namespace Reactor.Executor

variable {W S H P : Type} {e : Executor S H P}

/-- The changes that hooks ask for are deferred. Until the queue is applied again, the registry only
loses sockets, and the queue grows by what the hooks ask for, in that order. The tick in which it is
asked for would be the same without it. When the queue is applied, be it at the beginning of a tick
or because the run has been stopped, every handle gets what the changes that name it make of it one
after the other: a registration finds nothing and begins with a new descriptor, and a removal
completes the socket for good. -/
theorem execute_defers (he : e.Reachable W) (hidle : e.control.executing = false)
    (host : Host W S H P) (context : ExecutionContext) (world : W) {r : Run W S H P}
    (hr : (Run.startPolicy host (e.started context world)).Moves host r) :
    (∀ r', r.Move host r' ↔ r' = r.applied ∨ r.Interim host r') ∧
      (∀ r', Relation.ReflTransGen (Run.Interim host) r r' → ∃ deeds, r.Defers deeds r') ∧
      Run.tick host.muted e.config r.applied.muted =
        ((Run.tick host e.config r).1, (Run.tick host e.config r).2.muted) ∧
      Run.conclude host .stopped r = (.done (), r.applied.dismissed) ∧
      r.applied.session.context.changes = [] ∧
      (∀ h, r.applied.registry.get? h =
        replay r.session.context.changes h (r.registry.get? h)) ∧
      (∀ h, (∀ c ∈ r.session.context.changes, c.handle ≠ h) →
        r.applied.registry.get? h = r.registry.get? h) ∧
      (∀ before g after, r.session.context.changes = before ++ .register g :: after →
        replay before g.handle (r.registry.get? g.handle) = none ∧
          r.applied.registry.get? g.handle = replay after g.handle (some g.descriptor)) ∧
      ∀ before h after d, r.session.context.changes = before ++ .deregister h :: after →
        replay before h (r.registry.get? h) = some d →
          r.applied.registry.get? h = some d.markComplete := by
  have hs := he.sound hidle
  have ha := (hs.accounted host context world).moves hs.supply hr
  refine ⟨fun _ => Run.move_iff, fun _ => Run.defers_of_interims,
    Run.mirrors_attend e.config r.applied, rfl, rfl, r.get?_applied, fun h hh => ?_,
    fun before g after hq => ⟨ha.replay_before hs.supply hq, ha.get?_registered hs.supply hq⟩,
    fun before h after d hq hd => ha.get?_deregistered hs.supply hq hd⟩
  rw [r.get?_applied, replay_of_unnamed hh]

end Reactor.Executor

/-! ## A host whose hook queues several changes of the same sockets -/

namespace Reactor.Deferring

/-- The hook of the first socket gives it up as soon as it is connected, asks for other work for it
all the same, and registers another socket, for which it then chooses other work too. -/
def handlers : HandlerRules Unit Unit Unit where
  onEvent world _ event context :=
    { EventReaction.nothing world event context with
      requests :=
        if event.handle = ⟨1⟩ ∧ event.kind = .connected then
          [.deregister ⟨1⟩, .setOperation ⟨1⟩ Sample.write, .register () Sample.write .empty,
            .setOperation ⟨2⟩ (.read ⟨.raw .new, false⟩)]
        else [] }
  onFault world _ _ context := .nothing world context

def host : Host Unit Unit Unit Unit := { Reconnecting.host with handlers := handlers }

def ticked : Ending RunFailure Exit × Run Unit Unit Unit Unit :=
  Run.ticks host Reconnecting.executor.config 1
    (Run.startPolicy host (Reconnecting.executor.started .empty ()))

/-- After the first tick all of it is queued, and the first socket still has something left to do.
When the queue is applied, it is completed in spite of the other work that was asked for later, and
the new socket begins with the work that was chosen last. -/
theorem execute_defers_ticked :
    Reconnecting.executor.Reachable Unit ∧ Reconnecting.executor.control.executing = false ∧
      (Run.startPolicy host (Reconnecting.executor.started .empty ())).Moves host ticked.2 ∧
      ticked.2.session.context.changes =
        [.deregister ⟨1⟩, .setOperation ⟨1⟩ Sample.write,
          .register ⟨⟨2⟩, (), Sample.write, .empty⟩,
          .setOperation ⟨2⟩ (.read ⟨.raw .new, false⟩)] ∧
      ∃ d, ticked.2.registry.get? ⟨1⟩ = some d ∧ d.isComplete = false ∧
        ticked.2.applied.registry.get? ⟨1⟩ = some d.markComplete ∧
        (ticked.2.applied.registry.get? ⟨2⟩).map (·.operation) =
          some (some (.read ⟨.raw .new, false⟩)) := by
  have he : Reconnecting.executor.Reachable Unit := Reconnecting.executor_reachable
  have hunfinished : ticked.1 = .cut .unfinished := by decide +kernel
  have hticked : ticked = (.cut .unfinished, ticked.2) := by rw [← hunfinished]
  have hr : (Run.startPolicy host (Reconnecting.executor.started .empty ())).Moves host ticked.2 :=
    (Run.ticks_follows Reconnecting.executor.config 1).moves_to (he.sound rfl).keyed hticked
      (by simp)
  have hq : ticked.2.session.context.changes =
      [.deregister ⟨1⟩, .setOperation ⟨1⟩ Sample.write,
        .register ⟨⟨2⟩, (), Sample.write, .empty⟩,
        .setOperation ⟨2⟩ (.read ⟨.raw .new, false⟩)] := by
    decide +kernel
  have hactive : (ticked.2.registry.get? ⟨1⟩).map (·.isComplete) = some false := by decide +kernel
  -- From here on the run is left as it is: evaluating it again would take too long.
  generalize ticked.2 = r at hr hq hactive ⊢
  obtain ⟨d, hd, hc⟩ := Option.map_eq_some_iff.1 hactive
  obtain ⟨-, -, -, -, -, -, -, hregistered, hderegistered⟩ :=
    Executor.execute_defers he rfl host .empty () hr
  refine ⟨he, rfl, hr, hq, d, hd, hc, hderegistered [] ⟨1⟩ _ d hq hd, ?_⟩
  rw [(hregistered [_, _] _ [_] hq).2]
  rfl

end Reactor.Deferring
