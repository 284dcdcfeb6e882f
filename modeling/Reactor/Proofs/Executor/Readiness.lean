import Reactor.Proofs.Executor.Pipes
import Reactor.Proofs.Run.Readiness

/-! When a connected socket becomes ready to read. Its own descriptor decides that alone, whatever
bytes are kept back from earlier reads. -/

namespace Reactor.Executor

variable {W S H P : Type} {e : Executor S H P}

/-- At any moment of a run that selects by polling, a connected socket with a read operation becomes
ready to read just if it has no descriptor of the system or the answer of `poll` allows to read from
it. What is kept back from earlier reads plays no part in that. A socket that does not become ready
is left as it is by the service of the tick. -/
theorem execute_readies (he : e.Reachable W) (hidle : e.control.executing = false)
    (host : Host W S H P) {poll : W → List (Nat × PollFlags) → Nat → PollAnswer × W}
    (hs : host.select = pollingSelector poll) (context : ExecutionContext) (world : W)
    {r t : Run W S H P} (hr : (Run.startPolicy host (e.started context world)).Moves host r)
    {admitted : List SocketHandle} {h : SocketHandle} {d : Descriptor S H} {op : ReadOperation}
    {timeout : Duration} {ready : Readiness} (hh : h ∈ admitted) (hd : r.registry.get? h = some d)
    (hopen : host.sockets.isOpen r.session.world d.socket = true)
    (hfinish : d.metadata.connectFinish = true) (hc : d.isComplete = false)
    (hb : d.backlog = none) (ho : d.operation = some (.read op))
    (hx : Run.selectStage host timeout admitted r = (.done ready, t)) :
    (h ∈ ready.read ↔ host.sockets.rawFd r.session.world d.socket = none ∨
        ∃ flags, (⟨h, host.sockets.rawFd r.session.world d.socket, true, false⟩, some flags) ∈
            PollSelector.conditions (r.interests host admitted) (PollSelector.reported
              (PollSelector.answer poll r.session.world (r.interests host admitted) timeout)) ∧
          flags.allowsRead = true) ∧
      (h ∉ ready.read → (Run.ioStage host ready t).2.registry.get? h = some d) := by
  have hk := Run.keyed_of_moves (he.sound hidle).keyed hr
  have hint := Descriptor.interest?_read hopen hfinish hc hb ho
  rw [hk h d hd] at hint
  have hmem := List.mem_filterMap.2 ⟨d, List.mem_filterMap.2 ⟨h, hh, hd⟩, hint⟩
  have hone := fun j (hj : j ∈ r.interests host admitted) heq => Run.interests_unique hk hj hmem heq
  have hready := Run.selectStage_done hmem hx
  rw [hs, PollSelector.result_pollingSelector] at hready
  obtain rfl := PollSelector.interpret_ok hready
  refine ⟨PollSelector.mem_read_iff hmem rfl hone, fun hnot => ?_⟩
  have hkept : t.registry = r.registry := by
    have ht : (Run.selectStage host timeout admitted r).2 = t := congrArg Prod.snd hx
    rw [← ht, Run.selectStage_registry]
  rw [Run.spares_ioStage hnot (PollSelector.not_mem_write rfl hone), hkept]
  exact hd

/-- A handler that has every message followed by another one of three bytes. -/
def following : Pipes.Hook where
  rewrite
    | .read frame _ => .read frame (some (.read ⟨.fixedLength (.new 3), false⟩))
    | other => other
  completes := []

/-- A pipe with a descriptor of the system, by which two messages come in at once. -/
def pipelined : Pipes.Pipe := { Pipes.Pipe.new [[97, 98, 99, 100, 101, 102]] [] with fd := some 3 }

/-- The descriptor is readable once, and never again. -/
def pipelinedPolls : Pipes.Polls := [[some ⟨true, false, false, false, false, false⟩]]

/-- The run when its second tick has admitted the pipe. -/
def pipelinedTick : Run Pipes.Polls Pipes.Pipe Unit Unit :=
  (Run.ticks (Pipes.host following) .default 1 (Pipes.start following pipelined
    (.read ⟨.fixedLength (.new 3), false⟩) pipelinedPolls)).2.applied.admitted (Pipes.host following)

/-- What becomes ready in the second tick, and the run after that. -/
def pipelinedSelection : Ending IoError Readiness × Run Pipes.Polls Pipes.Pipe Unit Unit :=
  Run.selectStage (Pipes.host following) ExecutorConfig.default.pollTimeout [⟨1⟩] pipelinedTick

theorem execute_readies_pipelined :
    ∃ d, pipelinedTick.registry.get? ⟨1⟩ = some d ∧ d.socket.assembler.unhandled = [100, 101, 102] ∧
      pipelinedSelection.1 = .done ⟨[], []⟩ ∧
      (Run.ioStage (Pipes.host following) ⟨[], []⟩ pipelinedSelection.2).2.registry.get? ⟨1⟩ =
        some d := by
  have he := Pipes.executor_reachable pipelined (.read ⟨.fixedLength (.new 3), false⟩)
  have hend : (Run.ticks (Pipes.host following) .default 1 (Pipes.start following pipelined
      (.read ⟨.fixedLength (.new 3), false⟩) pipelinedPolls)).1 = .cut .unfinished := by
    decide +kernel
  have hr : (Pipes.start following pipelined (.read ⟨.fixedLength (.new 3), false⟩)
      pipelinedPolls).Moves (Pipes.host following) pipelinedTick := by
    have hticks := (@Run.ticks_follows _ _ _ _ (Pipes.host following) .default 1).moves
      (s := Pipes.start following pipelined (.read ⟨.fixedLength (.new 3), false⟩) pipelinedPolls)
      (he.sound rfl).keyed (by rw [hend]; simp)
    exact (hticks.tail .applied).tail .admitted
  have hfound : ((pipelinedTick.registry.get? ⟨1⟩).map fun d =>
      (d.socket.assembler.unhandled, d.metadata.connectFinish, d.isComplete, d.backlog,
        d.operation)) = some ([100, 101, 102], true, false, none,
          some (.read ⟨.fixedLength (.new 3), false⟩)) := by
    decide +kernel
  obtain ⟨d, hd, hfields⟩ := Option.map_eq_some_iff.1 hfound
  simp only [Prod.mk.injEq] at hfields
  obtain ⟨hunhandled, hfinish, hc, hb, ho⟩ := hfields
  have hready : pipelinedSelection.1 = .done ⟨[], []⟩ := by
    decide +kernel
  have hx : pipelinedSelection = (.done ⟨[], []⟩, pipelinedSelection.2) := by rw [← hready]
  obtain ⟨-, hleft⟩ := execute_readies he rfl (Pipes.host following) rfl .empty pipelinedPolls hr
    (List.mem_singleton.2 rfl) hd rfl hfinish hc hb ho hx
  exact ⟨d, hd, hunhandled, hready, hleft (by simp)⟩

/-- Three bytes are kept back for a pipe that waits to read and has been admitted, and the pipe does
not become ready. -/
theorem pipelined_strands :
    (pipelinedTick.registry.get? ⟨1⟩).map (fun d =>
        (d.running, d.metadata.connectFinish, d.isComplete)) = some (true, true, false) ∧
      (pipelinedTick.registry.get? ⟨1⟩).map (fun d =>
        (d.backlog, d.operation, d.socket.assembler.unhandled)) =
        some (none, some (.read ⟨.fixedLength (.new 3), false⟩), [100, 101, 102]) ∧
      pipelinedSelection.1 = .done ⟨[], []⟩ := by
  decide +kernel

end Reactor.Executor
