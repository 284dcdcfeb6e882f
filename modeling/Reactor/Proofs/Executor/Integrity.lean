import Reactor.Proofs.Executor.Sample
import Reactor.Proofs.Run.Course
import Reactor.Proofs.Run.Integrity
import Reactor.Proofs.Run.Services

/-! The registered descriptors are in order in every state of a run. -/

namespace Reactor.Executor

variable {W S H P : Type} {e : Executor S H P} {host : Host W S H P} {context : ExecutionContext}
  {world : W}

/-- Before a run begins, nothing is collected or left over. -/
theorem Reachable.coherent (he : e.Reachable W) (hidle : e.control.executing = false) :
    e.registry.Coherent :=
  he.keeps Descriptor.coherent_new (fun _ _ hd => Descriptor.coherent_setOperation hd.admitted _)
    (fun _ _ hd => hd.akin ⟨⟨rfl, rfl, rfl, rfl, rfl, rfl⟩, rfl⟩) hidle

/-- Whatever the hooks, the sockets and the policy do, and however a stage ends: in every state that
a run passes through, each descriptor is registered under its own handle, and its parts agree with
each other. The selector polls, and the hooks leave the mark of an established connection alone. -/
theorem execute_coherent (he : e.Reachable W) (hidle : e.control.executing = false)
    {poll : W → List (Nat × PollFlags) → Nat → PollAnswer × W}
    (hs : host.select = pollingSelector poll) (hm : host.KeepsConnection) {r : Run W S H P}
    (hr : (Run.startPolicy host (e.started context world)).Moves host r) {h : SocketHandle}
    {d : Descriptor S H} (hd : r.registry.get? h = some d) : d.handle = h ∧ d.Coherent := by
  have hkeyed : r.registry.Keyed := Run.keyed_of_moves (he.sound hidle).keyed hr
  have hcoherent : r.registry.Coherent :=
    Run.coherent_of_moves (selectsAmong_polling hs) hm (he.coherent hidle) hr
  exact ⟨hkeyed h d hd, hcoherent h d hd⟩

end Reactor.Executor

/-! ## A host whose sockets accept one byte at a time -/

namespace Reactor.Lingering

def host : Host Unit Unit Sample.Hook Unit :=
  { Sample.host .noLimit with
    sockets :=
      { Sample.sockets with
        write := fun world socket _ _ => ⟨.done 1, socket, world, false⟩ } }

/-- An executor with one socket, which is to write three bytes. -/
def executor : Executor Unit Sample.Hook Unit :=
  ((Sample.idle .noLimit ()).register () (.write ⟨[0, 1, 2], false⟩) .empty).2

theorem executor_reachable : executor.Reachable Unit := by
  have hnew : Executor.new .default (.new .noLimit ()) ⟨1⟩ = .ok (Sample.idle .noLimit ()) := rfl
  exact .register (.new hnew) () (.write ⟨[0, 1, 2], false⟩) .empty

def ticked : Ending RunFailure Exit × Run Unit Unit Sample.Hook Unit :=
  Run.ticks host executor.config 1 (Run.startPolicy host (executor.started .empty ()))

/-- After the first tick two of the three bytes are left, and the socket is at work on them. -/
theorem execute_coherent_ticked :
    executor.Reachable Unit ∧ executor.control.executing = false ∧
      host.select = pollingSelector Sample.poll ∧ host.KeepsConnection ∧
      (Run.startPolicy host (executor.started .empty ())).Moves host ticked.2 ∧
      ∃ d b, ticked.2.registry.get? ⟨1⟩ = some d ∧ d.backlog = some b ∧ b.data = [1, 2] ∧
        d.handle = ⟨1⟩ ∧ d.isComplete = false ∧ d.running = true ∧
        d.metadata.connectFinish = true ∧
        ∃ w, d.operation = some (.write w) ∧ b.data <:+ w.data ∧ b.outOfBand = w.outOfBand := by
  have he : executor.Reachable Unit := executor_reachable
  have hm : host.KeepsConnection := by rintro v payload (hook | hook | _) <;> rfl
  have hunfinished : ticked.1 = .cut .unfinished := by decide +kernel
  have hticked : ticked = (.cut .unfinished, ticked.2) := by rw [← hunfinished]
  have hr : (Run.startPolicy host (executor.started .empty ())).Moves host ticked.2 :=
    (Run.ticks_follows executor.config 1).moves_to (he.sound rfl).keyed hticked (by simp)
  have hleft : (ticked.2.registry.get? ⟨1⟩).map (fun d => d.backlog.map (·.data)) =
      some (some [1, 2]) := by
    decide +kernel
  -- From here on the run is left as it is: evaluating it again would take too long.
  generalize ticked.2 = r at hr hleft ⊢
  obtain ⟨d, hd, hbacklog⟩ := Option.map_eq_some_iff.1 hleft
  obtain ⟨b, hb, hdata⟩ := Option.map_eq_some_iff.1 hbacklog
  obtain ⟨hhandle, hcoherent⟩ := Executor.execute_coherent he rfl rfl hm hr hd
  obtain ⟨hc, hrunning, hconnected, w, hw, -, hsuffix, hband⟩ := hcoherent.backlog b hb
  exact ⟨he, rfl, rfl, hm, hr, d, b, hd, hb, hdata, hhandle, hc, hrunning, hconnected, w, hw,
    hsuffix, hband⟩

end Reactor.Lingering
