import Reactor.Policy.Rules
import Reactor.Proofs.Executor.Reachable
import Reactor.Proofs.Transport.Assembling

/-! A host for closed examples whose sockets carry bytes: what comes in is scripted and goes through
an assembler, what goes out is taken in scripted portions, and the answers of `poll` are scripted
too. -/

namespace Reactor.Pipes

/-- A socket that is open, and connected as soon as it is asked. What is left of its scripts is what
is still to come in, and how much the next writes take. -/
structure Pipe where
  fd : Option Nat
  assembler : FrameAssembler
  incoming : ChunkScript
  portions : List Nat

def Pipe.new (chunks : List Bytes) (portions : List Nat) : Pipe :=
  ⟨none, .empty, ⟨chunks.map fun bytes => .ok (.data bytes ""), 0⟩, portions⟩

/-- The answers that `poll` still has to give. -/
abbrev Polls := List (List (Option PollFlags))

/-- What a handler makes of the payload of an event, and the kinds of event at which it completes
the socket. -/
structure Hook where
  rewrite : Payload Pipe → Payload Pipe
  completes : List EventKind

def sockets : SocketRules Polls Pipe where
  isOpen _ _ := true
  isConnected _ _ := true
  isServer _ _ := false
  rawFd _ pipe := pipe.fd
  connect world pipe _ := ⟨.done (), pipe, world, false⟩
  pollConnect world pipe := ⟨.done true, pipe, world, false⟩
  read world pipe picker _ _ :=
    let a := pipe.assembler.assemble picker pipe.incoming
    (⟨a.ending.map .ofReading, { pipe with assembler := a.assembler, incoming := a.source }, world,
      false⟩, a.picker)
  write world pipe data _ :=
    ⟨.done (pipe.portions.headD data.length), { pipe with portions := pipe.portions.tail }, world,
      false⟩
  close world pipe := (pipe, world)

/-- Gives the next answer of the script, and none once it is used up. -/
def poll (world : Polls) (_ : List (Nat × PollFlags)) (_ : Nat) : PollAnswer × Polls :=
  (.ok (world.headD []), world.tail)

section

variable (hook : Hook)

def handlers : HandlerRules Polls Pipe Unit where
  onEvent world _ event context :=
    { Reaction.nothing world context with
      metadata := { event.descriptor.metadata with
        requestComplete :=
          event.descriptor.metadata.requestComplete || hook.completes.contains event.kind }
      payload := hook.rewrite event.payload }
  onFault world _ _ context := .nothing world context

def host : Host Polls Pipe Unit Unit where
  sockets := sockets
  handlers := handlers hook
  policy := .noLimit
  select := pollingSelector poll

/-- Pipes read what is still to come in. -/
def assembling : (host hook).sockets.Assembling ChunkScript where
  Is _ := True
  assembler pipe := pipe.assembler
  source _ pipe := pipe.incoming
  read := by
    intro world pipe _ picker previous outcome hr
    obtain ⟨reading, hreading, rfl⟩ := Ending.done_of_map hr
    exact ⟨⟨reading, rfl, hreading⟩, rfl, trivial, rfl⟩
  write _ _ _ := ⟨trivial, rfl⟩
  pollConnect _ := ⟨trivial, rfl⟩
  connect _ _ _ := ⟨trivial, rfl⟩

end

def idle : Executor Pipe Unit Unit where
  config := .default
  registry := .empty
  handlers := []
  admission := ⟨(), false⟩
  control := .idle
  changes := []
  nextHandle := ⟨1⟩

/-- An executor with one pipe, of handle one, and a handler. -/
def executor (pipe : Pipe) (operation : Operation) : Executor Pipe Unit Unit :=
  (idle.register pipe operation .empty).2.addHandler ()

theorem executor_reachable (pipe : Pipe) (operation : Operation) :
    (executor pipe operation).Reachable Polls := by
  have hnew : Executor.new .default ⟨(), false⟩ ⟨1⟩ = .ok idle := rfl
  exact .addHandler (.register (.new hnew) pipe operation .empty) ()

def start (hook : Hook) (pipe : Pipe) (operation : Operation) (polls : Polls) :
    Run Polls Pipe Unit Unit :=
  Run.startPolicy (host hook) ((executor pipe operation).started .empty polls)

theorem start_get? (hook : Hook) (pipe : Pipe) (operation : Operation) (polls : Polls) :
    (start hook pipe operation polls).registry.get? ⟨1⟩ =
      some (.new ⟨1⟩ pipe operation .empty) := rfl

end Reactor.Pipes
