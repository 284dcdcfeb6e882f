import Reactor.Policy.Rules
import Reactor.Proofs.Executor.Reachable
import Reactor.Proofs.Run.Order

/-! A small host for closed examples: its sockets are open, connected and always ready, and what
its hooks do depends on the socket and the kind of the event alone. -/

namespace Reactor.Sample

/-- How many sockets a hook registers at an event of a socket, and how it ends. -/
abbrev Hook := SocketHandle → EventKind → Nat × Ending HandlerError Unit

/-- The hook that answers to one event of one socket. -/
def on (handle : SocketHandle) (kind : EventKind) (newcomers : Nat)
    (verdict : Ending HandlerError Unit) : Hook := fun h k =>
  if h = handle ∧ k = kind then (newcomers, verdict) else (0, .done ())

/-- Sockets that accept everything at once and have nothing to read. -/
def sockets : SocketRules Unit Unit where
  isOpen _ _ := true
  isConnected _ _ := true
  isServer _ _ := false
  rawFd _ _ := none
  connect world socket _ := ⟨.done (), socket, world, false⟩
  pollConnect world socket := ⟨.done true, socket, world, false⟩
  read world socket picker _ _ := (⟨.cut .unreachedFrame, socket, world, false⟩, picker)
  write world socket data _ := ⟨.done data.length, socket, world, false⟩
  close world socket := (socket, world)

/-- Writes one byte. -/
def write : Operation := .write ⟨[0], false⟩

def handlers : HandlerRules Unit Unit Hook where
  onEvent world hook event context :=
    { Reaction.nothing world context with
      requests := .replicate (hook event.handle event.kind).1 (.register () write .empty)
      verdict := (hook event.handle event.kind).2
      metadata := event.descriptor.metadata
      payload := event.payload }
  onFault world _ _ context := .nothing world context

def poll (world : Unit) (_ : List (Nat × PollFlags)) (_ : Nat) : PollAnswer × Unit :=
  (.ok [], world)

variable {P : Type} (rules : PolicyRules Unit Unit Hook P) (policy : P) (hook : Hook)

def host : Host Unit Unit Hook P where
  sockets := sockets
  handlers := handlers
  policy := rules
  select := pollingSelector poll

def idle : Executor Unit Hook P where
  config := .default
  registry := .empty
  handlers := []
  admission := .new rules policy
  control := .idle
  changes := []
  nextHandle := ⟨1⟩

/-- An executor with two sockets that write, and one hook for both. -/
def executor : Executor Unit Hook P :=
  (((idle rules policy).register () write .empty).2.register () write .empty).2.addHandler hook

theorem executor_reachable : (executor rules policy hook).Reachable Unit := by
  have hnew : Executor.new .default (.new rules policy) ⟨1⟩ = .ok (idle rules policy) := rfl
  exact .addHandler (.register (.register (.new hnew) () write .empty) () write .empty) hook

theorem executor_fresh (h : SocketHandle) (d : Descriptor Unit Hook)
    (hd : (executor rules policy hook).registry.get? h = some d) :
    d.metadata.connectFinish = false := by
  have hvalues : (executor rules policy hook).registry.values.map (·.metadata.connectFinish) =
      [false, false] := rfl
  have hmem := List.mem_map_of_mem (f := (·.metadata.connectFinish))
    (HandleMap.mem_values.2 ⟨h, hd⟩)
  rw [hvalues] at hmem
  simpa using hmem

/-- The hooks of the sample keep the metadata of the socket. -/
theorem keepsConnection : (host .noLimit).KeepsConnection := by
  rintro v payload (hook | hook | _) <;> rfl

theorem registersFresh : (host .noLimit).RegistersFresh := by
  rintro _ (⟨v, payload, hook | hook | _⟩ | ⟨v, fault, hook | hook | _⟩)
    socket operation metadata hmem
  · obtain ⟨-, h⟩ := List.mem_replicate.1 hmem
    cases h
    rfl
  · obtain ⟨-, h⟩ := List.mem_replicate.1 hmem
    cases h
    rfl
  all_goals cases hmem

end Reactor.Sample
