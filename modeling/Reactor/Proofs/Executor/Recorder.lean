import Reactor.Proofs.Executor.Enactment
import Reactor.Proofs.Executor.Sample

/-! A small host for closed examples that keeps a record of its own: of whom its hooks were told,
and which of its sockets were closed. -/

namespace Reactor.Recorder

inductive Entry where
  | told (handle : SocketHandle) (kind : EventKind)
  | closed (name : Nat)
  deriving DecidableEq, Repr

def Entry.closed? : Entry → Option Nat
  | closed name => some name
  | told _ _ => none

def Entry.isAbout (number : Nat) : Entry → Bool
  | told handle _ => handle.number = number
  | closed name => name = number

structure Endpoint where
  name : Nat
  isOpen : Bool
  deriving DecidableEq, Repr

/-- Sockets that are open or not, and stay so until they are closed. -/
def sockets : SocketRules (List Entry) Endpoint where
  isOpen _ socket := socket.isOpen
  isConnected _ socket := socket.isOpen
  isServer _ _ := false
  rawFd _ _ := none
  connect record socket _ := ⟨.done (), socket, record, false⟩
  pollConnect record socket := ⟨.done true, socket, record, false⟩
  read record socket picker _ _ := (⟨.cut .unreachedFrame, socket, record, false⟩, picker)
  write record socket data _ := ⟨.done data.length, socket, record, false⟩
  close record socket := ({ socket with isOpen := false }, record ++ [.closed socket.name])

def hearing {H : Type} (record : List Entry) (event : Event Endpoint H)
    (context : RunContext Endpoint) : EventReaction (List Entry) Endpoint :=
  .nothing (record ++ [.told event.handle event.kind]) event context

def hearingFault {H : Type} (record : List Entry) (fault : Fault Endpoint H)
    (context : RunContext Endpoint) : Reaction (List Entry) Endpoint :=
  .nothing (record ++ [.told fault.handle .exception]) context

/-- The sockets that a hook registers at an event of a socket, and how it ends. -/
abbrev Hook := SocketHandle → EventKind → List Endpoint × Ending HandlerError Unit

/-- The hook that answers to one event of one socket. -/
def on (handle : SocketHandle) (kind : EventKind) (newcomers : List Endpoint)
    (verdict : Ending HandlerError Unit) : Hook := fun h k =>
  if h = handle ∧ k = kind then (newcomers, verdict) else ([], .done ())

def handlers : HandlerRules (List Entry) Endpoint Hook where
  onEvent record hook event context :=
    { hearing record event context with
      requests := (hook event.handle event.kind).1.map (.register · Sample.write .empty)
      verdict := (hook event.handle event.kind).2 }
  onFault record _ fault context := hearingFault record fault context

def host : Host (List Entry) Endpoint Hook Unit where
  sockets := sockets
  handlers := handlers
  policy := .noLimit
  select record interests _ := ⟨.ok ⟨[], interests.map (·.handle)⟩, record, false⟩

section Executors

variable {H : Type}

def idle : Executor Endpoint H Unit where
  config := .default
  registry := .empty
  handlers := []
  admission := ⟨(), false⟩
  control := .idle
  changes := []
  nextHandle := ⟨1⟩

/-- An executor with two sockets that write, and one hook for both. -/
def executor (first second : Endpoint) (hook : H) : Executor Endpoint H Unit :=
  ((idle.register first Sample.write .empty).2.register second Sample.write .empty).2.addHandler
    hook

theorem executor_reachable (first second : Endpoint) (hook : H) :
    (executor first second hook).Reachable (List Entry) := by
  have hnew : Executor.new .default ⟨(), false⟩ ⟨1⟩ = .ok (idle : Executor Endpoint H Unit) := rfl
  exact .addHandler (.register (.register (.new hnew) first Sample.write .empty) second Sample.write
    .empty) hook

end Executors

end Reactor.Recorder
