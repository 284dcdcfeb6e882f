import Reactor.Handle.Basic
import Reactor.Operation

/-! A registered socket, together with what is to be done with it. -/

namespace Reactor

/-- What is known about a socket besides its operation. -/
structure Metadata where
  /-- Where to connect to, if the socket is not open yet. -/
  address : Option String
  /-- A value that the caller attached. -/
  userContext : Option Int
  /-- Whether opening has been tried. -/
  connectStart : Bool
  /-- Whether the connection has been established. -/
  connectFinish : Bool
  /-- Whether the present operation has been tried. -/
  lastIoStart : Bool
  /-- Whether nothing is left to do. -/
  requestComplete : Bool
  deriving DecidableEq, Repr

namespace Metadata

def empty : Metadata := ⟨none, none, false, false, false, false⟩

/-- The description of a moment that may not have come yet. -/
def describeMoment (passed : Bool) : String :=
  Text.optional (if passed then some ".." else none)

def describe (m : Metadata) : String :=
  Text.record "Metadata"
    [("address", Text.optional (m.address.map Text.quoted)),
      ("user_context", Text.flag m.userContext.isSome),
      ("connect_start", describeMoment m.connectStart),
      ("connect_finish", describeMoment m.connectFinish),
      ("last_io_start", describeMoment m.lastIoStart),
      ("request_complete", Text.flag m.requestComplete)]

end Metadata

/-- The rest of a payload that the transport has not accepted yet, and the operation to go on with
once it has. -/
structure WriteBacklog where
  data : Bytes
  outOfBand : Bool
  next : Option Operation
  deriving DecidableEq, Repr

/-- Takes away the bytes that were written; a count beyond the end takes everything. -/
def WriteBacklog.drain (b : WriteBacklog) (written : Nat) : WriteBacklog :=
  { b with data := b.data.drop written }

/-- A registered socket. The socket and the handler of its own are of the caller's types. -/
structure Descriptor (S H : Type) where
  handle : SocketHandle
  socket : S
  operation : Option Operation
  metadata : Metadata
  /-- Admitted, and so taking part in the ticks. -/
  running : Bool
  /-- Held back by the admission policy. -/
  postponed : Bool
  /-- What the last read had collected of a message. -/
  previous : Option PartialFrame
  backlog : Option WriteBacklog
  /-- A handler that sees the events of this socket before all others. -/
  handler : Option H

namespace Descriptor

variable {S H : Type}

def new (handle : SocketHandle) (socket : S) (operation : Operation) (metadata : Metadata) :
    Descriptor S H where
  handle := handle
  socket := socket
  operation := some operation
  metadata := metadata
  running := false
  postponed := false
  previous := none
  backlog := none
  handler := none

def isComplete (d : Descriptor S H) : Bool := d.metadata.requestComplete

/-- Replaces the operation. What was collected or left over belongs to the old one and is dropped,
and a completed descriptor becomes active again. -/
def setOperation (d : Descriptor S H) (operation : Operation) : Descriptor S H :=
  { d with
    operation := some operation
    previous := none
    backlog := none
    metadata := { d.metadata with requestComplete := false } }

/-- Nothing is left to do: the socket will be disconnected. -/
def markComplete (d : Descriptor S H) : Descriptor S H :=
  { d with
    operation := none
    backlog := none
    metadata := { d.metadata with requestComplete := true } }

/-- Continues with an operation, or completes the socket if there is none. A completion that a
handler has asked for wins over a next operation. -/
def adoptNext (d : Descriptor S H) (next : Option Operation) : Descriptor S H :=
  match next with
  | some operation =>
      if d.isComplete then d.markComplete
      else { d with metadata := { d.metadata with lastIoStart := false } }.setOperation operation
  | none => d.markComplete

/-- Gives a listener an unused picker for its next client. -/
def restartRead (d : Descriptor S H) : Descriptor S H :=
  { d with
    previous := none
    operation := d.operation.map fun
      | .read r => .read { r with picker := r.picker.reset }
      | .write w => .write w }

def mapMetadata (d : Descriptor S H) (f : Metadata → Metadata) : Descriptor S H :=
  { d with metadata := f d.metadata }

def describe (d : Descriptor S H) : String :=
  Text.record "OperationDescriptor"
    [("handle", d.handle.describe), ("operation", Operation.describeKind d.operation),
      ("running", Text.flag d.running), ("postponed", Text.flag d.postponed),
      ("complete", Text.flag d.isComplete),
      ("backlog", Text.optional (d.backlog.map fun b => toString b.data.length))]

@[simp] theorem handle_setOperation (d : Descriptor S H) (o : Operation) :
    (d.setOperation o).handle = d.handle := rfl

@[simp] theorem handle_markComplete (d : Descriptor S H) : d.markComplete.handle = d.handle := rfl

@[simp] theorem isComplete_markComplete (d : Descriptor S H) :
    d.markComplete.isComplete = true := rfl

@[simp] theorem handle_adoptNext (d : Descriptor S H) (next : Option Operation) :
    (d.adoptNext next).handle = d.handle := by
  unfold adoptNext
  split
  · split <;> rfl
  · rfl

end Descriptor

end Reactor
