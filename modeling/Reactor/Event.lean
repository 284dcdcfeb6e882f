import Reactor.Descriptor
import Reactor.Error.Basic

/-!
What handlers are told about a socket. In the life of a socket, `connected` comes first, then any
number of `read`, `write` and `accept`, then `disconnected` and `finalize`; faults may be reported
at any point.
-/

namespace Reactor

/-- The kinds of event; `exception` is the kind of a fault. -/
inductive EventKind where
  | connected | read | write | accept | disconnected | exception | finalize
  deriving DecidableEq, Repr

namespace EventKind

def name : EventKind → String
  | connected => "connected"
  | read => "read"
  | write => "write"
  | accept => "accept"
  | disconnected => "disconnected"
  | exception => "exception"
  | finalize => "finalize"

def ofName? (name : String) : Option EventKind :=
  [connected, read, write, accept, disconnected, exception, finalize].find? (·.name = name)

def describe : EventKind → String
  | connected => "Connected"
  | read => "Read"
  | write => "Write"
  | accept => "Accept"
  | disconnected => "Disconnected"
  | exception => "Exception"
  | finalize => "Finalize"

end EventKind

/-- What an event carries. Handlers may choose the next operation after a message was read or is
about to be written, replace what is about to be written, and take an accepted client. -/
inductive Payload (S : Type) where
  | connected
  | read (frame : Frame) (next : Option Operation)
  | write (operation : WriteOperation) (next : Option Operation)
  | accept (client : Option S) (address : String)
  | disconnected
  | finalize

namespace Payload

variable {S : Type}

def kind : Payload S → EventKind
  | connected => .connected
  | read _ _ => .read
  | write _ _ => .write
  | accept _ _ => .accept
  | disconnected => .disconnected
  | finalize => .finalize

def next? : Payload S → Option Operation
  | read _ next | write _ next => next
  | _ => none

/-- Whether the payload has a place for a next operation. -/
def carriesNext : Payload S → Bool
  | read _ _ | write _ _ => true
  | _ => false

/-- Fills or clears the place of the next operation, if there is one. -/
def withNext (p : Payload S) (next : Option Operation) : Payload S :=
  match p with
  | read frame _ => read frame next
  | write operation _ => write operation next
  | other => other

def frame? : Payload S → Option Frame
  | read frame _ => some frame
  | _ => none

def writeOperation? : Payload S → Option WriteOperation
  | write operation _ => some operation
  | _ => none

def withData (p : Payload S) (data : Bytes) : Payload S :=
  match p with
  | write operation next => write { operation with data := data } next
  | other => other

/-- An accepted client that nobody has taken. -/
def client? : Payload S → Option S
  | accept client _ => client
  | _ => none

/-- The payload after its client has been taken. -/
def withoutClient : Payload S → Payload S
  | accept _ address => accept none address
  | other => other

def clientAddress? : Payload S → Option String
  | accept _ address => some address
  | _ => none

def describe : Payload S → String
  | read frame next =>
      Text.record "Read"
        [("frame", toString frame.data.length), ("next", Operation.describeKind next)]
  | write operation next =>
      Text.record "Write"
        [("operation", operation.describe), ("next", Operation.describeKind next)]
  | accept client address =>
      Text.record "Accept"
        [("client", Text.flag client.isSome), ("address", Text.quoted address)]
  | other => other.kind.name

@[simp] theorem kind_withNext (p : Payload S) (next : Option Operation) :
    (p.withNext next).kind = p.kind := by
  cases p <;> rfl

@[simp] theorem kind_withData (p : Payload S) (data : Bytes) : (p.withData data).kind = p.kind := by
  cases p <;> rfl

@[simp] theorem kind_withoutClient (p : Payload S) : p.withoutClient.kind = p.kind := by
  cases p <;> rfl

end Payload

structure Event (S H : Type) where
  descriptor : Descriptor S H
  payload : Payload S

namespace Event

variable {S H : Type}

def kind (e : Event S H) : EventKind := e.payload.kind

def handle (e : Event S H) : SocketHandle := e.descriptor.handle

def describe (e : Event S H) : String :=
  Text.record "Event" [("socket", e.handle.describe), ("payload", e.payload.describe)]

end Event

/-- A failure of a socket, as it is reported to the exception hooks: with the kind of the event
that was being handled, if there was one. -/
structure Fault (S H : Type) where
  descriptor : Descriptor S H
  error : SocketError
  event : Option EventKind

namespace Fault

variable {S H : Type}

def handle (f : Fault S H) : SocketHandle := f.descriptor.handle

def describe (f : Fault S H) : String :=
  Text.record "Fault"
    [("socket", f.handle.describe), ("error", Text.quoted f.error.message),
      ("event", Text.optional (f.event.map EventKind.describe))]

end Fault

end Reactor
