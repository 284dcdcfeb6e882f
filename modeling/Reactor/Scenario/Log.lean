import Reactor.Change
import Reactor.Duration
import Reactor.Event
import Reactor.Policy.Decision
import Reactor.Scenario.Socket
import Reactor.Select.Interest

/-! What happens in a scenario, as it is logged. -/

namespace Reactor.Scenario

/-- A descriptor as it is seen at a moment. -/
structure DescriptorView where
  operation : Option Operation
  metadata : Metadata
  running : Bool
  postponed : Bool
  previous : Option PartialFrame
  backlog : Option WriteBacklog
  /-- Whether the socket has a handler of its own. -/
  own : Bool
  isOpen : Bool
  isConnected : Bool

/-- The view of a descriptor whose socket is in the given condition. -/
def DescriptorView.of {S H : Type} (d : Descriptor S H) (isOpen isConnected : Bool) :
    DescriptorView where
  operation := d.operation
  metadata := d.metadata
  running := d.running
  postponed := d.postponed
  previous := d.previous
  backlog := d.backlog
  own := d.handler.isSome
  isOpen := isOpen
  isConnected := isConnected

/-- What an action of a handler comes to. -/
inductive ActionResult where
  | nothing
  | flag (value : Bool)
  | handle (value : SocketHandle)
  | integer (value : Int)
  | text (value : String)

inductive LogEntry where
  | opened (socket address : String) (result : Except SocketError Unit)
  | polled (socket : String) (result : Except SocketError Bool)
  /-- A read, with the bytes left over afterwards and the outcome as it is described. -/
  | read (socket : String) (outOfBand : Bool) (previous : Option PartialFrame) (left : Bytes)
      (result : Except SocketError String)
  | wrote (socket : String) (outOfBand : Bool) (data : Bytes) (result : Except SocketError Nat)
  | closed (socket : String)
  | event (hook : String) (handle : SocketHandle) (view : DescriptorView) (payload : Payload Nat)
  | fault (hook : String) (handle : SocketHandle) (view : DescriptorView) (error : SocketError)
      (event : Option EventKind)
  | action (name : String) (result : ActionResult)
  | policyStarted (values : Nat)
  | policyFinished (values : Nat)
  | decided (handle : SocketHandle) (decision : Decision) (inFlight : Option Nat) (postponed : Bool)
  | selected (interests : List Interest) (ready : Readiness) (timeout : Duration) (succeeded : Bool)

end Reactor.Scenario
