import Reactor.Error.Io
import Reactor.Handle.Basic
import Reactor.Text.Quoted

/-! Failures by their scope: of one socket, raised by a handler, or of a whole run. -/

namespace Reactor

/-- A failure that concerns a single socket. The socket is reported to the exception hooks and
then disconnected, while every other socket goes on. -/
inductive SocketError where
  /-- The transport failed. -/
  | io (cause : IoError)
  /-- No connection to the address could be made. -/
  | connect (address : String) (cause : IoError)
  /-- The stream ended before the message was complete. -/
  | unreachedFrame
  /-- The socket has never been opened, or has been closed. -/
  | notOpen
  /-- The transport does not offer the operation. -/
  | unsupported (what : String)
  /-- The address is malformed, or its scheme does not fit the transport. -/
  | invalidAddress (text : String)
  /-- A client could not be accepted; the listener itself stays usable. -/
  | accept (cause : IoError)
  /-- A failure that a handler raised for the socket. -/
  | peer (text : String)
  deriving DecidableEq, Repr

namespace SocketError

def message : SocketError → String
  | io cause => "network error: " ++ cause.message
  | connect address cause => "connect to " ++ address ++ " failed: " ++ cause.message
  | unreachedFrame => "end of stream reached before the frame was complete"
  | notOpen => "can not start io operation on uninitialized socket"
  | unsupported what => "unsupported operation: " ++ what
  | invalidAddress text => "invalid address " ++ Text.quoted text
  | accept cause => "accept failed: " ++ cause.message
  | peer text => text

/-- The failure beneath this one. -/
def source? : SocketError → Option IoError
  | io cause | connect _ cause | accept cause => some cause
  | _ => none

end SocketError

/-- What a handler may raise: a failure of the socket that the event belongs to, or one that ends
the whole run. -/
inductive HandlerError where
  | socket (error : SocketError)
  | fatal (text : String)
  deriving DecidableEq, Repr

def HandlerError.message : HandlerError → String
  | socket error => error.message
  | fatal text => text

/-- Why an executor refuses a request, or why a run failed. -/
inductive ExecutorError where
  | alreadyRunning
  | policyLocked
  | notRunning
  | socketNotFound (handle : SocketHandle)
  | config (text : String)
  | handler (error : HandlerError)
  deriving DecidableEq, Repr

def ExecutorError.message : ExecutorError → String
  | alreadyRunning => "executor is already running"
  | policyLocked => "admission policy can not be changed while running"
  | notRunning => "executor is not running"
  | socketNotFound handle => "socket " ++ handle.name ++ " is not registered"
  | config text => "invalid configuration: " ++ text
  | handler error => "run aborted: " ++ error.message

end Reactor
