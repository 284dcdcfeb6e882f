import Reactor.Run.State

/-! The wait for readiness: what the sockets wait for, and who became ready. -/

namespace Reactor

variable {W S H P : Type}

/-- What a socket waits for: a backlog or a write operation waits to write, a read operation to
read, and, as long as the connection is in progress, also to write. A socket that is not open or
has nothing left to do waits for nothing. -/
def Descriptor.interest? (sockets : SocketRules W S) (world : W) (d : Descriptor S H) :
    Option Interest :=
  if d.isComplete || !sockets.isOpen world d.socket then none
  else
    let fd := sockets.rawFd world d.socket
    match d.backlog, d.operation with
    | some _, _ => some ⟨d.handle, fd, false, true⟩
    | none, some (.write _) => some ⟨d.handle, fd, false, true⟩
    | none, some (.read _) => some ⟨d.handle, fd, true, !d.metadata.connectFinish⟩
    | none, none => none

namespace Run

/-- What the sockets that take part wait for. -/
def interests (host : Host W S H P) (r : Run W S H P) (admitted : List SocketHandle) :
    List Interest :=
  (admitted.filterMap r.registry.get?).filterMap
    (Descriptor.interest? host.sockets r.session.world)

/-- Waits for readiness. If nobody waits for anything, nothing is ready, and the selector is not
asked. -/
def selectStage (host : Host W S H P) (timeout : Duration) (admitted : List SocketHandle) :
    Step (Run W S H P) IoError Readiness := fun r =>
  let interests := r.interests host admitted
  if interests.isEmpty then (.done .none, r)
  else
    let answer := host.select r.session.world interests timeout
    let session := { r.session with world := answer.world }.stopIf answer.stop
    (.ofExcept answer.result, { r with session := session.note (.selected interests answer.result) })

end Run

end Reactor
