import Reactor.Run.Chain

/-! What the stages do with a single socket: calls of its transport, and the answer to a failure. -/

namespace Reactor

variable {W S H P α : Type}

namespace Visit

def callSocket (call : W → S → SocketAnswer W S α) (record : Ending SocketError α → SocketCall) :
    Step (Visit W S H P) SocketError α := fun v =>
  let answer := call v.session.world v.descriptor.socket
  let session := { v.session with world := answer.world }.stopIf answer.stop
  let deed := Deed.called v.descriptor.handle v.descriptor.standing (record answer.ending)
  (answer.ending, ⟨{ v.descriptor with socket := answer.socket }, session.note deed⟩)

/-- Reports a failure of the visited socket, which has nothing left to do then. -/
def fail (host : Host W S H P) (error : SocketError) (event : Option EventKind) :
    Step (Visit W S H P) Halt Unit := do
  let result ← (dispatchFault host error event).attempt
  modifyDescriptor Descriptor.markComplete
  match result with
  | .ok () => pure ()
  | .error halt => Step.cut halt

/-- Works on the visited socket. A failure of the socket stays with it; only the end of the whole
stage is passed on. -/
def settle (host : Host W S H P) (work : Step (Visit W S H P) Interrupt Unit) :
    Step (Visit W S H P) Halt Unit := do
  match ← work.attempt with
  | .ok () => pure ()
  | .error (.fault error event) => fail host error event
  | .error (.halt halt) => Step.cut halt

/-- Announces the connection once it is established, and tells whether it is. -/
def ensureConnected (host : Host W S H P) : Step (Visit W S H P) Interrupt Bool := do
  if (← getDescriptor).metadata.connectFinish then
    return true
  let established ←
    (callSocket host.sockets.pollConnect fun _ => .pollConnect).mapCut (.fault · none)
  if established then
    modifyDescriptor fun d => d.mapMetadata fun m => { m with connectFinish := true }
    let _ ← dispatch host .connected
  return established

end Visit

end Reactor
