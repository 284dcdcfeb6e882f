import Reactor.Run.Service

/-! The opening of the sockets that take part and are not open yet. -/

namespace Reactor

variable {W S H P : Type}

namespace Visit

/-- Opens the visited socket, unless that has been tried before, there is nothing to do, or the
socket is open already. A socket without an address can not be opened. -/
def connect (host : Host W S H P) : Step (Visit W S H P) SocketError Unit := do
  let d ← getDescriptor
  if d.metadata.connectStart || d.operation.isNone then
    return
  modifyDescriptor fun d => d.mapMetadata fun m => { m with connectStart := true }
  if host.sockets.isOpen (← Step.get).session.world d.socket then
    return
  match d.metadata.address with
  | none => Step.cut .notOpen
  | some address =>
      callSocket (host.sockets.connect · · address) fun _ => .connect address

/-- Opens the visited socket, and deals with a failure. -/
def connectOrFail (host : Host W S H P) : Step (Visit W S H P) Halt Unit :=
  settle host ((connect host).mapCut (.fault · none))

/-- Does something for the visited socket unless it has nothing left to do. -/
def unlessComplete {ε : Type} (work : Step (Visit W S H P) ε Unit) :
    Step (Visit W S H P) ε Unit := do
  if (← getDescriptor).isComplete then
    return
  work

end Visit

namespace Run

/-- Does something for each of the sockets that have something left to do, one after the other,
and leaves off when a stop is due. -/
def forEachActive (handles : List SocketHandle) (work : Step (Visit W S H P) Halt Unit) :
    Step (Run W S H P) Halt Unit :=
  handles.forM fun h => do
    onSession Session.checkStop
    visit h (Visit.unlessComplete work)

def connectStage (host : Host W S H P) (admitted : List SocketHandle) :
    Step (Run W S H P) Halt Unit :=
  forEachActive admitted (Visit.connectOrFail host)

end Run

end Reactor
