import Reactor.Run.Service

/-!
The disconnection of the sockets that have nothing left to do: `disconnected`, if the socket was
open or announced, then the closing, then `finalize`. A stop that is asked for meanwhile does not cut
this short.
-/

namespace Reactor

variable {W S H P : Type}

namespace Visit

/-- Gives a last event to the chain. A failure of the socket is reported and otherwise ignored, and
so is a stop; only the failure of the run is passed on. -/
def notify (host : Host W S H P) (payload : Payload S) : Step (Visit W S H P) Halt Unit := do
  match ← (dispatch host payload).attempt with
  | .ok _ | .error (.halt .stop) => pure ()
  | .error (.halt (.fatal text)) => Step.cut (.fatal text)
  | .error (.fault error event) =>
      match ← (dispatchFault host error event).attempt with
      | .error (.fatal text) => Step.cut (.fatal text)
      | _ => pure ()

def close (host : Host W S H P) {ε : Type} : Step (Visit W S H P) ε Unit :=
  Step.modify fun v =>
    let (socket, world) := host.sockets.close v.session.world v.descriptor.socket
    let session := { v.session with world := world }
    ⟨{ v.descriptor with socket := socket }, session.note (.closed v.descriptor.handle)⟩

/-- Takes leave of the visited socket. All of it is done even if a handler fails the run; the
failure that came first is passed on. -/
def takeLeave (host : Host W S H P) : Step (Visit W S H P) Halt Unit := do
  let v ← Step.get
  let announced :=
    v.descriptor.metadata.connectFinish || host.sockets.isOpen v.session.world v.descriptor.socket
  let farewell ← (if announced then notify host .disconnected else pure ()).attempt
  close host
  let finale ← (notify host .finalize).attempt
  match farewell, finale with
  | .error halt, _ => Step.cut halt
  | .ok (), .error halt => Step.cut halt
  | .ok (), .ok () => pure ()

end Visit

namespace Run

/-- Removes a socket from the registry and takes leave of it. -/
def disconnect (host : Host W S H P) (h : SocketHandle) : Step (Run W S H P) Halt Unit := fun r =>
  match r.registry.get? h with
  | none => (.done (), r)
  | some d =>
      let (ending, v) := Visit.takeLeave host ⟨d, r.session⟩
      (ending, ⟨HandleMap.erase r.registry h, v.session⟩)

/-- Takes leave of sockets one after the other, and passes the first failure on at the end. -/
def disconnectAll (host : Host W S H P) : List SocketHandle → Step (Run W S H P) Halt Unit
  | [] => pure ()
  | h :: rest => do
      let first ← (disconnect host h).attempt
      let others ← (disconnectAll host rest).attempt
      match first, others with
      | .error halt, _ => Step.cut halt
      | .ok (), .error halt => Step.cut halt
      | .ok (), .ok () => pure ()

/-- Takes leave of the sockets that have nothing left to do. -/
def disconnectStage (host : Host W S H P) : Step (Run W S H P) Halt Unit := fun r =>
  disconnectAll host (Registry.completed r.registry) r

end Run

end Reactor
