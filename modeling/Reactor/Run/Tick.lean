import Reactor.Config
import Reactor.Run.Admission
import Reactor.Run.Disconnect
import Reactor.Run.Io
import Reactor.Run.Selection

/-!
A run: ticks until nothing is left to do, a stop is observed or the selection fails, and then the
winding down. After a failure of the run the sockets are closed without events.
-/

namespace Reactor

variable {W S H P : Type}

/-- How the ticks of a run end, short of a failure. -/
inductive Exit where
  | drained
  | stopped
  | selectFailed (error : IoError)
  deriving DecidableEq, Repr

/-- Why a run does not end well: a handler failed it, or it needs more ticks than it was given. -/
inductive RunFailure where
  | fatal (text : String)
  | unfinished
  deriving DecidableEq, Repr

/-- Applies a queued change. A change for a socket that is gone is dropped, and so is an operation
for a socket that has nothing left to do. -/
def Registry.apply (r : Registry S H) : Change S → Registry S H
  | .register g => Registry.enroll r (.new g.handle g.socket g.operation g.metadata)
  | .deregister h => HandleMap.modify r h Descriptor.markComplete
  | .setOperation h operation =>
      HandleMap.modify r h fun d => if d.isComplete then d else d.setOperation operation

namespace Run

def clearChanges (r : Run W S H P) : Run W S H P :=
  { r with session := { r.session with context := { r.session.context with changes := [] } } }

def applyChanges {ε : Type} : Step (Run W S H P) ε Unit :=
  Step.modify fun r =>
    { r.clearChanges with registry := r.session.context.changes.foldl Registry.apply r.registry }

/-- One tick. It yields how the ticks end, if they do so here. -/
def tick (host : Host W S H P) (config : ExecutorConfig) :
    Step (Run W S H P) Halt (Option Exit) := do
  applyChanges
  onSession Session.checkStop
  if Registry.activeCount (← Step.get).registry = 0 then
    return some .drained
  let admitted ← admission host
  connectStage host admitted
  onSession Session.checkStop
  match ← (selectStage host config.pollTimeout admitted).attempt with
  | .error error => return some (.selectFailed error)
  | .ok ready =>
      ioStage host ready
      disconnectStage host
      return none

/-- Ticks, at most as many as given. -/
def ticks (host : Host W S H P) (config : ExecutorConfig) :
    Nat → Step (Run W S H P) RunFailure Exit
  | 0 => Step.cut .unfinished
  | fuel + 1 => do
      match ← (tick host config).attempt with
      | .ok none => ticks host config fuel
      | .ok (some exit) => return exit
      | .error .stop => return .stopped
      | .error (.fatal text) => Step.cut (.fatal text)

/-- Reports a failed selection to every socket, in the order of the handles; each has nothing left
to do then. -/
def reportSelectFailure (host : Host W S H P) (error : IoError) :
    List SocketHandle → Step (Run W S H P) RunFailure Unit
  | [] => pure ()
  | h :: rest => do
      visit h do
        match ← (Visit.dispatchFault host (.io error) none).attempt with
        | .error (.fatal text) => Step.cut (.fatal text)
        | _ => Visit.modifyDescriptor Descriptor.markComplete
      reportSelectFailure host error rest

/-- Winds a run down: what is left is completed, and the sockets are disconnected. -/
def windDown (host : Host W S H P) (exit : Exit) : Step (Run W S H P) RunFailure Unit := do
  Step.modify fun r => { r with session := { r.session with stopping := true } }
  match exit with
  | .drained => pure ()
  | .stopped =>
      applyChanges
      modifyRegistry fun registry => HandleMap.map registry fun _ d => d.markComplete
  | .selectFailed error =>
      reportSelectFailure host error (← Step.get).registry.keys
  match ← (disconnectStage host).attempt with
  | .error (.fatal text) => Step.cut (.fatal text)
  | _ => pure ()

/-- Closes a socket without any event. -/
def closeSocket (host : Host W S H P) (s : Session W S H P) (h : SocketHandle) (socket : S) :
    Session W S H P :=
  { s with world := (host.sockets.close s.world socket).2 }.note (.closed h)

/-- Closes every socket that is still held, also those whose registration is still queued. -/
def closeAll (host : Host W S H P) (r : Run W S H P) : Run W S H P :=
  let session := r.registry.values.foldl (fun s d => closeSocket host s d.handle d.socket) r.session
  let queued := session.context.changes.filterMap Change.registration?
  let session := queued.foldl (fun s g => closeSocket host s g.handle g.socket) session
  clearChanges ⟨.empty, session⟩

/-- Tells the policy that the run begins. -/
def startPolicy (host : Host W S H P) (r : Run W S H P) : Run W S H P :=
  let s := r.session
  let (policy, context, world) := host.policy.atStart s.world s.policy s.context.context
  let context := { s.context with context := context }
  { r with session :=
      { s with policy := policy, context := context, world := world }.note .policyStarted }

/-- Tells the policy that the run is over. -/
def finishPolicy (host : Host W S H P) (r : Run W S H P) : Run W S H P :=
  let s := r.session
  let (policy, context, world) := host.policy.atFinish s.world s.policy s.context.context
  let context := { s.context with context := context }
  { r with session :=
      { s with policy := policy, context := context, world := world }.note .policyFinished }

/-- A whole run, of at most as many ticks as given. The policy is told of its beginning and of its
end, and at the end no socket is held any more. -/
def perform (host : Host W S H P) (config : ExecutorConfig) (fuel : Nat) :
    Step (Run W S H P) RunFailure Unit := do
  Step.modify (startPolicy host)
  match ← (do windDown host (← ticks host config fuel)).attempt with
  | .ok () => Step.modify fun r => closeAll host (finishPolicy host r)
  | .error .unfinished => Step.cut .unfinished
  | .error (.fatal text) =>
      Step.modify fun r => finishPolicy host (closeAll host r)
      Step.cut (.fatal text)

end Run

end Reactor
