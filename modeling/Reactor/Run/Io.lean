import Reactor.Run.Connect

/-!
The service of the sockets that are ready: those ready to read first, then those ready to write.
Before the first message a socket is announced as connected.
-/

namespace Reactor

variable {W S H P : Type}

namespace Visit

/-- Notes that the present operation has been tried. -/
def markIo {ε : Type} : Step (Visit W S H P) ε Unit :=
  modifyDescriptor fun d => d.mapMetadata fun m => { m with lastIoStart := true }

/-- Feeds the picker of a read operation from the visited socket. -/
def readSocket (host : Host W S H P) (r : ReadOperation) :
    Step (Visit W S H P) SocketError (ReadOutcome S) := fun v =>
  let d := v.descriptor
  let (answer, picker) :=
    host.sockets.read v.session.world d.socket r.picker d.previous r.outOfBand
  let session := { v.session with world := answer.world }.stopIf answer.stop
  (answer.ending,
    ⟨{ d with socket := answer.socket, operation := some (.read { r with picker := picker }) },
      session.note (.called d.handle d.standing (.read r.outOfBand))⟩)

/-- Closes a client that nobody has taken. -/
def dismiss (host : Host W S H P) (client : S) {ε : Type} : Step (Visit W S H P) ε Unit :=
  Step.modify fun v =>
    let session := { v.session with world := (host.sockets.close v.session.world client).2 }
    { v with session := session.note (.dismissed v.descriptor.handle) }

/-- Announces an accepted client. Whatever comes of it, the listener gets an unused picker; a
client that is still there afterwards is closed. -/
def welcome (host : Host W S H P) (client : S) (address : String) :
    Step (Visit W S H P) Interrupt Unit := do
  let result ← (dispatch host (.accept (some client) address)).attempt
  modifyDescriptor Descriptor.restartRead
  match result with
  | .error interrupt => Step.cut interrupt
  | .ok payload =>
      match payload.client? with
      | some untaken => dismiss host untaken
      | none => pure ()

/-- Deals with what a read has come to. A message is announced, and the socket goes on with the
operation that the handlers have chosen. A client that could not be accepted is reported, but does
not end the listener. -/
def finishRead (host : Host W S H P) :
    Except SocketError (ReadOutcome S) → Step (Visit W S H P) Interrupt Unit
  | .ok (.pending snapshot) => modifyDescriptor fun d => { d with previous := some snapshot }
  | .ok (.frame frame) => do
      modifyDescriptor fun d => { d with previous := none }
      let next := match ← dispatch host (.read frame none) with
        | .read _ next => next
        | _ => none
      modifyDescriptor (·.adoptNext next)
  | .ok (.accepted client address) => welcome host client address
  | .error (.accept cause) => do
      (dispatchFault host (.accept cause) none).mapCut .halt
      modifyDescriptor Descriptor.restartRead
  | .error error => Step.cut (.fault error (some .read))

/-- Serves a socket that is ready to read. -/
def serveRead (host : Host W S H P) : Step (Visit W S H P) Interrupt Unit := do
  if ← ensureConnected host then
    match (← getDescriptor).operation with
    | some (.read r) =>
        markIo
        finishRead host (← (readSocket host r).attempt)
    | _ => pure ()

/-- Writes to the visited socket. -/
def writeSocket (host : Host W S H P) (data : Bytes) (outOfBand : Bool) :
    Step (Visit W S H P) Interrupt Nat :=
  (callSocket (host.sockets.write · · data outOfBand) fun ending =>
    .write data outOfBand (match ending with
      | .done n => some n
      | _ => none)).mapCut (.fault · (some .write))

/-- Writes more of a backlog. Once it is used up, the socket goes on with its next operation. -/
def flush (host : Host W S H P) (backlog : WriteBacklog) :
    Step (Visit W S H P) Interrupt Unit := do
  modifyDescriptor fun d => { d with backlog := none }
  markIo
  let written ← writeSocket host backlog.data backlog.outOfBand
  let left := backlog.drain written
  if left.data.isEmpty then
    modifyDescriptor (·.adoptNext backlog.next)
  else
    modifyDescriptor fun d => { d with backlog := some left }

/-- Writes a payload as the handlers have left it. What is not accepted becomes the backlog; if
everything is, the socket goes on with its next operation. -/
def writePayload (host : Host W S H P) (next : Option Operation) :
    Step (Visit W S H P) Interrupt Unit := do
  markIo
  match (← getDescriptor).operation with
  | some (.write w) =>
      let written ← if w.hasData then writeSocket host w.data w.outOfBand else pure 0
      if written < w.data.length then
        modifyDescriptor fun d =>
          { d with backlog := some ⟨w.data.drop written, w.outOfBand, next⟩ }
      else
        modifyDescriptor (·.adoptNext next)
  | _ => modifyDescriptor (·.adoptNext next)

/-- Puts the payload that the handlers have left in place of the one they were given. -/
def restorePayload (w : WriteOperation) (d : Descriptor S H) : Descriptor S H :=
  match d.operation with
  | some (.write _) => { d with operation := some (.write w) }
  | _ => d

/-- Announces a write and carries it out. Handlers may complete the socket instead, or replace what
the event carries altogether; in both cases nothing is written. -/
def announceWrite (host : Host W S H P) (w : WriteOperation) :
    Step (Visit W S H P) Interrupt Unit := do
  modifyDescriptor fun d => { d with operation := some (.write .empty) }
  match ← dispatch host (.write w none) with
  | .write w next =>
      unlessComplete do
        modifyDescriptor (restorePayload w)
        writePayload host next
  | _ => pure ()

/-- Serves a socket that is ready to write: a backlog first, otherwise the write operation. -/
def serveWrite (host : Host W S H P) : Step (Visit W S H P) Interrupt Unit := do
  if ← ensureConnected host then
    let d ← getDescriptor
    match d.backlog, d.operation with
    | some backlog, _ => flush host backlog
    | none, some (.write w) => announceWrite host w
    | none, _ => pure ()

end Visit

/-- Serves the sockets that are ready. -/
def Run.ioStage (host : Host W S H P) (ready : Readiness) : Step (Run W S H P) Halt Unit := do
  forEachActive ready.read (Visit.settle host (Visit.serveRead host))
  forEachActive ready.write (Visit.settle host (Visit.serveWrite host))

end Reactor
