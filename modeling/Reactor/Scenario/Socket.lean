import Reactor.Socket

/-!
Sockets that follow a script: what arrives on them, how much of a write they accept, and where they
fail is laid down in advance.
-/

namespace Reactor.Scenario

/-- The settings of a scripted socket, apart from what arrives on it. -/
structure SocketSettings where
  name : String
  isOpen : Bool
  isConnected : Bool
  isServer : Bool
  /-- The answers to the writes that come first: a number of bytes accepted, or a failure. -/
  writes : List (Except SocketError Nat)
  /-- How often the connection is asked about before it is there. -/
  connectDelay : Nat
  connectError : Option SocketError
  openError : Option SocketError
  /-- Opening succeeds, but leaves the socket closed. -/
  staysClosed : Bool
  /-- Opening requests a stop of the run. -/
  stopOnOpen : Bool
  /-- The descriptor of the socket, if it has one. -/
  fd : Option Nat
  deriving Inhabited

/-- A scripted socket as it is laid down; `σ` are the steps of its script. -/
structure SocketPlan (σ : Type) where
  settings : SocketSettings
  script : List σ
  deriving Inhabited

/-- What arrives on a socket. -/
inductive Arrival where
  | pause
  | data (bytes : Bytes) (address : String)
  | endOfStream
  | failure (error : SocketError)
  /-- A stop of the run is requested, and nothing arrives. -/
  | stop
  | crash
  | client (plan : SocketPlan Arrival) (address : String)
  | acceptFailure (cause : IoError)
  deriving Inhabited

/-- What is still to arrive on a socket, as a source of chunks. -/
structure Arrivals where
  script : List Arrival
  /-- Whether a stop of the run was requested. -/
  stop : Bool

namespace Arrivals

/-- Clients are not for those who want bytes: they stay at the front of the script. -/
def pull (s : Arrivals) : Ending SocketError Chunk × Arrivals :=
  match s.script with
  | [] => (.done .wouldBlock, s)
  | arrival :: rest =>
      match arrival with
      | .pause => (.done .wouldBlock, { s with script := rest })
      | .data bytes address => (.done (.data bytes address), { s with script := rest })
      | .endOfStream => (.done .endOfStream, { s with script := rest })
      | .failure error => (.cut error, { s with script := rest })
      | .stop => (.done .wouldBlock, ⟨rest, true⟩)
      | .crash => (.crashed, { s with script := rest })
      | .client _ _ | .acceptFailure _ => (.done .wouldBlock, s)

instance : ChunkSource Arrivals where
  pull := pull
  remaining s := s.script.length
  remaining_lt s bytes address := by
    unfold pull
    split
    · intro h
      cases h
    · rename_i h
      split <;> intro hd <;> simp_all

end Arrivals

/-- A scripted socket in use. -/
structure ScriptedSocket where
  settings : SocketSettings
  script : List Arrival
  writes : List (Except SocketError Nat)
  connectDelay : Nat
  isOpen : Bool
  isConnected : Bool
  closes : Nat
  openedWith : Option String
  written : Bytes
  assembler : FrameAssembler

namespace ScriptedSocket

def ofPlan (plan : SocketPlan Arrival) : ScriptedSocket where
  settings := plan.settings
  script := plan.script
  writes := plan.settings.writes
  connectDelay := plan.settings.connectDelay
  isOpen := plan.settings.isOpen
  isConnected := plan.settings.isConnected
  closes := 0
  openedWith := none
  written := []
  assembler := .empty

def connect (s : ScriptedSocket) (address : String) : Except SocketError Unit × ScriptedSocket :=
  let s := { s with openedWith := some address }
  match s.settings.openError with
  | some error => (.error error, s)
  | none => (.ok (), { s with isOpen := !s.settings.staysClosed })

def pollConnect (s : ScriptedSocket) : Except SocketError Bool × ScriptedSocket :=
  if !s.isOpen then (.ok false, s)
  else if 0 < s.connectDelay then (.ok false, { s with connectDelay := s.connectDelay - 1 })
  else match s.settings.connectError with
    | some error => (.error error, s)
    | none => (.ok true, { s with isConnected := true })

/-- Closing also forgets the bytes that were left over. -/
def close (s : ScriptedSocket) : ScriptedSocket :=
  { s with isOpen := false, isConnected := false, closes := s.closes + 1, assembler := .empty }

/-- The answer to a write that is planned next is used up even if the socket is not open. -/
def write (s : ScriptedSocket) (data : Bytes) : Except SocketError Nat × ScriptedSocket :=
  let plan := s.writes.head?.getD (.ok data.length)
  let s := { s with writes := s.writes.tail }
  if !s.isOpen then (.error .notOpen, s)
  else match plan with
    | .error error => (.error error, s)
    | .ok n => (.ok n, { s with written := s.written ++ data.take n })

/-- What a read comes to, before a client that it may yield has become a socket. -/
structure ReadAnswer where
  ending : Ending SocketError (ReadOutcome (SocketPlan Arrival))
  socket : ScriptedSocket
  picker : Picker
  stop : Bool

/-- A client at the front of the script is accepted; otherwise the assembler reads bytes. -/
def read (s : ScriptedSocket) (picker : Picker) : ReadAnswer :=
  if !s.isOpen then ⟨.cut .notOpen, s, picker, false⟩
  else match s.script with
    | .client plan address :: rest =>
        ⟨.done (.accepted plan address), { s with script := rest }, picker, false⟩
    | .acceptFailure cause :: rest =>
        ⟨.cut (.accept cause), { s with script := rest }, picker, false⟩
    | script =>
        let a := s.assembler.assemble picker (Arrivals.mk script false)
        ⟨a.ending.map .ofReading, { s with script := a.source.script, assembler := a.assembler },
          a.picker, a.source.stop⟩

end ScriptedSocket

end Reactor.Scenario
