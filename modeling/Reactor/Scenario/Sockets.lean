import Reactor.Scenario.World

/-! The scripted sockets as sockets of a run. Every call is logged. -/

namespace Reactor.Scenario

/-- The answer of a call on the socket at a position; calls on no socket find none that is open. -/
def World.answer {α : Type} (w : World) (i : Nat)
    (call : ScriptedSocket → Except SocketError α × ScriptedSocket)
    (entry : String → Except SocketError α → LogEntry) (stops : ScriptedSocket → Bool) :
    SocketAnswer World Nat α :=
  match w.sockets[i]? with
  | none => ⟨.cut .notOpen, i, w, false⟩
  | some s =>
      let (result, after) := call s
      ⟨.ofExcept result, i, (w.setSocket i after).write (entry s.settings.name result), stops s⟩

/-- Reads from the socket at a position. An accepted client becomes a socket. -/
def World.readSocket (w : World) (i : Nat) (picker : Picker) (previous : Option PartialFrame)
    (outOfBand : Bool) : SocketAnswer World Nat (ReadOutcome Nat) × Picker :=
  match w.sockets[i]? with
  | none => (⟨.cut .notOpen, i, w, false⟩, picker)
  | some s =>
      let a := s.read picker
      let w := w.setSocket i a.socket
      let line (result : Except SocketError String) : LogEntry :=
        .read s.settings.name outOfBand previous a.socket.assembler.unhandled result
      let answer : SocketAnswer World Nat (ReadOutcome Nat) :=
        match a.ending with
        | .crashed => ⟨.crashed, i, w, a.stop⟩
        | .cut error => ⟨.cut error, i, w.write (line (.error error)), a.stop⟩
        | .done outcome =>
            let (outcome, w) : ReadOutcome Nat × World :=
              match outcome with
              | .pending snapshot => (.pending snapshot, w)
              | .frame f => (.frame f, w)
              | .accepted plan address =>
                  let (client, w) := w.addSocket plan
                  (.accepted client address, w)
            ⟨.done outcome, i, w.write (line (.ok outcome.describe)), a.stop⟩
      (answer, a.picker)

def socketRules : SocketRules World Nat where
  isOpen := World.socketIsOpen
  isConnected := World.socketIsConnected
  isServer w i := (w.sockets[i]?.map (·.settings.isServer)).getD false
  rawFd w i := (w.sockets[i]?).bind (·.settings.fd)
  connect w i address :=
    w.answer i (·.connect address) (.opened · address) (·.settings.stopOnOpen)
  pollConnect w i := w.answer i (·.pollConnect) .polled fun _ => false
  read := World.readSocket
  write w i data outOfBand :=
    w.answer i (·.write data) (.wrote · outOfBand data) fun _ => false
  close w i :=
    match w.sockets[i]? with
    | none => (i, w)
    | some s => (i, (w.setSocket i s.close).write (.closed s.settings.name))

end Reactor.Scenario
