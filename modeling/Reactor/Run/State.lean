import Reactor.Run.Journal

/-!
The state of a run. A `Session` is everything but the registry; a `Visit` is a session together
with the one descriptor that is being worked on, so what is done for a socket can not touch any
other.
-/

namespace Reactor

/-- Why a stage leaves off: a stop was observed, or a handler failed the run. -/
inductive Halt where
  | stop
  | fatal (text : String)
  deriving DecidableEq, Repr

/-- Why work on a socket leaves off: the socket failed, perhaps while an event was handled, or the
whole stage has to. -/
inductive Interrupt where
  | fault (error : SocketError) (event : Option EventKind)
  | halt (halt : Halt)
  deriving DecidableEq, Repr

/-- The state of a run apart from its registry. -/
structure Session (W S H P : Type) where
  context : RunContext S
  handlers : List H
  policy : P
  /-- Whether the policy takes part in the chain of hooks. -/
  observing : Bool
  world : W
  /-- Whether the run is being wound down; a stop is not observed any more then. -/
  stopping : Bool
  /-- The number of events and faults given to the chain. -/
  dispatched : Nat
  journal : List (Deed S H)

/-- A session at work on one descriptor. -/
structure Visit (W S H P : Type) where
  descriptor : Descriptor S H
  session : Session W S H P

structure Run (W S H P : Type) where
  registry : Registry S H
  session : Session W S H P

variable {W S H P ε α : Type}

namespace Session

/-- Puts a deed at the end of the journal. -/
def note (s : Session W S H P) (deed : Deed S H) : Session W S H P :=
  { s with journal := s.journal ++ [deed] }

/-- Asks the run to stop, if that is called for. -/
def stopIf (s : Session W S H P) (stop : Bool) : Session W S H P :=
  if stop then { s with context := s.context.grant .stop } else s

/-- Whether a stop was requested that is still to be observed. -/
def stopDue (s : Session W S H P) : Bool :=
  !s.stopping && s.context.control.stopRequested

/-- Leaves off if a stop is due. -/
def checkStop : Step (Session W S H P) Halt Unit := fun s =>
  if s.stopDue then (.cut .stop, s) else (.done (), s)

end Session

namespace Visit

/-- Puts a deed about the visited socket at the end of the journal. -/
def note (v : Visit W S H P) (deed : SocketHandle → Standing → Deed S H) : Visit W S H P :=
  { v with session := v.session.note (deed v.descriptor.handle v.descriptor.standing) }

/-- Does something with the session alone. -/
def onSession (x : Step (Session W S H P) ε α) : Step (Visit W S H P) ε α :=
  x.within Visit.session fun s v => { v with session := s }

def getDescriptor : Step (Visit W S H P) ε (Descriptor S H) := fun v => (.done v.descriptor, v)

def modifyDescriptor (f : Descriptor S H → Descriptor S H) : Step (Visit W S H P) ε Unit :=
  Step.modify fun v => { v with descriptor := f v.descriptor }

end Visit

namespace Run

/-- Does something with the session alone. -/
def onSession (x : Step (Session W S H P) ε α) : Step (Run W S H P) ε α :=
  x.within Run.session fun s r => { r with session := s }

/-- Works on the descriptor of a handle; an unknown handle is passed over. -/
def visit (h : SocketHandle) (x : Step (Visit W S H P) ε Unit) : Step (Run W S H P) ε Unit :=
  fun r =>
    match r.registry.get? h with
    | none => (.done (), r)
    | some d =>
        let (ending, v) := x ⟨d, r.session⟩
        (ending, ⟨HandleMap.modify r.registry h fun _ => v.descriptor, v.session⟩)

def modifyRegistry (f : Registry S H → Registry S H) : Step (Run W S H P) ε Unit :=
  Step.modify fun r => { r with registry := f r.registry }

end Run

end Reactor
