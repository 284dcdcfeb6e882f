import Reactor.Callback
import Reactor.Scenario.Log

/-!
The surroundings of a scenario: its sockets, the names of the handles, the rules of its hooks, and the
log. Sockets and hooks are known by their position.
-/

namespace Reactor.Scenario

/-- What a hook can be told to do. -/
inductive Action where
  | stop
  | stopRequested
  | register (name : String) (plan : SocketPlan Arrival) (operation : Operation)
      (metadata : Metadata)
  | deregister (socket : String)
  | setOperation (socket : String) (operation : Operation)
  | count
  | describeContext
  | fail (error : SocketError)
  | fatal (text : String)
  | crash
  | next (operation : Operation)
  | takeNext
  | echo
  | setData (data : Bytes)
  | complete
  | user
  | takeClient (name : String) (operation : Operation) (metadata : Metadata)
  | dropClient
  | unknown (name : String)

def Action.name : Action → String
  | stop => "stop"
  | stopRequested => "stop_requested"
  | register .. => "register"
  | deregister _ => "deregister"
  | setOperation .. => "set_op"
  | count => "count"
  | describeContext => "cx"
  | fail _ => "fail"
  | fatal _ => "fatal"
  | crash => "panic"
  | next _ => "next"
  | takeNext => "take_next"
  | echo => "echo"
  | setData _ => "set_data"
  | complete => "complete"
  | user => "user"
  | takeClient .. => "take_client"
  | dropClient => "drop_client"
  | unknown name => name

/-- When a rule applies. -/
inductive Trigger where
  /-- On every event, but not on faults. -/
  | any
  | kind (kind : EventKind)
  | never
  deriving DecidableEq

/-- What to do, and when: for which kind, for which socket, and for which of the cases that match,
counted from one. -/
structure Rule where
  trigger : Trigger
  socket : Option String
  nth : Option Nat
  actions : List Action

/-- A hook that follows rules, and how often each of them has matched. -/
structure RuleHook where
  id : String
  rules : List Rule
  matched : List Nat

def RuleHook.new (id : String) (rules : List Rule) : RuleHook :=
  ⟨id, rules, rules.map fun _ => 0⟩

structure World where
  sockets : Array ScriptedSocket
  hooks : Array RuleHook
  /-- The handles by name; a later entry hides an earlier one of the same name. -/
  names : List (String × SocketHandle)
  /-- The callbacks that were called. -/
  calls : Array String
  log : Array LogEntry
  /-- The calls of the selector so far, in all runs and in the present one. -/
  selects : Nat
  selectsInRun : Nat
  /-- The verdicts asked for in the present run. -/
  decidesInRun : Nat

namespace World

def empty : World := ⟨#[], #[], [], #[], #[], 0, 0, 0⟩

def write (w : World) (entry : LogEntry) : World :=
  { w with log := w.log.push entry }

/-- The handle that a name stands for; an unknown name stands for none. -/
def handleOf (w : World) (name : String) : SocketHandle :=
  (w.names.lookup name).getD .none

/-- Lets a name stand for a handle. -/
def bind (w : World) (name : String) (handle : SocketHandle) : World :=
  { w with names := (name, handle) :: w.names }

/-- Creates a socket, and yields its position. -/
def addSocket (w : World) (plan : SocketPlan Arrival) : Nat × World :=
  (w.sockets.size, { w with sockets := w.sockets.push (.ofPlan plan) })

def addHook (w : World) (hook : RuleHook) : Nat × World :=
  (w.hooks.size, { w with hooks := w.hooks.push hook })

def setSocket (w : World) (i : Nat) (s : ScriptedSocket) : World :=
  { w with sockets := w.sockets.setIfInBounds i s }

def socketIsOpen (w : World) (i : Nat) : Bool := (w.sockets[i]?.map (·.isOpen)).getD false

def socketIsConnected (w : World) (i : Nat) : Bool :=
  (w.sockets[i]?.map (·.isConnected)).getD false

/-- A descriptor as it is at the moment. -/
def view {H : Type} (w : World) (d : Descriptor Nat H) : DescriptorView :=
  .of d (w.socketIsOpen d.socket) (w.socketIsConnected d.socket)

/-- Starts the counts of a run anew. -/
def beginRun (w : World) : World := { w with selectsInRun := 0, decidesInRun := 0 }

end World

end Reactor.Scenario
