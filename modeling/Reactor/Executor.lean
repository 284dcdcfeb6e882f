import Reactor.Run.Tick

/-! The executor: the owner of the registry, the handlers and the admission policy. -/

namespace Reactor

/-- An installed admission policy. Whether it observes the events of the sockets is settled when it
is installed. -/
structure Admission (P : Type) where
  policy : P
  observing : Bool

namespace Admission

variable {W S H P : Type}

def new (rules : PolicyRules W S H P) (policy : P) : Admission P :=
  ⟨policy, rules.observes policy⟩

def describe (a : Admission P) : String :=
  Text.record "Admission" [("observing", Text.flag a.observing)]

end Admission

structure Executor (S H P : Type) where
  config : ExecutorConfig
  registry : Registry S H
  handlers : List H
  admission : Admission P
  control : RunControl
  /-- Changes that were queued by handlers and not applied yet. -/
  changes : List (Change S)
  /-- The handle that the next registration will get. -/
  nextHandle : SocketHandle

/-- Why a run did not end well. -/
inductive ExecuteFailure where
  | error (error : ExecutorError)
  /-- The run needs more ticks than it was given. -/
  | unfinished
  deriving DecidableEq, Repr

/-- What is left of a run: how it ended, the executor, the values of the run, the surroundings, and
the record of what was done. -/
structure RunReport (W S H P : Type) where
  ending : Ending ExecuteFailure Unit
  executor : Executor S H P
  context : ExecutionContext
  world : W
  journal : List (Deed S H)

namespace Executor

variable {W S H P : Type}

/-- An executor without sockets and handlers; the settings have to be in order. -/
def new (config : ExecutorConfig) (admission : Admission P) (nextHandle : SocketHandle) :
    Except ExecutorError (Executor S H P) :=
  match config.defect? with
  | some text => .error (.config text)
  | none => .ok
      { config := config
        registry := .empty
        handlers := []
        admission := admission
        control := .idle
        changes := []
        nextHandle := nextHandle }

def register (e : Executor S H P) (socket : S) (operation : Operation) (metadata : Metadata) :
    SocketHandle × Executor S H P :=
  (e.nextHandle,
    { e with
      registry := Registry.enroll e.registry (.new e.nextHandle socket operation metadata)
      nextHandle := e.nextHandle.succ })

/-- Removes a socket and hands it back unclosed. -/
def deregister (e : Executor S H P) (h : SocketHandle) :
    Except ExecutorError (S × Executor S H P) :=
  (Registry.require e.registry h).map fun d =>
    (d.socket, { e with registry := HandleMap.erase e.registry h })

/-- Changes the descriptor of a handle, which has to be registered. -/
def update (e : Executor S H P) (h : SocketHandle) (f : Descriptor S H → Descriptor S H) :
    Except ExecutorError (Executor S H P) :=
  (Registry.update e.registry h f).map fun registry => { e with registry := registry }

def setOperation (e : Executor S H P) (h : SocketHandle) (operation : Operation) :
    Except ExecutorError (Executor S H P) :=
  e.update h (·.setOperation operation)

/-- Gives a socket a handler of its own, which sees its events before all others. -/
def setSocketHandler (e : Executor S H P) (h : SocketHandle) (handler : H) :
    Except ExecutorError (Executor S H P) :=
  e.update h fun d => { d with handler := some handler }

def addHandler (e : Executor S H P) (handler : H) : Executor S H P :=
  { e with handlers := e.handlers ++ [handler] }

/-- Installs a policy, which is not possible during a run. -/
def setAdmission (e : Executor S H P) (admission : Admission P) :
    Except ExecutorError (Executor S H P) :=
  if e.control.executing then .error .policyLocked else .ok { e with admission := admission }

def requestStop (e : Executor S H P) : Except ExecutorError (Executor S H P) :=
  if e.control.requestStop.1 then .ok { e with control := e.control.requestStop.2 }
  else .error .notRunning

/-- The state in which a run begins. -/
def beginning (e : Executor S H P) (context : ExecutionContext) (world : W) : Run W S H P where
  registry := e.registry
  session :=
    { context := ⟨context, e.control, e.changes, e.nextHandle⟩
      handlers := e.handlers
      policy := e.admission.policy
      observing := e.admission.observing
      world := world
      stopping := false
      dispatched := 0
      journal := [] }

/-- The executor as a run has left it. -/
def after (e : Executor S H P) (r : Run W S H P) : Executor S H P :=
  let s := r.session
  { e with
    registry := r.registry
    admission := { e.admission with policy := s.policy }
    control := s.context.control
    changes := s.context.changes
    nextHandle := s.context.nextHandle }

/-- Runs until no registered socket has anything left to do, for at most as many ticks as given. A
crash leaves everything as it was at that moment, and the executor executing. -/
def execute (e : Executor S H P) (host : Host W S H P) (fuel : Nat) (context : ExecutionContext)
    (world : W) : RunReport W S H P :=
  let (begun, control) := e.control.beginRun
  if begun then
    let begun := { e with control := control }
    let (ending, r) := Run.perform host e.config fuel (begun.beginning context world)
    let left := begun.after r
    let ended := { left with control := left.control.endRun }
    let report (ending : Ending ExecuteFailure Unit) (executor : Executor S H P) :
        RunReport W S H P :=
      ⟨ending, executor, r.session.context.context, r.session.world, r.session.journal⟩
    match ending with
    | .done () => report (.done ()) ended
    | .cut (.fatal text) => report (.cut (.error (.handler (.fatal text)))) ended
    | .cut .unfinished => report (.cut .unfinished) left
    | .crashed => report .crashed left
  else ⟨.cut (.error .alreadyRunning), e, context, world, []⟩

def describe (e : Executor S H P) : String :=
  Text.record "Executor"
    [("config", e.config.describe), ("sockets", toString e.registry.size),
      ("handlers", toString e.handlers.length), ("admission", e.admission.describe),
      ("executing", Text.flag e.control.executing)]

end Executor

end Reactor
