import Reactor.Executor
import Reactor.Scenario.Policy
import Reactor.Scenario.Selector

/-! Scenarios: an executor in scripted surroundings, and the steps by which it is driven. -/

namespace Reactor.Scenario

/-- A handler as it is laid down: the rules to follow, and whether it has callbacks only for the
kinds that its rules name. -/
structure HandlerPlan where
  id : String
  rules : List Rule
  viaCallbacks : Bool

/-- An admission policy as it is laid down. -/
inductive PolicyPlan where
  | plain
  | plainConstant (limit : Nat)
  | noLimit
  | constant (limit : Nat)
  | script (verdicts : List (String × List Decision)) (otherwise : Decision)
      (rules : Option (List Rule))

inductive ScenarioStep where
  | register (name : String) (plan : SocketPlan Arrival) (operation : Operation)
      (metadata : Metadata)
  | deregister (socket : String)
  | setOperation (socket : String) (operation : Operation)
  | addHandler (plan : HandlerPlan)
  | setSocketHandler (socket : String) (plan : HandlerPlan)
  | setPolicy (plan : PolicyPlan)
  | requestStop
  /-- Stops the run by a handle of its control. -/
  | stopHandle
  | isExecuting
  | inspect
  | describe
  | setContext (value : Int)
  /-- Runs with the values that are kept, or with none. -/
  | execute (keepContext : Bool)

/-- A registry as it is seen at a moment. -/
structure RegistryView where
  size : Nat
  active : Nat
  handles : List SocketHandle
  completed : List SocketHandle
  descriptors : List DescriptorView

inductive StepResult where
  | nothing
  | flag (value : Bool)
  | handle (value : SocketHandle)
  | text (value : String)
  | registry (view : RegistryView)
  /-- A run that ended well: the sockets left, whether the executor is executing, and the integer
  among the values that are kept. -/
  | finished (size : Nat) (executing : Bool) (count : Option Int)
  | error (error : ExecutorError)
  | crashed (executing : Bool)
  | unfinished

/-- An executor in scripted surroundings. -/
structure Stage where
  executor : Executor Nat ScriptedHandler ScriptedPolicy
  /-- The values that are kept between the runs. -/
  context : ExecutionContext
  world : World
  selector : SelectorPlan
  maxSelects : Nat
  maxDecides : Nat

/-- The view of a registry in a world. -/
def World.inspect (w : World) {H : Type} (r : Registry Nat H) : RegistryView where
  size := HandleMap.size r
  active := Registry.activeCount r
  handles := HandleMap.keys r
  completed := Registry.completed r
  descriptors := (HandleMap.values r).map w.view

/-- Prepares a handler. With callbacks it has one for each kind that a rule names; a rule that is
bound to no kind of event stands for the one for faults. -/
def World.prepare (w : World) (plan : HandlerPlan) : ScriptedHandler × World :=
  let (hook, w) := w.addHook (.new plan.id plan.rules)
  if plan.viaCallbacks then
    let handler := plan.rules.foldl (fun (c : CallbackHandler Nat) rule =>
      match rule.trigger with
      | .kind .exception | .any | .never => c.onFault hook
      | .kind kind => c.on kind hook) .empty
    (.callbacks handler, w)
  else (.rules hook, w)

def World.preparePolicy (w : World) : PolicyPlan → ScriptedPolicy × World
  | .plain => (.plain, w)
  | .plainConstant limit => (.plainConstant (.new limit), w)
  | .noLimit => (.noLimit, w)
  | .constant limit => (.constant (.new limit), w)
  | .script verdicts otherwise rules =>
      match rules with
      | none => (.script verdicts otherwise none, w)
      | some rules =>
          let (hook, w) := w.addHook (.new "policy" rules)
          (.script verdicts otherwise (some hook), w)

namespace Stage

def new (config : ExecutorConfig) (selector : SelectorPlan) (maxSelects maxDecides : Nat) :
    Except ExecutorError Stage :=
  (Executor.new config (.new (policyRules maxDecides) .default) SocketHandle.none.succ).map
    fun executor => ⟨executor, .empty, .empty, selector, maxSelects, maxDecides⟩

def host (s : Stage) : Host World Nat ScriptedHandler ScriptedPolicy where
  sockets := socketRules
  handlers := handlerRules
  policy := policyRules s.maxDecides
  select := select s.selector s.maxSelects

/-- Takes over the executor after a request that may have been refused. -/
def settle (s : Stage)
    (result : Except ExecutorError (Executor Nat ScriptedHandler ScriptedPolicy)) :
    StepResult × Stage :=
  match result with
  | .ok executor => (.nothing, { s with executor := executor })
  | .error error => (.error error, s)

def execute (s : Stage) (fuel : Nat) (keepContext : Bool) : StepResult × Stage :=
  let context := if keepContext then s.context else .empty
  let report := s.executor.execute s.host fuel context s.world.beginRun
  let kept := if keepContext then report.context else s.context
  let s := { s with executor := report.executor, world := report.world, context := kept }
  let result := match report.ending with
    | .done () =>
        .finished s.executor.registry.size s.executor.control.executing s.context.integer
    | .cut (.error error) => .error error
    | .cut .unfinished => .unfinished
    | .crashed => .crashed s.executor.control.executing
  (result, s)

/-- Carries out a step; a run gets at most as many ticks as given. -/
def step (s : Stage) (fuel : Nat) : ScenarioStep → StepResult × Stage
  | .register name plan operation metadata =>
      let (socket, world) := s.world.addSocket plan
      let (handle, executor) := s.executor.register socket operation metadata
      (.handle handle, { s with executor := executor, world := world.bind name handle })
  | .deregister socket =>
      match s.executor.deregister (s.world.handleOf socket) with
      | .ok (socket, executor) =>
          (.text (socketRules.describe s.world socket), { s with executor := executor })
      | .error error => (.error error, s)
  | .setOperation socket operation =>
      s.settle (s.executor.setOperation (s.world.handleOf socket) operation)
  | .addHandler plan =>
      let (handler, world) := s.world.prepare plan
      (.nothing, { s with executor := s.executor.addHandler handler, world := world })
  | .setSocketHandler socket plan =>
      let (handler, world) := s.world.prepare plan
      { s with world := world }.settle
        (s.executor.setSocketHandler (world.handleOf socket) handler)
  | .setPolicy plan =>
      let (policy, world) := s.world.preparePolicy plan
      { s with world := world }.settle
        (s.executor.setAdmission (.new (policyRules s.maxDecides) policy))
  | .requestStop => s.settle s.executor.requestStop
  | .stopHandle =>
      let (granted, control) := s.executor.control.requestStop
      (.flag granted, { s with executor := { s.executor with control := control } })
  | .isExecuting => (.flag s.executor.control.executing, s)
  | .inspect => (.registry (s.world.inspect s.executor.registry), s)
  | .describe => (.text s.executor.describe, s)
  | .setContext value => (.nothing, { s with context := { s.context with integer := some value } })
  | .execute keepContext => s.execute fuel keepContext

/-- What a step comes to, with the log of the step alone. -/
def loggedStep (s : Stage) (fuel : Nat) (step : ScenarioStep) :
    (StepResult × Array LogEntry) × Stage :=
  let (result, s) := { s with world := { s.world with log := #[] } }.step fuel step
  ((result, s.world.log), s)

end Stage

end Reactor.Scenario
