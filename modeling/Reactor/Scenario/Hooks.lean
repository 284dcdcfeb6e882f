import Reactor.Host
import Reactor.Scenario.World

/-! The hooks of a scenario: how their rules are matched, and how their actions are carried out. -/

namespace Reactor.Scenario

inductive ScriptedHandler where
  /-- Does nothing. -/
  | silent
  /-- Follows the rules of a hook. -/
  | rules (hook : Nat)
  /-- Has callbacks, each of which follows the rules of a hook. -/
  | callbacks (handler : CallbackHandler Nat)

/-- A hook at work: what it can reach, and what it has asked for so far. A fault has no payload. -/
structure Hearing where
  world : World
  context : RunContext Nat
  requests : List (Request Nat)
  metadata : Metadata
  payload : Option (Payload Nat)
  self : SocketHandle

namespace Hearing

def ask (h : Hearing) (request : Request Nat) : Hearing :=
  { h with context := h.context.grant request, requests := h.requests ++ [request] }

/-- The handle that a name stands for, `self` being the socket of the event. -/
def handleOf (h : Hearing) (name : String) : SocketHandle :=
  if name = "self" then h.self else h.world.handleOf name

def register (h : Hearing) (name : String) (socket : Nat) (operation : Operation)
    (metadata : Metadata) : ActionResult × Hearing :=
  let handle := h.context.nextHandle
  let h := h.ask (.register socket operation metadata)
  (.handle handle, { h with world := h.world.bind name handle })

/-- Chooses the next operation, and tells whether there is a place for it. -/
def setNext (h : Hearing) (operation : Operation) : ActionResult × Hearing :=
  match h.payload with
  | none => (.nothing, h)
  | some p => (.flag p.carriesNext, { h with payload := some (p.withNext (some operation)) })

/-- Carries out an action that does not end the hook. -/
def act (h : Hearing) : Action → ActionResult × Hearing
  | .stop => (.flag h.context.control.requestStop.1, h.ask .stop)
  | .stopRequested => (.flag h.context.control.stopRequested, h)
  | .register name plan operation metadata =>
      let (socket, world) := h.world.addSocket plan
      { h with world := world }.register name socket operation metadata
  | .deregister socket => (.nothing, h.ask (.deregister (h.handleOf socket)))
  | .setOperation socket operation =>
      (.nothing, h.ask (.setOperation (h.handleOf socket) operation))
  | .count =>
      let n := h.context.context.integer.getD 0 + 1
      (.integer n, { h with context :=
        { h.context with context := { h.context.context with integer := some n } } })
  | .describeContext => (.text h.context.describe, h)
  | .next operation => h.setNext operation
  | .takeNext =>
      match h.payload with
      | none => (.nothing, h)
      | some p =>
          (((p.next?.map fun o => ActionResult.text o.kind).getD .nothing),
            { h with payload := some (p.withNext none) })
  | .echo =>
      let data := ((h.payload.bind Payload.frame?).map Frame.data).getD []
      h.setNext (.write ⟨data, false⟩)
  | .setData data =>
      match h.payload with
      | none => (.nothing, h)
      | some p =>
          (.flag p.writeOperation?.isSome, { h with payload := some (p.withData data) })
  | .complete =>
      match h.payload with
      | none => (.nothing, h)
      | some _ => (.nothing, { h with metadata := { h.metadata with requestComplete := true } })
  | .user =>
      match h.payload, h.metadata.userContext with
      | some _, some n =>
          (.integer (n + 1), { h with metadata := { h.metadata with userContext := some (n + 1) } })
      | _, _ => (.nothing, h)
  | .takeClient name operation metadata =>
      match h.payload, h.payload.bind Payload.client? with
      | some p, some client =>
          { h with payload := some p.withoutClient }.register name client operation metadata
      | _, _ => (.nothing, h)
  | .dropClient =>
      match h.payload with
      | none => (.nothing, h)
      | some p => (.flag p.client?.isSome, { h with payload := some p.withoutClient })
  | .fail _ | .fatal _ | .crash | .unknown _ => (.nothing, h)

/-- Carries out actions in order. One that raises an error ends the hook. -/
def perform : List Action → Step Hearing HandlerError Unit
  | [] => pure ()
  | .fail error :: _ => Step.cut (.socket error)
  | .fatal text :: _ => Step.cut (.fatal text)
  | .crash :: _ => Step.conclude .crashed
  | action :: rest => do
      Step.modify fun h =>
        let (result, h) := h.act action
        { h with world := h.world.write (.action action.name result) }
      perform rest

end Hearing

/-- Whether a trigger is met by an event, or by a fault if there is no kind of event. -/
def Trigger.met : Trigger → Option EventKind → Bool
  | .any, event => event.isSome
  | .kind k, event => k = event.getD .exception
  | .never, _ => false

/-- Matches rules against an event or a fault of a socket. It yields the new counts of the matches
and the actions to carry out. -/
def matchRules (world : World) (event : Option EventKind) (socket : SocketHandle) :
    List Rule → List Nat → List Nat × List Action
  | rule :: rules, count :: counts =>
      let others := matchRules world event socket rules counts
      let ofSocket := match rule.socket with
        | some name => decide (world.names.lookup name = some socket)
        | none => true
      if rule.trigger.met event && ofSocket then
        let count := count + 1
        let acts := match rule.nth with
          | some n => n == count
          | none => true
        (count :: others.1, if acts then rule.actions ++ others.2 else others.2)
      else (count :: others.1, others.2)
  | _, counts => (counts, [])

/-- What a hook makes of an event or a fault, of which it has just written in the log. -/
def World.follow (w : World) (hook : Nat) (event : Option EventKind) (h : Hearing) :
    Ending HandlerError Unit × Hearing :=
  match w.hooks[hook]? with
  | none => (.done (), { h with world := w })
  | some r =>
      let (counts, actions) := matchRules w event h.self r.rules r.matched
      let w := { w with hooks := w.hooks.setIfInBounds hook { r with matched := counts } }
      Hearing.perform actions { h with world := w }

/-- The name under which a hook writes in the log. -/
def World.hookId (w : World) (hook : Nat) : String := (w.hooks[hook]?.map (·.id)).getD ""

/-- The reaction of the hook at a position to an event. -/
def ruleOnEvent {H : Type} (w : World) (hook : Nat) (event : Event Nat H)
    (context : RunContext Nat) : EventReaction World Nat :=
  let d := event.descriptor
  let logged := w.write (.event (w.hookId hook) d.handle (w.view d) event.payload)
  let (ending, h) := logged.follow hook (some event.kind)
    ⟨logged, context, [], d.metadata, some event.payload, d.handle⟩
  { context := h.context.context
    requests := h.requests
    verdict := ending
    world := h.world
    metadata := h.metadata
    payload := h.payload.getD event.payload }

/-- The reaction of the hook at a position to a fault. -/
def ruleOnFault {H : Type} (w : World) (hook : Nat) (fault : Fault Nat H)
    (context : RunContext Nat) : Reaction World Nat :=
  let d := fault.descriptor
  let logged := w.write (.fault (w.hookId hook) d.handle (w.view d) fault.error fault.event)
  let (ending, h) := logged.follow hook none
    ⟨logged, context, [], d.metadata, none, d.handle⟩
  ⟨h.context.context, h.requests, ending, h.world⟩

/-- Notes that a callback is called. -/
def World.call (w : World) (hook : Nat) : World :=
  { w with calls := w.calls.push (w.hookId hook) }

def handlerRules : HandlerRules World Nat ScriptedHandler where
  onEvent w handler event context :=
    match handler with
    | .silent => .nothing w event context
    | .rules hook => ruleOnEvent w hook event context
    | .callbacks c =>
        match c.callback? event.kind with
        | some hook => ruleOnEvent (w.call hook) hook event context
        | none => .nothing w event context
  onFault w handler fault context :=
    match handler with
    | .silent => .nothing w context
    | .rules hook => ruleOnFault w hook fault context
    | .callbacks c =>
        match c.exception with
        | some hook => ruleOnFault (w.call hook) hook fault context
        | none => .nothing w context

end Reactor.Scenario
