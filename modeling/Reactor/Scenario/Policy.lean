import Reactor.Policy.Rules
import Reactor.Scenario.Hooks

/-! The admission policies of a scenario. -/

namespace Reactor.Scenario

/-- A policy of a scenario. The first two are not logged. A scripted one has a list of verdicts for
each name of a socket, a verdict for all other cases, and perhaps a hook. -/
inductive ScriptedPolicy where
  | plain
  | plainConstant (policy : ConstantLimitPolicy)
  | noLimit
  | constant (policy : ConstantLimitPolicy)
  | script (verdicts : List (String × List Decision)) (otherwise : Decision) (hook : Option Nat)

namespace ScriptedPolicy

/-- The policy that is in force unless another one is installed. -/
def default : ScriptedPolicy := plain

def isLogged : ScriptedPolicy → Bool
  | plain | plainConstant _ => false
  | noLimit | constant _ | script .. => true

def observes : ScriptedPolicy → Bool
  | plain | noLimit => false
  | plainConstant _ | constant _ => true
  | script _ _ hook => hook.isSome

/-- The number of sockets in flight, where it is counted and logged. -/
def inFlight? : ScriptedPolicy → Option Nat
  | constant p => some p.inFlight
  | _ => none

def atStart : ScriptedPolicy → ScriptedPolicy
  | plainConstant p => plainConstant p.atStart
  | constant p => constant p.atStart
  | other => other

/-- Takes the next verdict for a socket from its list. -/
def nextVerdict (w : World) (handle : SocketHandle) :
    List (String × List Decision) → Option Decision × List (String × List Decision)
  | [] => (none, [])
  | entry :: rest =>
      if w.names.lookup entry.1 = some handle then
        (entry.2.head?, (entry.1, entry.2.tail) :: rest)
      else
        let (found, rest) := nextVerdict w handle rest
        (found, entry :: rest)

/-- The verdict on the socket of a handle. -/
def verdict (w : World) (handle : SocketHandle) : ScriptedPolicy → Decision × ScriptedPolicy
  | plain => (.grant, plain)
  | noLimit => (.grant, noLimit)
  | plainConstant p => (p.decide.1, plainConstant p.decide.2)
  | constant p => (p.decide.1, constant p.decide.2)
  | script verdicts otherwise hook =>
      let (found, verdicts) := nextVerdict w handle verdicts
      (found.getD otherwise, script verdicts otherwise hook)

/-- Asks for a verdict. From the verdict numbered `maxDecides` of a run on, a logged policy requests
a stop of the run. -/
def decide (maxDecides : Nat) (w : World) (p : ScriptedPolicy)
    (d : Descriptor Nat ScriptedHandler) : Decision × ScriptedPolicy × World × Bool :=
  let (decision, after) := p.verdict w d.handle
  if p.isLogged then
    let w := { w with decidesInRun := w.decidesInRun + 1 }
    (decision, after, w.write (.decided d.handle decision after.inFlight? d.postponed),
      Nat.ble maxDecides w.decidesInRun)
  else (decision, after, w, false)

def onEvent (w : World) (p : ScriptedPolicy) (event : Event Nat ScriptedHandler)
    (context : RunContext Nat) : ScriptedPolicy × EventReaction World Nat :=
  match p with
  | plainConstant c => (plainConstant (c.onEvent event), .nothing w event context)
  | constant c => (constant (c.onEvent event), .nothing w event context)
  | script _ _ (some hook) => (p, ruleOnEvent w hook event context)
  | _ => (p, .nothing w event context)

def onFault (w : World) (p : ScriptedPolicy) (fault : Fault Nat ScriptedHandler)
    (context : RunContext Nat) : ScriptedPolicy × Reaction World Nat :=
  match p with
  | script _ _ (some hook) => (p, ruleOnFault w hook fault context)
  | _ => (p, .nothing w context)

/-- Writes in the log, if the policy is a logged one. -/
def note (p : ScriptedPolicy) (w : World) (entry : LogEntry) : World :=
  if p.isLogged then w.write entry else w

end ScriptedPolicy

def policyRules (maxDecides : Nat) : PolicyRules World Nat ScriptedHandler ScriptedPolicy where
  observes := ScriptedPolicy.observes
  atStart w p context := (p.atStart, context, p.note w (.policyStarted context.size))
  decide w p d _ := p.decide maxDecides w d
  atFinish w p context := (p, context, p.note w (.policyFinished context.size))
  onEvent w p event context := p.onEvent w event context
  onFault w p fault context := p.onFault w fault context

end Reactor.Scenario
