import Reactor.Host
import Reactor.Scenario.Fd
import Reactor.Scenario.Sockets

/-! The selectors of a scenario. -/

namespace Reactor.Scenario

inductive SelectorCall where
  /-- Polls the descriptors. -/
  | poll
  /-- Requests a stop of the run, and polls. -/
  | stop
  /-- Polls, and turns both lists round. -/
  | reverse
  | nothing
  /-- Reports the sockets of these names, whatever they wait for. -/
  | exactly (read write : List String)
  | fail (error : IoError)

/-- What the selector does, call by call, and then for good. -/
structure SelectorPlan where
  calls : List SelectorCall
  otherwise : SelectorCall

def SelectorCall.result (call : SelectorCall) (w : World) (interests : List Interest)
    (timeout : Duration) : Except IoError Readiness :=
  match call with
  | .poll | .stop => pollAll interests timeout
  | .reverse => (pollAll interests timeout).map fun r => ⟨r.read.reverse, r.write.reverse⟩
  | .nothing => .ok .none
  | .exactly read write => .ok ⟨read.map w.handleOf, write.map w.handleOf⟩
  | .fail error => .error error

/-- Selects, and writes it in the log. From the call numbered `maxSelects` of a run on, a stop of
the run is requested. -/
def select (plan : SelectorPlan) (maxSelects : Nat) (w : World) (interests : List Interest)
    (timeout : Duration) : SelectAnswer World :=
  let call := plan.calls[w.selects]?.getD plan.otherwise
  let w := { w with selects := w.selects + 1, selectsInRun := w.selectsInRun + 1 }
  let result := call.result w interests timeout
  let (ready, succeeded) := match result with
    | .ok ready => (ready, true)
    | .error _ => (.none, false)
  let stops := match call with
    | .stop => true
    | _ => false
  ⟨result, w.write (.selected interests ready timeout succeeded),
    stops || Nat.ble maxSelects w.selectsInRun⟩

end Reactor.Scenario
