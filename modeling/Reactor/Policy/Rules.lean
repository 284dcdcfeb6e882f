import Reactor.Host
import Reactor.Policy.ConstantLimit

/-! The policies of this library as rules for a run. -/

namespace Reactor

variable {W S H : Type}

/-- The policy that admits everybody, keeps no state and sees no events. -/
def PolicyRules.noLimit : PolicyRules W S H Unit where
  observes _ := false
  atStart world policy context := (policy, context, world)
  decide world policy _ _ := (.grant, policy, world, false)
  atFinish world policy context := (policy, context, world)
  onEvent world policy event context := (policy, .nothing world event context)
  onFault world policy _ context := (policy, .nothing world context)

/-- The policy that bounds the number of sockets in flight. -/
def PolicyRules.constantLimit : PolicyRules W S H ConstantLimitPolicy where
  observes _ := true
  atStart world policy context := (policy.atStart, context, world)
  decide world policy _ _ := (policy.decide.1, policy.decide.2, world, false)
  atFinish world policy context := (policy, context, world)
  onEvent world policy event context := (policy.onEvent event, .nothing world event context)
  onFault world policy _ context := (policy, .nothing world context)

end Reactor
