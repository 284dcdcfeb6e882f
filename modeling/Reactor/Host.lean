import Reactor.Change
import Reactor.Duration
import Reactor.Event
import Reactor.Policy.Decision
import Reactor.Select.Poll
import Reactor.Socket

/-!
What a run finds around it: the sockets, the handlers, the admission policy and the selector. Each
is given by rules that may look at and change the surroundings `W`, so a run can be studied for any
behaviour of them.
-/

namespace Reactor

/-- What a hook did: the values of the run as it leaves them, what it asked for in order, and how
it ended. -/
structure Reaction (W S : Type) where
  context : ExecutionContext
  requests : List (Request S)
  verdict : Ending HandlerError Unit
  world : W

/-- What a hook did about an event, of which it may also change the payload and the metadata of
the socket. -/
structure EventReaction (W S : Type) extends Reaction W S where
  metadata : Metadata
  payload : Payload S

structure HandlerRules (W S H : Type) where
  onEvent : W → H → Event S H → RunContext S → EventReaction W S
  onFault : W → H → Fault S H → RunContext S → Reaction W S

/-- The behaviour of an admission policy with the states `P`. -/
structure PolicyRules (W S H P : Type) where
  /-- Whether the policy sees the events of the sockets, after all handlers. -/
  observes : P → Bool
  /-- The beginning of a run. -/
  atStart : W → P → ExecutionContext → P × ExecutionContext × W
  /-- The verdict on a socket, and whether a stop of the run was requested meanwhile. -/
  decide : W → P → Descriptor S H → ExecutionContext → Decision × P × W × Bool
  /-- The end of a run, also of one that failed. -/
  atFinish : W → P → ExecutionContext → P × ExecutionContext × W
  onEvent : W → P → Event S H → RunContext S → P × EventReaction W S
  onFault : W → P → Fault S H → RunContext S → P × Reaction W S

/-- What a selector gives back: the sockets that are ready or a failure of the selection, the
surroundings, and whether a stop of the run was requested meanwhile. -/
structure SelectAnswer (W : Type) where
  result : Except IoError Readiness
  world : W
  stop : Bool

/-- The surroundings of a run. -/
structure Host (W S H P : Type) where
  sockets : SocketRules W S
  handlers : HandlerRules W S H
  policy : PolicyRules W S H P
  select : W → List Interest → Duration → SelectAnswer W

variable {W S H P : Type}

/-- The reaction of a hook that does nothing. -/
def Reaction.nothing (world : W) (context : RunContext S) : Reaction W S :=
  ⟨context.context, [], .done (), world⟩

/-- What a hook leaves of its context: the values as it leaves them, and its requests granted in
order. -/
def Reaction.contextAfter (r : Reaction W S) (context : RunContext S) : RunContext S :=
  r.requests.foldl RunContext.grant { context with context := r.context }

/-- The reaction of a hook that does nothing about an event. -/
def EventReaction.nothing (world : W) (event : Event S H) (context : RunContext S) :
    EventReaction W S :=
  { Reaction.nothing world context with
    metadata := event.descriptor.metadata
    payload := event.payload }

/-- A selector that polls the descriptors of the system. -/
def pollingSelector (poll : W → List (Nat × PollFlags) → Nat → PollAnswer × W) (world : W)
    (interests : List Interest) (timeout : Duration) : SelectAnswer W :=
  let fds := PollSelector.polled interests
  let (answer, world) :=
    if fds.isEmpty then (.ok [], world)
    else poll world fds (PollSelector.timeoutMillis (PollSelector.wait interests timeout))
  ⟨PollSelector.interpret interests answer, world, false⟩

end Reactor
