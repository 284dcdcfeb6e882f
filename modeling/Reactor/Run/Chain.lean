import Reactor.Run.State

/-!
The chain of hooks: the handler of the socket itself, the handlers of the executor in the order of
their installation, and the admission policy if it observes events. The first hook that fails ends
the chain. A stop is looked for last, so the rest of the chain still sees the event of the handler
that asked for it.
-/

namespace Reactor

variable {W S H P : Type}

namespace Session

/-- Takes over what a hook of a socket did. -/
def absorb (s : Session W S H P) (handle : SocketHandle) (link : Link H) (policy : P)
    (r : Reaction W S) : Session W S H P :=
  { s with context := r.contextAfter s.context, policy := policy, world := r.world }.note
    (.heard handle link r.requests r.verdict)

/-- The hooks of a socket, given its own handler. -/
def chain (s : Session W S H P) (own : Option H) : List (Link H) :=
  own.toList.map .own ++ s.handlers.map .shared ++ if s.observing then [.policy] else []

end Session

namespace Visit

/-- What a hook does about an event, and the policy after it. -/
def askAbout (host : Host W S H P) (v : Visit W S H P) (payload : Payload S) :
    Link H → P × EventReaction W S
  | .own h | .shared h =>
      (v.session.policy,
        host.handlers.onEvent v.session.world h ⟨v.descriptor, payload⟩ v.session.context)
  | .policy =>
      host.policy.onEvent v.session.world v.session.policy ⟨v.descriptor, payload⟩
        v.session.context

/-- Lets a hook see an event, and yields the payload as the hook leaves it. -/
def hear (host : Host W S H P) (link : Link H) (payload : Payload S) :
    Step (Visit W S H P) HandlerError (Payload S) := fun v =>
  let (policy, r) := v.askAbout host payload link
  let descriptor := { v.descriptor with metadata := r.metadata }
  (r.verdict.map fun _ => r.payload,
    ⟨descriptor, v.session.absorb descriptor.handle link policy r.toReaction⟩)

/-- Lets the hooks see an event, one after the other. -/
def hearAll (host : Host W S H P) :
    List (Link H) → Payload S → Step (Visit W S H P) HandlerError (Payload S)
  | [], payload => pure payload
  | link :: links, payload => do
      let payload ← hear host link payload
      hearAll host links payload

/-- What a hook does about a fault, and the policy after it. -/
def askAboutFault (host : Host W S H P) (v : Visit W S H P) (fault : Fault S H) :
    Link H → P × Reaction W S
  | .own h | .shared h =>
      (v.session.policy, host.handlers.onFault v.session.world h fault v.session.context)
  | .policy => host.policy.onFault v.session.world v.session.policy fault v.session.context

def hearFault (host : Host W S H P) (link : Link H) (error : SocketError)
    (event : Option EventKind) : Step (Visit W S H P) HandlerError Unit := fun v =>
  let (policy, r) := v.askAboutFault host ⟨v.descriptor, error, event⟩ link
  (r.verdict, { v with session := v.session.absorb v.descriptor.handle link policy r })

/-- Lets the hooks see a fault, one after the other. -/
def hearFaultAll (host : Host W S H P) (error : SocketError) (event : Option EventKind) :
    List (Link H) → Step (Visit W S H P) HandlerError Unit
  | [] => pure ()
  | link :: links => do
      hearFault host link error event
      hearFaultAll host error event links

/-- Does something while the handler of the socket itself is detached. -/
def detached {ε ε' α : Type} (x : Option H → Step (Visit W S H P) ε α) :
    Step (Visit W S H P) ε' (Except ε α) := do
  let own := (← getDescriptor).handler
  modifyDescriptor fun d => { d with handler := none }
  let result ← (x own).attempt
  modifyDescriptor fun d => { d with handler := own }
  return result

/-- Records that the chain is given something. -/
def beginDispatch {ε : Type} (deed : SocketHandle → Standing → Deed S H) :
    Step (Visit W S H P) ε Unit :=
  Step.modify fun v =>
    let v := v.note deed
    { v with session := { v.session with dispatched := v.session.dispatched + 1 } }

/-- Gives an event to the chain, and yields the payload as the hooks leave it. -/
def dispatch (host : Host W S H P) (payload : Payload S) :
    Step (Visit W S H P) Interrupt (Payload S) := do
  beginDispatch fun handle standing => .raised handle standing payload
  let links := (← Step.get).session.chain
  match ← detached fun own => hearAll host (links own) payload with
  | .ok payload =>
      onSession (Session.checkStop.mapCut .halt)
      return payload
  | .error (.socket error) => Step.cut (.fault error (some payload.kind))
  | .error (.fatal text) => Step.cut (.halt (.fatal text))

/-- Gives a fault to the chain. A failure of the socket that a hook raises here changes nothing:
the socket is on its way out already. -/
def dispatchFault (host : Host W S H P) (error : SocketError) (event : Option EventKind) :
    Step (Visit W S H P) Halt Unit := do
  beginDispatch fun handle standing => .reported handle standing error event
  let links := (← Step.get).session.chain
  match ← detached fun own => hearFaultAll host error event (links own) with
  | .error (.fatal text) => Step.cut (.fatal text)
  | _ => onSession Session.checkStop

end Visit

end Reactor
