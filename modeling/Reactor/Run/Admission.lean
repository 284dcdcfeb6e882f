import Reactor.Run.State

/-!
The admission of a tick. The policy is asked, in the order of the handles, about every socket that
has something left to do and does not take part yet; after the first verdict that defers, nobody
else is asked.
-/

namespace Reactor

variable {W S H P : Type}

/-- How far the admission of a tick has come: whether a verdict has deferred, who takes part in
the tick, and the session. -/
structure AdmissionPass (W S H P : Type) where
  deferred : Bool
  admitted : List SocketHandle
  session : Session W S H P

/-- A socket after a verdict on it. -/
def Descriptor.judged (d : Descriptor S H) : Decision → Descriptor S H
  | .grant => { d with running := true, postponed := false }
  | .skip | .defer => { d with postponed := true }

def Session.decide (host : Host W S H P) (s : Session W S H P) (d : Descriptor S H) :
    Decision × Session W S H P :=
  let (decision, policy, world, stop) := host.policy.decide s.world s.policy d s.context.context
  (decision, ({ s with policy := policy, world := world }.stopIf stop).note
    (.decided d.handle decision))

namespace AdmissionPass

/-- Adds a socket to those that take part. -/
def take (pass : AdmissionPass W S H P) (h : SocketHandle) : AdmissionPass W S H P :=
  { pass with admitted := pass.admitted ++ [h] }

/-- Asks about a socket that does not take part yet. -/
def ask (host : Host W S H P) (pass : AdmissionPass W S H P) (d : Descriptor S H) :
    Descriptor S H × AdmissionPass W S H P :=
  let (decision, session) := pass.session.decide host d
  let pass := { pass with session := session }
  (d.judged decision, match decision with
    | .grant => pass.take d.handle
    | .skip => pass
    | .defer => { pass with deferred := true })

/-- Deals with one socket. -/
def consider (host : Host W S H P) (pass : AdmissionPass W S H P) (d : Descriptor S H) :
    Descriptor S H × AdmissionPass W S H P :=
  if d.isComplete then (d, pass)
  else if d.running then (d, pass.take d.handle)
  else if pass.deferred then ({ d with postponed := true }, pass)
  else pass.ask host d

end AdmissionPass

/-- Decides who takes part in the tick, and yields the handles of those who do. -/
def Run.admission {ε : Type} (host : Host W S H P) :
    Step (Run W S H P) ε (List SocketHandle) := fun r =>
  let (registry, pass) := HandleMap.traverse r.registry (AdmissionPass.consider host)
    ⟨false, [], r.session⟩
  (.done pass.admitted, ⟨registry, pass.session⟩)

end Reactor
