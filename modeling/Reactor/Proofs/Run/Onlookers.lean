import Reactor.Proofs.Run.Congruence
import Reactor.Proofs.Run.Limit

/-! Hooks that only look on. What they are given goes through them unchanged, so the run goes on as
it would without them, and its journal tells what each socket has lived through. -/

namespace Reactor

variable {W S H P : Type} {host : Host W S H P} {h k : SocketHandle}

/-! ## What a socket lives through -/

def Deed.event? (h : SocketHandle) : Deed S H → Option (Payload S)
  | .raised k _ payload => if k = h then some payload else none
  | _ => none

def eventsOf (h : SocketHandle) (journal : List (Deed S H)) : List (Payload S) :=
  journal.filterMap (Deed.event? h)

/-- The bytes that a socket has taken from a call to write. -/
def Deed.bytesSent (h : SocketHandle) : Deed S H → Bytes
  | .called k _ (.write data _ accepted) => if k = h then data.take (accepted.getD 0) else []
  | _ => []

def bytesSent (h : SocketHandle) (journal : List (Deed S H)) : Bytes :=
  journal.flatMap (Deed.bytesSent h)

section History

variable {deeds : List (Deed S H)}

@[simp] theorem eventsOf_nil : eventsOf h ([] : List (Deed S H)) = [] := rfl

@[simp] theorem bytesSent_nil : bytesSent h ([] : List (Deed S H)) = [] := rfl

@[simp] theorem eventsOf_append (journal deeds : List (Deed S H)) :
    eventsOf h (journal ++ deeds) = eventsOf h journal ++ eventsOf h deeds := by
  simp [eventsOf]

@[simp] theorem bytesSent_append (journal deeds : List (Deed S H)) :
    bytesSent h (journal ++ deeds) = bytesSent h journal ++ bytesSent h deeds := by
  simp [bytesSent]

/-- What is done for others does not concern the socket. -/
theorem eventsOf_eq_nil (hd : ∀ deed ∈ deeds, deed.handle? ≠ some h) : eventsOf h deeds = [] := by
  refine List.filterMap_eq_nil_iff.2 fun deed hmem => ?_
  have hne := hd deed hmem
  cases deed with
  | raised => exact if_neg fun heq => hne (congrArg some heq)
  | _ => rfl

theorem bytesSent_eq_nil (hd : ∀ deed ∈ deeds, deed.handle? ≠ some h) : bytesSent h deeds = [] := by
  refine List.flatMap_eq_nil_iff.2 fun deed hmem => ?_
  have hne := hd deed hmem
  cases deed with
  | called k standing call =>
      cases call with
      | write => exact if_neg fun heq => hne (congrArg some heq)
      | _ => rfl
  | _ => rfl

end History

/-- The deed is not a hook that fails. -/
def Deed.succeeds : Deed S H → Bool
  | .heard _ _ _ (.done _) => true
  | .heard _ _ _ _ => false
  | _ => true

/-- No place is lost where no hook fails. -/
theorem lost_eq_zero {journal : List (Deed S H)} (hj : ∀ deed ∈ journal, deed.succeeds = true) :
    lost journal = 0 := by
  by_contra hne
  obtain ⟨before, parting, hearings, k, link, requests, verdict, after, rfl, -, -, hv⟩ :=
    lost_pos_iff.1 (Nat.pos_of_ne_zero hne)
  have hs := hj (.heard k link requests verdict) (by simp)
  rcases verdict with _ | _ | _
  · exact hv rfl
  · cases hs
  · cases hs

/-! ## Calm sessions -/

namespace Session

/-- Nobody has asked for a stop, nothing is queued, and no hook has failed. -/
structure Calm (s : Session W S H P) : Prop where
  unstopped : s.context.control.stopRequested = false
  unqueued : s.context.changes = []
  unfailed : ∀ deed ∈ s.journal, deed.succeeds = true

variable {s s' s'' : Session W S H P} {events more : List (Payload S)} {bytes rest : Bytes}

theorem Calm.stopDue (hs : s.Calm) : s.stopDue = false := by
  simp [Session.stopDue, hs.unstopped]

theorem Calm.note (hs : s.Calm) (world : W) {deed : Deed S H} (hd : deed.succeeds = true) :
    ({ s with world := world }.note deed).Calm := by
  refine ⟨hs.unstopped, hs.unqueued, fun other hmem => ?_⟩
  rcases List.mem_append.1 hmem with hmem | hmem
  · exact hs.unfailed other hmem
  · rwa [List.mem_singleton.1 hmem]

/-- A hook that asks for nothing and does not fail leaves the session calm. -/
theorem Calm.absorb (hs : s.Calm) (handle : SocketHandle) (link : Link H) (policy : P)
    {r : Reaction W S} (hr : r.requests = []) (hv : r.verdict = .done ()) :
    (s.absorb handle link policy r).Calm := by
  have hcontext : r.contextAfter s.context = { s.context with context := r.context } := by
    simp [Reaction.contextAfter, hr]
  refine ⟨?_, ?_, fun deed hmem => ?_⟩
  · simp only [Session.absorb, Session.note, hcontext]
    exact hs.unstopped
  · simp only [Session.absorb, Session.note, hcontext]
    exact hs.unqueued
  · rcases List.mem_append.1 hmem with hmem | hmem
    · exact hs.unfailed deed hmem
    · rw [List.mem_singleton.1 hmem, hv]
      rfl

/-- The session has calmly gone on with a socket, which has lived through these events and has taken
these bytes meanwhile. -/
structure Tells (h : SocketHandle) (events : List (Payload S)) (bytes : Bytes)
    (s s' : Session W S H P) : Prop where
  calm : s'.Calm
  journal : ∃ deeds, s'.journal = s.journal ++ deeds ∧ (∀ deed ∈ deeds, deed.handle? = some h) ∧
    eventsOf h deeds = events ∧ bytesSent h deeds = bytes

theorem Tells.refl (hs : s.Calm) : s.Tells h [] [] s :=
  ⟨hs, [], by simp, by simp, rfl, rfl⟩

theorem Tells.trans (ht : s.Tells h events bytes s') (ht' : s'.Tells h more rest s'') :
    s.Tells h (events ++ more) (bytes ++ rest) s'' := by
  obtain ⟨deeds, hj, hh, rfl, rfl⟩ := ht.journal
  obtain ⟨later, hj', hh', rfl, rfl⟩ := ht'.journal
  refine ⟨ht'.calm, deeds ++ later, ?_, fun deed hd => ?_, by simp, by simp⟩
  · rw [hj', hj, List.append_assoc]
  · exact (List.mem_append.1 hd).elim (hh deed) (hh' deed)

theorem Tells.eventsOf (ht : s.Tells h events bytes s') :
    eventsOf h s'.journal = eventsOf h s.journal ++ events := by
  obtain ⟨deeds, hj, -, rfl, -⟩ := ht.journal
  rw [hj, eventsOf_append]

theorem Tells.bytesSent (ht : s.Tells h events bytes s') :
    bytesSent h s'.journal = bytesSent h s.journal ++ bytes := by
  obtain ⟨deeds, hj, -, -, rfl⟩ := ht.journal
  rw [hj, bytesSent_append]

/-- The others have lived through nothing meanwhile. -/
theorem Tells.others (ht : s.Tells h events bytes s') (hk : k ≠ h) :
    Reactor.eventsOf k s'.journal = Reactor.eventsOf k s.journal ∧
      Reactor.bytesSent k s'.journal = Reactor.bytesSent k s.journal := by
  obtain ⟨deeds, hj, hh, -, -⟩ := ht.journal
  have hne : ∀ deed ∈ deeds, deed.handle? ≠ some k := by
    intro deed hd heq
    exact hk (Option.some.inj (heq.symm.trans (hh deed hd)))
  rw [hj, eventsOf_append, bytesSent_append, eventsOf_eq_nil hne, bytesSent_eq_nil hne]
  exact ⟨List.append_nil _, List.append_nil _⟩

/-- A deed that is not one of a hook leaves the session calm. -/
theorem Calm.tells_note (hs : s.Calm) (world : W) (deed : Deed S H) (hd : deed.succeeds = true)
    (hh : deed.handle? = some h) : s.Tells h (deed.event? h).toList (deed.bytesSent h)
      ({ s with world := world }.note deed) := by
  refine ⟨hs.note world hd, [deed], rfl, by simpa using hh, ?_, ?_⟩
  · cases he : deed.event? h <;> simp [Reactor.eventsOf, he]
  · simp [Reactor.bytesSent]

end Session

/-! ## The chain -/

/-- The hooks only look on: they ask for nothing, do not fail, and leave the event and the metadata
of the socket as they are. -/
structure Host.Observed (host : Host W S H P) : Prop where
  requests (v : Visit W S H P) (payload : Payload S) (link : Link H) :
    (v.askAbout host payload link).2.requests = []
  verdict (v : Visit W S H P) (payload : Payload S) (link : Link H) :
    (v.askAbout host payload link).2.verdict = .done ()
  metadata (v : Visit W S H P) (payload : Payload S) (link : Link H) :
    (v.askAbout host payload link).2.metadata = v.descriptor.metadata
  payload (v : Visit W S H P) (payload : Payload S) (link : Link H) :
    (v.askAbout host payload link).2.payload = payload

/-- The handlers only look on. They may still change their surroundings and the values of the
run. -/
structure HandlerRules.Observe (rules : HandlerRules W S H) : Prop where
  requests (world : W) (handler : H) (event : Event S H) (context : RunContext S) :
    (rules.onEvent world handler event context).requests = []
  verdict (world : W) (handler : H) (event : Event S H) (context : RunContext S) :
    (rules.onEvent world handler event context).verdict = .done ()
  metadata (world : W) (handler : H) (event : Event S H) (context : RunContext S) :
    (rules.onEvent world handler event context).metadata = event.descriptor.metadata
  payload (world : W) (handler : H) (event : Event S H) (context : RunContext S) :
    (rules.onEvent world handler event context).payload = event.payload

/-- The policy that bounds the number of sockets in flight only looks on as well. -/
theorem HandlerRules.Observe.observed {host : Host W S H ConstantLimitPolicy}
    (ho : host.handlers.Observe) (hp : host.policy = .constantLimit) : host.Observed := by
  have hpolicy : ∀ (v : Visit W S H ConstantLimitPolicy) payload,
      (v.askAbout host payload .policy).2 =
        .nothing v.session.world ⟨v.descriptor, payload⟩ v.session.context := by
    intro v payload
    simp only [Visit.askAbout, hp]
    rfl
  refine ⟨?_, ?_, ?_, ?_⟩
  all_goals rintro v payload (handler | handler | _)
  · exact ho.requests _ _ _ _
  · exact ho.requests _ _ _ _
  · rw [hpolicy]; rfl
  · exact ho.verdict _ _ _ _
  · exact ho.verdict _ _ _ _
  · rw [hpolicy]; rfl
  · exact ho.metadata _ _ _ _
  · exact ho.metadata _ _ _ _
  · rw [hpolicy]; rfl
  · exact ho.payload _ _ _ _
  · exact ho.payload _ _ _ _
  · rw [hpolicy]; rfl

theorem HandlerRules.Observe.keepsFinalize {rules : HandlerRules W S H} (ho : rules.Observe) :
    rules.KeepsFinalize := by
  intro world handler event context
  rw [ho.payload]
  exact Iff.rfl

namespace Visit

variable {v : Visit W S H P}

theorem hear_observed (ho : host.Observed) (hc : v.session.Calm) (link : Link H)
    (payload : Payload S) : ∃ s, hear host link payload v = (.done payload, ⟨v.descriptor, s⟩) ∧
      v.session.Tells v.descriptor.handle [] [] s := by
  have hrequests := ho.requests v payload link
  have hverdict := ho.verdict v payload link
  have hmetadata := ho.metadata v payload link
  have hpayload := ho.payload v payload link
  rcases hr : v.askAbout host payload link with ⟨policy, r⟩
  rw [hr] at hrequests hverdict hmetadata hpayload
  refine ⟨v.session.absorb v.descriptor.handle link policy r.toReaction, ?_,
    hc.absorb _ link policy hrequests hverdict, [_], rfl, by simp [Deed.handle?], rfl, rfl⟩
  simp only [hear, hr]
  rw [hverdict, hpayload, hmetadata]
  rfl

theorem hearAll_observed (ho : host.Observed) (links : List (Link H)) (payload : Payload S) :
    ∀ v : Visit W S H P, v.session.Calm → ∃ s,
      hearAll host links payload v = (.done payload, ⟨v.descriptor, s⟩) ∧
        v.session.Tells v.descriptor.handle [] [] s := by
  induction links with
  | nil => exact fun v hc => ⟨v.session, rfl, .refl hc⟩
  | cons link links ih =>
      intro v hc
      obtain ⟨s, hx, ht⟩ := hear_observed ho hc link payload
      obtain ⟨s', hx', ht'⟩ := ih ⟨v.descriptor, s⟩ ht.calm
      refine ⟨s', ?_, ht.trans ht'⟩
      rw [hearAll, Step.bind_of_done hx]
      exact hx'

/-- An event goes through hooks that only look on as it is. -/
theorem dispatch_observed (ho : host.Observed) (hc : v.session.Calm) (payload : Payload S) :
    ∃ s, dispatch host payload v = (.done payload, ⟨v.descriptor, s⟩) ∧
      v.session.Tells v.descriptor.handle [payload] [] s := by
  have hopened : v.session.Tells v.descriptor.handle [payload] []
      (v.opened fun h st => .raised h st payload).session := by
    have ht := hc.tells_note v.session.world
      (.raised v.descriptor.handle v.descriptor.standing payload) rfl rfl
    simp only [Deed.event?, if_pos] at ht
    exact ⟨⟨ht.calm.unstopped, ht.calm.unqueued, ht.calm.unfailed⟩, ht.journal⟩
  obtain ⟨s, hx, ht⟩ := hearAll_observed ho v.links payload
    (v.opened fun h st => .raised h st payload) hopened.calm
  refine ⟨s, ?_, hopened.trans ht⟩
  rw [dispatch_apply]
  simp only [hx, dispatchEnding, ht.calm.stopDue]
  rfl

/-- A last event goes through them too. -/
theorem notify_observed (ho : host.Observed) (hc : v.session.Calm) (payload : Payload S) :
    ∃ s, notify host payload v = (.done (), ⟨v.descriptor, s⟩) ∧
      v.session.Tells v.descriptor.handle [payload] [] s := by
  obtain ⟨s, hx, ht⟩ := dispatch_observed ho hc payload
  refine ⟨s, ?_, ht⟩
  rw [notify, Step.bind_of_done (Step.attempt_of_done hx)]
  rfl

/-- Leave is taken in order of a socket that is open or has been announced. -/
theorem takeLeave_observed (ho : host.Observed) (hc : v.session.Calm)
    (htold : v.toldOff host = true) : ∃ w, takeLeave host v = (.done (), w) ∧
      v.session.Tells v.descriptor.handle [.disconnected, .finalize] [] w.session := by
  obtain ⟨s, hx, ht⟩ := notify_observed ho hc .disconnected
  have hfarewell : v.farewell host = (.done (), ⟨v.descriptor, s⟩) := by
    rw [farewell, if_pos htold, hx]
  let u : Visit W S H P := (⟨v.descriptor, s⟩ : Visit W S H P).closed host
  have hclosed : s.Tells v.descriptor.handle [] [] u.session :=
    ht.calm.tells_note _ (.closed v.descriptor.handle) rfl rfl
  obtain ⟨s', hx', ht'⟩ := notify_observed (v := u) ho hclosed.calm .finalize
  have hlast : u.session.Tells v.descriptor.handle [.finalize] [] s' := ht'
  refine ⟨⟨u.descriptor, s'⟩, ?_, (ht.trans hclosed).trans hlast⟩
  rw [takeLeave_apply (by simp [hfarewell]), finale, hfarewell, hx']
  rfl

end Visit

end Reactor
