import Reactor.Policy.Rules
import Reactor.Proofs.Executor.Reachable
import Reactor.Proofs.Run.Clients

/-! A listener and the clients that it yields: who closes them. -/

/-! ## A host with a listener -/

namespace Reactor.Listening

inductive Endpoint where
  | listener | client
  deriving DecidableEq, Repr

/-- Endpoints that are open, and a listener that always has another client. The surroundings are
the endpoints that have been closed, in order. -/
def sockets : SocketRules (List Endpoint) Endpoint where
  isOpen _ _ := true
  isConnected _ _ := true
  isServer _ endpoint := endpoint = .listener
  rawFd _ _ := none
  connect world endpoint _ := ⟨.done (), endpoint, world, false⟩
  pollConnect world endpoint := ⟨.done true, endpoint, world, false⟩
  read world endpoint picker _ _ :=
    (⟨.done (.accepted .client "peer"), endpoint, world, false⟩, picker)
  write world endpoint data _ := ⟨.done data.length, endpoint, world, false⟩
  close world endpoint := (endpoint, world ++ [endpoint])

/-- What a handler does when it is told of a client: whether it takes the client, what it asks for,
and how it ends. -/
structure Hook where
  takes : Bool
  requests : List (Request Endpoint)
  verdict : Ending HandlerError Unit

def handlers : HandlerRules (List Endpoint) Endpoint Hook where
  onEvent world hook event context :=
    if event.kind = .accept then
      { Reaction.nothing world context with
        requests := hook.requests
        verdict := hook.verdict
        metadata := event.descriptor.metadata
        payload := if hook.takes then event.payload.withoutClient else event.payload }
    else .nothing world event context
  onFault world _ _ context := .nothing world context

def host : Host (List Endpoint) Endpoint Hook Unit where
  sockets := sockets
  handlers := handlers
  policy := .noLimit
  select world interests _ := ⟨.ok ⟨interests.map (·.handle), []⟩, world, false⟩

def listen : ReadOperation := ⟨.raw .new, false⟩

def idle : Executor Endpoint Hook Unit where
  config := .default
  registry := .empty
  handlers := []
  admission := ⟨(), false⟩
  control := .idle
  changes := []
  nextHandle := ⟨1⟩

def executor (hook : Hook) : Executor Endpoint Hook Unit :=
  (idle.register .listener (.read listen) .empty).2.addHandler hook

def visit (hook : Hook) : Visit (List Endpoint) Endpoint Hook Unit :=
  ⟨.new ⟨1⟩ .listener (.read listen) .empty, ((executor hook).started .empty []).session⟩

/-- The visit once the connection has been announced. -/
def greeted (hook : Hook) : Visit (List Endpoint) Endpoint Hook Unit :=
  (Visit.ensureConnected host (visit hook)).2

/-- The visit once the listener has yielded a client. -/
def accepted (hook : Hook) : Visit (List Endpoint) Endpoint Hook Unit :=
  (Visit.readSocket host listen (greeted hook).tried).2

def turn (hook : Hook) : Ending Halt Unit × Visit (List Endpoint) Endpoint Hook Unit :=
  Duty.reading.work host (visit hook)

def report (hook : Hook) : RunReport (List Endpoint) Endpoint Hook Unit :=
  (executor hook).execute host 5 .empty []

/-- A handler that leaves the client alone. -/
def indifferent : Hook := ⟨false, [], .done ()⟩

/-- A handler that fails the listener when it is told of a client. -/
def busy : Hook := ⟨false, [], .cut (.socket (.peer "busy"))⟩

/-- A handler that asks for a stop of the run when it is told of a client. -/
def closing : Hook := ⟨false, [.stop], .done ()⟩

end Reactor.Listening

namespace Reactor

variable {W S H P : Type} {host : Host W S H P}

/-- A client that a listener yields is offered to the hooks. Once all of them have seen it without
a failure, and no stop is due, the client is closed if none has taken it, and only then; it is closed
once. If a hook fails, or a stop is due, the client is not closed, whether a hook has taken it or
not. The listener is left with its read operation, a reset picker and nothing collected, unless a
hook has failed the listener. -/
theorem Duty.reading_offers {v u w : Visit W S H P} {r : ReadOperation} {client : S}
    {address : String} (hc : Visit.ensureConnected host v = (.done true, u))
    (ho : u.descriptor.operation = some (.read r))
    (hr : Visit.readSocket host r u.tried = (.done (.accepted client address), w)) :
    Visit.Offered host (Visit.dispatch host (.accept (some client) address) w)
      (w.untaken? host client address) r v (Duty.reading.work host v) := by
  have hturn : Duty.reading.work host v =
      Visit.settle host (Visit.welcome host client address) w :=
    Visit.settle_congr (Visit.serveRead_accepted hc ho hr)
  obtain ⟨hh, deeds, hj, hnone⟩ := Visit.journal_accepted hc hr
  obtain ⟨picker, hpicker⟩ := Visit.operation_accepted hr
  obtain ⟨hh', hop⟩ := Visit.descriptor_dispatch host (.accept (some client) address) w
  obtain ⟨told, htold, hnone'⟩ := Visit.journal_dispatch host (.accept (some client) address) w
  rw [hturn]
  rcases hd : Visit.dispatch host (.accept (some client) address) w
    with ⟨payload | (error | halt) | _, t⟩
  all_goals rw [hd] at hh' hop htold
  all_goals
    have hjt : t.session.journal = v.session.journal ++ (deeds ++ told) := by
      rw [htold, hj, List.append_assoc]
    have hnonet : dismissals v.descriptor.handle (deeds ++ told) = 0 := by
      rw [dismissals_append, hnone, hnone']
  · have hleft : w.untaken? host client address = payload.client? :=
      congrArg Payload.client? (Visit.dispatch_left hd)
    rw [hleft]
    exact Visit.offered_of_done hd (hop.trans hpicker) (hh'.trans hh) hjt hnonet
  · exact Visit.offered_of_fault hd hjt hnonet
  · exact Visit.offered_of_halt hd (hop.trans hpicker) hjt hnonet
  · exact Visit.offered_of_crashed hd hjt hnonet

/-- A client that no handler takes is closed once, and the listener waits for the next one. -/
theorem Duty.reading_offers_indifferent :
    (∃ deeds, (Listening.turn Listening.indifferent).2.session.journal =
        (Listening.visit Listening.indifferent).session.journal ++ deeds ∧
          dismissals ⟨1⟩ deeds = 1) ∧
      (Listening.turn Listening.indifferent).2.session.world = [.client] ∧
      ∃ picker, (Listening.turn Listening.indifferent).2.descriptor.Listens Listening.listen
        picker := by
  have hc : Visit.ensureConnected Listening.host (Listening.visit Listening.indifferent) =
      (.done true, Listening.greeted Listening.indifferent) := rfl
  have hr : Visit.readSocket Listening.host Listening.listen
      (Listening.greeted Listening.indifferent).tried =
        (.done (.accepted .client "peer"), Listening.accepted Listening.indifferent) := rfl
  have htold : (Visit.dispatch Listening.host (.accept (some .client) "peer")
      (Listening.accepted Listening.indifferent)).1 =
        .done (.accept (some .client) "peer") := rfl
  have hoffered := reading_offers (r := Listening.listen) hc rfl hr
  obtain ⟨hcount, hclose⟩ := hoffered.closes _ htold
  obtain ⟨picker, -, hlistens⟩ := hoffered.listens (by simp [htold]) (by simp [htold])
  exact ⟨hcount, hclose .client rfl, picker, hlistens⟩

end Reactor

namespace Reactor.Listening

/-- Neither handler takes the client. The runs end well, and the one endpoint that has been closed
by then is the listener. -/
theorem clients_lost :
    (∀ hook ∈ [busy, closing], ∀ v payload,
        (Visit.askAbout host v payload (.shared hook)).2.payload = payload) ∧
      ∀ hook ∈ [busy, closing], (report hook).ending = .done () ∧
        (report hook).journal.countP (fun
          | .raised _ _ (.accept (some .client) _) => true
          | _ => false) = 1 ∧
        dismissals ⟨1⟩ (report hook).journal = 0 ∧ (report hook).world = [.listener] := by
  have hleaves : ∀ hook : Hook, hook.takes = false → ∀ v payload,
      (Visit.askAbout host v payload (.shared hook)).2.payload = payload := by
    intro hook hh v payload
    simp only [Visit.askAbout, host, handlers, hh]
    split <;> rfl
  simp only [List.forall_mem_cons]
  refine ⟨⟨hleaves busy rfl, hleaves closing rfl, by simp⟩, ?_⟩
  decide +kernel

end Reactor.Listening
