import Reactor.Proofs.Run.Course
import Reactor.Proofs.Run.Heeding

/-! A tick does not hear of the changes that are queued in it. The queue can be taken out of a run
and kept by its surroundings, who show it to the hooks; of what the hooks ask for, the run itself
is given nothing but the stops. Every stage of a tick then does the same as before. -/

namespace Reactor

/-! ## Computations on an image of the state -/

namespace Step

variable {σ τ ε ε' α β : Type} {φ : σ → τ}

/-- On the image of a state the second computation does what the first one does on the state. -/
def Mirrors (φ : σ → τ) (x : Step σ ε α) (y : Step τ ε α) : Prop :=
  ∀ s, y (φ s) = ((x s).1, φ (x s).2)

theorem mirrors_pure (a : α) : Mirrors φ (pure a : Step σ ε α) (pure a) := fun _ => rfl

theorem mirrors_cut (e : ε) : Mirrors φ (Step.cut e : Step σ ε α) (Step.cut e) := fun _ => rfl

theorem mirrors_modify {f : σ → σ} {g : τ → τ} (h : ∀ s, g (φ s) = φ (f s)) :
    Mirrors φ (Step.modify f : Step σ ε Unit) (Step.modify g) :=
  fun s => Prod.ext rfl (h s)

theorem Mirrors.bind {x : Step σ ε α} {y : Step τ ε α} {f : α → Step σ ε β} {g : α → Step τ ε β}
    (hx : Mirrors φ x y) (hf : ∀ a, Mirrors φ (f a) (g a)) : Mirrors φ (x >>= f) (y >>= g) := by
  intro s
  have hs := hx s
  rcases h : x s with ⟨a | e | _, t⟩
  all_goals rw [h] at hs
  · rw [bind_of_done h, bind_of_done hs]
    exact hf a t
  · rw [bind_of_cut h, bind_of_cut hs]
  · rw [bind_of_crashed h, bind_of_crashed hs]

theorem Mirrors.attempt {x : Step σ ε α} {y : Step τ ε α} (hx : Mirrors φ x y) :
    Mirrors φ (x.attempt : Step σ ε' (Except ε α)) y.attempt := by
  intro s
  have hs := hx s
  rcases h : x s with ⟨a | e | _, t⟩
  all_goals rw [h] at hs
  · rw [attempt_of_done h, attempt_of_done hs]
  · rw [attempt_of_cut h, attempt_of_cut hs]
  · rw [attempt_of_crashed h, attempt_of_crashed hs]

theorem Mirrors.attempt_bind {x : Step σ ε α} {y : Step τ ε α} {f : Except ε α → Step σ ε' β}
    {g : Except ε α → Step τ ε' β} (hx : Mirrors φ x y) (hf : ∀ a, Mirrors φ (f a) (g a)) :
    Mirrors φ (x.attempt >>= f) (y.attempt >>= g) :=
  Mirrors.bind hx.attempt hf

theorem Mirrors.mapCut {x : Step σ ε α} {y : Step τ ε α} (hx : Mirrors φ x y) (f : ε → ε') :
    Mirrors φ (x.mapCut f) (y.mapCut f) := by
  intro s
  simp only [Step.mapCut, hx s]

/-- The state may be looked at, if the image shows all that matters. -/
theorem mirrors_get_bind {f : σ → Step σ ε β} {g : τ → Step τ ε β}
    (h : ∀ s, g (φ s) (φ s) = ((f s s).1, φ (f s s).2)) :
    Mirrors φ (Step.get >>= f) (Step.get >>= g) := h

theorem Mirrors.ite {c : Prop} [Decidable c] {x x' : Step σ ε α} {y y' : Step τ ε α}
    (h : Mirrors φ x y) (h' : Mirrors φ x' y') :
    Mirrors φ (if c then x else x') (if c then y else y') := by
  split
  · exact h
  · exact h'

end Step

theorem HandleMap.traverse_mirrors {α β σ τ : Type} {φ : σ → τ} {f : σ → α → β × σ}
    {g : τ → α → β × τ} (h : ∀ s a, g (φ s) a = ((f s a).1, φ (f s a).2)) (m : HandleMap α)
    (s : σ) : m.traverse g (φ s) = ((m.traverse f s).1, φ (m.traverse f s).2) := by
  have hentries : ∀ (l : List (SocketHandle × α)) (s : σ), traverseEntries g l (φ s) =
      ((traverseEntries f l s).1, φ (traverseEntries f l s).2) := by
    intro l
    induction l with
    | nil => exact fun _ => rfl
    | cons e rest ih =>
        intro s
        simp only [traverseEntries, h, ih]
  simp only [traverse, hentries]

/-! ## A run without its queue -/

variable {W S H P : Type}

/-- What a queue of changes holds: the changes, and the handle that the next registration gets. -/
structure Agenda (S : Type) where
  changes : List (Change S)
  nextHandle : SocketHandle

namespace RunContext

def agenda (c : RunContext S) : Agenda S := ⟨c.changes, c.nextHandle⟩

def withAgenda (c : RunContext S) (a : Agenda S) : RunContext S :=
  { c with changes := a.changes, nextHandle := a.nextHandle }

def muted (c : RunContext S) : RunContext S := c.withAgenda ⟨[], .none⟩

/-- Of what is asked for, only stops are granted outside the queue. -/
theorem muted_grant (requests : List (Request S)) :
    ∀ c : RunContext S, (requests.foldl grant c).muted =
      (requests.filter Request.isStop).foldl grant c.muted := by
  induction requests with
  | nil => exact fun _ => rfl
  | cons request rest ih =>
      intro c
      rw [List.foldl_cons, ih]
      cases request <;> rfl

end RunContext

/-- What a hook does if its requests but the stops go to the agenda of the surroundings. -/
def Reaction.muted (r : Reaction W S) (context : RunContext S) : Reaction (W × Agenda S) S where
  context := r.context
  requests := r.requests.filter Request.isStop
  verdict := r.verdict
  world := (r.world, (r.contextAfter context).agenda)

def EventReaction.muted (r : EventReaction W S) (context : RunContext S) :
    EventReaction (W × Agenda S) S :=
  { r.toReaction.muted context with metadata := r.metadata, payload := r.payload }

/-- The answer of a socket that does not touch the agenda. -/
def SocketAnswer.beside {α : Type} (answer : SocketAnswer W S α) (a : Agenda S) :
    SocketAnswer (W × Agenda S) S α :=
  ⟨answer.ending, answer.socket, (answer.world, a), answer.stop⟩

def SocketRules.muted (rules : SocketRules W S) : SocketRules (W × Agenda S) S where
  isOpen w s := rules.isOpen w.1 s
  isConnected w s := rules.isConnected w.1 s
  isServer w s := rules.isServer w.1 s
  rawFd w s := rules.rawFd w.1 s
  connect w s address := (rules.connect w.1 s address).beside w.2
  pollConnect w s := (rules.pollConnect w.1 s).beside w.2
  read w s picker previous outOfBand :=
    let (answer, picker) := rules.read w.1 s picker previous outOfBand
    (answer.beside w.2, picker)
  write w s data outOfBand := (rules.write w.1 s data outOfBand).beside w.2
  close w s :=
    let (socket, world) := rules.close w.1 s
    (socket, (world, w.2))

def HandlerRules.muted (rules : HandlerRules W S H) : HandlerRules (W × Agenda S) S H where
  onEvent w h event context :=
    (rules.onEvent w.1 h event (context.withAgenda w.2)).muted (context.withAgenda w.2)
  onFault w h fault context :=
    (rules.onFault w.1 h fault (context.withAgenda w.2)).muted (context.withAgenda w.2)

def PolicyRules.muted (rules : PolicyRules W S H P) : PolicyRules (W × Agenda S) S H P where
  observes := rules.observes
  atStart w p context :=
    let (p, context, world) := rules.atStart w.1 p context
    (p, context, (world, w.2))
  decide w p d context :=
    let (decision, p, world, stop) := rules.decide w.1 p d context
    (decision, p, (world, w.2), stop)
  atFinish w p context :=
    let (p, context, world) := rules.atFinish w.1 p context
    (p, context, (world, w.2))
  onEvent w p event context :=
    let (p, r) := rules.onEvent w.1 p event (context.withAgenda w.2)
    (p, r.muted (context.withAgenda w.2))
  onFault w p fault context :=
    let (p, r) := rules.onFault w.1 p fault (context.withAgenda w.2)
    (p, r.muted (context.withAgenda w.2))

/-- Surroundings that keep the queue of changes to themselves. They show it to the hooks, and pass
nothing on of what the hooks ask for but the stops. -/
def Host.muted (host : Host W S H P) : Host (W × Agenda S) S H P where
  sockets := host.sockets.muted
  handlers := host.handlers.muted
  policy := host.policy.muted
  select w interests timeout :=
    let answer := host.select w.1 interests timeout
    ⟨answer.result, (answer.world, w.2), answer.stop⟩

/-- The deed without the requests that go to the queue. -/
def Deed.muted : Deed S H → Deed S H
  | .heard h link requests verdict => .heard h link (requests.filter Request.isStop) verdict
  | other => other

/-- The session without its queue, which the surroundings keep. -/
def Session.muted (s : Session W S H P) : Session (W × Agenda S) S H P where
  context := s.context.muted
  handlers := s.handlers
  policy := s.policy
  observing := s.observing
  world := (s.world, s.context.agenda)
  stopping := s.stopping
  dispatched := s.dispatched
  journal := s.journal.map Deed.muted

def Visit.muted (v : Visit W S H P) : Visit (W × Agenda S) S H P := ⟨v.descriptor, v.session.muted⟩

def Run.muted (r : Run W S H P) : Run (W × Agenda S) S H P := ⟨r.registry, r.session.muted⟩

namespace Session

theorem muted_note (s : Session W S H P) {deed : Deed S H} (hd : deed.muted = deed) :
    (s.note deed).muted = s.muted.note deed := by
  simp only [muted, note, List.map_append, List.map_cons, List.map_nil, hd]

theorem muted_stopIf (s : Session W S H P) (stop : Bool) :
    (s.stopIf stop).muted = s.muted.stopIf stop := by
  cases stop <;> rfl

/-- A call that the hooks do not hear of. -/
theorem muted_called (s : Session W S H P) (world : W) (stop : Bool) {deed : Deed S H}
    (hd : deed.muted = deed) : (({ s with world := world }.stopIf stop).note deed).muted =
      (({ s.muted with world := (world, s.context.agenda) }).stopIf stop).note deed := by
  rw [muted_note _ hd, muted_stopIf]
  rfl

theorem muted_absorb (s : Session W S H P) (handle : SocketHandle) (link : Link H) (policy : P)
    (r : Reaction W S) : (s.absorb handle link policy r).muted =
      s.muted.absorb handle link policy (r.muted s.context) := by
  have hcontext : (r.contextAfter s.context).muted =
      (r.muted s.context).contextAfter s.context.muted :=
    RunContext.muted_grant r.requests { s.context with context := r.context }
  simp only [absorb, note, muted, List.map_append, List.map_cons, List.map_nil, hcontext]
  rfl

/-- The policy is asked without regard to the queue. -/
theorem muted_decide {host : Host W S H P} (s : Session W S H P) (d : Descriptor S H) :
    s.muted.decide host.muted d = ((s.decide host d).1, (s.decide host d).2.muted) := by
  have hasked : host.muted.policy.decide s.muted.world s.muted.policy d s.muted.context.context =
      let a := host.policy.decide s.world s.policy d s.context.context
      (a.1, a.2.1, (a.2.2.1, s.context.agenda), a.2.2.2) := rfl
  rcases hv : host.policy.decide s.world s.policy d s.context.context
    with ⟨decision, policy, world, stop⟩
  have hnoted : (({ s with policy := policy, world := world }.stopIf stop).note
      (.decided d.handle decision)).muted = _ :=
    muted_called { s with policy := policy } world stop rfl
  simp only [Session.decide, hasked, hv]
  exact Prod.ext rfl hnoted.symm

end Session

namespace Visit

open Step

variable {host : Host W S H P}

section Chain

theorem mirrors_hear (link : Link H) (payload : Payload S) :
    Mirrors muted (hear host link payload) (hear host.muted link payload) := by
  intro v
  have hask : v.muted.askAbout host.muted payload link =
      ((v.askAbout host payload link).1,
        (v.askAbout host payload link).2.muted v.session.context) := by
    cases link <;> rfl
  simp only [hear, hask]
  refine Prod.ext rfl ?_
  simp only [muted, Session.muted_absorb]
  rfl

theorem mirrors_hearFault (link : Link H) (error : SocketError) (event : Option EventKind) :
    Mirrors muted (hearFault host link error event) (hearFault host.muted link error event) := by
  intro v
  have hask : ∀ fault : Fault S H, v.muted.askAboutFault host.muted fault link =
      ((v.askAboutFault host fault link).1,
        (v.askAboutFault host fault link).2.muted v.session.context) := by
    intro fault
    cases link <;> rfl
  simp only [hearFault]
  rw [hask]
  refine Prod.ext rfl ?_
  simp only [muted, Session.muted_absorb]

theorem mirrors_hearAll (links : List (Link H)) :
    ∀ payload : Payload S, Mirrors muted (hearAll host links payload)
      (hearAll host.muted links payload) := by
  induction links with
  | nil => exact mirrors_pure
  | cons link links ih => exact fun payload => (mirrors_hear link payload).bind ih

theorem mirrors_hearFaultAll (error : SocketError) (event : Option EventKind)
    (links : List (Link H)) : Mirrors muted (hearFaultAll host error event links)
      (hearFaultAll host.muted error event links) := by
  induction links with
  | nil => exact mirrors_pure ()
  | cons link links ih => exact (mirrors_hearFault link error event).bind fun _ => ih

theorem muted_opened (v : Visit W S H P) {deed : SocketHandle → Standing → Deed S H}
    (hd : ∀ h st, (deed h st).muted = deed h st) :
    (v.opened deed).muted = v.muted.opened deed := by
  simp only [opened, begun, withHandler, muted, Session.muted, Session.note, List.map_append,
    List.map_cons, List.map_nil, hd]

theorem muted_reattached {ε α : Type} (own : Option H) (r : Ending ε α × Visit W S H P) :
    (reattached own r).muted = reattached own (r.1, r.2.muted) := by
  rcases r with ⟨a | e | _, t⟩ <;> rfl

theorem mirrors_dispatch (payload : Payload S) :
    Mirrors muted (dispatch host payload) (dispatch host.muted payload) := by
  intro v
  have hopened : v.muted.opened (fun h st => .raised h st payload) =
      (v.opened fun h st => .raised h st payload).muted := (v.muted_opened fun _ _ => rfl).symm
  have hhooks : hearAll host.muted v.muted.links payload
      (v.muted.opened fun h st => .raised h st payload) = _ :=
    hopened ▸ mirrors_hearAll v.links payload _
  rw [dispatch_apply, dispatch_apply, hhooks]
  exact Prod.ext rfl (muted_reattached _ _).symm

theorem mirrors_dispatchFault (error : SocketError) (event : Option EventKind) :
    Mirrors muted (dispatchFault host error event) (dispatchFault host.muted error event) := by
  intro v
  have hopened : v.muted.opened (fun h st => .reported h st error event) =
      (v.opened fun h st => .reported h st error event).muted :=
    (v.muted_opened fun _ _ => rfl).symm
  have hhooks : hearFaultAll host.muted error event v.muted.links
      (v.muted.opened fun h st => .reported h st error event) = _ :=
    hopened ▸ mirrors_hearFaultAll error event v.links _
  rw [dispatchFault_apply, dispatchFault_apply, hhooks]
  exact Prod.ext rfl (muted_reattached _ _).symm

end Chain

/-! ## The work on a socket -/

section Parts

variable {ε : Type}

theorem mirrors_getDescriptor :
    Mirrors muted (getDescriptor : Step (Visit W S H P) ε _) getDescriptor := fun _ => rfl

theorem mirrors_modifyDescriptor (f : Descriptor S H → Descriptor S H) :
    Mirrors muted (modifyDescriptor f : Step (Visit W S H P) ε Unit) (modifyDescriptor f) :=
  mirrors_modify fun _ => rfl

theorem mirrors_callSocket {α : Type} {call : W → S → SocketAnswer W S α}
    {call' : W × Agenda S → S → SocketAnswer (W × Agenda S) S α}
    (hcall : ∀ w a s, call' (w, a) s = (call w s).beside a)
    (record : Ending SocketError α → SocketCall) :
    Mirrors muted (callSocket call record : Step (Visit W S H P) _ _)
      (callSocket call' record) := by
  intro v
  simp only [callSocket, muted, Session.muted, hcall, SocketAnswer.beside]
  refine Prod.ext rfl ?_
  simp only [Visit.mk.injEq, true_and]
  exact (Session.muted_called _ _ _ rfl).symm

theorem mirrors_readSocket (r : ReadOperation) :
    Mirrors muted (readSocket host r) (readSocket host.muted r) := by
  intro v
  refine Prod.ext rfl ?_
  show Visit.mk _ _ = Visit.mk _ _
  simp only [Visit.mk.injEq]
  exact ⟨rfl, (Session.muted_called _ _ _ rfl).symm⟩

theorem mirrors_close : Mirrors muted (close host : Step (Visit W S H P) ε Unit)
    (close host.muted) := by
  refine mirrors_modify fun v => ?_
  show Visit.mk _ _ = Visit.mk _ _
  simp only [Visit.mk.injEq]
  exact ⟨rfl, (Session.muted_called _ _ false rfl).symm⟩

theorem mirrors_dismiss (client : S) :
    Mirrors muted (dismiss host client : Step (Visit W S H P) ε Unit)
      (dismiss host.muted client) := by
  refine mirrors_modify fun v => ?_
  show Visit.mk _ _ = Visit.mk _ _
  simp only [Visit.mk.injEq]
  exact ⟨rfl, (Session.muted_called _ _ false rfl).symm⟩

end Parts

theorem mirrors_fail (error : SocketError) (event : Option EventKind) :
    Mirrors muted (fail host error event) (fail host.muted error event) := by
  refine (mirrors_dispatchFault error event).attempt_bind fun result => ?_
  refine (mirrors_modifyDescriptor _).bind fun _ => ?_
  cases result with
  | ok => exact mirrors_pure ()
  | error halt => exact mirrors_cut halt

theorem mirrors_settle {work : Step (Visit W S H P) Interrupt Unit}
    {work' : Step (Visit (W × Agenda S) S H P) Interrupt Unit} (h : Mirrors muted work work') :
    Mirrors muted (settle host work) (settle host.muted work') := by
  refine h.attempt_bind fun result => ?_
  rcases result with (⟨error, event⟩ | halt) | _
  · exact mirrors_fail error event
  · exact mirrors_cut halt
  · exact mirrors_pure ()

theorem mirrors_unlessComplete {ε : Type} {work : Step (Visit W S H P) ε Unit}
    {work' : Step (Visit (W × Agenda S) S H P) ε Unit} (h : Mirrors muted work work') :
    Mirrors muted (unlessComplete work) (unlessComplete work') :=
  mirrors_getDescriptor.bind fun _ => (mirrors_pure ()).ite h

theorem mirrors_connect : Mirrors muted (connect host) (connect host.muted) := by
  refine mirrors_getDescriptor.bind fun d => (mirrors_pure ()).ite ?_
  refine (mirrors_modifyDescriptor _).bind fun _ => mirrors_get_bind fun v => ?_
  -- The descriptor was read before, so both runs go by the same one.
  refine (show Mirrors muted _ _ from (mirrors_pure ()).ite ?_) v
  cases d.metadata.address with
  | none => exact mirrors_cut _
  | some address => exact mirrors_callSocket (fun _ _ _ => rfl) _

theorem mirrors_ensureConnected :
    Mirrors muted (ensureConnected host) (ensureConnected host.muted) := by
  refine mirrors_getDescriptor.bind fun d => (mirrors_pure true).ite ?_
  refine ((mirrors_callSocket (fun _ _ _ => rfl) _).mapCut _).bind fun established => ?_
  refine Mirrors.ite ?_ (mirrors_pure established)
  refine (mirrors_modifyDescriptor _).bind fun _ => ?_
  exact (mirrors_dispatch .connected).bind fun _ => mirrors_pure established

theorem mirrors_welcome (client : S) (address : String) :
    Mirrors muted (welcome host client address) (welcome host.muted client address) := by
  refine (mirrors_dispatch _).attempt_bind fun result => ?_
  refine (mirrors_modifyDescriptor _).bind fun _ => ?_
  rcases result with interrupt | payload
  · exact mirrors_cut interrupt
  · dsimp only
    cases payload.client? with
    | none => exact mirrors_pure ()
    | some untaken => exact mirrors_dismiss untaken

theorem mirrors_finishRead (outcome : Except SocketError (ReadOutcome S)) :
    Mirrors muted (finishRead host outcome) (finishRead host.muted outcome) := by
  rcases outcome with error | (snapshot | frame | ⟨client, address⟩)
  · cases error with
    | accept cause =>
        exact ((mirrors_dispatchFault _ none).mapCut _).bind fun _ => mirrors_modifyDescriptor _
    | _ => exact mirrors_cut _
  · exact mirrors_modifyDescriptor fun d => { d with previous := some snapshot }
  · refine (mirrors_modifyDescriptor _).bind fun _ => ?_
    exact (mirrors_dispatch _).bind fun payload => mirrors_modifyDescriptor _
  · exact mirrors_welcome client address

theorem mirrors_serveRead : Mirrors muted (serveRead host) (serveRead host.muted) := by
  refine mirrors_ensureConnected.bind fun connected => Mirrors.ite ?_ (mirrors_pure ())
  refine mirrors_getDescriptor.bind fun d => ?_
  rcases d.operation with _ | (r | w)
  · exact mirrors_pure ()
  · refine (mirrors_modifyDescriptor _).bind fun _ => ?_
    exact (mirrors_readSocket r).attempt_bind mirrors_finishRead
  · exact mirrors_pure ()

theorem mirrors_writeSocket (data : Bytes) (outOfBand : Bool) :
    Mirrors muted (writeSocket host data outOfBand) (writeSocket host.muted data outOfBand) :=
  (mirrors_callSocket (fun _ _ _ => rfl) _).mapCut _

theorem mirrors_flush (backlog : WriteBacklog) :
    Mirrors muted (flush host backlog) (flush host.muted backlog) := by
  refine (mirrors_modifyDescriptor _).bind fun _ => (mirrors_modifyDescriptor _).bind fun _ => ?_
  refine (mirrors_writeSocket _ _).bind fun written => ?_
  exact (mirrors_modifyDescriptor _).ite (mirrors_modifyDescriptor _)

theorem mirrors_writePayload (next : Option Operation) :
    Mirrors muted (writePayload host next) (writePayload host.muted next) := by
  refine (mirrors_modifyDescriptor _).bind fun _ => mirrors_getDescriptor.bind fun d => ?_
  rcases d.operation with _ | (r | w)
  · exact mirrors_modifyDescriptor _
  · exact mirrors_modifyDescriptor _
  · have hfinish : ∀ written : Nat, Mirrors muted
        (if written < w.data.length then modifyDescriptor fun d =>
            { d with backlog := some ⟨w.data.drop written, w.outOfBand, next⟩ }
          else modifyDescriptor (·.adoptNext next) : Step (Visit W S H P) Interrupt Unit)
        (if written < w.data.length then modifyDescriptor fun d =>
            { d with backlog := some ⟨w.data.drop written, w.outOfBand, next⟩ }
          else modifyDescriptor (·.adoptNext next)) :=
      fun written => (mirrors_modifyDescriptor _).ite (mirrors_modifyDescriptor _)
    exact ((mirrors_writeSocket _ _).bind hfinish).ite (hfinish 0)

theorem mirrors_announceWrite (w : WriteOperation) :
    Mirrors muted (announceWrite host w) (announceWrite host.muted w) := by
  refine (mirrors_modifyDescriptor _).bind fun _ => (mirrors_dispatch _).bind fun payload => ?_
  cases payload with
  | write w next =>
      refine mirrors_unlessComplete ?_
      exact (mirrors_modifyDescriptor _).bind fun _ => mirrors_writePayload next
  | _ => exact mirrors_pure ()

theorem mirrors_serveWrite : Mirrors muted (serveWrite host) (serveWrite host.muted) := by
  refine mirrors_ensureConnected.bind fun connected => Mirrors.ite ?_ (mirrors_pure ())
  refine mirrors_getDescriptor.bind fun d => ?_
  rcases d.backlog with _ | backlog
  · rcases d.operation with _ | (r | w)
    · exact mirrors_pure ()
    · exact mirrors_pure ()
    · exact mirrors_announceWrite w
  · exact mirrors_flush backlog

theorem mirrors_duty (duty : Duty) :
    Mirrors muted (duty.work host) (duty.work host.muted) := by
  cases duty with
  | opening => exact mirrors_settle (mirrors_connect.mapCut _)
  | reading => exact mirrors_settle mirrors_serveRead
  | writing => exact mirrors_settle mirrors_serveWrite

/-! ## Taking leave -/

theorem mirrors_notify (payload : Payload S) :
    Mirrors muted (notify host payload) (notify host.muted payload) := by
  refine (mirrors_dispatch payload).attempt_bind fun result => ?_
  rcases result with (⟨error, event⟩ | (_ | text)) | _
  · refine (mirrors_dispatchFault error event).attempt_bind fun reported => ?_
    rcases reported with (_ | text) | _
    · exact mirrors_pure ()
    · exact mirrors_cut _
    · exact mirrors_pure ()
  · exact mirrors_pure ()
  · exact mirrors_cut _
  · exact mirrors_pure ()

theorem mirrors_takeLeave : Mirrors muted (takeLeave host) (takeLeave host.muted) := by
  refine mirrors_get_bind fun v => ?_
  refine (show Mirrors muted _ _ from Mirrors.attempt_bind
    ((mirrors_notify .disconnected).ite (mirrors_pure ())) fun farewell => ?_) v
  refine mirrors_close.bind fun _ => (mirrors_notify .finalize).attempt_bind fun finale => ?_
  rcases farewell with halt | _
  · exact mirrors_cut halt
  · rcases finale with halt | _
    · exact mirrors_cut halt
    · exact mirrors_pure ()

end Visit

namespace Run

open Step

variable {host : Host W S H P}

/-! ## The stages of a tick -/

theorem mirrors_checkStop : Mirrors muted (onSession Session.checkStop : Step (Run W S H P) _ _)
    (onSession Session.checkStop) := by
  intro r
  have hdue : r.muted.session.stopDue = r.session.stopDue := rfl
  rw [checkStop_apply, checkStop_apply, hdue]

theorem mirrors_visit {ε : Type} {x : Step (Visit W S H P) ε Unit}
    {y : Step (Visit (W × Agenda S) S H P) ε Unit} (h : Mirrors Visit.muted x y)
    (k : SocketHandle) : Mirrors muted (visit k x) (visit k y) := by
  intro r
  rcases hd : r.registry.get? k with _ | d
  · rw [visit_of_none x hd, visit_of_none (r := r.muted) y hd]
  · have hv : y ⟨d, r.muted.session⟩ = _ := h ⟨d, r.session⟩
    rw [visit_of_some x hd, visit_of_some (r := r.muted) y hd, hv]
    rfl

theorem mirrors_forEachActive (duty : Duty) (handles : List SocketHandle) :
    Mirrors muted (forEachActive handles (duty.work host))
      (forEachActive handles (duty.work host.muted)) := by
  induction handles with
  | nil => exact mirrors_pure _
  | cons h rest ih =>
      rw [forEachActive_cons, forEachActive_cons]
      refine Mirrors.bind (mirrors_checkStop.bind fun _ => ?_) fun _ => ih
      exact mirrors_visit (Visit.mirrors_unlessComplete (Visit.mirrors_duty duty)) h

/-- The verdicts of the policy do not depend on the queue. -/
theorem mirrors_admission :
    Mirrors muted (admission host : Step (Run W S H P) Halt _) (admission host.muted) := by
  let φ (pass : AdmissionPass W S H P) : AdmissionPass (W × Agenda S) S H P :=
    ⟨pass.deferred, pass.admitted, pass.session.muted⟩
  have hconsider : ∀ pass d, AdmissionPass.consider host.muted (φ pass) d =
      ((AdmissionPass.consider host pass d).1, φ (AdmissionPass.consider host pass d).2) := by
    intro pass d
    have hask : (φ pass).ask host.muted d = ((pass.ask host d).1, φ (pass.ask host d).2) := by
      have hdecide : (φ pass).session.decide host.muted d = _ := pass.session.muted_decide d
      simp only [AdmissionPass.ask, hdecide]
      rcases pass.session.decide host d with ⟨decision, session⟩
      cases decision <;> rfl
    unfold AdmissionPass.consider
    split
    · rfl
    split
    · rfl
    split
    · rfl
    · exact hask
  intro r
  have htraverse := HandleMap.traverse_mirrors hconsider r.registry ⟨false, [], r.session⟩
  have hstart : φ ⟨false, [], r.session⟩ = ⟨false, [], r.muted.session⟩ := rfl
  rw [hstart] at htraverse
  simp only [admission]
  rw [show r.muted.registry = r.registry from rfl, htraverse]
  rfl

theorem mirrors_selectStage (timeout : Duration) (admitted : List SocketHandle) :
    Mirrors muted (selectStage host timeout admitted)
      (selectStage host.muted timeout admitted) := by
  intro r
  have hinterests : r.muted.interests host.muted admitted = r.interests host admitted := rfl
  simp only [selectStage, hinterests]
  split
  · rfl
  · refine Prod.ext rfl ?_
    exact congrArg (Run.mk r.registry) (Session.muted_called _ _ _ rfl).symm

theorem mirrors_disconnect (h : SocketHandle) :
    Mirrors muted (disconnect host h) (disconnect host.muted h) := by
  intro r
  rcases hd : r.registry.get? h with _ | d
  · rw [disconnect_of_none hd, disconnect_of_none (r := r.muted) hd]
  · have hv : Visit.takeLeave host.muted ⟨d, r.muted.session⟩ = _ :=
      Visit.mirrors_takeLeave ⟨d, r.session⟩
    rw [disconnect_of_some hd, disconnect_of_some (r := r.muted) hd, hv]
    rfl

theorem mirrors_disconnectAll (handles : List SocketHandle) :
    Mirrors muted (disconnectAll host handles) (disconnectAll host.muted handles) := by
  induction handles with
  | nil => exact mirrors_pure ()
  | cons h rest ih =>
      refine (mirrors_disconnect h).attempt_bind fun first => ih.attempt_bind fun others => ?_
      rcases first with halt | _
      · exact mirrors_cut halt
      · rcases others with halt | _
        · exact mirrors_cut halt
        · exact mirrors_pure ()

theorem mirrors_disconnectStage :
    Mirrors muted (disconnectStage host) (disconnectStage host.muted) :=
  fun r => mirrors_disconnectAll (Registry.completed r.registry) r

theorem mirrors_serveAdmitted (config : ExecutorConfig) (admitted : List SocketHandle) :
    Mirrors muted (serveAdmitted host config admitted)
      (serveAdmitted host.muted config admitted) := by
  refine (mirrors_forEachActive .opening admitted).bind fun _ => ?_
  refine mirrors_checkStop.bind fun _ => ?_
  refine (mirrors_selectStage _ admitted).attempt_bind fun result => ?_
  cases result with
  | error error => exact mirrors_pure _
  | ok ready =>
      refine Mirrors.bind (x := ioStage host ready) (y := ioStage host.muted ready) ?_ fun _ => ?_
      · exact (mirrors_forEachActive .reading ready.read).bind fun _ =>
          mirrors_forEachActive .writing ready.write
      · exact mirrors_disconnectStage.bind fun _ => mirrors_pure _

/-- Once the queue has been applied, a tick does the same whether or not it is told of the changes
that are queued in it: it ends alike, the sockets come to the same, and so do the deeds, but for
what is asked of the queue. -/
theorem mirrors_attend (config : ExecutorConfig) :
    Mirrors muted (attend host config) (attend host.muted config) := by
  refine mirrors_checkStop.bind fun _ => mirrors_get_bind fun r => ?_
  refine (show Mirrors muted _ _ from Mirrors.ite (mirrors_pure _) ?_) r
  exact mirrors_admission.bind fun admitted => mirrors_serveAdmitted config admitted

end Run

end Reactor
