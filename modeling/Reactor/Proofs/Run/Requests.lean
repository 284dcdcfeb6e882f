import Reactor.Run.Chain

/-! What the hooks of a run have asked for, as the journal records it, and what becomes of the queue
of changes. -/

namespace Reactor

variable {W S H P : Type}

/-! ## Requests of one hook -/

def Request.isRegister : Request S → Bool
  | .register _ _ _ => true
  | _ => false

def registrations (requests : List (Request S)) : Nat :=
  requests.countP Request.isRegister

/-- What the requests put into the queue, if the next registration gets the handle `next`. -/
def queueOf (next : SocketHandle) : List (Request S) → List (Change S)
  | [] => []
  | .stop :: rest => queueOf next rest
  | .register socket operation metadata :: rest =>
      .register ⟨next, socket, operation, metadata⟩ :: queueOf next.succ rest
  | .deregister h :: rest => .deregister h :: queueOf next rest
  | .setOperation h operation :: rest => .setOperation h operation :: queueOf next rest

/-- The handles of the sockets whose registration is queued. -/
def enrolling (changes : List (Change S)) : List SocketHandle :=
  (changes.filterMap Change.registration?).map (·.handle)

@[simp] theorem registrations_nil : registrations ([] : List (Request S)) = 0 := rfl

section Lists

variable (next : SocketHandle) (rest : List (Request S))

@[simp] theorem registrations_stop : registrations (.stop :: rest) = registrations rest := rfl

@[simp] theorem registrations_deregister (h : SocketHandle) :
    registrations (.deregister h :: rest) = registrations rest := rfl

@[simp] theorem registrations_setOperation (h : SocketHandle) (o : Operation) :
    registrations (.setOperation h o :: rest) = registrations rest := rfl

@[simp] theorem registrations_register (socket : S) (o : Operation) (m : Metadata) :
    registrations (.register socket o m :: rest) = registrations rest + 1 :=
  List.countP_cons_of_pos rfl

@[simp] theorem registrations_append (more : List (Request S)) :
    registrations (rest ++ more) = registrations rest + registrations more := by
  simp [registrations]

@[simp] theorem enrolling_register (r : Registration S) (changes : List (Change S)) :
    enrolling (.register r :: changes) = r.handle :: enrolling changes := rfl

@[simp] theorem enrolling_deregister (h : SocketHandle) (changes : List (Change S)) :
    enrolling (.deregister h :: changes) = enrolling changes := rfl

@[simp] theorem enrolling_setOperation (h : SocketHandle) (o : Operation)
    (changes : List (Change S)) :
    enrolling (.setOperation h o :: changes) = enrolling changes := rfl

@[simp] theorem enrolling_append (cs cs' : List (Change S)) :
    enrolling (cs ++ cs') = enrolling cs ++ enrolling cs' := by
  simp [enrolling]

end Lists

/-- One if the handle is among those that are given out from one number up to another. -/
def issued (first next : Nat) (h : SocketHandle) : Nat :=
  if first ≤ h.number ∧ h.number < next then 1 else 0

theorem issued_add {a b c : Nat} (hab : a ≤ b) (hbc : b ≤ c) (h : SocketHandle) :
    issued a b h + issued b c h = issued a c h := by
  unfold issued
  split <;> split <;> split <;> omega

/-- The handles of queued registrations are given out in order, each once. -/
theorem count_enrolling_queueOf (h : SocketHandle) (requests : List (Request S)) :
    ∀ next : SocketHandle, (enrolling (queueOf next requests)).count h =
      issued next.number (next.number + registrations requests) h := by
  induction requests with
  | nil =>
      intro next
      have : ¬ (next.number ≤ h.number ∧ h.number < next.number) := by omega
      simp [queueOf, registrations, enrolling, issued, this]
  | cons request rest ih =>
      intro next
      cases request with
      | stop => exact ih next
      | deregister k => exact ih next
      | setOperation k o => exact ih next
      | register socket operation metadata =>
          have hone : (if next = h then 1 else 0) = issued next.number (next.number + 1) h := by
            have heq : next = h ↔ next.number ≤ h.number ∧ h.number < next.number + 1 := by
              cases next; cases h; simp; omega
            simp only [issued, heq]
          rw [queueOf, enrolling_register, List.count_cons, ih next.succ, registrations_register]
          simp only [beq_iff_eq, hone, SocketHandle.succ]
          rw [Nat.add_comm, issued_add (by omega) (by omega)]
          congr 1
          omega

theorem le_of_mem_enrolling_queueOf {next k : SocketHandle} {requests : List (Request S)}
    (hk : k ∈ enrolling (queueOf next requests)) : next.number ≤ k.number := by
  have hcount := List.count_pos_iff.2 hk
  rw [count_enrolling_queueOf] at hcount
  unfold issued at hcount
  split at hcount
  · rename_i hissued
    exact hissued.1
  · omega

theorem queueOf_append (requests more : List (Request S)) :
    ∀ next : SocketHandle, queueOf next (requests ++ more) =
      queueOf next requests ++ queueOf ⟨next.number + registrations requests⟩ more := by
  induction requests with
  | nil => intro next; rfl
  | cons request rest ih =>
      intro next
      cases request with
      | stop => exact ih next
      | deregister k => simp [queueOf, ih next]
      | setOperation k o => simp [queueOf, ih next]
      | register socket operation metadata =>
          rw [List.cons_append, queueOf, queueOf, ih next.succ, registrations_register]
          simp [SocketHandle.succ, Nat.add_assoc, Nat.add_comm 1]

/-- A queued registration comes from a request. -/
theorem mem_queueOf {g : Registration S} {requests : List (Request S)} :
    ∀ {next : SocketHandle}, .register g ∈ queueOf next requests →
      .register g.socket g.operation g.metadata ∈ requests := by
  induction requests with
  | nil => exact fun h => by cases h
  | cons request rest ih =>
      intro next h
      cases request with
      | stop => exact List.mem_cons_of_mem _ (ih h)
      | register socket operation metadata =>
          rcases List.mem_cons.1 h with heq | h
          · cases heq
            exact List.mem_cons_self
          · exact List.mem_cons_of_mem _ (ih h)
      | deregister k =>
          rcases List.mem_cons.1 h with heq | h
          · cases heq
          · exact List.mem_cons_of_mem _ (ih h)
      | setOperation k operation =>
          rcases List.mem_cons.1 h with heq | h
          · cases heq
          · exact List.mem_cons_of_mem _ (ih h)

/-- Requests are granted in order: the queue and the supply of handles grow by what they ask for. -/
theorem RunContext.foldl_grant (requests : List (Request S)) :
    ∀ c : RunContext S,
      (requests.foldl RunContext.grant c).changes =
          c.changes ++ queueOf c.nextHandle requests ∧
        (requests.foldl RunContext.grant c).nextHandle =
          ⟨c.nextHandle.number + registrations requests⟩ ∧
        (requests.foldl RunContext.grant c).control.executing = c.control.executing := by
  induction requests with
  | nil => intro c; simp [queueOf, registrations]
  | cons request rest ih =>
      intro c
      obtain ⟨hc, hn, he⟩ := ih (c.grant request)
      rw [List.foldl_cons, hc, hn, he]
      cases request with
      | stop =>
          refine ⟨rfl, rfl, ?_⟩
          simp only [grant, RunControl.requestStop]
          split <;> rfl
      | register socket operation metadata =>
          refine ⟨by simp [grant, push, queueOf], ?_, rfl⟩
          simp [grant, SocketHandle.succ, Nat.add_assoc, Nat.add_comm 1]
      | deregister h => exact ⟨by simp [grant, push, queueOf], rfl, rfl⟩
      | setOperation h operation => exact ⟨by simp [grant, push, queueOf], rfl, rfl⟩

/-! ## Requests of a whole run -/

def Deed.requests : Deed S H → List (Request S)
  | .heard _ _ requests _ => requests
  | _ => []

/-- What the hooks have asked for, in order. -/
def requested (journal : List (Deed S H)) : List (Request S) :=
  journal.flatMap Deed.requests

@[simp] theorem requested_nil : requested ([] : List (Deed S H)) = [] := rfl

@[simp] theorem requested_append (journal deeds : List (Deed S H)) :
    requested (journal ++ deeds) = requested journal ++ requested deeds := by
  simp [requested]

/-- The session has gone on by the deeds: the journal is longer by them, the queue by what they
asked for, and what is fixed for a run has not changed. -/
structure Session.Advances (deeds : List (Deed S H)) (s s' : Session W S H P) : Prop where
  journal : s'.journal = s.journal ++ deeds
  changes : s'.context.changes =
    s.context.changes ++ queueOf s.context.nextHandle (requested deeds)
  nextHandle : s'.context.nextHandle =
    ⟨s.context.nextHandle.number + registrations (requested deeds)⟩
  executing : s'.context.control.executing = s.context.control.executing
  handlers : s'.handlers = s.handlers
  observing : s'.observing = s.observing
  stopping : s'.stopping = s.stopping

namespace Session.Advances

variable {deeds more : List (Deed S H)} {s s' s'' : Session W S H P}

theorem refl (s : Session W S H P) : s.Advances [] s where
  journal := by simp
  changes := by simp [requested, queueOf]
  nextHandle := by simp [requested, registrations]
  executing := rfl
  handlers := rfl
  observing := rfl
  stopping := rfl

theorem trans (h : s.Advances deeds s') (h' : s'.Advances more s'') :
    s.Advances (deeds ++ more) s'' where
  journal := by rw [h'.journal, h.journal, List.append_assoc]
  changes := by
    rw [h'.changes, h.changes, h.nextHandle, requested_append, queueOf_append, List.append_assoc]
  nextHandle := by
    rw [h'.nextHandle, h.nextHandle, requested_append, registrations_append]
    simp [Nat.add_assoc]
  executing := h'.executing.trans h.executing
  handlers := h'.handlers.trans h.handlers
  observing := h'.observing.trans h.observing
  stopping := h'.stopping.trans h.stopping

end Session.Advances

namespace Session

variable (s : Session W S H P)

@[simp] theorem journal_stopIf (stop : Bool) : (s.stopIf stop).journal = s.journal := by
  cases stop <;> rfl

@[simp] theorem policy_stopIf (stop : Bool) : (s.stopIf stop).policy = s.policy := by
  cases stop <;> rfl

/-- A deed that is not one of a hook leaves the queue alone, also if a stop came with it. -/
theorem advances_note (world : W) (stop : Bool) (deed : Deed S H) (hd : deed.requests = []) :
    s.Advances [deed] (({ s with world := world }.stopIf stop).note deed) := by
  have hr : requested [deed] = [] := by simp [requested, hd]
  refine ⟨by simp [note], ?_, ?_, ?_, ?_, ?_, ?_⟩
  · cases stop <;> simp [hr, queueOf, note, stopIf, RunContext.grant]
  · cases stop <;> simp [hr, registrations, note, stopIf, RunContext.grant]
  · cases stop
    · rfl
    · simp only [note, stopIf, RunContext.grant, RunControl.requestStop, ite_true]
      split <;> rfl
  all_goals cases stop <;> rfl

/-- The deed of a hook puts into the queue what the hook asked for. -/
theorem advances_absorb (handle : SocketHandle) (link : Link H) (policy : P) (r : Reaction W S) :
    s.Advances [.heard handle link r.requests r.verdict] (s.absorb handle link policy r) := by
  obtain ⟨hc, hn, he⟩ :=
    RunContext.foldl_grant r.requests { s.context with context := r.context }
  have hr : requested [Deed.heard handle link r.requests r.verdict] = r.requests := by
    simp [requested, Deed.requests]
  refine ⟨rfl, ?_, ?_, ?_, rfl, rfl, rfl⟩
  · rw [hr]; exact hc
  · rw [hr]; exact hn
  · exact he

end Session

end Reactor
