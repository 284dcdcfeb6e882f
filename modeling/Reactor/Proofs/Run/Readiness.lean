import Reactor.Proofs.Run.Services

/-! Which sockets become ready to read when the descriptors of the system are polled. -/

namespace Reactor

variable {W S H P : Type} {host : Host W S H P}

namespace PollSelector

variable {interests : List Interest} {i : Interest}

/-- What `poll` answers to a selection; without a descriptor it is not asked. -/
def answer (poll : W → List (Nat × PollFlags) → Nat → PollAnswer × W) (world : W)
    (interests : List Interest) (timeout : Duration) : PollAnswer :=
  if (polled interests).isEmpty then .ok []
  else (poll world (polled interests) (timeoutMillis (wait interests timeout))).1

def reported : PollAnswer → List (Option PollFlags)
  | .ok flags => flags
  | .error _ => []

theorem result_pollingSelector (poll : W → List (Nat × PollFlags) → Nat → PollAnswer × W)
    (world : W) (interests : List Interest) (timeout : Duration) :
    (pollingSelector poll world interests timeout).result =
      interpret interests (answer poll world interests timeout) := by
  unfold pollingSelector answer
  dsimp only
  split <;> rfl

theorem interpret_ok {a : PollAnswer} {ready : Readiness} (ha : interpret interests a = .ok ready) :
    ready = readiness (conditions interests (reported a)) := by
  cases a with
  | ok flags =>
      cases ha
      rfl
  | error code =>
      simp only [interpret] at ha
      split at ha <;> cases ha
      rfl

/-- An interest without a descriptor counts as met. -/
theorem mem_conditions_of_none (hfd : i.fd = none) :
    ∀ {interests : List Interest} {flags : List (Option PollFlags)}, i ∈ interests →
      (i, some (.wanted i)) ∈ conditions interests flags := by
  intro interests
  induction interests with
  | nil => exact fun h => by cases h
  | cons j rest ih =>
      intro flags hi
      rw [conditions]
      rcases List.mem_cons.1 hi with rfl | hi
      · rw [hfd]
        exact List.mem_cons_self
      · split <;> exact List.mem_cons_of_mem _ (ih hi)

theorem mem_read_readiness {h : SocketHandle} {flags : List (Option PollFlags)} :
    h ∈ (readiness (conditions interests flags)).read ↔
      ∃ i f, (i, some f) ∈ conditions interests flags ∧ i.read = true ∧ f.allowsRead = true ∧
        i.handle = h := by
  simp only [readiness, List.mem_filterMap]
  constructor
  · rintro ⟨⟨i, f⟩, hmem, hif⟩
    cases f with
    | none => simp at hif
    | some f =>
        split at hif
        · rename_i hc
          simp only [Option.map_some, Option.getD_some, Bool.and_eq_true] at hc
          exact ⟨i, f, hmem, hc.1, hc.2, Option.some.inj hif⟩
        · cases hif
  · rintro ⟨i, f, hmem, hread, hallows, rfl⟩
    exact ⟨_, hmem, by simp [hread, hallows]⟩

/-- Among the interests of different sockets, one in reading is met if it has no descriptor, or if
the conditions that are reported for it allow to read. -/
theorem mem_read_iff {flags : List (Option PollFlags)} (hi : i ∈ interests)
    (hread : i.read = true) (hone : ∀ j ∈ interests, j.handle = i.handle → j = i) :
    i.handle ∈ (readiness (conditions interests flags)).read ↔
      i.fd = none ∨ ∃ f, (i, some f) ∈ conditions interests flags ∧ f.allowsRead = true := by
  rw [mem_read_readiness]
  constructor
  · rintro ⟨j, f, hmem, -, hallows, hhandle⟩
    obtain rfl := hone j (mem_conditions hmem) hhandle
    exact .inr ⟨f, hmem, hallows⟩
  · rintro (hfd | ⟨f, hmem, hallows⟩)
    · refine ⟨i, _, mem_conditions_of_none hfd hi, hread, ?_, rfl⟩
      simp [PollFlags.allowsRead, PollFlags.wanted, hread]
    · exact ⟨i, f, hmem, hread, hallows, rfl⟩

/-- A socket that does not wait to write does not become ready to. -/
theorem not_mem_write {flags : List (Option PollFlags)} (hwrite : i.write = false)
    (hone : ∀ j ∈ interests, j.handle = i.handle → j = i) :
    i.handle ∉ (readiness (conditions interests flags)).write := by
  simp only [readiness, List.mem_filterMap, not_exists, not_and]
  rintro ⟨j, f⟩ hmem hif
  split at hif
  · rename_i hc
    obtain rfl := hone j (mem_conditions hmem) (Option.some.inj hif)
    simp [hwrite] at hc
  · cases hif

end PollSelector

theorem Descriptor.interest?_handle {sockets : SocketRules W S} {world : W} {d : Descriptor S H}
    {i : Interest} (hi : d.interest? sockets world = some i) : i.handle = d.handle := by
  unfold interest? at hi
  split at hi
  · cases hi
  · revert hi
    dsimp only
    split <;> rintro ⟨⟩ <;> rfl

/-- A connected socket with a read operation waits to read, and for nothing else. -/
theorem Descriptor.interest?_read {sockets : SocketRules W S} {world : W} {d : Descriptor S H}
    {r : ReadOperation} (hopen : sockets.isOpen world d.socket = true)
    (hfinish : d.metadata.connectFinish = true) (hc : d.isComplete = false)
    (hb : d.backlog = none) (ho : d.operation = some (.read r)) :
    d.interest? sockets world = some ⟨d.handle, sockets.rawFd world d.socket, true, false⟩ := by
  simp [interest?, hc, hopen, hb, ho, hfinish]

namespace Run

variable {r t : Run W S H P} {admitted : List SocketHandle} {h : SocketHandle}
  {d : Descriptor S H}

theorem interests_unique (hk : r.registry.Keyed) {i j : Interest}
    (hi : i ∈ r.interests host admitted) (hj : j ∈ r.interests host admitted)
    (hh : i.handle = j.handle) : i = j := by
  simp only [interests, List.mem_filterMap] at hi hj
  obtain ⟨d, ⟨k, -, hd⟩, hi⟩ := hi
  obtain ⟨d', ⟨k', -, hd'⟩, hj⟩ := hj
  have hhandles : k = k' := by
    rw [← hk k d hd, ← hk k' d' hd', ← Descriptor.interest?_handle hi,
      ← Descriptor.interest?_handle hj, hh]
  subst hhandles
  obtain rfl := Option.some.inj (hd.symm.trans hd')
  exact Option.some.inj (hi.symm.trans hj)

/-- A selection asks the selector, if somebody waits for something. -/
theorem selectStage_done {timeout : Duration} {ready : Readiness} {i : Interest}
    (hi : i ∈ r.interests host admitted)
    (hx : selectStage host timeout admitted r = (.done ready, t)) :
    (host.select r.session.world (r.interests host admitted) timeout).result = .ok ready := by
  unfold selectStage at hx
  dsimp only at hx
  rw [if_neg (by simpa using List.ne_nil_of_mem hi)] at hx
  have hresult := congrArg Prod.fst hx
  dsimp only at hresult
  rcases hr : (host.select r.session.world (r.interests host admitted) timeout).result
    with error | answer
  all_goals rw [hr] at hresult
  all_goals cases hresult
  rfl

/-- However it ends, the work leaves the socket of the handle alone. -/
def Spares {ε α : Type} (h : SocketHandle) (x : Step (Run W S H P) ε α) : Prop :=
  ∀ r : Run W S H P, (x r).2.registry.get? h = r.registry.get? h

theorem Spares.bind {ε α β : Type} {x : Step (Run W S H P) ε α}
    {f : α → Step (Run W S H P) ε β} (hx : Spares h x) (hf : ∀ a, Spares h (f a)) :
    Spares h (x >>= f) := by
  intro r
  have hfirst := hx r
  rcases hr : x r with ⟨a | e | _, s⟩
  all_goals rw [hr] at hfirst
  · rw [Step.bind_of_done hr]
    exact (hf a s).trans hfirst
  · rw [Step.bind_of_cut hr]
    exact hfirst
  · rw [Step.bind_of_crashed hr]
    exact hfirst

theorem spares_checkStop :
    Spares h (onSession Session.checkStop : Step (Run W S H P) Halt Unit) := by
  intro r
  rw [checkStop_apply]

theorem spares_visit {ε : Type} {k : SocketHandle} (hk : h ≠ k)
    (x : Step (Visit W S H P) ε Unit) : Spares h (visit k x) := by
  intro r
  rcases hd : r.registry.get? k with _ | d
  · rw [visit_of_none x hd]
  · rw [visit_of_some x hd, HandleMap.get?_modify, if_neg hk]

theorem spares_forEachActive {hs : List SocketHandle} (hh : h ∉ hs)
    (work : Step (Visit W S H P) Halt Unit) : Spares h (forEachActive hs work) := by
  induction hs with
  | nil => exact fun _ => rfl
  | cons k rest ih =>
      rw [List.mem_cons, not_or] at hh
      have hfirst := spares_checkStop.bind fun _ => spares_visit hh.1 (Visit.unlessComplete work)
      exact hfirst.bind fun _ => ih hh.2

/-- The service leaves the sockets alone that are not ready. -/
theorem spares_ioStage {ready : Readiness} (hread : h ∉ ready.read) (hwrite : h ∉ ready.write) :
    Spares h (ioStage host ready) :=
  (spares_forEachActive hread _).bind fun _ => spares_forEachActive hwrite _

end Run

end Reactor
