import Reactor.Proofs.Executor.Sample
import Reactor.Proofs.Run.Ownership

/-! The admission of a tick as a whole, for any policy: who is asked about, what becomes of each
socket, and who takes part in the tick. -/

namespace Reactor

variable {W S H P : Type} {host : Host W S H P}

/-- The socket asks to be admitted: it has something left to do and does not take part yet. -/
def Descriptor.isCandidate (d : Descriptor S H) : Bool := !d.isComplete && !d.running

/-- What the policy says about sockets that are put to it one after the other, up to the first that
it defers, and the session after that. -/
def Session.verdicts (host : Host W S H P) (s : Session W S H P) :
    List (Descriptor S H) → List Decision × Session W S H P
  | [] => ([], s)
  | d :: rest =>
      let asked := s.decide host d
      if asked.1 = .defer then ([.defer], asked.2)
      else
        let later := asked.2.verdicts host rest
        (asked.1 :: later.1, later.2)

/-- The descriptor after a verdict: it takes part if it is granted, and is held back otherwise. -/
theorem Descriptor.judged_getD {d : Descriptor S H} (hd : d.isCandidate = true)
    (verdict : Option Decision) :
    d.judged (verdict.getD .defer) =
      { d with running := verdict = some .grant, postponed := verdict ≠ some .grant } := by
  have hwaits : d.running = false := by
    simp only [isCandidate, Bool.and_eq_true, Bool.not_eq_true'] at hd
    exact hd.2
  rcases verdict with _ | _ | _ | _ <;> simp [judged, ← hwaits]

/-! ## The verdicts -/

section Verdicts

variable (s : Session W S H P) (candidates : List (Descriptor S H))

theorem Session.journal_decide (d : Descriptor S H) :
    (s.decide host d).2.journal = s.journal ++ [.decided d.handle (s.decide host d).1] := by
  simp only [Session.decide, Session.note, Session.stopIf]
  split <;> rfl

/-- The verdicts are recorded in order, each with the socket that it is about. -/
theorem Session.journal_verdicts :
    (s.verdicts host candidates).2.journal = s.journal ++
      (candidates.zip (s.verdicts host candidates).1).map fun x => .decided x.1.handle x.2 := by
  induction candidates generalizing s with
  | nil => simp [verdicts]
  | cons d rest ih =>
      rw [verdicts]
      by_cases hdefer : (s.decide host d).1 = .defer
      · simp [hdefer, s.journal_decide d]
      · simp [hdefer, ih, s.journal_decide d]

theorem Session.length_verdicts_le :
    (s.verdicts host candidates).1.length ≤ candidates.length := by
  induction candidates generalizing s with
  | nil => simp [verdicts]
  | cons d rest ih =>
      rw [verdicts]
      by_cases hdefer : (s.decide host d).1 = .defer
      · simp [hdefer]
      · simpa [hdefer] using ih (s.decide host d).2

/-- Only the last verdict defers. -/
theorem Session.verdicts_ne_defer {i : Nat}
    (hi : i + 1 < (s.verdicts host candidates).1.length) :
    (s.verdicts host candidates).1[i]? ≠ some .defer := by
  induction candidates generalizing s i with
  | nil => simp [verdicts] at hi
  | cons d rest ih =>
      rw [verdicts] at hi ⊢
      by_cases hdefer : (s.decide host d).1 = .defer
      · simp [hdefer] at hi
      · rw [if_neg hdefer] at hi ⊢
        cases i with
        | zero => simpa using hdefer
        | succ i =>
            apply ih
            simpa using hi

/-- Somebody is not asked about only after a verdict that defers. -/
theorem Session.getLast?_verdicts
    (hlt : (s.verdicts host candidates).1.length < candidates.length) :
    (s.verdicts host candidates).1.getLast? = some .defer := by
  induction candidates generalizing s with
  | nil => simp at hlt
  | cons d rest ih =>
      rw [verdicts] at hlt ⊢
      by_cases hdefer : (s.decide host d).1 = .defer
      · simp [hdefer]
      · rw [if_neg hdefer] at hlt ⊢
        have hlast := ih (s.decide host d).2 (by simpa using hlt)
        rw [List.getLast?_cons, hlast]
        rfl

end Verdicts

/-! ## The pass over the registry -/

/-- The entries after verdicts on the candidates among them; those on whom there is none are
deferred. -/
def Registry.settle :
    List Decision → List (SocketHandle × Descriptor S H) → List (SocketHandle × Descriptor S H)
  | _, [] => []
  | verdicts, e :: rest =>
      if e.2.isCandidate then
        (e.1, e.2.judged (verdicts.headD .defer)) :: settle verdicts.tail rest
      else e :: settle verdicts rest

/-- The entries whose sockets ask to be admitted. -/
def Registry.candidates (entries : List (SocketHandle × Descriptor S H)) :
    List (SocketHandle × Descriptor S H) :=
  entries.filter (·.2.isCandidate)

/-- Those among the sockets that take part and have something left to do. -/
def Registry.participating (descriptors : List (Descriptor S H)) : List (Descriptor S H) :=
  descriptors.filter fun d => d.running && !d.isComplete

namespace Registry

theorem candidates_cons (e : SocketHandle × Descriptor S H)
    (rest : List (SocketHandle × Descriptor S H)) :
    candidates (e :: rest) = if e.2.isCandidate then e :: candidates rest else candidates rest :=
  List.filter_cons

theorem mem_settle_of_not_candidate {verdicts : List Decision}
    {entries : List (SocketHandle × Descriptor S H)} {e : SocketHandle × Descriptor S H}
    (he : e ∈ entries) (hc : e.2.isCandidate = false) : e ∈ settle verdicts entries := by
  induction entries generalizing verdicts with
  | nil => cases he
  | cons first rest ih =>
      rw [settle]
      rcases List.mem_cons.1 he with rfl | he
      · simp [hc]
      · split
        · exact List.mem_cons_of_mem _ (ih he)
        · exact List.mem_cons_of_mem _ (ih he)

/-- The verdicts belong to the candidates in order. -/
theorem mem_settle_of_candidate {verdicts : List Decision}
    {entries : List (SocketHandle × Descriptor S H)} {i : Nat}
    {e : SocketHandle × Descriptor S H} (he : (candidates entries)[i]? = some e) :
    (e.1, e.2.judged (verdicts[i]?.getD .defer)) ∈ settle verdicts entries := by
  induction entries generalizing verdicts i with
  | nil => simp [candidates] at he
  | cons first rest ih =>
      rw [settle]
      rw [candidates_cons] at he
      by_cases hc : first.2.isCandidate = true
      · rw [if_pos hc] at he ⊢
        cases i with
        | zero =>
            obtain rfl : first = e := by simpa using he
            cases verdicts <;> simp
        | succ i =>
            have hrest : (e.1, e.2.judged (verdicts.tail[i]?.getD .defer)) ∈
                settle verdicts.tail rest := ih he
            rw [List.getElem?_tail] at hrest
            exact List.mem_cons_of_mem _ hrest
      · rw [if_neg hc] at he ⊢
        exact List.mem_cons_of_mem _ (ih he)

end Registry

namespace AdmissionPass

variable (pass : AdmissionPass W S H P)

def verdicts (host : Host W S H P) (candidates : List (Descriptor S H)) :
    List Decision × Session W S H P :=
  if pass.deferred then ([], pass.session) else pass.session.verdicts host candidates

theorem verdicts_of_deferred (hp : pass.deferred = true) (candidates : List (Descriptor S H)) :
    pass.verdicts host candidates = ([], pass.session) :=
  if_pos hp

/-- The policy is asked about the first candidate, and then about the others unless it defers. -/
theorem verdicts_cons (hp : pass.deferred = false) (d : Descriptor S H)
    (rest : List (Descriptor S H)) :
    pass.verdicts host (d :: rest) =
      ((pass.session.decide host d).1 :: ((pass.ask host d).2.verdicts host rest).1,
        ((pass.ask host d).2.verdicts host rest).2) := by
  rw [verdicts, if_neg (by simp [hp]), Session.verdicts]
  rcases hv : pass.session.decide host d with ⟨_ | _ | _, session⟩ <;>
    simp [verdicts, ask, take, hv, hp]

theorem consider_of_candidate {d : Descriptor S H} (hd : d.isCandidate = true) :
    pass.consider host d =
      if pass.deferred then (d.judged .defer, pass) else pass.ask host d := by
  simp only [Descriptor.isCandidate, Bool.and_eq_true, Bool.not_eq_true'] at hd
  rw [consider, if_neg (by simp [hd.1]), if_neg (by simp [hd.2])]
  rfl

/-- Whoever does not ask to be admitted is left alone, and nobody is asked about it. -/
theorem consider_of_not_candidate {d : Descriptor S H} (hd : d.isCandidate = false) :
    (pass.consider host d).1 = d ∧
      (pass.consider host d).2.verdicts host = pass.verdicts host := by
  rw [consider]
  by_cases hc : d.isComplete = true
  · rw [if_pos hc]
    exact ⟨rfl, rfl⟩
  · have hr : d.running = true := by simpa [Descriptor.isCandidate, hc] using hd
    rw [if_neg hc, if_pos hr]
    exact ⟨rfl, rfl⟩

/-- The pass over the registry is the verdicts on the candidates, and the change that each makes. -/
theorem traverse_settles (entries : List (SocketHandle × Descriptor S H)) :
    let asked := pass.verdicts host ((Registry.candidates entries).map (·.2))
    let outcome := HandleMap.traverseEntries (consider host) entries pass
    outcome.1 = Registry.settle asked.1 entries ∧ outcome.2.session = asked.2 := by
  induction entries generalizing pass with
  | nil =>
      simp [verdicts, Session.verdicts, HandleMap.traverseEntries, Registry.candidates,
        Registry.settle]
  | cons e rest ih =>
      simp only [HandleMap.traverseEntries, Registry.candidates_cons, Registry.settle]
      by_cases hd : e.2.isCandidate = true
      · rw [if_pos hd, if_pos hd, List.map_cons, pass.consider_of_candidate hd]
        by_cases hp : pass.deferred = true
        · obtain ⟨hentries, hsession⟩ := ih pass
          rw [pass.verdicts_of_deferred hp] at hentries hsession ⊢
          rw [if_pos hp, hentries, hsession]
          exact ⟨rfl, rfl⟩
        · obtain ⟨hentries, hsession⟩ := ih (pass.ask host e.2).2
          rw [if_neg hp, pass.verdicts_cons (by simpa using hp), hentries, hsession]
          exact ⟨rfl, rfl⟩
      · rw [Bool.not_eq_true] at hd
        obtain ⟨hsame, hverdicts⟩ : (pass.consider host e.2).1 = e.2 ∧
            (pass.consider host e.2).2.verdicts host = pass.verdicts host :=
          pass.consider_of_not_candidate hd
        obtain ⟨hentries, hsession⟩ := ih (pass.consider host e.2).2
        rw [if_neg (by simp [hd]), if_neg (by simp [hd]), ← hverdicts, hsame, hentries, hsession]
        exact ⟨rfl, rfl⟩

/-- Whoever takes part once it has been dealt with joins those who take part in the tick. -/
theorem admitted_consider (d : Descriptor S H) :
    (pass.consider host d).2.admitted = pass.admitted ++
      (Registry.participating [(pass.consider host d).1]).map (·.handle) := by
  by_cases hd : d.isCandidate = true
  · have hactive : d.isComplete = false ∧ d.running = false := by
      simpa [Descriptor.isCandidate] using hd
    rw [pass.consider_of_candidate hd]
    by_cases hp : pass.deferred = true
    · simp [hp, Registry.participating, Descriptor.judged, hactive.2]
    · rw [if_neg hp, ask]
      rcases pass.session.decide host d with ⟨_ | _ | _, session⟩ <;>
        simp_all [take, Registry.participating, Descriptor.judged, Descriptor.isComplete]
  · rw [consider]
    by_cases hc : d.isComplete = true
    · simp [hc, Registry.participating]
    · have hr : d.running = true := by simpa [Descriptor.isCandidate, hc] using hd
      simp [hc, hr, take, Registry.participating]

theorem admitted_traverse (entries : List (SocketHandle × Descriptor S H)) :
    (HandleMap.traverseEntries (consider host) entries pass).2.admitted = pass.admitted ++
      (Registry.participating ((HandleMap.traverseEntries (consider host) entries pass).1.map
        (·.2))).map (·.handle) := by
  induction entries generalizing pass with
  | nil => simp [HandleMap.traverseEntries, Registry.participating]
  | cons e rest ih =>
      rw [HandleMap.traverseEntries]
      dsimp only
      rw [ih, pass.admitted_consider, List.append_assoc, List.map_cons, ← List.map_append]
      simp only [Registry.participating, ← List.filter_append]
      rfl

end AdmissionPass

namespace Run

variable (r : Run W S H P)

def candidates : List (SocketHandle × Descriptor S H) := Registry.candidates r.registry.entries

/-- What the policy says when it is asked about the candidates of a tick, and the session after
that. -/
def verdicts (host : Host W S H P) : List Decision × Session W S H P :=
  r.session.verdicts host (r.candidates.map (·.2))

/-- What an admission comes to: those who take part in the tick, and the run after it. -/
structure Settles (host : Host W S H P) (r : Run W S H P) (admitted : List SocketHandle)
    (r' : Run W S H P) : Prop where
  /-- The session changes only in that the policy is asked. -/
  session : r'.session = (r.verdicts host).2
  /-- The policy is asked about the candidates in order, about each at most once. -/
  journal : r'.session.journal = r.session.journal ++
    (r.candidates.zip (r.verdicts host).1).map fun x => .decided x.1.2.handle x.2
  /-- It is not asked any more once it has deferred, -/
  deferral : ∀ i, i + 1 < (r.verdicts host).1.length → (r.verdicts host).1[i]? ≠ some .defer
  /-- and as long as it has not, it is asked about the next one. -/
  exhaustive : (r.verdicts host).1.length = r.candidates.length ∨
    (r.verdicts host).1.length < r.candidates.length ∧
      (r.verdicts host).1.getLast? = some .defer
  keys : r'.registry.keys = r.registry.keys
  /-- Whoever does not ask to be admitted is left as it is. -/
  others : ∀ h d, r.registry.get? h = some d → d.isCandidate = false →
    r'.registry.get? h = some d
  /-- A candidate takes part if the verdict on it lets it, and is held back otherwise. -/
  judged : ∀ (i : Nat) (h : SocketHandle) (d : Descriptor S H), r.candidates[i]? = some (h, d) →
    r'.registry.get? h = some { d with
      running := (r.verdicts host).1[i]? = some .grant
      postponed := (r.verdicts host).1[i]? ≠ some .grant }
  /-- All that are running by now and have something left to do take part in the tick, -/
  taken : admitted = (Registry.participating r'.registry.values).map (·.handle)
  /-- in the order of their handles, each of them once. -/
  ordered : r.registry.Keyed → admitted.Pairwise fun h k => h.number < k.number

theorem isCandidate_of_getElem? {i : Nat} {h : SocketHandle} {d : Descriptor S H}
    (hd : r.candidates[i]? = some (h, d)) : d.isCandidate = true :=
  (List.mem_filter.1 (List.mem_of_getElem? hd)).2

/-- The handles of those who take part in a tick are increasing. -/
theorem pairwise_participating {registry : Registry S H} (hk : registry.Keyed) :
    ((Registry.participating registry.values).map (·.handle)).Pairwise
      fun h k => h.number < k.number := by
  have hkeys : registry.keys.Pairwise fun h k => h.number < k.number :=
    List.pairwise_map.2 registry.sorted
  rw [← handles_of_keyed hk] at hkeys
  exact hkeys.sublist (List.filter_sublist.map _)

/-- The admission of a tick asks the policy about the candidates in order, until it defers. Each of
them is admitted just if the verdict is to admit it, the other sockets are left alone, and all that
are running then and have something left to do take part. -/
theorem admission_settles {ε : Type} (host : Host W S H P) :
    ∃ admitted r', (admission host : Step (Run W S H P) ε _) r = (.done admitted, r') ∧
      r.Settles host admitted r' := by
  obtain ⟨hentries, hsession⟩ :
      (HandleMap.traverseEntries (AdmissionPass.consider host) r.registry.entries
          ⟨false, [], r.session⟩).1 = Registry.settle (r.verdicts host).1 r.registry.entries ∧
        (r.admitted host).session = (r.verdicts host).2 :=
    AdmissionPass.traverse_settles ⟨false, [], r.session⟩ r.registry.entries
  have hadmitted : r.participants host =
      (Registry.participating (r.admitted host).registry.values).map (·.handle) :=
    AdmissionPass.admitted_traverse ⟨false, [], r.session⟩ r.registry.entries
  have hregistry : (r.admitted host).registry.entries =
      Registry.settle (r.verdicts host).1 r.registry.entries := hentries
  refine ⟨r.participants host, r.admitted host, r.admission_apply, ?_⟩
  constructor
  case session => exact hsession
  case journal =>
    rw [show (r.admitted host).session = (r.verdicts host).2 from hsession, verdicts,
      Session.journal_verdicts, List.zip_map_left, List.map_map]
    rfl
  case deferral => exact fun i hi => Session.verdicts_ne_defer _ _ hi
  case exhaustive =>
    have hle : (r.verdicts host).1.length ≤ (r.candidates.map (·.2)).length :=
      r.session.length_verdicts_le _
    have hlast : (r.verdicts host).1.length < (r.candidates.map (·.2)).length →
        (r.verdicts host).1.getLast? = some .defer := r.session.getLast?_verdicts _
    rw [List.length_map] at hle hlast
    exact (Nat.eq_or_lt_of_le hle).imp id fun hlt => ⟨hlt, hlast hlt⟩
  case keys => exact r.keys_admitted
  case others =>
    intro h d hd hc
    rw [← HandleMap.mem_entries, hregistry]
    exact Registry.mem_settle_of_not_candidate (HandleMap.mem_entries.2 hd) hc
  case judged =>
    intro i h d hd
    rw [← HandleMap.mem_entries, hregistry,
      ← Descriptor.judged_getD (r.isCandidate_of_getElem? hd)]
    exact Registry.mem_settle_of_candidate hd
  case taken => exact hadmitted
  case ordered =>
    intro hk
    rw [hadmitted]
    exact pairwise_participating (Move.keyed hk .admitted)

end Run

/-! ## An example -/

namespace Sample

/-- The policy whose verdicts are the words of a list. -/
def listed : PolicyRules Unit Unit Hook (List Decision) where
  observes _ := false
  atStart world words context := (words, context, world)
  decide world words _ _ := (words.headD .grant, words.tail, world, false)
  atFinish world words context := (words, context, world)
  onEvent world words event context := (words, .nothing world event context)
  onFault world words _ context := (words, .nothing world context)

def writer (number : Nat) (running complete : Bool) : Descriptor Unit Hook :=
  { Descriptor.new ⟨number⟩ () write { Metadata.empty with requestComplete := complete } with
    running := running }

/-- A finished socket, one that takes part, four that wait, and another one that takes part. The
policy passes over the first that waits, admits the second and defers the third. -/
def crowd : Run Unit Unit Hook (List Decision) where
  registry := [writer 1 false true, writer 2 true false, writer 3 false false,
    writer 4 false false, writer 5 false false, writer 6 false false,
    writer 7 true false].foldl Registry.enroll .empty
  session := ((idle listed [.skip, .grant, .defer, .grant]).started .empty ()).session

theorem crowd_keyed : crowd.registry.Keyed := by
  intro h d hd
  have hall : ∀ e ∈ crowd.registry.entries, e.2.handle = e.1 := by decide +kernel
  exact hall (h, d) (HandleMap.mem_entries.2 hd)

end Sample

namespace Run

/-- Three of four candidates are asked about and one of them joins the two that take part. -/
theorem admission_settles_crowded :
    ∃ admitted r', (admission (Sample.host Sample.listed) :
        Step (Run Unit Unit Sample.Hook (List Decision)) Halt _) Sample.crowd =
          (.done admitted, r') ∧
      Sample.crowd.candidates.map (·.1) = [⟨3⟩, ⟨4⟩, ⟨5⟩, ⟨6⟩] ∧
      r'.session.policy = [.grant] ∧ admitted = [⟨2⟩, ⟨4⟩, ⟨7⟩] ∧
      (r'.registry.values.map fun d => (d.running, d.postponed)) =
        [(false, false), (true, false), (false, true), (true, false), (false, true), (false, true),
          (true, false)] ∧
      admitted.Pairwise fun h k => h.number < k.number := by
  obtain ⟨admitted, r', happly, hsettles⟩ :=
    admission_settles (ε := Halt) Sample.crowd (Sample.host Sample.listed)
  obtain ⟨rfl, rfl⟩ : Sample.crowd.participants (Sample.host Sample.listed) = admitted ∧
      Sample.crowd.admitted (Sample.host Sample.listed) = r' := by
    rw [admission_apply] at happly
    simpa using happly
  refine ⟨_, _, happly, by decide +kernel, ?_, by decide +kernel, by decide +kernel,
    hsettles.ordered Sample.crowd_keyed⟩
  rw [hsettles.session]
  decide +kernel

end Run

end Reactor
