import Mathlib.Data.List.Basic
import Reactor.Host

/-! How the answer of a poll is mapped back onto the sockets. Only the interests with a descriptor
have an entry, so an entry is found at the number of such interests before its own. The notes that a
selector has kept of earlier selections do not show. -/

namespace Reactor

/-! ## Words -/

namespace PollWord

/-- Whether one of some conditions is reported. -/
def signals (w : PollWord) (conditions : List PollCondition) : Bool := conditions.any w.has

/-- The conditions in which an interest in reading is met. -/
def forReading : List PollCondition := [.readable, .urgent, .error, .hangup, .invalid]

/-- The conditions in which an interest in writing is met. -/
def forWriting : List PollCondition := [.writable, .error, .hangup, .invalid]

end PollWord

theorem PollFlags.allowsRead_of_ofWord? {w : PollWord} {f : PollFlags} (h : ofWord? w = some f) :
    f.allowsRead = w.signals PollWord.forReading := by
  unfold ofWord? at h
  split at h
  · cases h
    simp only [allowsRead, broken, PollWord.signals, PollWord.forReading, List.any_cons,
      List.any_nil, Bool.or_false]
    ac_rfl
  · cases h

theorem PollFlags.allowsWrite_of_ofWord? {w : PollWord} {f : PollFlags} (h : ofWord? w = some f) :
    f.allowsWrite = w.signals PollWord.forWriting := by
  unfold ofWord? at h
  split at h
  · cases h
    simp only [allowsWrite, broken, PollWord.signals, PollWord.forWriting, List.any_cons,
      List.any_nil, Bool.or_false]
    ac_rfl
  · cases h

namespace PollSelector

/-! ## The notes of a selection -/

variable {interests : List Interest} {reports : List (Option PollFlags)}

theorem conditions_fst (interests : List Interest) (reports : List (Option PollFlags)) :
    (conditions interests reports).map Prod.fst = interests := by
  induction interests generalizing reports with
  | nil => rfl
  | cons i rest ih =>
      rw [conditions]
      split <;> simp [ih]

/-- What the entries report; an interrupted poll reports nothing. -/
def reportsOf (interrupted : Bool) (filled : List PollEntry) : List (Option PollFlags) :=
  if interrupted then [] else filled.map PollEntry.reported

theorem flags_noteAll (s : PollSelector) (interrupted : Bool) (interests : List Interest)
    (filled : List PollEntry) :
    (s.noteAll interrupted interests filled).flags =
      s.flags ++ (conditions interests (reportsOf interrupted filled)).map Prod.snd := by
  induction interests generalizing s filled with
  | nil => simp [noteAll, conditions]
  | cons i rest ih =>
      rw [noteAll, conditions]
      cases hfd : i.fd with
      | none => simp [ih]
      | some fd =>
          have htail : (reportsOf interrupted filled).tail = reportsOf interrupted filled.tail := by
            cases interrupted <;> simp [reportsOf]
          have hhead : (filled.head?.bind PollEntry.reported).filter (fun _ => !interrupted) =
              (reportsOf interrupted filled).head?.join := by
            cases interrupted with
            | true => cases filled <;> simp [reportsOf]
            | false =>
                cases filled with
                | nil => rfl
                | cons e rest => cases hreported : e.reported <;> simp [reportsOf, hreported]
          simp [ih, htail, hhead]

/-- The readiness grows by the interests that are met, in their order. -/
theorem foldl_add (met : List (Interest × Option PollFlags)) (ready : Readiness) :
    met.foldl (fun ready (i, flags) => ready.add i flags) ready =
      ⟨ready.read ++ (readiness met).read, ready.write ++ (readiness met).write⟩ := by
  induction met generalizing ready with
  | nil => simp [readiness]
  | cons c met ih =>
      obtain ⟨i, flags⟩ := c
      rw [List.foldl_cons, ih]
      cases flags with
      | none => simp [Readiness.add, readiness]
      | some f =>
          simp only [Readiness.add, readiness, List.filterMap_cons, Option.map_some,
            Option.getD_some]
          cases i.read && f.allowsRead <;> cases i.write && f.allowsWrite <;> simp

theorem readiness_noteAll (interrupted : Bool) (interests : List Interest)
    (filled : List PollEntry) :
    (interests.zip (noteAll ⟨[]⟩ interrupted interests filled).flags).foldl
        (fun ready (i, flags) => ready.add i flags) Readiness.none =
      readiness (conditions interests (reportsOf interrupted filled)) := by
  have hzip : interests.zip ((conditions interests (reportsOf interrupted filled)).map Prod.snd) =
      conditions interests (reportsOf interrupted filled) := by
    generalize hmet : conditions interests (reportsOf interrupted filled) = met
    have hfst : met.map Prod.fst = interests := hmet ▸ conditions_fst interests _
    rw [← hfst, ← List.unzip_fst, ← List.unzip_snd, List.zip_unzip]
  rw [flags_noteAll, List.nil_append, hzip, foldl_add]
  simp [Readiness.none]

/-! ## The entry of an interest -/

/-- The number of interests with a descriptor before a position. -/
def place (interests : List Interest) (n : Nat) : Nat := (interests.take n).countP (·.fd.isSome)

theorem place_cons_succ (i : Interest) (interests : List Interest) (n : Nat) :
    place (i :: interests) (n + 1) = place interests n + if i.fd.isSome then 1 else 0 := by
  rw [place, List.take_succ_cons, List.countP_cons, place]

/-- The entry at its place is polled for the descriptor of the interest itself. -/
theorem getElem?_entries {interests : List Interest} {n : Nat} {i : Interest} {fd : Nat}
    (hi : interests[n]? = some i) (hfd : i.fd = some fd) :
    (entries interests)[place interests n]? = some ⟨fd, .wanted i, 0⟩ := by
  induction interests generalizing n with
  | nil => simp at hi
  | cons j rest ih =>
      cases n with
      | zero =>
          obtain rfl : j = i := by simpa using hi
          simp [place, entries, polled, hfd]
      | succ n =>
          rw [List.getElem?_cons_succ] at hi
          have hrest := ih hi
          rw [place_cons_succ]
          cases hj : j.fd with
          | none => simpa [entries, polled, hj] using hrest
          | some other => simpa [entries, polled, hj] using hrest

def found (interests : List Interest) (reports : List (Option PollFlags)) (i : Interest) (n : Nat) :
    Option PollFlags :=
  if i.fd.isNone then some (.wanted i) else reports[place interests n]?.join

theorem getElem?_conditions (interests : List Interest) (reports : List (Option PollFlags))
    (n : Nat) :
    (conditions interests reports)[n]? =
      interests[n]?.map fun i => (i, found interests reports i n) := by
  induction interests generalizing reports n with
  | nil => simp [conditions]
  | cons i rest ih =>
      rw [conditions]
      cases n with
      | zero =>
          cases hfd : i.fd with
          | none => simp [found, hfd]
          | some fd => simp [found, hfd, place, List.head?_eq_getElem?]
      | succ n =>
          have hplace := place_cons_succ i rest n
          cases hfd : i.fd with
          | none => simp [ih, found, hplace, hfd]
          | some fd => simp [ih, found, hplace, hfd]

theorem conditions_eq (interests : List Interest) (reports : List (Option PollFlags)) :
    conditions interests reports =
      interests.zipIdx.map fun (i, n) => (i, found interests reports i n) := by
  refine List.ext_getElem? fun n => ?_
  rw [getElem?_conditions, List.getElem?_map, List.getElem?_zipIdx, Option.map_map, Nat.zero_add]
  rfl

/-! ## What becomes ready -/

/-- The sockets, in the order of their interests, that want something and either have no descriptor
or have one of some conditions reported for their own descriptor. -/
def due (interests : List Interest) (words : List PollWord) (wants : Interest → Bool)
    (conditions : List PollCondition) : List SocketHandle :=
  (interests.zipIdx.filter fun (i, n) =>
    wants i && (i.fd.isNone || words[place interests n]?.any (·.signals conditions))).map
      (·.1.handle)

/-- The sockets, in the order of their interests, that want something and have no descriptor. -/
def unpolled (interests : List Interest) (wants : Interest → Bool) : List SocketHandle :=
  (interests.filter fun i => wants i && i.fd.isNone).map (·.handle)

/-- Without a word for any descriptor only those without one are left. -/
theorem due_nil (interests : List Interest) (wants : Interest → Bool)
    (conditions : List PollCondition) :
    due interests [] wants conditions = unpolled interests wants := by
  have hfst : interests.zipIdx.map Prod.fst = interests := List.zipIdx_map_fst 0 interests
  unfold due unpolled
  conv_rhs => rw [← hfst]
  rw [List.filter_map, List.map_map]
  simp [Function.comp_def]

/-- The interests that are met are those that want what their conditions allow. -/
theorem filterMap_conditions (interests : List Interest) (words : List PollWord)
    (hknown : ∀ w ∈ words, w.isKnown = true) (wants : Interest → Bool) (allows : PollFlags → Bool)
    (expected : List PollCondition) (hwanted : ∀ i, wants i = true → allows (.wanted i) = true)
    (hallows : ∀ w f, PollFlags.ofWord? w = some f → allows f = w.signals expected) :
    (conditions interests (words.map PollFlags.ofWord?)).filterMap (fun (i, flags) =>
        if wants i && (flags.map allows).getD false then some i.handle else none) =
      due interests words wants expected := by
  have hmet : ∀ i n, (wants i &&
      ((found interests (words.map PollFlags.ofWord?) i n).map allows).getD false) =
        (wants i && (i.fd.isNone || words[place interests n]?.any (·.signals expected))) := by
    intro i n
    unfold found
    cases hwants : wants i with
    | false => simp
    | true =>
        by_cases hfd : i.fd.isNone = true
        · simp [hfd, hwanted i hwants]
        · rw [if_neg hfd, List.getElem?_map]
          cases hw : words[place interests n]? with
          | none => simp [hfd]
          | some w =>
              have hread : w.isKnown = true := hknown w (List.mem_of_getElem? hw)
              have hf := hallows w _ (if_pos hread)
              simp [hfd, PollFlags.ofWord?, hread, hf]
  unfold due
  rw [conditions_eq, List.filterMap_map]
  conv_rhs => rw [← List.filterMap_eq_map, List.filterMap_filter]
  refine List.filterMap_congr fun c _ => ?_
  simp only [Function.comp_apply, hmet]

theorem readiness_conditions (interests : List Interest) {words : List PollWord}
    (hknown : ∀ w ∈ words, w.isKnown = true) :
    readiness (conditions interests (words.map PollFlags.ofWord?)) =
      ⟨due interests words (·.read) PollWord.forReading,
        due interests words (·.write) PollWord.forWriting⟩ := by
  have hread := filterMap_conditions interests words hknown (·.read) PollFlags.allowsRead
    PollWord.forReading (fun i hi => by simp [PollFlags.allowsRead, PollFlags.wanted, hi])
    fun _ _ => PollFlags.allowsRead_of_ofWord?
  have hwrite := filterMap_conditions interests words hknown (·.write) PollFlags.allowsWrite
    PollWord.forWriting (fun i hi => by simp [PollFlags.allowsWrite, PollFlags.wanted, hi])
    fun _ _ => PollFlags.allowsWrite_of_ofWord?
  rw [readiness, hread, hwrite]

theorem readiness_unpolled (interests : List Interest) :
    readiness (conditions interests []) =
      ⟨unpolled interests (·.read), unpolled interests (·.write)⟩ := by
  have hmet := readiness_conditions interests (List.forall_mem_nil fun w : PollWord => w.isKnown)
  rwa [due_nil, due_nil] at hmet

/-! ## A selection -/

/-- What polling comes to; without an entry it is left out. -/
def ask (poll : List PollEntry → Nat → Except Errno Nat × List PollEntry)
    (interests : List Interest) (timeout : Duration) : Except Errno Nat × List PollEntry :=
  if (entries interests).isEmpty then (.ok 0, entries interests)
  else poll (entries interests) (timeoutMillis (wait interests timeout))

def answerOf (polled : Except Errno Nat × List PollEntry) : PollAnswer :=
  polled.1.map fun _ => polled.2.map PollEntry.reported

variable {poll : List PollEntry → Nat → Except Errno Nat × List PollEntry} {timeout : Duration}

/-- What a selection comes to does not depend on what the selector and the lists were used for
before. -/
theorem select_apply (poll : List PollEntry → Nat → Except Errno Nat × List PollEntry)
    (s : PollSelector) (interests : List Interest) (timeout : Duration)
    (ready : Readiness) :
    (s.select poll interests timeout ready).1 =
        (interpret interests (answerOf (ask poll interests timeout))).map (fun _ => ()) ∧
      (s.select poll interests timeout ready).2.2 =
        (interpret interests (answerOf (ask poll interests timeout))).toOption.getD .none := by
  have hask : (if (entries interests).isEmpty then (.ok 0, entries interests)
      else poll (entries interests) (timeoutMillis (wait interests timeout))) =
        ask poll interests timeout := rfl
  unfold select
  simp only [hask, Readiness.clear]
  rcases ask poll interests timeout with ⟨code | count, filled⟩
  · by_cases hcode : code = .interrupted
    · simp only [hcode, if_true]
      rw [readiness_noteAll]
      exact ⟨rfl, rfl⟩
    · simp [answerOf, interpret, Except.map, Except.toOption, hcode]
  · dsimp only
    rw [readiness_noteAll]
    exact ⟨rfl, rfl⟩

/-- A run that polls selects as a selector does, whatever that was used for before. -/
theorem result_pollingSelector_eq {W : Type} (world : W) (s : PollSelector)
    (interests : List Interest) (timeout : Duration) (ready : Readiness) :
    (pollingSelector (fun world fds millis =>
        (answerOf (poll (fds.map fun (fd, events) => ⟨fd, events, 0⟩) millis), world))
      world interests timeout).result =
      (s.select poll interests timeout ready).1.map fun () =>
        (s.select poll interests timeout ready).2.2 := by
  obtain ⟨houtcome, hready⟩ := select_apply poll s interests timeout ready
  have hresult : (pollingSelector (fun world fds millis =>
        (answerOf (poll (fds.map fun (fd, events) => ⟨fd, events, 0⟩) millis), world))
      world interests timeout).result =
        interpret interests (answerOf (ask poll interests timeout)) := by
    unfold pollingSelector ask entries
    cases hfds : polled interests with
    | nil => rfl
    | cons fd fds => rfl
  rw [houtcome, hready, hresult]
  cases interpret interests (answerOf (ask poll interests timeout)) <;> rfl

/-! ## The answer of a poll, mapped back -/

/-- The entries as a poll leaves them that fills in these words. -/
def fill (entries : List PollEntry) (words : List PollWord) : List PollEntry :=
  entries.zipWith (fun e w => { e with revents := w }) words

theorem reported_fill {entries : List PollEntry} {words : List PollWord}
    (h : words.length = entries.length) :
    (fill entries words).map PollEntry.reported = words.map PollFlags.ofWord? := by
  induction entries generalizing words with
  | nil =>
      obtain rfl := List.eq_nil_of_length_eq_zero h
      rfl
  | cons e entries ih =>
      cases words with
      | nil => cases h
      | cons w words =>
          have hrest := ih (Nat.succ.inj h)
          simpa [fill, PollEntry.reported] using hrest

theorem isEmpty_entries (interests : List Interest) :
    (entries interests).isEmpty = interests.all (·.fd.isNone) := by
  induction interests with
  | nil => rfl
  | cons i rest ih =>
      simp only [entries, polled, List.isEmpty_map] at ih ⊢
      cases hfd : i.fd <;> simp [hfd, ih]

/-- A poll that only fills in words, known ones where it succeeds, is mapped back exactly, whatever
the selector and the lists were used for before. The entry at the place of an interest is the one of
its own descriptor. After a success the sockets that are ready are those without a descriptor and
those for whose own descriptor a word reports a condition they wait for or that it is broken, in the
order of their interests. After an interrupted poll they are those without a descriptor, and any
other failure is one of the selection. -/
theorem select_maps (s : PollSelector) (interests : List Interest) (timeout : Duration)
    (ready : Readiness) (answer : Except Errno Nat) (words : List PollWord)
    (hpoll : poll (entries interests) (timeoutMillis (wait interests timeout)) =
      (answer, fill (entries interests) words))
    (hlength : words.length = (entries interests).length)
    (hknown : ∀ count, answer = .ok count → ∀ w ∈ words, w.isKnown = true) :
    (∀ n i fd, interests[n]? = some i → i.fd = some fd →
      (entries interests)[place interests n]? = some ⟨fd, .wanted i, 0⟩) ∧
    let x := s.select poll interests timeout ready
    match if interests.all (·.fd.isNone) then .ok 0 else answer with
    | .ok _ => x.1 = .ok () ∧
        x.2.2 = ⟨due interests words (·.read) PollWord.forReading,
          due interests words (·.write) PollWord.forWriting⟩
    | .error code =>
        if code = .interrupted then x.1 = .ok () ∧
          x.2.2 = ⟨unpolled interests (·.read), unpolled interests (·.write)⟩
        else x.1 = .error (.system code) ∧ x.2.2 = .none := by
  refine ⟨fun n i fd => getElem?_entries, ?_⟩
  obtain ⟨houtcome, hready⟩ := select_apply poll s interests timeout ready
  dsimp only
  rw [houtcome, hready]
  unfold ask
  rw [isEmpty_entries]
  by_cases hall : interests.all (·.fd.isNone) = true
  -- there is nothing to poll, so there are no words either
  · have hnone : entries interests = [] := by
      rw [← List.isEmpty_iff, isEmpty_entries]
      exact hall
    obtain rfl : words = [] := by simpa [hnone] using hlength
    have hmet := readiness_unpolled interests
    rw [if_pos hall, if_pos hall, hnone]
    dsimp only
    rw [due_nil, due_nil, ← hmet]
    exact ⟨rfl, rfl⟩
  · rw [if_neg hall, if_neg hall, hpoll]
    rcases answer with code | count
    · by_cases hcode : code = .interrupted
      · have hmet := readiness_unpolled interests
        simp only [hcode, if_true]
        rw [← hmet]
        exact ⟨rfl, rfl⟩
      · simp [answerOf, interpret, Except.map, Except.toOption, hcode]
    · have hmet := readiness_conditions interests (hknown count rfl)
      dsimp only
      rw [← hmet, ← reported_fill hlength]
      exact ⟨rfl, rfl⟩

/-- Sockets with and without a descriptor in turn; two of them share one. -/
def mixed : List Interest :=
  [⟨⟨1⟩, none, true, true⟩, ⟨⟨2⟩, some 3, true, false⟩, ⟨⟨3⟩, none, false, true⟩,
    ⟨⟨4⟩, some 5, true, true⟩, ⟨⟨5⟩, some 3, false, true⟩]

/-- There is something to read, the other end is gone, and again there is something to read. -/
def mixedWords : List PollWord := [0x41, 0x10, 0x41]

def mixedPoll (entries : List PollEntry) (_millis : Nat) : Except Errno Nat × List PollEntry :=
  (.ok 3, fill entries mixedWords)

def used : PollSelector := ⟨[none, some ⟨true, true, true, true, true, true⟩]⟩

/-- The second and the fifth socket share a descriptor that can only be read, the fourth one is
broken. The selector and the lists have been used before. -/
theorem select_maps_mixed :
    mixedWords.length = (entries mixed).length ∧ (∀ w ∈ mixedWords, w.isKnown = true) ∧
      let x := used.select mixedPoll mixed (.ofMillis 5) ⟨[⟨5⟩], [⟨2⟩]⟩
      x.1 = .ok () ∧ x.2.2 = ⟨[⟨1⟩, ⟨2⟩, ⟨4⟩], [⟨1⟩, ⟨3⟩, ⟨4⟩]⟩ := by
  have hlength : mixedWords.length = (entries mixed).length := by decide
  have hknown : ∀ w ∈ mixedWords, w.isKnown = true := by
    intro w hw
    simp only [mixedWords, List.mem_cons, List.not_mem_nil, or_false] at hw
    rcases hw with rfl | rfl | rfl <;> rfl
  have hpolled : mixed.all (·.fd.isNone) = false := rfl
  have hpoll : mixedPoll (entries mixed) (timeoutMillis (wait mixed (.ofMillis 5))) =
      (.ok 3, fill (entries mixed) mixedWords) := rfl
  have hmaps := (select_maps used mixed (.ofMillis 5) ⟨[⟨5⟩], [⟨2⟩]⟩ (.ok 3) mixedWords hpoll
    hlength fun _ _ => hknown).2
  simp only [hpolled, Bool.false_eq_true, if_false] at hmaps
  refine ⟨hlength, hknown, hmaps.1, hmaps.2.trans ?_⟩
  decide

end PollSelector

end Reactor
