import Reactor.Bytes

/-! The search for a run of bytes. It yields the least place of occurrence, and what it has found
does not change when more bytes arrive. -/

namespace Reactor.Bytes

variable {caseSensitive : Bool} {needle text more : Bytes} {i k m : Nat}

/-- A marker that is there and is not the empty one has bytes. -/
theorem ne_nil_of_eq_some {marker : Option Bytes} (h : marker ≠ some [])
    (hm : marker = some needle) : needle ≠ [] := by
  rintro rfl
  exact h hm

/-- The needle begins at this place of the text. -/
def Occurs (caseSensitive : Bool) (needle text : Bytes) (i : Nat) : Prop :=
  startsWith caseSensitive needle (text.drop i) = true

theorem length_le_of_startsWith :
    ∀ {needle text : Bytes}, startsWith caseSensitive needle text = true →
      needle.length ≤ text.length
  | [], _, _ => Nat.zero_le _
  | n :: needle, t :: text, h => by
      simp only [startsWith, Bool.and_eq_true] at h
      exact Nat.succ_le_succ (length_le_of_startsWith h.2)

/-- Whether a text begins with a needle is settled by as many bytes as the needle has. -/
theorem startsWith_append :
    ∀ {needle text : Bytes}, needle.length ≤ text.length →
      startsWith caseSensitive needle (text ++ more) = startsWith caseSensitive needle text
  | [], _, _ => rfl
  | n :: needle, t :: text, h => by
      simp only [List.cons_append, startsWith,
        startsWith_append (Nat.le_of_succ_le_succ h)]

namespace Occurs

theorem le_length (hn : needle ≠ []) (h : Occurs caseSensitive needle text i) :
    i + needle.length ≤ text.length := by
  have hle := length_le_of_startsWith h
  have hpos := List.length_pos_iff.2 hn
  rw [List.length_drop] at hle
  omega

theorem append (hn : needle ≠ []) (h : Occurs caseSensitive needle text i) :
    Occurs caseSensitive needle (text ++ more) i := by
  have hle := h.le_length hn
  rw [Occurs, List.drop_append_of_le_length (by omega), startsWith_append]
  · exact h
  · rw [List.length_drop]
    omega

/-- An occurrence that ends before the bytes that came last has been there without them. -/
theorem of_append (hi : i + needle.length ≤ text.length)
    (h : Occurs caseSensitive needle (text ++ more) i) : Occurs caseSensitive needle text i := by
  rwa [Occurs, List.drop_append_of_le_length (by omega), startsWith_append] at h
  rw [List.length_drop]
  omega

theorem drop : Occurs caseSensitive needle (text.drop m) i ↔
    Occurs caseSensitive needle text (m + i) := by
  rw [Occurs, List.drop_drop, Occurs]

end Occurs

theorem find?_eq_some_iff (hn : needle ≠ []) :
    ∀ {text : Bytes} {i : Nat}, find? caseSensitive needle text = some i ↔
      Occurs caseSensitive needle text i ∧ ∀ j < i, ¬ Occurs caseSensitive needle text j := by
  intro text
  induction text with
  | nil =>
      intro i
      refine ⟨fun h => ?_, fun h => ?_⟩
      · simp [find?, hn] at h
      · have hle := h.1.le_length hn
        have hpos := List.length_pos_iff.2 hn
        rw [List.length_nil] at hle
        omega
  | cons t text ih =>
      intro i
      cases hs : startsWith caseSensitive needle (t :: text) with
      | true =>
          have hfind : find? caseSensitive needle (t :: text) = some 0 := by simp [find?, hs]
          rw [hfind]
          refine ⟨?_, fun h => ?_⟩
          · rintro ⟨⟩
            exact ⟨hs, fun j hj => absurd hj (Nat.not_lt_zero j)⟩
          · cases i with
            | zero => rfl
            | succ i => exact absurd hs (h.2 0 (Nat.succ_pos i))
      | false =>
          have hfind : find? caseSensitive needle (t :: text) =
              (find? caseSensitive needle text).map (· + 1) := by simp [find?, hs]
          rw [hfind]
          cases i with
          | zero =>
              refine ⟨fun h => ?_, fun h => ?_⟩
              · simp at h
              · exact absurd h.1 (by simp [Occurs, hs])
          | succ i =>
              have hmap : (find? caseSensitive needle text).map (· + 1) = some (i + 1) ↔
                  find? caseSensitive needle text = some i := by simp
              rw [hmap, ih]
              refine and_congr Iff.rfl ⟨fun h j hj => ?_, fun h j hj => h (j + 1) (by omega)⟩
              cases j with
              | zero => simp [Occurs, hs]
              | succ j => exact h j (by omega)

/-- The search yields the least place of occurrence from its start on. -/
theorem findFrom?_eq_some_iff (hn : needle ≠ []) :
    findFrom? caseSensitive needle text k = some i ↔ k ≤ i ∧
      Occurs caseSensitive needle text i ∧
        ∀ j, k ≤ j → j < i → ¬ Occurs caseSensitive needle text j := by
  simp only [findFrom?, Option.map_eq_some_iff, find?_eq_some_iff hn, Occurs.drop]
  constructor
  · rintro ⟨l, ⟨ho, hleast⟩, rfl⟩
    refine ⟨Nat.le_add_left k l, Nat.add_comm k l ▸ ho, fun j hkj hj => ?_⟩
    have hnot := hleast (j - k) (by omega)
    rwa [Nat.add_sub_cancel' hkj] at hnot
  · rintro ⟨hki, ho, hleast⟩
    refine ⟨i - k, ⟨?_, fun j hj => hleast (k + j) (by omega) (by omega)⟩, by omega⟩
    rwa [Nat.add_sub_cancel' hki]

/-- The search fails if there is no occurrence from its start on. -/
theorem findFrom?_eq_none_iff (hn : needle ≠ []) :
    findFrom? caseSensitive needle text k = none ↔
      ∀ i, k ≤ i → ¬ Occurs caseSensitive needle text i := by
  constructor
  · intro h i
    -- a place of occurrence would bound a least one
    induction i using Nat.strongRecOn with
    | ind i ih =>
        intro hk ho
        have hsome := (findFrom?_eq_some_iff hn).2 ⟨hk, ho, fun j hkj hj => ih j hj hkj⟩
        rw [h] at hsome
        cases hsome
  · intro h
    cases hfind : findFrom? caseSensitive needle text k with
    | none => rfl
    | some i =>
        obtain ⟨hk, ho, -⟩ := (findFrom?_eq_some_iff hn).1 hfind
        exact absurd ho (h i hk)

theorem le_length_of_findFrom? (hn : needle ≠ [])
    (h : findFrom? caseSensitive needle text k = some i) :
    k ≤ i ∧ i + needle.length ≤ text.length := by
  obtain ⟨hk, ho, -⟩ := (findFrom?_eq_some_iff hn).1 h
  exact ⟨hk, ho.le_length hn⟩

/-- What was found stays the first occurrence when more bytes arrive. -/
theorem findFrom?_append (hn : needle ≠ [])
    (h : findFrom? caseSensitive needle text k = some i) :
    findFrom? caseSensitive needle (text ++ more) k = some i := by
  obtain ⟨hk, ho, hleast⟩ := (findFrom?_eq_some_iff hn).1 h
  have hle := ho.le_length hn
  exact (findFrom?_eq_some_iff hn).2
    ⟨hk, ho.append hn, fun j hkj hj hj' => hleast j hkj hj (hj'.of_append (by omega))⟩

/-- The search may begin later, if there is no occurrence before. -/
theorem findFrom?_skip (hn : needle ≠ []) (hk : k ≤ m)
    (h : ∀ i, k ≤ i → i < m → ¬ Occurs caseSensitive needle text i) :
    findFrom? caseSensitive needle text k = findFrom? caseSensitive needle text m := by
  refine Option.ext fun i => ?_
  rw [findFrom?_eq_some_iff hn, findFrom?_eq_some_iff hn]
  constructor
  · rintro ⟨hki, ho, hleast⟩
    exact ⟨Nat.not_lt.1 fun him => h i hki him ho, ho, fun j hmj => hleast j (by omega)⟩
  · rintro ⟨hmi, ho, hleast⟩
    refine ⟨by omega, ho, fun j hkj hj => ?_⟩
    by_cases hjm : j < m
    · exact h j hkj hjm
    · exact hleast j (by omega) hj

/-- A search in what is left of a text, in terms of the whole. -/
theorem findFrom?_drop : findFrom? caseSensitive needle text (m + k) =
    (findFrom? caseSensitive needle (text.drop m) k).map (· + m) := by
  simp only [findFrom?, List.drop_drop, Option.map_map]
  refine congrArg (Option.map · _) (funext fun i => ?_)
  simp only [Function.comp_apply]
  omega

end Reactor.Bytes
