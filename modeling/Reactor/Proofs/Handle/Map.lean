import Mathlib.Data.List.Nodup
import Reactor.Handle.Map

/-! Looking up, inserting and erasing in maps by handle. -/

namespace Reactor.HandleMap

variable {α β : Type} {m : HandleMap α} {h k : SocketHandle} {a : α}

theorem nodup_keys (m : HandleMap α) : m.keys.Nodup := by
  have hs : m.keys.Pairwise fun a b => a.number < b.number := List.pairwise_map.2 m.sorted
  refine hs.imp fun {a b} hab heq => ?_
  rw [heq] at hab
  omega

theorem mem_of_find {l : List (SocketHandle × α)}
    (hf : (l.find? fun e => e.1 = h).map (·.2) = some a) : (h, a) ∈ l := by
  obtain ⟨⟨k, b⟩, he, rfl⟩ := Option.map_eq_some_iff.1 hf
  have hk : k = h := by simpa using List.find?_some he
  rw [← hk]
  exact List.mem_of_find?_eq_some he

theorem find_of_mem {l : List (SocketHandle × α)} (hn : (l.map Prod.fst).Nodup)
    (hm : (h, a) ∈ l) : (l.find? fun e => e.1 = h).map (·.2) = some a := by
  induction l with
  | nil => cases hm
  | cons e rest ih =>
      rw [List.map_cons, List.nodup_cons] at hn
      rcases List.mem_cons.1 hm with rfl | hm
      · simp
      · have hne : e.1 ≠ h := fun heq => hn.1 (heq ▸ List.mem_map_of_mem hm)
        simpa [hne] using ih hn.2 hm

theorem mem_entries : (h, a) ∈ m.entries ↔ m.get? h = some a :=
  ⟨find_of_mem m.nodup_keys, mem_of_find⟩

theorem mem_keys : h ∈ m.keys ↔ ∃ a, m.get? h = some a := by
  simp only [keys, List.mem_map, Prod.exists, exists_and_right, exists_eq_right, mem_entries]

theorem get?_eq_none : m.get? h = none ↔ h ∉ m.keys := by
  rw [mem_keys, Option.eq_none_iff_forall_not_mem]
  simp

theorem mem_values : a ∈ m.values ↔ ∃ h, m.get? h = some a := by
  simp only [values, List.mem_map, Prod.exists, exists_eq_right, mem_entries]

@[simp] theorem get?_empty : (empty : HandleMap α).get? h = none := rfl

theorem eq_empty (hm : ∀ h, m.get? h = none) : m = .empty := by
  rcases he : m.entries with _ | ⟨⟨h, a⟩, rest⟩
  · cases m
    cases he
    rfl
  · have ha : m.get? h = some a := mem_entries.1 (by rw [he]; exact .head _)
    rw [hm h] at ha
    cases ha

@[simp] theorem get?_map (f : SocketHandle → α → β) :
    (m.map f).get? h = (m.get? h).map (f h) := by
  ext b
  rw [← mem_entries, Option.map_eq_some_iff]
  simp only [map, List.mem_map, Prod.exists, Prod.mk.injEq]
  constructor
  · rintro ⟨k, a, hm, rfl, rfl⟩
    exact ⟨a, mem_entries.1 hm, rfl⟩
  · rintro ⟨a, hm, rfl⟩
    exact ⟨h, a, mem_entries.2 hm, rfl, rfl⟩

@[simp] theorem get?_modify (f : α → α) :
    (m.modify h f).get? k = if k = h then (m.get? k).map f else m.get? k := by
  rw [modify, get?_map]
  split <;> simp

theorem get?_erase : (m.erase h).get? k = if k = h then none else m.get? k := by
  ext b
  rw [← mem_entries]
  simp only [erase, List.mem_filter, mem_entries]
  split <;> simp_all

theorem map_untouched {l : List (SocketHandle × α)} (f : α → α) (hne : ∀ e ∈ l, e.1 ≠ h) :
    l.map (fun e => (e.1, if e.1 = h then f e.2 else e.2)) = l := by
  calc l.map _ = l.map id := List.map_congr_left fun e he => by simp [hne e he]
    _ = l := List.map_id l

theorem filter_untouched {l : List (SocketHandle × α)} (hne : ∀ e ∈ l, e.1 ≠ h) :
    l.filter (fun e => e.1 ≠ h) = l :=
  List.filter_eq_self.2 fun e he => by simp [hne e he]

/-- Where the entry of a handle stands, and what becomes of the entries when it is changed or
erased. -/
theorem split_entries (ha : m.get? h = some a) :
    ∃ before after, m.entries = before ++ (h, a) :: after ∧
      (∀ f, (m.modify h f).entries = before ++ (h, f a) :: after) ∧
      (m.erase h).entries = before ++ after := by
  obtain ⟨before, after, hsplit⟩ := List.append_of_mem (mem_entries.2 ha)
  have hn : (m.entries.map Prod.fst).Nodup := m.nodup_keys
  rw [hsplit, List.map_append, List.map_cons, List.nodup_middle, List.nodup_cons] at hn
  have hne : ∀ e ∈ before ++ after, e.1 ≠ h := by
    intro e he heq
    have hmem : e.1 ∈ (before ++ after).map Prod.fst := List.mem_map_of_mem he
    rw [heq, List.map_append] at hmem
    exact hn.1 hmem
  have hb : ∀ e ∈ before, e.1 ≠ h := fun e he => hne e (List.mem_append_left _ he)
  have hafter : ∀ e ∈ after, e.1 ≠ h := fun e he => hne e (List.mem_append_right _ he)
  refine ⟨before, after, hsplit, fun f => ?_, ?_⟩
  · simp only [modify, map, hsplit, List.map_append, List.map_cons, ite_true,
      map_untouched f hb, map_untouched f hafter]
  · simp only [erase, hsplit, List.filter_append, filter_untouched hb]
    rw [List.filter_cons_of_neg (by simp), filter_untouched hafter]

theorem split_insertEntry {l : List (SocketHandle × α)} (hne : ∀ e ∈ l, e.1 ≠ h) :
    ∃ before after, l = before ++ after ∧ insertEntry h a l = before ++ (h, a) :: after := by
  induction l with
  | nil => exact ⟨[], [], rfl, rfl⟩
  | cons e rest ih =>
      obtain ⟨before, after, hl, hi⟩ := ih fun e he => hne e (List.mem_cons_of_mem _ he)
      rw [insertEntry]
      split
      · exact ⟨[], e :: rest, rfl, rfl⟩
      · rw [if_neg (hne e List.mem_cons_self), hi, hl]
        exact ⟨e :: before, after, rfl, rfl⟩

/-- The entry of a new handle finds its place, and nothing else changes. -/
theorem split_insert (hn : m.get? h = none) (a : α) :
    ∃ before after, m.entries = before ++ after ∧
      (m.insert h a).entries = before ++ (h, a) :: after := by
  refine split_insertEntry fun e he heq => get?_eq_none.1 hn ?_
  rw [← heq]
  exact List.mem_map_of_mem he

theorem get?_insert (hn : m.get? h = none) :
    (m.insert h a).get? k = if k = h then some a else m.get? k := by
  obtain ⟨before, after, hm, hi⟩ := split_insert hn a
  have hmem : ∀ b, m.get? k = some b ↔ (k, b) ∈ before ++ after := fun b => by
    rw [← mem_entries, hm]
  ext b
  rw [← mem_entries, hi, List.mem_append, List.mem_cons]
  split
  · rename_i hk
    subst hk
    have hnot : (k, b) ∉ before ++ after := fun hb => by
      rw [← hmem, hn] at hb
      cases hb
    rw [List.mem_append, not_or] at hnot
    simp [hnot, eq_comm]
  · rename_i hk
    rw [hmem, List.mem_append]
    simp [hk]

@[simp] theorem modify_self (ha : m.get? h = some a) : (m.modify h fun _ => a) = m := by
  obtain ⟨before, after, hm, hf, -⟩ := split_entries ha
  have he : (m.modify h fun _ => a).entries = m.entries := (hf _).trans hm.symm
  cases m
  simpa [modify, map] using he

theorem modify_modify (f g : α → α) :
    (m.modify h f).modify h g = m.modify h fun a => g (f a) := by
  simp only [modify, map, List.map_map, mk.injEq]
  refine List.map_congr_left fun e _ => ?_
  dsimp only [Function.comp_apply]
  split <;> rfl

/-! ## Traversal -/

section Traversal

variable {σ : Type} {f : σ → α → β × σ} {s : σ}

/-- Each value is changed in some state of the traversal. -/
theorem of_get?_traverse {b : β} (hb : (m.traverse f s).1.get? h = some b) :
    ∃ a s', m.get? h = some a ∧ b = (f s' a).1 := by
  rw [← mem_entries] at hb
  simp only [traverse] at hb
  suffices hl : ∀ (l : List (SocketHandle × α)) (s : σ), (h, b) ∈ (traverseEntries f l s).1 →
      ∃ a s', (h, a) ∈ l ∧ b = (f s' a).1 by
    obtain ⟨a, s', ha, hb⟩ := hl _ _ hb
    exact ⟨a, s', mem_entries.1 ha, hb⟩
  intro l
  induction l with
  | nil => intro s hb; cases hb
  | cons e rest ih =>
      intro s hb
      rcases List.mem_cons.1 hb with heq | hb
      · obtain ⟨rfl, rfl⟩ := Prod.mk.inj heq
        exact ⟨e.2, s, List.mem_cons_self, rfl⟩
      · obtain ⟨a, s', ha, hb⟩ := ih _ hb
        exact ⟨a, s', List.mem_cons_of_mem _ ha, hb⟩

/-- What dealing with any of the values keeps, the traversal keeps. -/
theorem traverse_keeps_of_mem {I : σ → Prop} (hI : ∀ s, ∀ a ∈ m.values, I s → I (f s a).2)
    (hs : I s) : I (m.traverse f s).2 := by
  simp only [traverse]
  suffices hl : ∀ (l : List (SocketHandle × α)) (s : σ), (∀ e ∈ l, e ∈ m.entries) → I s →
      I (traverseEntries f l s).2 from hl m.entries s (fun _ he => he) hs
  intro l
  induction l with
  | nil => exact fun _ _ hs => hs
  | cons e rest ih =>
      intro s hsub hs
      have hmem : e.2 ∈ m.values := List.mem_map_of_mem (hsub e List.mem_cons_self)
      exact ih _ (fun e' he' => hsub e' (List.mem_cons_of_mem _ he')) (hI s e.2 hmem hs)

theorem traverse_keeps {I : σ → Prop} (hI : ∀ s a, I s → I (f s a).2) (hs : I s) :
    I (m.traverse f s).2 :=
  traverse_keeps_of_mem (fun s a _ => hI s a) hs

/-- What holds of each value and the state right after it, and is not broken later, holds of the
value and the state at the end. -/
theorem traverse_leaves {J : β → σ → Prop} (hJ : ∀ s a, J (f s a).1 (f s a).2)
    (hkeep : ∀ b s a, J b s → J b (f s a).2) {b : β} (hb : b ∈ (m.traverse f s).1.values) :
    J b (m.traverse f s).2 := by
  have hlater : ∀ (l : List (SocketHandle × α)) (s : σ), J b s → J b (traverseEntries f l s).2 := by
    intro l
    induction l with
    | nil => exact fun _ h => h
    | cons e rest ih => exact fun s h => ih _ (hkeep b s e.2 h)
  suffices hl : ∀ (l : List (SocketHandle × α)) (s : σ),
      b ∈ (traverseEntries f l s).1.map Prod.snd → J b (traverseEntries f l s).2 from
    hl m.entries s hb
  intro l
  induction l with
  | nil => intro s hb; cases hb
  | cons e rest ih =>
      intro s hb
      rcases List.mem_cons.1 hb with heq | hb
      · have hone := hJ s e.2
        rw [show (f s e.2).1 = b from heq.symm] at hone
        exact hlater rest _ hone
      · exact ih _ hb

end Traversal

/-! ## Counting -/

theorem count_keys_insert (hn : m.get? h = none) (a : α) (k : SocketHandle) :
    (m.insert h a).keys.count k = m.keys.count k + if h = k then 1 else 0 := by
  obtain ⟨before, after, hm, hi⟩ := split_insert hn a
  simp only [keys, hm, hi, List.map_append, List.map_cons, List.count_append, List.count_cons,
    beq_iff_eq]
  omega

theorem count_keys_erase (ha : m.get? h = some a) (k : SocketHandle) :
    (m.erase h).keys.count k + (if h = k then 1 else 0) = m.keys.count k := by
  obtain ⟨before, after, hm, -, he⟩ := split_entries ha
  simp only [keys, hm, he, List.map_append, List.map_cons, List.count_append, List.count_cons,
    beq_iff_eq]
  omega

theorem countP_insert (hn : m.get? h = none) (a : α) (p : α → Bool) :
    (m.insert h a).values.countP p = m.values.countP p + if p a then 1 else 0 := by
  obtain ⟨before, after, hm, hi⟩ := split_insert hn a
  simp only [values, hm, hi, List.map_append, List.map_cons, List.countP_append, List.countP_cons]
  omega

theorem countP_erase (ha : m.get? h = some a) (p : α → Bool) :
    (m.erase h).values.countP p + (if p a then 1 else 0) = m.values.countP p := by
  obtain ⟨before, after, hm, -, he⟩ := split_entries ha
  simp only [values, hm, he, List.map_append, List.map_cons, List.countP_append, List.countP_cons]
  omega

/-- A change that a condition does not notice leaves the number of values that satisfy it. -/
theorem countP_modify (f : α → α) {p : α → Bool} (hp : ∀ a, m.get? h = some a → p (f a) = p a) :
    (m.modify h f).values.countP p = m.values.countP p := by
  rcases ha : m.get? h with _ | a
  · have hsame : m.modify h f = m := by
      cases m with
      | mk entries sorted =>
          have hne : ∀ e ∈ entries, e.1 ≠ h := fun e he heq =>
            get?_eq_none.1 ha (heq ▸ List.mem_map_of_mem he)
          simp only [modify, map, map_untouched f hne]
    rw [hsame]
  · obtain ⟨before, after, hm, hf, -⟩ := split_entries ha
    simp only [values, hm, hf, List.map_append, List.map_cons, List.countP_append,
      List.countP_cons, hp a ha]

theorem countP_map (f : SocketHandle → α → β) {p : α → Bool} {q : β → Bool}
    (hq : ∀ h a, q (f h a) = p a) : (m.map f).values.countP q = m.values.countP p := by
  simp only [values, map, List.map_map, List.countP_map]
  refine congrArg (fun p => List.countP p m.entries) (funext fun e => ?_)
  exact hq e.1 e.2

/-- What a traversal takes from its state it gives to the values, and the other way round. -/
theorem countP_traverse {σ : Type} {f : σ → α → β × σ} {I : σ → Prop} {g : σ → Nat} {p : α → Bool}
    {q : β → Bool} (hI : ∀ s a, I s → I (f s a).2)
    (hg : ∀ s a, I s → g (f s a).2 + (if p a then 1 else 0) = g s + if q (f s a).1 then 1 else 0)
    {s : σ} (hs : I s) :
    g (m.traverse f s).2 + m.values.countP p = g s + (m.traverse f s).1.values.countP q := by
  have hentries : ∀ (l : List (SocketHandle × α)) (s : σ), I s →
      g (traverseEntries f l s).2 + (l.map Prod.snd).countP p =
        g s + ((traverseEntries f l s).1.map Prod.snd).countP q := by
    intro l
    induction l with
    | nil => exact fun _ _ => rfl
    | cons e rest ih =>
        intro s hs
        have hrest := ih _ (hI s e.2 hs)
        have hone := hg s e.2 hs
        simp only [traverseEntries, List.map_cons, List.countP_cons]
        omega
  exact hentries m.entries s hs

end Reactor.HandleMap
