import Mathlib.Logic.Relation
import Reactor.Step

/-! Reasoning about computations that may end early. What is said of their states holds however
they end; what is said of their values, only if they deliver one. -/

namespace Reactor.Step

variable {σ ε ε' α β : Type}

theorem bind_of_done {x : Step σ ε α} {f : α → Step σ ε β} {s t : σ} {a : α}
    (h : x s = (.done a, t)) : (x >>= f) s = f a t := by
  show Step.bind x f s = _
  simp only [Step.bind, h]

theorem bind_of_cut {x : Step σ ε α} {f : α → Step σ ε β} {s t : σ} {e : ε}
    (h : x s = (.cut e, t)) : (x >>= f) s = (.cut e, t) := by
  show Step.bind x f s = _
  simp only [Step.bind, h]

theorem bind_of_crashed {x : Step σ ε α} {f : α → Step σ ε β} {s t : σ}
    (h : x s = (.crashed, t)) : (x >>= f) s = (.crashed, t) := by
  show Step.bind x f s = _
  simp only [Step.bind, h]

theorem attempt_of_done {x : Step σ ε α} {s t : σ} {a : α} (h : x s = (.done a, t)) :
    (x.attempt : Step σ ε' (Except ε α)) s = (.done (.ok a), t) := by
  simp only [attempt, h]

theorem attempt_of_cut {x : Step σ ε α} {s t : σ} {e : ε} (h : x s = (.cut e, t)) :
    (x.attempt : Step σ ε' (Except ε α)) s = (.done (.error e), t) := by
  simp only [attempt, h]

theorem attempt_of_crashed {x : Step σ ε α} {s t : σ} (h : x s = (.crashed, t)) :
    (x.attempt : Step σ ε' (Except ε α)) s = (.crashed, t) := by
  simp only [attempt, h]

/-- In a sequence an early end of the first part is passed on. -/
theorem bind_eq_attempt (x : Step σ ε α) (f : α → Step σ ε β) :
    x >>= f = x.attempt >>= fun
      | .ok a => f a
      | .error e => Step.cut e := by
  refine funext fun s => ?_
  rcases h : x s with ⟨a | e | _, t⟩
  · rw [bind_of_done h, bind_of_done (attempt_of_done h)]
  · rw [bind_of_cut h, bind_of_done (attempt_of_cut h)]
    rfl
  · rw [bind_of_crashed h, bind_of_crashed (attempt_of_crashed h)]

theorem mapCut_eq_attempt (x : Step σ ε α) (f : ε → ε') :
    x.mapCut f = x.attempt >>= fun
      | .ok a => pure a
      | .error e => Step.cut (f e) := by
  refine funext fun s => ?_
  unfold Step.mapCut
  rcases h : x s with ⟨a | e | _, t⟩
  · rw [bind_of_done (attempt_of_done h)]
    rfl
  · rw [bind_of_done (attempt_of_cut h)]
    rfl
  · rw [bind_of_crashed (attempt_of_crashed h)]
    rfl

/-- A sequence delivers a value only if both parts do. -/
theorem done_of_bind {x : Step σ ε α} {f : α → Step σ ε β} {s t : σ} {b : β}
    (h : (x >>= f) s = (.done b, t)) : ∃ a m, x s = (.done a, m) ∧ f a m = (.done b, t) := by
  rcases hx : x s with ⟨a | e | _, m⟩
  · rw [bind_of_done hx] at h
    exact ⟨a, m, rfl, h⟩
  · rw [bind_of_cut hx] at h
    cases h
  · rw [bind_of_crashed hx] at h
    cases h

theorem done_of_attempt {x : Step σ ε α} {s t : σ} {r : Except ε α}
    (h : (x.attempt : Step σ ε' (Except ε α)) s = (.done r, t)) :
    (∃ a, r = .ok a ∧ x s = (.done a, t)) ∨ ∃ e, r = .error e ∧ x s = (.cut e, t) := by
  rcases hx : x s with ⟨a | e | _, m⟩
  · rw [attempt_of_done hx] at h
    cases h
    exact .inl ⟨a, rfl, rfl⟩
  · rw [attempt_of_cut hx] at h
    cases h
    exact .inr ⟨e, rfl, rfl⟩
  · rw [attempt_of_crashed hx] at h
    cases h

theorem done_of_mapCut {x : Step σ ε α} {f : ε → ε'} {s t : σ} {a : α}
    (h : x.mapCut f s = (.done a, t)) : x s = (.done a, t) := by
  unfold mapCut at h
  rcases hx : x s with ⟨a | e | _, m⟩
  all_goals
    rw [hx] at h
    cases h
  rfl

theorem get_bind (f : σ → Step σ ε β) (s : σ) : (Step.get >>= f) s = f s s := rfl

theorem modify_bind (g : σ → σ) (f : Unit → Step σ ε β) (s : σ) :
    (Step.modify g >>= f) s = f () (g s) := rfl

/-- The computation moves through the state by `M` alone, but that a crash may leave the state by
`C` in the end. A value that it delivers satisfies `Q` together with the state at that moment. -/
def Follows (M C : σ → σ → Prop) (P : σ → Prop) (x : Step σ ε α) (Q : α → σ → Prop) : Prop :=
  ∀ s, P s →
    (∃ t, Relation.ReflTransGen M s t ∧ (t = (x s).2 ∨ (x s).1 = .crashed ∧ C t (x s).2)) ∧
      ∀ a, (x s).1 = .done a → Q a (x s).2

variable {M C : σ → σ → Prop} {P P' : σ → Prop} {Q Q' : α → σ → Prop}

theorem Follows.moves {x : Step σ ε α} (h : Follows M C P x Q) {s : σ} (hs : P s)
    (hx : (x s).1 ≠ .crashed) : Relation.ReflTransGen M s (x s).2 := by
  obtain ⟨⟨t, hm, rfl | ⟨hc, -⟩⟩, -⟩ := h s hs
  · exact hm
  · exact absurd hc hx

theorem Follows.delivers {x : Step σ ε α} (h : Follows M C P x Q) {s : σ} (hs : P s) {a : α}
    (ha : (x s).1 = .done a) : Q a (x s).2 := (h s hs).2 a ha

theorem Follows.moves_to {x : Step σ ε α} (h : Follows M C P x Q) {s t : σ} {ending : Ending ε α}
    (hs : P s) (hx : x s = (ending, t)) (hne : ending ≠ .crashed) :
    Relation.ReflTransGen M s t := by
  have hm := h.moves hs
  rw [hx] at hm
  exact hm hne

theorem Follows.delivers_to {x : Step σ ε α} (h : Follows M C P x Q) {s t : σ} {a : α}
    (hs : P s) (hx : x s = (.done a, t)) : Q a t := by
  have hq := h.delivers hs (a := a)
  rw [hx] at hq
  exact hq rfl

theorem Follows.weaken {x : Step σ ε α} (h : Follows M C P x Q) (hP : ∀ s, P' s → P s)
    (hQ : ∀ a s, Q a s → Q' a s) : Follows M C P' x Q' := by
  intro s hs
  obtain ⟨hm, hq⟩ := h s (hP s hs)
  exact ⟨hm, fun a ha => hQ a _ (hq a ha)⟩

/-- A coarser description of the moves. -/
theorem Follows.mono {M' : σ → σ → Prop} {x : Step σ ε α} (h : Follows M C P x Q)
    (hM : ∀ s t, M s t → M' s t) : Follows M' C P x Q := by
  intro s hs
  obtain ⟨⟨t, hm, ht⟩, hq⟩ := h s hs
  exact ⟨⟨t, Relation.ReflTransGen.mono hM s t hm, ht⟩, hq⟩

theorem Follows.pure {a : α} (h : ∀ s, P s → Q a s) :
    Follows M C P (pure a : Step σ ε α) Q := by
  intro s hs
  refine ⟨⟨s, .refl, .inl rfl⟩, ?_⟩
  rintro b ⟨⟩
  exact h s hs

theorem Follows.cut {e : ε} : Follows M C P (Step.cut e : Step σ ε α) Q := by
  intro s _
  exact ⟨⟨s, .refl, .inl rfl⟩, fun a ha => by cases ha⟩

theorem Follows.bind {x : Step σ ε α} {f : α → Step σ ε β} {Q' : β → σ → Prop}
    (hx : Follows M C P x Q) (hf : ∀ a, Follows M C (Q a) (f a) Q') :
    Follows M C P (x >>= f) Q' := by
  intro s hs
  obtain ⟨⟨m, hm, hend⟩, hq⟩ := hx s hs
  rcases h : x s with ⟨a | e | _, t⟩
  all_goals rw [h] at hend hq
  · rw [bind_of_done h]
    obtain ⟨⟨m', hm', hend'⟩, hq'⟩ := hf a t (hq a rfl)
    have hmt : m = t := by simpa using hend
    exact ⟨⟨m', (hmt ▸ hm).trans hm', hend'⟩, hq'⟩
  · rw [bind_of_cut h]
    have hmt : m = t := by simpa using hend
    exact ⟨⟨m, hm, .inl hmt⟩, fun b hb => by cases hb⟩
  · rw [bind_of_crashed h]
    exact ⟨⟨m, hm, hend.imp id fun hc => ⟨rfl, hc.2⟩⟩, fun b hb => by cases hb⟩

/-- A sequence of which the second part needs nothing from the first. -/
theorem Follows.seq {x : Step σ ε α} {f : α → Step σ ε β} {Q' : β → σ → Prop}
    (hx : Follows M C P x Q) (hf : ∀ a, Follows M C (fun _ => True) (f a) Q') :
    Follows M C P (x >>= f) Q' :=
  hx.bind fun a => (hf a).weaken (fun _ _ => trivial) fun _ _ h => h

theorem Follows.get : Follows M C P (Step.get : Step σ ε σ) fun a s => a = s ∧ P s := by
  intro s hs
  refine ⟨⟨s, .refl, .inl rfl⟩, ?_⟩
  rintro a ⟨⟩
  exact ⟨rfl, hs⟩

theorem Follows.modify {f : σ → σ} {Q : Unit → σ → Prop} (hf : ∀ s, P s → M s (f s))
    (hq : ∀ s, P s → Q () (f s)) : Follows M C P (Step.modify f : Step σ ε Unit) Q := by
  intro s hs
  exact ⟨⟨f s, .single (hf s hs), .inl rfl⟩, fun _ _ => hq s hs⟩

theorem Follows.attempt {x : Step σ ε α} (h : Follows M C P x Q) :
    Follows M C P (x.attempt : Step σ ε' (Except ε α)) fun r s => ∀ a, r = .ok a → Q a s := by
  intro s hs
  obtain ⟨⟨m, hm, hend⟩, hq⟩ := h s hs
  unfold Step.attempt
  rcases hx : x s with ⟨a | e | _, t⟩
  all_goals rw [hx] at hend hq
  · refine ⟨⟨m, hm, .inl (by simpa using hend)⟩, ?_⟩
    rintro r ⟨⟩ b ⟨⟩
    exact hq a rfl
  · refine ⟨⟨m, hm, .inl (by simpa using hend)⟩, ?_⟩
    rintro r ⟨⟩ b ⟨⟩
  · exact ⟨⟨m, hm, hend.imp id fun hc => ⟨rfl, hc.2⟩⟩, fun r hr => by cases hr⟩

/-- A condition that holds however the work ends, unless by a crash, holds after an attempt. -/
theorem Follows.attempt_of_kept {I : σ → Prop} {x : Step σ ε α} (h : Follows M C P x Q)
    (hk : ∀ s, P s → (x s).1 ≠ .crashed → I (x s).2) :
    Follows M C P (x.attempt : Step σ ε' (Except ε α)) fun r s =>
      I s ∧ ∀ a, r = .ok a → Q a s := by
  intro s hs
  have hx : Follows M C P (x.attempt : Step σ ε' (Except ε α)) _ := h.attempt
  obtain ⟨hm, hq⟩ := hx s hs
  refine ⟨hm, fun r hr => ⟨?_, hq r hr⟩⟩
  have hi := hk s hs
  revert hr hi
  unfold Step.attempt
  rcases x s with ⟨a | e | _, t⟩
  · exact fun _ hi => hi (by simp)
  · exact fun _ hi => hi (by simp)
  · intro hr
    cases hr

theorem kept_of_moves {I : σ → Prop} (hI : ∀ s t, I s → M s t → I t) {s t : σ} (hs : I s)
    (h : Relation.ReflTransGen M s t) : I t := by
  induction h with
  | refl => exact hs
  | tail _ hstep ih => exact hI _ _ ih hstep

/-- An invariant of the moves holds after an attempt, whatever has come of it. -/
theorem Follows.attempt_keeping {I : σ → Prop} {x : Step σ ε α} (h : Follows M C P x Q)
    (hI : ∀ s t, I s → M s t → I t) (hP : ∀ s, P s → I s) :
    Follows M C P (x.attempt : Step σ ε' (Except ε α)) fun r s =>
      I s ∧ ∀ a, r = .ok a → Q a s :=
  h.attempt_of_kept fun s hs hc => kept_of_moves hI (hP s hs) (h.moves hs hc)

/-- An invariant of the moves holds at the end. -/
theorem Follows.keeping {I : σ → Prop} {x : Step σ ε α} (h : Follows M C P x Q)
    (hI : ∀ s t, I s → M s t → I t) :
    Follows M C (fun s => I s ∧ P s) x fun a s => I s ∧ Q a s := by
  rintro s ⟨hi, hs⟩
  obtain ⟨hm, hq⟩ := h s hs
  exact ⟨hm, fun a ha => ⟨kept_of_moves hI hi (h.moves hs (by simp [ha])), hq a ha⟩⟩

theorem Follows.mapCut {f : ε → ε'} {x : Step σ ε α} (h : Follows M C P x Q) :
    Follows M C P (x.mapCut f) Q := by
  intro s hs
  obtain ⟨⟨m, hm, hend⟩, hq⟩ := h s hs
  unfold Step.mapCut
  rcases hx : x s with ⟨a | e | _, t⟩
  all_goals rw [hx] at hend hq
  · refine ⟨⟨m, hm, .inl (by simpa using hend)⟩, ?_⟩
    rintro b ⟨⟩
    exact hq a rfl
  · exact ⟨⟨m, hm, .inl (by simpa using hend)⟩, fun b hb => by cases hb⟩
  · exact ⟨⟨m, hm, hend.imp id fun hc => ⟨rfl, hc.2⟩⟩, fun b hb => by cases hb⟩

/-- Work that makes one move, whatever comes of it. -/
theorem Follows.single {x : Step σ ε α} (h : ∀ s, P s → M s (x s).2)
    (hq : ∀ s a, P s → (x s).1 = .done a → Q a (x s).2) : Follows M C P x Q := by
  intro s hs
  exact ⟨⟨(x s).2, .single (h s hs), .inl rfl⟩, fun a ha => hq s a hs ha⟩

end Reactor.Step
