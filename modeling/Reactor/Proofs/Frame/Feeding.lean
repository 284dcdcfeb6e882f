import Reactor.Proofs.Frame.ByteOrder

/-! What a call of an assembler gives to its picker: the bytes that are left over, and then every
byte that the call pulls. The picker is watched, which changes nothing of the call. -/

namespace Reactor

/-- A picker, with the bytes that it has been given and those that it has consumed. -/
structure Watched (π : Type) where
  picker : π
  given : Bytes
  consumed : Bytes

namespace Watched

variable {π : Type} [FramePicker π]

def start (p : π) : Watched π := ⟨p, [], []⟩

instance : FramePicker (Watched π) where
  append w bytes address :=
    let fed := FramePicker.append w.picker bytes address
    ⟨⟨fed.picker, w.given ++ bytes, w.consumed ++ fed.taken bytes⟩, fed.rest, fed.finished⟩
  isFinished w := FramePicker.isFinished w.picker
  buildFrame w :=
    let (frame, p) := FramePicker.buildFrame w.picker
    (frame, { w with picker := p })
  partialFrame w := FramePicker.partialFrame w.picker
  reset w := start (FramePicker.reset w.picker)

/-- The watched picker once it has been given bytes. -/
def fed (w : Watched π) (bytes : Bytes) (address : String) : Watched π :=
  ⟨(FramePicker.append w.picker bytes address).picker, w.given ++ bytes,
    w.consumed ++ (FramePicker.append w.picker bytes address).taken bytes⟩

theorem append_eq (w : Watched π) (bytes : Bytes) (address : String) :
    FramePicker.append w bytes address =
      ⟨w.fed bytes address, (FramePicker.append w.picker bytes address).rest,
        (FramePicker.append w.picker bytes address).finished⟩ := rfl

end Watched

def Assembled.unwatched {π σ : Type} (x : Assembled (Watched π) σ) : Assembled π σ :=
  ⟨x.ending, x.assembler, x.picker.picker, x.source⟩

namespace FrameAssembler

variable {π σ : Type} [FramePicker π] [ChunkSource σ]

theorem pullAll_unwatched (a : FrameAssembler) (w : Watched π) (s : σ) :
    (a.pullAll w s).unwatched = a.pullAll w.picker s := by
  induction s using ChunkSource.pulls_induction generalizing a w with
  | none s h =>
      rw [pullAll_of_none h, pullAll_of_none h]
      rfl
  | some s bytes address h hb ih =>
      rw [pullAll_of_bytes h hb, pullAll_of_bytes h hb, Watched.append_eq]
      by_cases hf : (FramePicker.append w.picker bytes address).finished = true
      · rw [if_pos hf, if_pos hf]
        rfl
      · rw [if_neg hf, if_neg hf]
        exact ih _ _

/-- Every byte that is pulled is given to the picker; with one that keeps its promises it is
consumed then, or it is left over. -/
structure Gives (w : Watched π) (a : FrameAssembler) (news : Bytes) (x : Assembled (Watched π) σ) :
    Prop where
  given : x.picker.given = w.given ++ news
  consumed [LawfulFramePicker π] : (x.picker.consumed ++ x.assembler.unhandled).Perm
    (w.consumed ++ a.unhandled ++ news)

/-- Bytes that a picker is given are consumed, or they are left over. -/
theorem consumed_fed [LawfulFramePicker π] (a : FrameAssembler) (w : Watched π) (bytes : Bytes)
    (address : String) :
    ((w.fed bytes address).consumed ++
      (a.stash (FramePicker.append w.picker bytes address).rest address).unhandled).Perm
        (w.consumed ++ a.unhandled ++ bytes) := by
  have hall := LawfulFramePicker.taken_append_rest w.picker bytes address
  rw [unhandled_stash, Watched.fed]
  generalize FramePicker.append w.picker bytes address = fed at hall ⊢
  have hswap : (fed.taken bytes ++ (a.unhandled ++ fed.rest)).Perm
      (a.unhandled ++ (fed.taken bytes ++ fed.rest)) := by
    rw [← List.append_assoc, ← List.append_assoc]
    exact List.perm_append_comm.append_right fed.rest
  rw [hall] at hswap
  simpa only [List.append_assoc] using hswap.append_left w.consumed

theorem pullAll_gives (a : FrameAssembler) (w : Watched π) (s : Recorded σ) :
    ∃ news, (a.pullAll w s).source.received = s.received ++ news ∧
      Gives w a news (a.pullAll w s) := by
  induction s using ChunkSource.pulls_induction generalizing a w with
  | none s h =>
      rw [pullAll_of_none h]
      have hpulled : (ChunkSource.pull s).2.received =
          s.received ++ Chunk.bytes (ChunkSource.pull s).1 := rfl
      rw [h] at hpulled
      exact ⟨[], hpulled, by simp, by simp⟩
  | some s bytes address h hb ih =>
      have hpulled : (ChunkSource.pull s).2.received =
          s.received ++ Chunk.bytes (ChunkSource.pull s).1 := rfl
      rw [h] at hpulled
      rw [pullAll_of_bytes h hb, Watched.append_eq]
      by_cases hf : (FramePicker.append w.picker bytes address).finished = true
      · rw [if_pos hf]
        exact ⟨bytes, hpulled, rfl, consumed_fed a w bytes address⟩
      · rw [if_neg hf]
        obtain ⟨news, hnews, hgiven, hconsumed⟩ := ih
          (a.stash (FramePicker.append w.picker bytes address).rest address) (w.fed bytes address)
        refine ⟨bytes ++ news, ?_, ?_, ?_⟩
        · rw [hnews, hpulled]
          simp [Chunk.bytes]
        · rw [hgiven]
          simp [Watched.fed]
        · intro _
          refine hconsumed.trans ?_
          rw [← List.append_assoc]
          exact (consumed_fed a w bytes address).append_right news

/-- Before it pulls, a call gives its picker the bytes that are left over, unless it is finished. -/
theorem resume_watched (a : FrameAssembler) (w : Watched π) :
    ∃ w', a.resume w = ⟨(a.resume w.picker).assembler, w', (a.resume w.picker).finished⟩ ∧
      w'.picker = (a.resume w.picker).picker ∧
      (FramePicker.isFinished w.picker = false → w'.given = w.given ++ a.unhandled) ∧
      (LawfulFramePicker π → (w'.consumed ++ (a.resume w.picker).assembler.unhandled).Perm
        (w.consumed ++ a.unhandled)) := by
  have hsame : FramePicker.isFinished w = FramePicker.isFinished w.picker := rfl
  unfold resume
  rw [hsame]
  by_cases hf : FramePicker.isFinished w.picker = true
  · rw [if_pos hf, if_pos hf]
    exact ⟨w, rfl, rfl, by simp [hf], fun _ => .refl _⟩
  · rw [if_neg hf, if_neg hf]
    by_cases hu : a.hasUnhandled = true
    · rw [if_pos hu, if_pos hu]
      refine ⟨w.fed a.unhandled a.address, rfl, rfl, fun _ => rfl, fun _ => ?_⟩
      simpa [empty] using consumed_fed empty w a.unhandled a.address
    · rw [if_neg hu, if_neg hu]
      have hnone : a.unhandled = [] := by simpa [hasUnhandled] using hu
      exact ⟨w, rfl, rfl, by simp [hnone], fun _ => .refl _⟩

/-- To watch the picker changes nothing else. -/
theorem assemble_unwatched (a : FrameAssembler) (w : Watched π) (s : σ) :
    (a.assemble w s).unwatched = a.assemble w.picker s := by
  obtain ⟨w', hresume, hw', -⟩ := a.resume_watched w
  rw [assemble_eq_resume, assemble_eq_resume, hresume, ← hw']
  by_cases hf : (a.resume w.picker).finished = true
  · rw [if_pos hf, if_pos hf]
    rfl
  · rw [if_neg hf, if_neg hf]
    exact pullAll_unwatched _ w' s

theorem assemble_recorded_gives (a : FrameAssembler) (p : π) (s : Recorded σ) :
    ∃ news, (a.assemble (Watched.start p) s).source.received = s.received ++ news ∧
      (FramePicker.isFinished p = false →
        (a.assemble (Watched.start p) s).picker.given = a.unhandled ++ news) ∧
      (LawfulFramePicker π →
        ((a.assemble (Watched.start p) s).picker.consumed ++
          (a.assemble (Watched.start p) s).assembler.unhandled).Perm (a.unhandled ++ news)) := by
  obtain ⟨w, hresume, -, hgiven, hconsumed⟩ := a.resume_watched (Watched.start p)
  rw [assemble_eq_resume, hresume]
  dsimp only
  split
  · refine ⟨[], (List.append_nil _).symm, fun hp => ?_, fun hlaw => ?_⟩
    · rw [List.append_nil]
      exact hgiven hp
    · rw [List.append_nil]
      exact hconsumed hlaw
  · obtain ⟨news, hnews, hgives⟩ := pullAll_gives (a.resume p).assembler w s
    refine ⟨news, hnews, fun hp => ?_, fun hlaw => ?_⟩
    · exact hgives.given.trans (congrArg (· ++ news) (hgiven hp))
    · exact hgives.consumed.trans ((hconsumed hlaw).append_right news)

/-- A call with a picker that is not finished gives it all that was left over and all that it pulls.
With a picker that keeps its promises nothing of this is lost: it is consumed, or it is left over
again. -/
theorem assemble_gives (a : FrameAssembler) (p : π) (s : σ) :
    (FramePicker.isFinished p = false →
      (a.assemble (Watched.start p) s).picker.given = a.unhandled ++ a.received p s) ∧
    (LawfulFramePicker π →
      ((a.assemble (Watched.start p) s).picker.consumed ++
        (a.assemble (Watched.start p) s).assembler.unhandled).Perm
          (a.unhandled ++ a.received p s)) := by
  -- what was pulled is known of a recorded source, and recording changes nothing
  have hrecorded := a.assemble_unrecorded (Watched.start p) (Recorded.mk s [])
  have hunwatched := a.assemble_unwatched (Watched.start p) (Recorded.mk s [])
  obtain ⟨news, hnews, hgives⟩ := a.assemble_recorded_gives p (Recorded.mk s [])
  have hreceived : a.received p s = news :=
    (congrArg (fun x => x.source.received) hunwatched).symm.trans hnews
  rw [hreceived, ← hrecorded]
  exact hgives

/-- What ends a call early comes from its last pull. -/
theorem pullAll_unreached {E I : σ → Prop} (hI : ∀ s, I s → I (ChunkSource.pull s).2)
    (hE : ∀ s snapshot, I s →
      Chunk.conclusion snapshot (ChunkSource.pull s).1 = .cut .unreachedFrame →
        E (ChunkSource.pull s).2)
    (a : FrameAssembler) (p : π) {s : σ} (hs : I s)
    (h : (a.pullAll p s).ending = .cut .unreachedFrame) : E (a.pullAll p s).source := by
  induction s using ChunkSource.pulls_induction generalizing a p with
  | none s hnone =>
      rw [pullAll_of_none hnone] at h ⊢
      exact hE s _ hs h
  | some s bytes address hsome hb ih =>
      rw [pullAll_of_bytes hsome hb] at h ⊢
      by_cases hf : (FramePicker.append p bytes address).finished = true
      · rw [if_pos hf] at h
        contradiction
      · rw [if_neg hf] at h ⊢
        exact ih _ _ (hI s hs) h

/-- A call misses the end of a message only if its last pull does, with a picker that was not
finished when it began. -/
theorem assemble_unreached {E I : σ → Prop} (hI : ∀ s, I s → I (ChunkSource.pull s).2)
    (hE : ∀ s snapshot, I s →
      Chunk.conclusion snapshot (ChunkSource.pull s).1 = .cut .unreachedFrame →
        E (ChunkSource.pull s).2)
    (a : FrameAssembler) (p : π) {s : σ} (hs : I s)
    (h : (a.assemble p s).ending = .cut .unreachedFrame) :
    FramePicker.isFinished p = false ∧ E (a.assemble p s).source := by
  have hp : FramePicker.isFinished p = false := by
    cases hf : FramePicker.isFinished p with
    | false => rfl
    | true =>
        rw [assemble, if_pos hf] at h
        contradiction
  refine ⟨hp, ?_⟩
  rw [assemble_eq_resume] at h ⊢
  by_cases hf : (a.resume p).finished = true
  · rw [if_pos hf] at h
    contradiction
  · rw [if_neg hf] at h ⊢
    exact pullAll_unreached hI hE _ _ hs h

end FrameAssembler

end Reactor
