import Mathlib.Data.List.Perm.Subperm
import Reactor.Proofs.Frame.Feeding
import Reactor.Proofs.Frame.Pieces

/-! Where the bytes of a message come from, whatever the state of its picker. What a picker has
collected after a chunk it had collected before, or it has consumed it of the chunk. So a call of an
assembler takes the bytes of a message from those that the picker had collected, those that were
left over and those that the call pulls. No byte is in the message and left over as well. -/

namespace Reactor

/-! ## What a picker collects -/

/-- What is handed back determines what was consumed. -/
theorem Appended.taken_of_rest {π : Type} {fed : Appended π} {front chunk : Bytes}
    (h : front ++ fed.rest = chunk) : fed.taken chunk = front := by
  rw [taken, ← h, List.length_append, Nat.add_sub_cancel, List.take_left]

/-- The front of a suffix lies before the end of the list, if enough of the suffix follows it. -/
theorem Bytes.take_sublist_of_suffix {data front rest : Bytes} {n : Nat}
    (hd : data <:+ front ++ rest) (hn : rest.length ≤ data.length - n) :
    (data.take n).Sublist front := by
  obtain ⟨before, hbefore⟩ := hd
  have hlength := congrArg List.length hbefore
  have hprefix : before ++ data.take n <+: front ++ rest := by
    rw [← hbefore, List.prefix_append_right_inj]
    exact List.take_prefix n data
  have hfront : before ++ data.take n <+: front := by
    refine List.prefix_of_prefix_length_le hprefix (List.prefix_append front rest) ?_
    simp only [List.length_append, List.length_take] at hlength ⊢
    omega
  exact (List.sublist_append_right before _).trans hfront.sublist

namespace RawFramePicker

variable {p : RawFramePicker} {chunk : Bytes} {address : String}

theorem data_append_sublist (hf : p.buffer.finished = false) :
    (p.append chunk address).picker.buffer.data.Sublist
      (p.buffer.data ++ (p.append chunk address).taken chunk) := by
  have happend : p.append chunk address = ⟨⟨⟨p.buffer.data ++ chunk, address, true⟩⟩, [], true⟩ :=
    if_neg (by simp [hf])
  rw [happend, Appended.taken_of_rest (List.append_nil chunk)]

end RawFramePicker

namespace FixedLengthFramePicker

variable {p : FixedLengthFramePicker} {chunk : Bytes} {address : String}

theorem data_append_sublist (hf : p.buffer.finished = false) :
    (p.append chunk address).picker.buffer.data.Sublist
      (p.buffer.data ++ (p.append chunk address).taken chunk) := by
  rw [append, if_neg (by simp [hf])]
  dsimp only
  rw [Appended.taken_of_rest (List.take_append_drop (p.length - p.buffer.data.length) chunk)]

end FixedLengthFramePicker

namespace CountingFramePicker

variable {p : CountingFramePicker} {chunk : Bytes} {address : String}

theorem data_append_sublist (hf : p.isFinished = false) :
    (p.append chunk address).picker.data.Sublist
      (p.data ++ (p.append chunk address).taken chunk) := by
  rw [append, if_neg (by simp [hf])]
  dsimp only
  rw [Appended.taken_of_rest (List.take_append_drop p.take chunk)]

end CountingFramePicker

namespace MarkerFramePicker

variable {p : MarkerFramePicker} {chunk : Bytes} {address : String}

theorem data_seekStart_suffix (p : MarkerFramePicker) :
    p.seekStart.buffer.data <:+ p.buffer.data := by
  unfold seekStart
  split
  · exact List.suffix_refl _
  · dsimp only
    split <;> exact List.drop_suffix _ _

theorem data_absorb_suffix (p : MarkerFramePicker) (chunk : Bytes) (address : String) :
    (p.absorb chunk address).buffer.data <:+ p.buffer.data ++ chunk := by
  unfold absorb
  dsimp only
  split
  · exact List.suffix_refl _
  · exact data_seekStart_suffix _

/-- What the end of the message is looked for in reaches as far as the chunk, and what follows the
message in it is handed back. -/
theorem data_cutFrame_sublist {kept consumed : Bytes} (hd : p.buffer.data <:+ kept ++ chunk)
    (hall : consumed ++ (p.cutFrame chunk).rest = chunk) :
    (p.cutFrame chunk).picker.buffer.data.Sublist (kept ++ consumed) := by
  have hsplit : p.buffer.data <:+ kept ++ consumed ++ (p.cutFrame chunk).rest := by
    rwa [List.append_assoc, hall]
  revert hsplit
  unfold cutFrame
  split
  · intro hsplit
    -- what is handed back is what follows the message, or the whole chunk if that is shorter
    refine Bytes.take_sublist_of_suffix hsplit ?_
    rw [List.length_drop]
    omega
  · intro hsplit
    rw [List.append_nil] at hsplit
    exact hsplit.sublist

theorem data_append_sublist (hf : p.buffer.finished = false) :
    (p.append chunk address).picker.buffer.data.Sublist
      (p.buffer.data ++ (p.append chunk address).taken chunk) := by
  have hall := LawfulFramePicker.taken_append_rest p chunk address
  have habsorbed := p.data_absorb_suffix chunk address
  change (p.append chunk address).taken chunk ++ (p.append chunk address).rest = chunk at hall
  by_cases hs : (p.absorb chunk address).started = true
  · have happend : p.append chunk address = (p.absorb chunk address).cutFrame chunk := by
      rw [append, if_neg (by simp [hf])]
      exact if_pos hs
    rw [happend] at hall ⊢
    exact data_cutFrame_sublist habsorbed hall
  · have happend : p.append chunk address = ⟨p.absorb chunk address, [], false⟩ := by
      rw [append, if_neg (by simp [hf])]
      exact if_neg hs
    rw [happend, List.append_nil] at hall
    rw [happend, hall]
    exact habsorbed.sublist

end MarkerFramePicker

namespace Picker

variable {p : Picker}

def collected (p : Picker) : Bytes := (FramePicker.buildFrame p).1.data

theorem Unused.collected_eq_nil (h : p.Unused) : p.collected = [] := by
  cases h <;> rfl

theorem collected_buildFrame (p : Picker) : (FramePicker.buildFrame p).2.collected = [] := by
  cases p <;> rfl

/-- What a picker has collected after a chunk it had collected before, or it has consumed it. -/
theorem collected_append_sublist (p : Picker) (chunk : Bytes) (address : String) :
    (FramePicker.append p chunk address).picker.collected.Sublist
      (p.collected ++ (FramePicker.append p chunk address).taken chunk) := by
  by_cases hf : FramePicker.isFinished p = true
  · rw [LawfulFramePicker.append_of_isFinished p chunk address hf]
    exact List.sublist_append_left _ _
  rw [Bool.not_eq_true] at hf
  cases p with
  | raw p => exact RawFramePicker.data_append_sublist hf
  | fixedLength p => exact FixedLengthFramePicker.data_append_sublist hf
  | marker p => exact MarkerFramePicker.data_append_sublist hf
  | counting p => exact CountingFramePicker.data_append_sublist hf

end Picker

/-! ## What a call keeps of its picker -/

section Keeps

variable {π σ : Type} [FramePicker π]

/-- The picker at the end of a call has a property: the one that is left, or the one that the
message was taken out of. -/
inductive Assembled.Keeps (I : π → Prop) (x : Assembled π σ) : Prop where
  | frame (q : π) (hq : I q) (he : x.ending = .done (.frame (FramePicker.buildFrame q).1))
      (hp : x.picker = (FramePicker.buildFrame q).2)
  | unframed (he : ∀ frame, x.ending ≠ .done (.frame frame)) (hp : I x.picker)

namespace FrameAssembler

variable [ChunkSource σ] {I : π → Prop} {p : π}

theorem pullAll_keeps_picker
    (hI : ∀ q bytes address, I q → I (FramePicker.append q bytes address).picker)
    (a : FrameAssembler) (hp : I p) (s : σ) : (a.pullAll p s).Keeps I := by
  induction s using ChunkSource.pulls_induction generalizing a p with
  | none s h =>
      rw [pullAll_of_none h]
      exact .unframed (Chunk.conclusion_ne_frame _ _) hp
  | some s bytes address h hb ih =>
      rw [pullAll_of_bytes h hb]
      have hfed := hI p bytes address hp
      split
      · exact .frame _ hfed rfl rfl
      · exact ih _ hfed

/-- What every chunk keeps of the picker, a call of the assembler keeps. -/
theorem assemble_keeps_picker
    (hI : ∀ q bytes address, I q → I (FramePicker.append q bytes address).picker)
    (a : FrameAssembler) (hp : I p) (s : σ) : (a.assemble p s).Keeps I := by
  have hresumed : I (a.resume p).picker := by
    unfold resume
    split
    · exact hp
    split
    · exact hI p a.unhandled a.address hp
    · exact hp
  rw [assemble_eq_resume]
  split
  · exact .frame _ hresumed rfl rfl
  · exact pullAll_keeps_picker hI _ hresumed s

end FrameAssembler

end Keeps

/-! ## What a call draws from -/

/-- What the picker has collected it had collected before, or it has consumed it since it is
watched. -/
def Watched.CollectsFrom (before : Bytes) (w : Watched Picker) : Prop :=
  w.picker.collected.Sublist (before ++ w.consumed)

theorem Watched.CollectsFrom.append {before : Bytes} {w : Watched Picker}
    (h : w.CollectsFrom before) (bytes : Bytes) (address : String) :
    (FramePicker.append w bytes address).picker.CollectsFrom before := by
  have hfed := w.picker.collected_append_sublist bytes address
  refine hfed.trans ?_
  show (w.picker.collected ++ _).Sublist (before ++ (w.consumed ++ _))
  rw [← List.append_assoc]
  exact List.Sublist.append_right h _

variable {σ : Type}

/-- A call has taken its message, or what its picker has collected, from these bytes: those that the
picker had collected before, those that were left over, and those that came in. What is left over
now is taken from the others of them. -/
structure Assembled.Draws (x : Assembled Picker σ) (collected unhandled news : Bytes) : Prop where
  message : ∀ frame, x.ending = .done (.frame frame) →
    (frame.data ++ x.assembler.unhandled).Subperm (collected ++ (unhandled ++ news))
  picker : (x.picker.collected ++ x.assembler.unhandled).Subperm (collected ++ (unhandled ++ news))
  unhandled : x.assembler.unhandled.Subperm (unhandled ++ news)

theorem Assembled.Draws.along {τ : Type} {x : Assembled Picker σ} {collected unhandled news : Bytes}
    (h : x.Draws collected unhandled news) (f : σ → τ) :
    (x.along f).Draws collected unhandled news :=
  ⟨h.message, h.picker, h.unhandled⟩

theorem FrameAssembler.assemble_draws [ChunkSource σ] (a : FrameAssembler) (p : Picker) (s : σ) :
    (a.assemble p s).Draws p.collected a.unhandled (a.received p s) := by
  have hperm := (a.assemble_gives p s).2 inferInstance
  have happend : ∀ (w : Watched Picker) (bytes : Bytes) (address : String),
      w.CollectsFrom p.collected →
        (FramePicker.append w bytes address).picker.CollectsFrom p.collected :=
    fun w bytes address hw => Watched.CollectsFrom.append hw bytes address
  have hstart : (Watched.start p).CollectsFrom p.collected := List.sublist_append_left _ _
  have hkeeps := assemble_keeps_picker happend a hstart s
  -- the picker is watched, so it is known what it has consumed
  have hsame := a.assemble_unwatched (Watched.start p) s
  change _ = a.assemble p s at hsame
  rw [← hsame]
  generalize a.assemble (Watched.start p) s = x at hperm hkeeps
  have hdraws : ∀ data : Bytes, data.Sublist (p.collected ++ x.picker.consumed) →
      (data ++ x.assembler.unhandled).Subperm
        (p.collected ++ (a.unhandled ++ a.received p s)) := by
    intro data hdata
    refine (hdata.append_right _).subperm.trans ?_
    rw [List.append_assoc]
    exact (hperm.append_left _).subperm
  have hleft : x.assembler.unhandled.Subperm (a.unhandled ++ a.received p s) :=
    (List.sublist_append_right _ _).subperm.trans hperm.subperm
  cases hkeeps with
  | frame q hq he hpicker =>
      rw [hpicker] at hdraws
      refine ⟨fun frame hframe => ?_, ?_, hleft⟩
      · obtain rfl : (FramePicker.buildFrame q).1 = frame :=
          Reading.frame.inj (Ending.done.inj (he.symm.trans hframe))
        exact hdraws _ hq
      · have hnone : x.unwatched.picker.collected = [] := by
          show x.picker.picker.collected = []
          rw [hpicker]
          exact Picker.collected_buildFrame q.picker
        rw [hnone]
        exact hdraws [] (List.nil_sublist _)
  | unframed he hpicker =>
      exact ⟨fun frame hframe => absurd hframe (he frame), hdraws _ hpicker, hleft⟩

end Reactor
