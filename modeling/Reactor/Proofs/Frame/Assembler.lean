import Reactor.Frame.Assembler
import Reactor.Proofs.Frame.Framing

/-! What an assembler makes of a stream: it cuts off the first message as soon as the stream holds
it, and no byte of what it has pulled is lost, however the stream comes in. -/

namespace Reactor

variable {σ : Type} [ChunkSource σ]

/-! ## Pulling -/

namespace Chunk

def bytes : Ending SocketError Chunk → Bytes
  | .done (.data bytes _) => bytes
  | _ => []

/-- What an assembler comes to when a pull yields no bytes. -/
def conclusion (snapshot : PartialFrame) : Ending SocketError Chunk → Ending SocketError Reading
  | .done (.data _ _) | .done .wouldBlock => .done (.pending snapshot)
  | .done .endOfStream => .cut .unreachedFrame
  | .cut e => .cut e
  | .crashed => .crashed

theorem conclusion_ne_frame (snapshot : PartialFrame) (pulled : Ending SocketError Chunk)
    (frame : Frame) : conclusion snapshot pulled ≠ .done (.frame frame) := by
  unfold conclusion
  split <;> simp

end Chunk

/-- A source yields bytes a finite number of times, so what holds once no more come, and before
bytes if it does after them, holds throughout. -/
theorem ChunkSource.pulls_induction {motive : σ → Prop}
    (none : ∀ s, Chunk.bytes (pull s).1 = [] → motive s)
    (some : ∀ s bytes address, (pull s).1 = .done (.data bytes address) → bytes ≠ [] →
      motive (pull s).2 → motive s) (s : σ) : motive s := by
  by_cases hb : Chunk.bytes (pull s).1 = []
  · exact none s hb
  · rcases hp : (pull s).1 with (⟨bytes, address⟩ | _ | _) | e | _
    · rw [hp] at hb
      have hlt := remaining_lt s bytes address hp hb
      exact some s bytes address hp hb (pulls_induction none some (pull s).2)
    all_goals simp [hp, Chunk.bytes] at hb
termination_by ChunkSource.remaining s

namespace FrameAssembler

section Pull

variable {π : Type} [FramePicker π] {a : FrameAssembler} {p : π} {s : σ} {bytes : Bytes}
  {address : String}

theorem unhandled_stash (a : FrameAssembler) (rest : Bytes) (address : String) :
    (a.stash rest address).unhandled = a.unhandled ++ rest := by
  unfold stash
  split
  · simp_all
  · rfl

theorem unhandled_stash_of_nil (h : a.unhandled = []) (rest : Bytes) (address : String) :
    (a.stash rest address).unhandled = rest := by
  rw [unhandled_stash, h, List.nil_append]

theorem address_stash (a : FrameAssembler) {rest : Bytes} (h : rest ≠ []) (address : String) :
    (a.stash rest address).address = address := by
  simp [stash, h]

theorem pullAll_of_bytes (h : (ChunkSource.pull s).1 = .done (.data bytes address))
    (hb : bytes ≠ []) :
    a.pullAll p s =
      if (FramePicker.append p bytes address).finished then
        (a.stash (FramePicker.append p bytes address).rest address).deliver
          (FramePicker.append p bytes address).picker (ChunkSource.pull s).2
      else
        (a.stash (FramePicker.append p bytes address).rest address).pullAll
          (FramePicker.append p bytes address).picker (ChunkSource.pull s).2 := by
  rw [pullAll]
  split <;> simp_all

theorem pullAll_of_none (h : Chunk.bytes (ChunkSource.pull s).1 = []) :
    a.pullAll p s = ⟨Chunk.conclusion (FramePicker.partialFrame p) (ChunkSource.pull s).1, a, p,
      (ChunkSource.pull s).2⟩ := by
  rw [pullAll]
  split <;> simp_all [Chunk.bytes, Chunk.conclusion]

end Pull

end FrameAssembler

/-- What a call has come to before it pulls. -/
structure Resumed (π : Type) where
  assembler : FrameAssembler
  picker : π
  finished : Bool

namespace FrameAssembler

variable {π : Type} [FramePicker π]

/-- The picker is fed the bytes that are left over, unless it is finished. -/
def resume (a : FrameAssembler) (p : π) : Resumed π :=
  if FramePicker.isFinished p then ⟨a, p, true⟩
  else if a.hasUnhandled then
    let fed := FramePicker.append p a.unhandled a.address
    ⟨empty.stash fed.rest a.address, fed.picker, fed.finished⟩
  else ⟨a, p, false⟩

theorem assemble_eq_resume (a : FrameAssembler) (p : π) (s : σ) :
    a.assemble p s =
      if (a.resume p).finished then (a.resume p).assembler.deliver (a.resume p).picker s
      else (a.resume p).assembler.pullAll (a.resume p).picker s := by
  unfold assemble resume
  by_cases hf : FramePicker.isFinished p = true
  · simp [hf]
  · by_cases hu : a.hasUnhandled = true <;> simp [hf, hu]

end FrameAssembler

/-- A picker that is finished by the first chunk, when nothing was left over. -/
theorem FrameAssembler.assemble_of_chunk {π : Type} [FramePicker π] {p : π} {s : σ} {bytes : Bytes}
    {address : String} (hp : FramePicker.isFinished p = false)
    (h : (ChunkSource.pull s).1 = .done (.data bytes address)) (hb : bytes ≠ [])
    (hf : (FramePicker.append p bytes address).finished = true) :
    empty.assemble p s = (empty.stash (FramePicker.append p bytes address).rest address).deliver
      (FramePicker.append p bytes address).picker (ChunkSource.pull s).2 := by
  have hresume : empty.resume p = ⟨empty, p, false⟩ := by
    unfold resume
    rw [if_neg (by simp [hp])]
    rfl
  rw [assemble_eq_resume, hresume, if_neg (by simp), pullAll_of_bytes h hb, if_pos hf]

/-! ## The record of what was pulled -/

def Assembled.along {π σ τ : Type} (f : σ → τ) (x : Assembled π σ) : Assembled π τ :=
  ⟨x.ending, x.assembler, x.picker, f x.source⟩

namespace FrameAssembler

variable {π τ : Type} [FramePicker π] [ChunkSource τ] {f : τ → σ}

/-- A call makes the same of two sources that yield the same. -/
theorem pullAll_along
    (hf : ∀ s, ChunkSource.pull (f s) = ((ChunkSource.pull s).1, f (ChunkSource.pull s).2))
    (a : FrameAssembler) (p : π) (s : τ) : a.pullAll p (f s) = (a.pullAll p s).along f := by
  induction s using ChunkSource.pulls_induction generalizing a p with
  | none s h =>
      have hsame : Chunk.bytes (ChunkSource.pull (f s)).1 = [] := by rw [hf]; exact h
      rw [pullAll_of_none h, pullAll_of_none hsame, hf]
      rfl
  | some s bytes address h hb ih =>
      have hsame : (ChunkSource.pull (f s)).1 = .done (.data bytes address) := by rw [hf]; exact h
      rw [pullAll_of_bytes h hb, pullAll_of_bytes hsame hb, hf]
      split
      · rfl
      · exact ih _ _

theorem assemble_along
    (hf : ∀ s, ChunkSource.pull (f s) = ((ChunkSource.pull s).1, f (ChunkSource.pull s).2))
    (a : FrameAssembler) (p : π) (s : τ) : a.assemble p (f s) = (a.assemble p s).along f := by
  rw [assemble_eq_resume, assemble_eq_resume]
  split
  · rfl
  · exact pullAll_along hf _ _ s

end FrameAssembler

/-- A source, and the bytes that have been pulled from it. -/
structure Recorded (σ : Type) where
  source : σ
  received : Bytes

namespace Recorded

def pull (s : Recorded σ) : Ending SocketError Chunk × Recorded σ :=
  ((ChunkSource.pull s.source).1,
    ⟨(ChunkSource.pull s.source).2, s.received ++ Chunk.bytes (ChunkSource.pull s.source).1⟩)

instance : ChunkSource (Recorded σ) where
  pull := pull
  remaining s := ChunkSource.remaining s.source
  remaining_lt s := ChunkSource.remaining_lt s.source

end Recorded

def Assembled.unrecorded {π σ : Type} (x : Assembled π (Recorded σ)) : Assembled π σ :=
  ⟨x.ending, x.assembler, x.picker, x.source.source⟩

namespace FrameAssembler

variable {π : Type} [FramePicker π]

/-- To record what is pulled changes nothing else. -/
theorem assemble_unrecorded (a : FrameAssembler) (p : π) (s : Recorded σ) :
    (a.assemble p s).unrecorded = a.assemble p s.source :=
  (assemble_along (f := Recorded.source) (fun _ => rfl) a p s).symm

/-- The bytes that a call of the assembler pulls. -/
def received (a : FrameAssembler) (p : π) (s : σ) : Bytes :=
  (a.assemble p (Recorded.mk s [])).source.received

end FrameAssembler

/-! ## What a call cuts -/

/-- What the call has done is what the picker defines on the stream: it has yielded the first
message and kept what follows it, or else the picker has taken all of the stream. -/
def Assembled.Cuts {σ : Type} (x : Assembled Picker σ) (p : Picker) (stream : Bytes) : Prop :=
  ∀ reading, x.ending = .done reading → match reading with
    | .frame frame => p.cut? stream = some (frame.data, x.assembler.unhandled)
    | .pending _ =>
        x.assembler.unhandled = [] ∧ x.picker.Holds stream ∧ x.picker.cut? = p.cut?

/-- Whatever the call has come to, it is what the picker defines on the stream: the call has yielded
the first message and kept what follows it, or else the picker has taken all of the stream. -/
inductive Assembled.Splits {σ : Type} (x : Assembled Picker σ) (p : Picker) (stream : Bytes) :
    Prop where
  | frame (frame : Frame) (he : x.ending = .done (.frame frame))
      (hc : p.cut? stream = some (frame.data, x.assembler.unhandled))
  | unframed (he : ∀ frame, x.ending ≠ .done (.frame frame)) (ha : x.assembler.unhandled = [])
      (hh : x.picker.Holds stream) (hp : x.picker.Alike p)

theorem Assembled.Splits.of_alike {σ : Type} {x : Assembled Picker σ} {p q : Picker}
    {stream : Bytes} (h : x.Splits q stream) (hq : q.Alike p) : x.Splits p stream := by
  cases h with
  | frame frame he hc => exact .frame frame he (hq.cut? ▸ hc)
  | unframed he ha hh hp => exact .unframed he ha hh (hp.trans hq)

theorem Assembled.Splits.cuts {σ : Type} {x : Assembled Picker σ} {p : Picker} {stream : Bytes}
    (h : x.Splits p stream) : x.Cuts p stream := by
  intro reading hx
  cases h with
  | frame frame he hc =>
      obtain rfl : Reading.frame frame = reading := by rw [he] at hx; injection hx
      exact hc
  | unframed he ha hh hp =>
      cases reading with
      | frame frame => exact absurd hx (he frame)
      | pending => exact ⟨ha, hh, hp.cut?⟩

namespace FrameAssembler

variable {a : FrameAssembler} {p : Picker} {taken rest : Bytes}

/-- The bytes that have come in since the last message: they are left over for a picker that has not
been used, or the picker has taken them and they do not hold a complete message. -/
inductive Gathers (a : FrameAssembler) (p : Picker) (rest : Bytes) : Prop where
  | unused (hp : p.Fresh) (hr : a.unhandled = rest)
  | used (hp : p.Holds rest) (hn : p.cut? rest = none) (hr : a.unhandled = [])

theorem pullAll_splits (hp : p.Holds taken) (ha : a.unhandled = []) (s : Recorded σ) :
    ∃ more, (a.pullAll p s).source.received = s.received ++ more ∧
      (a.pullAll p s).Splits p (taken ++ more) := by
  induction s using ChunkSource.pulls_induction generalizing a p taken with
  | none s h =>
      have hpulled : (ChunkSource.pull s).2.received = s.received ++ [] := by
        show s.received ++ Chunk.bytes (ChunkSource.pull s).1 = _
        rw [h]
      rw [pullAll_of_none h]
      refine ⟨[], hpulled, .unframed (Chunk.conclusion_ne_frame _ _) ha ?_ (.refl p)⟩
      rwa [List.append_nil]
  | some s bytes address h hb ih =>
      have hpulled : (ChunkSource.pull s).2.received = s.received ++ bytes := by
        show s.received ++ Chunk.bytes (ChunkSource.pull s).1 = _
        rw [h]
        rfl
      have hkept := unhandled_stash_of_nil ha (FramePicker.append p bytes address).rest address
      rw [pullAll_of_bytes h hb]
      rcases hp.append bytes address with ⟨hf, hcut⟩ | ⟨hf, hr, hholds, hsame⟩
      · rw [if_pos hf]
        rw [← hkept] at hcut
        exact ⟨bytes, hpulled, .frame _ rfl hcut⟩
      · rw [if_neg (by simp [hf])]
        obtain ⟨more, hmore, hsplits⟩ := ih hholds (hkept.trans hr)
        refine ⟨bytes ++ more, ?_, ?_⟩
        · rw [← List.append_assoc, ← hpulled]
          exact hmore
        · rw [← List.append_assoc]
          exact hsplits.of_alike hsame

/-- Before it pulls, a call has cut the message off what has come in, or its picker has taken all of
it. -/
inductive Resumes (x : Resumed Picker) (p : Picker) (rest : Bytes) : Prop where
  | finished (hf : x.finished = true) (hc : ∀ more, p.cut? (rest ++ more) =
      some ((FramePicker.buildFrame x.picker).1.data, x.assembler.unhandled ++ more))
  | unfinished (hf : x.finished = false) (hh : x.picker.Holds rest) (ha : x.assembler.unhandled = [])
      (hp : x.picker.Alike p)

theorem Gathers.resumes (h : a.Gathers p rest) : Resumes (a.resume p) p rest := by
  unfold resume
  cases h with
  | used hp _ ha =>
      rw [if_neg (by simp [hp.isFinished]), if_neg (by simp [hasUnhandled, ha])]
      exact .unfinished rfl hp ha (.refl p)
  | unused hp ha =>
      subst ha
      rcases hp.holds_nil with ⟨-, hholds⟩ | ⟨hf, hcut⟩
      · rw [if_neg (by simp [hholds.isFinished])]
        by_cases ha : a.unhandled = []
        · rw [if_neg (by simp [hasUnhandled, ha])]
          exact .unfinished rfl (ha ▸ hholds) ha (.refl p)
        · rw [if_pos (by simp [hasUnhandled, ha])]
          have hkept : (empty.stash (FramePicker.append p a.unhandled a.address).rest
              a.address).unhandled = _ := unhandled_stash_of_nil rfl _ _
          rcases hholds.append a.unhandled a.address with ⟨hf, hcut⟩ | ⟨hf, hr, hh, hsame⟩
          · rw [← hkept] at hcut
            exact .finished hf fun more => hp.cut?_append hcut
          · exact .unfinished hf hh (hkept.trans hr) hsame
      · rw [if_pos hf]
        exact .finished rfl fun more => hcut _

/-- A call of the assembler makes of the stream what the picker defines: of what has come in since
the last message, and what the call pulls. -/
theorem assemble_splits (h : a.Gathers p rest) (s : σ) :
    (a.assemble p s).Splits p (rest ++ a.received p s) := by
  suffices hrec : ∃ more, (a.assemble p (Recorded.mk s [])).source.received = [] ++ more ∧
      (a.assemble p (Recorded.mk s [])).Splits p (rest ++ more) by
    obtain ⟨more, hmore, hsplits⟩ := hrec
    rw [List.nil_append] at hmore
    rw [received, hmore, ← assemble_unrecorded a p (Recorded.mk s [])]
    cases hsplits with
    | frame frame he hc => exact .frame frame he hc
    | unframed he ha hh hp => exact .unframed he ha hh hp
  rw [assemble_eq_resume]
  cases h.resumes with
  | finished hf hc =>
      have hcut := hc []
      rw [List.append_nil (a.resume p).assembler.unhandled] at hcut
      rw [if_pos hf]
      exact ⟨[], rfl, .frame _ rfl hcut⟩
  | unfinished hf hh ha hp =>
      rw [if_neg (by simp [hf])]
      obtain ⟨more, hmore, hsplits⟩ := pullAll_splits hh ha (Recorded.mk s [])
      exact ⟨more, hmore, hsplits.of_alike hp⟩

theorem assemble_cuts (h : a.Gathers p rest) (s : σ) :
    (a.assemble p s).Cuts p (rest ++ a.received p s) :=
  (assemble_splits h s).cuts

end FrameAssembler

end Reactor
