import Reactor.Proofs.Frame.Assembler

/-! A stream that is assembled until its source has no more to give, one picker after the other. The
messages, what has begun of the next one and the bytes that are left over depend on the bytes of the
stream alone, not on how they came in. -/

namespace Reactor

/-! ## The source -/

namespace ChunkScript

def bytes (s : ChunkScript) : Bytes :=
  (s.answers.map fun answer => Chunk.bytes (.ofExcept answer)).flatten

theorem bytes_pull (s : ChunkScript) :
    Chunk.bytes (ChunkSource.pull s).1 ++ (ChunkSource.pull s).2.bytes = s.bytes := by
  show Chunk.bytes s.pull.1 ++ s.pull.2.bytes = s.bytes
  unfold pull
  rcases hs : s.answers with _ | ⟨answer, answers⟩ <;> simp [bytes, hs, Chunk.bytes]

/-- A pull takes an answer, as long as there is one. -/
theorem pull_shortens (s : ChunkScript) :
    (ChunkSource.pull s).2.answers = [] ∨
      (ChunkSource.pull s).2.answers.length < s.answers.length := by
  show s.pull.2.answers = [] ∨ s.pull.2.answers.length < s.answers.length
  unfold pull
  rcases hs : s.answers with _ | ⟨answer, answers⟩ <;> simp

end ChunkScript

def Assembled.frame? {π σ : Type} (x : Assembled π σ) : Option Frame :=
  match x.ending with
  | .done (.frame frame) => some frame
  | _ => none

namespace FrameAssembler

section Call

variable {π : Type} [FramePicker π]

/-- What a call pulls is what it takes from the source. -/
theorem pullAll_bytes (a : FrameAssembler) (p : π) (s : Recorded ChunkScript) :
    (a.pullAll p s).source.received ++ (a.pullAll p s).source.source.bytes =
      s.received ++ s.source.bytes := by
  have hpull : ∀ s : Recorded ChunkScript, (ChunkSource.pull s).2.received ++
      (ChunkSource.pull s).2.source.bytes = s.received ++ s.source.bytes := by
    intro s
    show (s.received ++ Chunk.bytes (ChunkSource.pull s.source).1) ++ _ = _
    rw [List.append_assoc, ← s.source.bytes_pull]
    rfl
  induction s using ChunkSource.pulls_induction generalizing a p with
  | none s h =>
      rw [pullAll_of_none h]
      exact hpull s
  | some s bytes address h hb ih =>
      rw [pullAll_of_bytes h hb]
      split
      · exact hpull s
      · exact (ih _ _).trans (hpull s)

theorem received_append_bytes (a : FrameAssembler) (p : π) (s : ChunkScript) :
    a.received p s ++ (a.assemble p s).source.bytes = s.bytes := by
  have hrecorded : ∀ x : Assembled π (Recorded ChunkScript),
      x = a.assemble p (Recorded.mk s []) →
      x.source.received ++ x.source.source.bytes = s.bytes := by
    rintro x rfl
    rw [assemble_eq_resume]
    split
    · rfl
    · exact pullAll_bytes _ _ (Recorded.mk s [])
  rw [← assemble_unrecorded a p (Recorded.mk s [])]
  exact hrecorded _ rfl

theorem pullAll_shortens (a : FrameAssembler) (p : π) (s : ChunkScript) :
    (a.pullAll p s).source.answers = [] ∨
      (a.pullAll p s).source.answers.length < s.answers.length := by
  induction s using ChunkSource.pulls_induction generalizing a p with
  | none s h =>
      rw [pullAll_of_none h]
      exact s.pull_shortens
  | some s bytes address h hb ih =>
      rw [pullAll_of_bytes h hb]
      have hpull := s.pull_shortens
      split
      · exact hpull
      · refine (ih _ _).imp id fun hlt => ?_
        rcases hpull with hnil | hpull
        · simp [hnil] at hlt
        · exact Nat.lt_trans hlt hpull

/-- A call that yields no message has pulled from the source. -/
theorem assemble_shortens {a : FrameAssembler} {p : π} {s : ChunkScript}
    (h : (a.assemble p s).frame? = none) : (a.assemble p s).source.answers = [] ∨
      (a.assemble p s).source.answers.length < s.answers.length := by
  rw [assemble_eq_resume] at h ⊢
  split at h
  · cases h
  · rename_i hf
    rw [if_neg hf]
    exact pullAll_shortens _ _ s

end Call

end FrameAssembler

/-! ## The whole stream -/

/-- What has come of a stream: its messages, the pickers whose messages are not complete, the first
of which is in progress, and what is left of the assembler and the source. -/
structure Drained where
  frames : List Bytes
  pickers : List Picker
  assembler : FrameAssembler
  source : ChunkScript

def Drained.after (x : Drained) (frame : Bytes) : Drained :=
  { x with frames := frame :: x.frames }

/-- Calls the assembler until the source is used up or there is no picker left: with the next picker
after a message, and with the same one when it would have to wait or the source has failed. -/
def FrameAssembler.drain (a : FrameAssembler) (pickers : List Picker) (s : ChunkScript) : Drained :=
  match pickers with
  | [] => ⟨[], [], a, s⟩
  | p :: pickers =>
      match _h : (a.assemble p s).frame? with
      | some frame =>
          ((a.assemble p s).assembler.drain pickers (a.assemble p s).source).after frame.data
      | none =>
          if _hs : (a.assemble p s).source.answers = [] then
            ⟨[], (a.assemble p s).picker :: pickers, (a.assemble p s).assembler,
              (a.assemble p s).source⟩
          else
            (a.assemble p s).assembler.drain ((a.assemble p s).picker :: pickers)
              (a.assemble p s).source
termination_by (pickers.length, s.answers.length)
decreasing_by
  · exact .left _ _ (Nat.lt_succ_self _)
  · exact .right _ ((FrameAssembler.assemble_shortens _h).resolve_left _hs)

/-- What can be told from outside: the messages, what has begun of the next one, and the bytes that
no picker has taken. -/
def Drained.outcome (x : Drained) : List Bytes × Option Bytes × Bytes :=
  (x.frames, x.pickers.head?.map fun p => (FramePicker.partialFrame p).data,
    x.assembler.unhandled ++ x.source.bytes)

/-- The messages that pickers cut from a stream one after the other, what has begun of the next one,
and the bytes that are left when all pickers are finished. -/
def Picker.cutAll : List Picker → Bytes → List Bytes × Option Bytes × Bytes
  | [], stream => ([], none, stream)
  | p :: pickers, stream =>
      match p.cut? stream with
      | some (message, rest) =>
          let later := cutAll pickers rest
          (message :: later.1, later.2)
      | none => ([], some (p.begun stream), [])

theorem Picker.cutAll_of_alike {p q : Picker} (h : q.Alike p) (pickers : List Picker)
    (stream : Bytes) : cutAll (q :: pickers) stream = cutAll (p :: pickers) stream := by
  simp only [cutAll, h.cut?, h.begun]

namespace FrameAssembler

variable {a : FrameAssembler} {pickers : List Picker} {rest : Bytes}

/-- The bytes that have come in since the last message, when these pickers are waiting. -/
def Awaits (a : FrameAssembler) : List Picker → Bytes → Prop
  | [], rest => a.unhandled = rest
  | p :: pickers, rest => a.Gathers p rest ∧ ∀ q ∈ pickers, q.Fresh

theorem awaits_of_fresh (h : ∀ p ∈ pickers, p.Fresh) : a.Awaits pickers a.unhandled := by
  cases pickers with
  | nil => rfl
  | cons p pickers => exact ⟨.unused (h p (by simp)) rfl, fun q hq => h q (by simp [hq])⟩

section Step

variable {p : Picker} {s : ChunkScript}

/-- A call that yields a message cuts it off the stream, with what is still to come. -/
theorem Gathers.cut?_of_frame {frame : Frame} (h : a.Gathers p rest)
    (hx : (a.assemble p s).frame? = some frame) : p.cut? (rest ++ s.bytes) =
      some (frame.data, (a.assemble p s).assembler.unhandled ++ (a.assemble p s).source.bytes) := by
  cases assemble_splits h s with
  | unframed he =>
      unfold Assembled.frame? at hx
      split at hx
      · rename_i hending
        exact absurd hending (he _)
      · cases hx
  | frame frame' he hc =>
      obtain rfl : frame' = frame := by simpa [Assembled.frame?, he] using hx
      rw [← received_append_bytes a p s, ← List.append_assoc]
      cases h with
      | unused hp => exact hp.cut?_append hc
      | used hp => exact hp.cut?_append hc

/-- A call that yields none leaves a picker that has taken all that was pulled. -/
theorem Gathers.holds_of_unframed (h : a.Gathers p rest) (hx : (a.assemble p s).frame? = none) :
    (a.assemble p s).assembler.unhandled = [] ∧
      (a.assemble p s).picker.Holds (rest ++ a.received p s) ∧ (a.assemble p s).picker.Alike p := by
  cases assemble_splits h s with
  | unframed _ ha hh hp => exact ⟨ha, hh, hp⟩
  | frame frame he => simp [Assembled.frame?, he] at hx

end Step

/-- What comes of a stream is what the pickers define on its bytes. -/
theorem drain_outcome (h : a.Awaits pickers rest) (s : ChunkScript) :
    (a.drain pickers s).outcome = Picker.cutAll pickers (rest ++ s.bytes) := by
  fun_induction drain a pickers s generalizing rest with
  | case1 a s =>
      rw [show rest = a.unhandled from h.symm]
      rfl
  | case2 a s p pickers frame hframe ih =>
      have hlater := ih (awaits_of_fresh h.2)
      rw [Picker.cutAll, h.1.cut?_of_frame hframe]
      exact congrArg (fun o : List Bytes × Option Bytes × Bytes => (frame.data :: o.1, o.2)) hlater
  | case3 a s p pickers hframe hs =>
      obtain ⟨hunhandled, hholds, halike⟩ := h.1.holds_of_unframed hframe
      have hall : a.received p s = s.bytes := by
        rw [← received_append_bytes a p s, ChunkScript.bytes, hs]
        simp
      rw [hall] at hholds
      rw [← Picker.cutAll_of_alike halike, Picker.cutAll, hholds.cut?]
      simp [Drained.outcome, hunhandled, hholds.partialFrame, ChunkScript.bytes, hs]
  | case4 a s p pickers hframe hs ih =>
      obtain ⟨hunhandled, hholds, halike⟩ := h.1.holds_of_unframed hframe
      have hgathers : (a.assemble p s).assembler.Awaits ((a.assemble p s).picker :: pickers)
          (rest ++ a.received p s) := ⟨.used hholds hholds.cut? hunhandled, h.2⟩
      rw [ih hgathers, Picker.cutAll_of_alike halike, List.append_assoc, received_append_bytes]

/-- However the bytes of a stream come in, and whatever comes in between, the same messages are cut
from it, and the same bytes have begun the next one or are left over. -/
theorem drain_eq_of_bytes_eq (hp : ∀ p ∈ pickers, p.Fresh) {s t : ChunkScript}
    (h : s.bytes = t.bytes) :
    (empty.drain pickers s).outcome = (empty.drain pickers t).outcome := by
  rw [drain_outcome (awaits_of_fresh hp) s, drain_outcome (awaits_of_fresh hp) t, h]

/-- A failure of the source within a message, and the same bytes in one piece after a wait. -/
theorem drain_eq_of_bytes_eq_failure :
    let pickers : List Picker :=
      [.fixedLength (.new 0), .marker (.new none (some [0x0A]) true), .fixedLength (.new 3)]
    let s : ChunkScript :=
      ⟨[.ok (.data [0x61] "a"), .error (.io (.kind .interrupted)),
        .ok (.data [0x62, 0x0A, 0x63] "b")], 0⟩
    let t : ChunkScript := ⟨[.ok .wouldBlock, .ok (.data [0x61, 0x62, 0x0A, 0x63] "a")], 0⟩
    (∀ p ∈ pickers, p.Fresh) ∧ s.bytes = t.bytes ∧
      (empty.drain pickers s).outcome = (empty.drain pickers t).outcome ∧
      (empty.drain pickers t).outcome = ([[], [0x61, 0x62, 0x0A]], some [0x63], []) := by
  intro pickers s t
  have hp : ∀ p ∈ pickers, p.Fresh := by
    intro p hp
    simp only [pickers, List.mem_cons, List.not_mem_nil, or_false] at hp
    rcases hp with rfl | rfl | rfl
    · exact .fixedLength 0
    · exact .marker none (some [0x0A]) true (by decide)
    · exact .fixedLength 3
  refine ⟨hp, rfl, drain_eq_of_bytes_eq hp rfl, ?_⟩
  rw [drain_outcome (awaits_of_fresh hp) t]
  decide

end FrameAssembler

end Reactor
