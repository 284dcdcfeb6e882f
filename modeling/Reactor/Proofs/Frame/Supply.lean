import Reactor.Proofs.Frame.Assembler

/-! A message that is on its way comes in. As long as the source still yields the bytes that the
message takes, no call of the assembler fails, and every call that has to wait leaves less to be
pulled. -/

namespace Reactor

variable {σ : Type} [ChunkSource σ]

namespace ChunkSource

/-- The next pulls, which are so many, yield these bytes, and nothing but waits besides. -/
inductive Supplies : σ → Bytes → Nat → Prop where
  | nothing (s : σ) : Supplies s [] 0
  | wait {s : σ} {bytes : Bytes} {k : Nat} (hp : (pull s).1 = .done .wouldBlock)
      (hs : Supplies (pull s).2 bytes k) : Supplies s bytes (k + 1)
  | chunk {s : σ} {piece bytes : Bytes} {address : String} {k : Nat}
      (hp : (pull s).1 = .done (.data piece address)) (hs : Supplies (pull s).2 bytes k) :
      Supplies s (piece ++ bytes) (k + 1)

end ChunkSource

open ChunkSource (Supplies)

/-- What a call comes to while the message of the picker is on its way: the first message of the
stream, or a wait after which the rest of the stream takes fewer pulls. -/
inductive Assembled.Nears (x : Assembled Picker σ) (p : Picker) (stream : Bytes) (k : Nat) :
    Prop where
  | frame (frame : Frame) (rest : Bytes) (he : x.ending = .done (.frame frame))
      (hc : p.cut? stream = some (frame.data, rest))
  | pending (snapshot : PartialFrame) (taken bytes : Bytes) (left : Nat)
      (he : x.ending = .done (.pending snapshot)) (hst : stream = taken ++ bytes)
      (hg : x.assembler.Gathers x.picker taken) (hp : x.picker.Alike p)
      (hs : Supplies x.source bytes left) (hk : left < k)

theorem Assembled.Nears.of_alike {x : Assembled Picker σ} {p q : Picker} {stream : Bytes}
    {k k' : Nat} (h : x.Nears q stream k) (hq : q.Alike p) (hk : k ≤ k') : x.Nears p stream k' := by
  cases h with
  | frame frame rest he hc => exact .frame frame rest he (hq.cut? ▸ hc)
  | pending snapshot taken bytes left he hst hg hp hs hlt =>
      have hless : left < k' := Nat.lt_of_lt_of_le hlt hk
      exact .pending snapshot taken bytes left he hst hg (hp.trans hq) hs hless

namespace FrameAssembler

variable {a : FrameAssembler} {p : Picker} {taken rest bytes : Bytes} {s : σ} {k : Nat}

/-- A pull without bytes makes the call wait. -/
theorem pullAll_nears_of_none (hp : p.Holds taken) (ha : a.unhandled = [])
    (hnone : Chunk.bytes (ChunkSource.pull s).1 = [])
    (hwait : ∃ chunk, (ChunkSource.pull s).1 = .done chunk ∧ chunk ≠ .endOfStream)
    (hs : Supplies (ChunkSource.pull s).2 bytes k) :
    (a.pullAll p s).Nears p (taken ++ bytes) (k + 1) := by
  have hending : Chunk.conclusion (FramePicker.partialFrame p) (ChunkSource.pull s).1 =
      .done (.pending (FramePicker.partialFrame p)) := by
    obtain ⟨chunk, hchunk, hne⟩ := hwait
    rw [hchunk]
    cases chunk with
    | data | wouldBlock => rfl
    | endOfStream => exact absurd rfl hne
  rw [pullAll_of_none hnone]
  exact .pending _ taken bytes k hending rfl (.used hp hp.cut? ha) (.refl p) hs k.lt_succ_self

/-- An unfinished picker that lacks no more than what the source yields. The induction is on the
pulls: the picker cannot still be unfinished when all of them have been made. -/
theorem pullAll_nears (hs : Supplies s bytes k) (hp : p.Holds taken) (ha : a.unhandled = [])
    (hc : p.cut? (taken ++ bytes) ≠ none) : (a.pullAll p s).Nears p (taken ++ bytes) k := by
  induction hs generalizing a p taken with
  | nothing s =>
      rw [List.append_nil, hp.cut?] at hc
      exact absurd rfl hc
  | wait hpull hs ih =>
      exact pullAll_nears_of_none hp ha (by rw [hpull]; rfl) ⟨_, hpull, by simp⟩ hs
  | @chunk s piece bytes address k hpull hs ih =>
      by_cases hb : piece = []
      · subst hb
        exact pullAll_nears_of_none hp ha (by rw [hpull]; rfl) ⟨_, hpull, by simp⟩ hs
      have hkept := unhandled_stash_of_nil ha (FramePicker.append p piece address).rest address
      rw [pullAll_of_bytes hpull hb, ← List.append_assoc]
      rw [← List.append_assoc] at hc
      rcases hp.append piece address with ⟨hf, hcut⟩ | ⟨hf, hr, hholds, hsame⟩
      · rw [if_pos hf]
        exact .frame _ _ rfl (hp.cut?_append hcut)
      · rw [if_neg (by simp [hf])]
        have hnears := ih hholds (hkept.trans hr) (hsame.cut? ▸ hc)
        exact hnears.of_alike hsame k.le_succ

/-- A call of the assembler comes to the message or brings it nearer, as long as the source yields
what the message takes. -/
theorem assemble_nears (hg : a.Gathers p rest) (hs : Supplies s bytes k)
    (hc : p.cut? (rest ++ bytes) ≠ none) : (a.assemble p s).Nears p (rest ++ bytes) k := by
  rw [assemble_eq_resume]
  cases hg.resumes with
  | finished hf hcut =>
      rw [if_pos hf]
      exact .frame _ _ rfl (hcut bytes)
  | unfinished hf hh ha hp =>
      rw [if_neg (by simp [hf])]
      have hnears := pullAll_nears hs hh ha (hp.cut? ▸ hc)
      exact hnears.of_alike hp (Nat.le_refl k)

end FrameAssembler

end Reactor
