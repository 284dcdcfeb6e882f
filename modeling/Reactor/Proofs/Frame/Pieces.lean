import Reactor.Proofs.Frame.Assembler

/-! Where the message of a picker lies in the bytes that it was fed. The chunk that finishes a
picker of the library holds the end of the message, and gives the frame its address. So do the bytes
that were left over, if they finish the next picker. -/

namespace Reactor

variable {taken chunk : Bytes} {address : String}

namespace MarkerFramePicker

variable {p : MarkerFramePicker}

theorem startAt?_of_markers {q : MarkerFramePicker} (h : q.markers = p.markers) :
    q.startAt? = p.startAt? := by
  simp only [markers, Prod.mk.injEq] at h
  funext stream
  simp only [startAt?, h.1, h.2.2]

/-- A message that is completed by a chunk is a piece that ends in the chunk. -/
theorem lt_of_cut? {message rest : Bytes} (hp : p.Delimited) (hn : p.cut? taken = none)
    (h : p.cut? (taken ++ chunk) = some (message, rest)) :
    ∃ n, p.startAt? (taken ++ chunk) = some n ∧ message ++ rest = (taken ++ chunk).drop n ∧
      taken.length < n + message.length := by
  simp only [MarkerFramePicker.cut?, Option.bind_eq_bind, Option.bind_eq_some_iff] at h
  obtain ⟨n, hs, e, he, heq⟩ := h
  have hle := endAt?_le hp hs he
  cases heq
  refine ⟨n, hs, ?_, ?_⟩
  · have hrest : (taken ++ chunk).drop e = ((taken ++ chunk).drop n).drop (e - n) := by
      rw [List.drop_drop]
      congr 1
      omega
    rw [hrest]
    exact List.take_append_drop _ _
  · have hlate : taken.length < e := by
      rcases ht : p.startAt? taken with _ | m
      · exact Nat.lt_of_lt_of_le (lt_startAt?_of_none hp ht hs) hle.1
      · obtain rfl : m = n := Option.some.inj ((startAt?_append hp ht).symm.trans hs)
        have hnone : p.endAt? taken m = none := by
          rcases ht' : p.endAt? taken m with _ | e'
          · rfl
          · simp [MarkerFramePicker.cut?, ht, ht'] at hn
        exact lt_endAt?_of_none hp hnone he
    simp only [List.length_take, List.length_drop]
    omega

theorem address_seekStart (p : MarkerFramePicker) :
    p.seekStart.buffer.address = p.buffer.address := by
  unfold seekStart
  split
  · rfl
  · dsimp only
    split <;> rfl

theorem address_absorb (p : MarkerFramePicker) (chunk : Bytes) (address : String) :
    (p.absorb chunk address).buffer.address = address := by
  unfold absorb
  dsimp only
  split
  · rfl
  · rw [address_seekStart]

end MarkerFramePicker

namespace Picker

variable {p : Picker}

/-- Where the message of the picker begins in a stream. -/
def startAt? : Picker → Bytes → Option Nat
  | marker p => p.startAt?
  | raw _ | fixedLength _ | counting _ => fun _ => some 0

/-- A picker of the library that has not been used. -/
inductive Unused : Picker → Prop where
  | raw : Unused (.raw .new)
  | fixedLength (length : Nat) : Unused (.fixedLength (.new length))
  | marker (start stop : Option Bytes) (caseSensitive : Bool) :
      Unused (.marker (.new start stop caseSensitive))

/-- The unfinished picker has taken these bytes. One that takes the first chunk for its message has
taken nothing yet. -/
inductive Collects : Picker → Bytes → Prop where
  | raw : Collects (.raw .new) []
  | unmarked (caseSensitive : Bool) : Collects (.marker (.new none none caseSensitive)) []
  | holds {p : Picker} {taken : Bytes} (h : p.Holds taken) : Collects p taken

theorem Collects.isFinished (h : p.Collects taken) : FramePicker.isFinished p = false := by
  cases h with
  | raw => rfl
  | unmarked => rfl
  | holds h => exact h.isFinished

/-- An unused picker has taken nothing, or its message is the empty one. -/
theorem Unused.collects_nil (h : p.Unused) :
    p.Collects [] ∨ FramePicker.isFinished p = true ∧ (FramePicker.buildFrame p).1 = .empty := by
  cases h with
  | raw => exact .inl .raw
  | fixedLength length =>
      cases length with
      | zero => exact .inr ⟨rfl, rfl⟩
      | succ n => exact .inl (.holds (.fixedLength ⟨rfl, Nat.succ_pos n, rfl⟩))
  | marker start stop caseSensitive =>
      by_cases hm : (MarkerFramePicker.new start stop caseSensitive).start.isSome ∨
          (MarkerFramePicker.new start stop caseSensitive).stop.isSome
      · exact .inl (.holds (.marker (MarkerFramePicker.delimited_new hm)
          MarkerFramePicker.holds_new))
      · have hunmarked : MarkerFramePicker.new start stop caseSensitive =
            .new none none caseSensitive := by
          simp only [MarkerFramePicker.new, not_or, Option.not_isSome_iff_eq_none] at hm ⊢
          rw [hm.1, hm.2]
          rfl
        rw [hunmarked]
        exact .inl (.unmarked caseSensitive)

/-! ## The chunk that finishes a picker -/

/-- The message is the piece of the bytes taken and the chunk that begins at this place, and it ends
in the chunk. -/
structure Completes (p : Picker) (taken chunk : Bytes) (address : String) (n : Nat) : Prop where
  finished : (FramePicker.append p chunk address).finished = true
  begins : p.startAt? (taken ++ chunk) = some n
  piece : (FramePicker.buildFrame (FramePicker.append p chunk address).picker).1.data ++
    (FramePicker.append p chunk address).rest = (taken ++ chunk).drop n
  late : taken.length <
    n + (FramePicker.buildFrame (FramePicker.append p chunk address).picker).1.data.length

/-- The picker has taken the chunk too, and its message is not complete. -/
structure Continues (p : Picker) (taken chunk : Bytes) (address : String) : Prop where
  unfinished : (FramePicker.append p chunk address).finished = false
  rest : (FramePicker.append p chunk address).rest = []
  collects : (FramePicker.append p chunk address).picker.Collects (taken ++ chunk)
  begins : (FramePicker.append p chunk address).picker.startAt? = p.startAt?

theorem startAt?_append (p : Picker) (chunk : Bytes) (address : String) :
    (FramePicker.append p chunk address).picker.startAt? = p.startAt? := by
  cases p with
  | raw p => rfl
  | fixedLength p => rfl
  | counting p => rfl
  | marker p => exact MarkerFramePicker.startAt?_of_markers (p.markers_append chunk address)

/-- The frame carries the address of the last chunk. -/
theorem address_append (hp : FramePicker.isFinished p = false) (chunk : Bytes) (address : String) :
    (FramePicker.buildFrame (FramePicker.append p chunk address).picker).1.address = address := by
  cases p with
  | raw p =>
      change p.buffer.finished = false at hp
      change (p.append chunk address).picker.buffer.address = address
      simp [RawFramePicker.append, hp]
  | fixedLength p =>
      change p.buffer.finished = false at hp
      change (p.append chunk address).picker.buffer.address = address
      simp [FixedLengthFramePicker.append, hp]
  | counting p =>
      change p.isFinished = false at hp
      change (p.append chunk address).picker.address = address
      simp [CountingFramePicker.append, hp]
  | marker p =>
      change p.buffer.finished = false at hp
      change (p.append chunk address).picker.buffer.address = address
      have habsorb := p.address_absorb chunk address
      simp only [MarkerFramePicker.append, hp, Bool.false_eq_true, if_false]
      split
      · unfold MarkerFramePicker.cutFrame
        split <;> exact habsorb
      · exact habsorb

theorem Holds.append_cases (h : p.Holds taken) (chunk : Bytes) (address : String) :
    (∃ n, p.Completes taken chunk address n) ∨ p.Continues taken chunk address := by
  rcases h.append chunk address with ⟨hf, hcut⟩ | ⟨hf, hr, hholds, -⟩
  · left
    cases h with
    | fixedLength h =>
        have hshort := h.short
        change FixedLengthFramePicker.cut? _ _ = _ at hcut
        unfold FixedLengthFramePicker.cut? at hcut
        split at hcut
        · rename_i hle
          rw [Option.some.injEq, Prod.mk.injEq] at hcut
          refine ⟨0, hf, rfl, ?_, ?_⟩
          · rw [← hcut.1, ← hcut.2]
            exact List.take_append_drop _ _
          · rw [← hcut.1, List.length_take]
            omega
        · cases hcut
    | marker hp h =>
        obtain ⟨n, hbegins, hpiece, hlate⟩ := MarkerFramePicker.lt_of_cut? hp (h.cut? hp) hcut
        exact ⟨n, hf, hbegins, hpiece, hlate⟩
  · exact .inr ⟨hf, hr, .holds hholds, startAt?_append p chunk address⟩

/-- A chunk completes the message of a picker, or the picker takes all of it. -/
theorem Collects.append_cases (h : p.Collects taken) (hc : chunk ≠ []) (address : String) :
    (∃ n, p.Completes taken chunk address n) ∨ p.Continues taken chunk address := by
  have hpos : 0 < 0 + chunk.length := by simpa [List.length_pos_iff] using hc
  cases h with
  | raw => exact .inl ⟨0, rfl, rfl, List.append_nil _, hpos⟩
  | unmarked caseSensitive =>
      have happend : FramePicker.append (marker (.new none none caseSensitive)) chunk address =
          ⟨.marker ⟨none, none, caseSensitive, true, 0, ⟨chunk, address, true⟩⟩, [], true⟩ := by
        change lift marker ((MarkerFramePicker.new none none caseSensitive).append chunk address) = _
        rw [MarkerFramePicker.append_unmarked]
        rfl
      refine .inl ⟨0, ?_, rfl, ?_, ?_⟩
      · rw [happend]
      · rw [happend]
        exact List.append_nil _
      · rw [happend]
        exact hpos
  | holds h => exact h.append_cases chunk address

/-- The chunk that finishes a picker holds the end of the message and then what is handed back. -/
theorem Completes.exists_front {n : Nat} (h : p.Completes taken chunk address n) (hc : chunk ≠ []) :
    ∃ before front, front ≠ [] ∧ chunk = front ++ (FramePicker.append p chunk address).rest ∧
      taken ++ front =
        before ++ (FramePicker.buildFrame (FramePicker.append p chunk address).picker).1.data := by
  obtain ⟨-, -, hpiece, hlate⟩ := h
  generalize (FramePicker.append p chunk address).rest = rest at hpiece
  generalize (FramePicker.buildFrame (FramePicker.append p chunk address).picker).1.data = data at *
  have hrest : rest = chunk.drop (n + data.length - taken.length) := by
    have hdrop := congrArg (List.drop data.length) hpiece
    rwa [List.drop_left, List.drop_drop, List.drop_append, List.drop_eq_nil_of_le (by omega),
      List.nil_append] at hdrop
  have hfront : taken ++ chunk.take (n + data.length - taken.length) =
      (taken ++ chunk).take (n + data.length) := by
    rw [List.take_append, List.take_of_length_le (Nat.le_of_lt hlate)]
  refine ⟨(taken ++ chunk).take n, chunk.take (n + data.length - taken.length), ?_, ?_, ?_⟩
  · intro hnil
    rcases List.take_eq_nil_iff.1 hnil with hzero | hnone
    · omega
    · exact hc hnone
  · rw [hrest, List.take_append_drop]
  · calc
      _ = (taken ++ chunk).take (n + data.length) := hfront
      _ = (taken ++ chunk).take n ++ ((taken ++ chunk).drop n).take data.length := List.take_add
      _ = (taken ++ chunk).take n ++ data := by rw [← hpiece, List.take_left]

end Picker

/-! ## Bytes that were left over -/

namespace FrameAssembler

variable {a : FrameAssembler} {p : Picker} {held : Bytes}

/-- What an unused picker makes of the bytes that were left over. -/
inductive Replays (a : FrameAssembler) (p : Picker) (x : Resumed Picker) : Prop where
  | empty (hx : x = ⟨a, p, true⟩) (hb : (FramePicker.buildFrame p).1 = .empty)
  | piece (n : Nat) (ha : a.unhandled ≠ []) (hp : FramePicker.isFinished p = false)
      (hn : p.Completes [] a.unhandled a.address n)
      (hx : x = ⟨empty.stash (FramePicker.append p a.unhandled a.address).rest a.address,
        (FramePicker.append p a.unhandled a.address).picker, true⟩)
  | unfinished (hf : x.finished = false) (ha : x.assembler.unhandled = [])
      (hc : x.picker.Collects a.unhandled) (hs : x.picker.startAt? = p.startAt?)

theorem replays_resume (hu : p.Unused) (a : FrameAssembler) : a.Replays p (a.resume p) := by
  unfold resume
  rcases hu.collects_nil with hc | ⟨hf, hb⟩
  · have hunfinished := hc.isFinished
    rw [if_neg (by simp [hunfinished])]
    by_cases ha : a.unhandled = []
    · rw [if_neg (by simp [hasUnhandled, ha])]
      exact .unfinished rfl ha (ha ▸ hc) rfl
    · have hkept : (empty.stash (FramePicker.append p a.unhandled a.address).rest
          a.address).unhandled = _ := unhandled_stash_of_nil rfl _ _
      rw [if_pos (by simp [hasUnhandled, ha])]
      rcases hc.append_cases ha a.address with ⟨n, hn⟩ | hn
      · refine .piece n ha hunfinished hn ?_
        rw [← hn.finished]
      · exact .unfinished hn.unfinished (hkept.trans hn.rest) hn.collects hn.begins
  · rw [if_pos hf]
    exact .empty rfl hb

/-- A picker that has taken what was left over goes on with what is pulled. -/
theorem resume_of_collects (hc : p.Collects held) (ha : a.unhandled = []) :
    a.resume p = ⟨a, p, false⟩ := by
  unfold resume
  rw [if_neg (by simp [hc.isFinished]), if_neg (by simp [hasUnhandled, ha])]

end FrameAssembler

end Reactor
