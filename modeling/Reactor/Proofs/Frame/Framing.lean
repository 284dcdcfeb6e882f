import Reactor.Frame.AnyPicker
import Reactor.Proofs.Frame.Marker

/-! The messages that pickers define on a stream. A picker that is fed the stream chunk by chunk
cuts the same message from it as one that is given all of it. -/

namespace Reactor

variable {taken stream more message rest : Bytes}

namespace FixedLengthFramePicker

variable {p : FixedLengthFramePicker}

def cut? (p : FixedLengthFramePicker) (stream : Bytes) : Option (Bytes × Bytes) :=
  if p.length ≤ stream.length then some (stream.take p.length, stream.drop p.length) else none

/-- The unfinished picker has collected these bytes. -/
structure Holds (p : FixedLengthFramePicker) (taken : Bytes) : Prop where
  data : p.buffer.data = taken
  short : taken.length < p.length
  finished : p.buffer.finished = false

theorem cut?_append (h : p.cut? stream = some (message, rest)) :
    p.cut? (stream ++ more) = some (message, rest ++ more) := by
  unfold cut? at h ⊢
  split at h
  · rename_i hle
    cases h
    rw [List.length_append, if_pos (by omega), List.take_append_of_le_length hle,
      List.drop_append_of_le_length hle]
  · cases h

/-- A chunk finishes the picker if it completes the message. -/
theorem append_spec (h : p.Holds taken) (chunk : Bytes) (address : String) :
    ((p.append chunk address).finished = true ∧ p.cut? (taken ++ chunk) =
        some ((p.append chunk address).picker.buffer.data, (p.append chunk address).rest)) ∨
      (p.append chunk address).finished = false ∧ (p.append chunk address).rest = [] ∧
        (p.append chunk address).picker.Holds (taken ++ chunk) := by
  have hshort := h.short
  unfold append
  rw [if_neg (by simp [h.finished])]
  simp only [h.data]
  by_cases hle : p.length - taken.length ≤ chunk.length
  · have hlen : (taken ++ chunk.take (p.length - taken.length)).length = p.length := by
      rw [List.length_append, List.length_take, Nat.min_eq_left hle]
      omega
    refine .inl ⟨by simp [hlen], ?_⟩
    have hall : p.length ≤ (taken ++ chunk).length := by
      rw [List.length_append]
      omega
    rw [cut?, if_pos hall, List.take_append, List.take_of_length_le (by omega), List.drop_append,
      List.drop_eq_nil_of_le (by omega), List.nil_append]
  · have htake : chunk.take (p.length - taken.length) = chunk :=
      List.take_of_length_le (by omega)
    have hlt : (taken ++ chunk).length < p.length := by
      rw [List.length_append]
      omega
    rw [htake]
    refine .inr ⟨by simpa using Nat.ne_of_lt hlt, List.drop_eq_nil_of_le (by omega), rfl, hlt, ?_⟩
    simpa using Nat.ne_of_lt hlt

theorem length_append (p : FixedLengthFramePicker) (chunk : Bytes) (address : String) :
    (p.append chunk address).picker.length = p.length := by
  unfold append
  split <;> rfl

end FixedLengthFramePicker

namespace Picker

variable {p : Picker}

/-- The first message of a stream as the picker defines it, and what follows it. Pickers whose
messages depend on the chunks define none. -/
def cut? : Picker → Bytes → Option (Bytes × Bytes)
  | fixedLength p => p.cut?
  | marker p => p.cut?
  | raw _ | counting _ => fun _ => none

/-- What a stream holds of the message that it begins, as long as the message is not complete. -/
def begun : Picker → Bytes → Bytes
  | marker p => p.begun
  | fixedLength _ | raw _ | counting _ => id

/-- The pickers define the same messages. -/
structure Alike (q p : Picker) : Prop where
  cut? : q.cut? = p.cut?
  begun : q.begun = p.begun

theorem Alike.refl (p : Picker) : p.Alike p := ⟨rfl, rfl⟩

theorem Alike.trans {r q p : Picker} (hr : r.Alike q) (hq : q.Alike p) : r.Alike p :=
  ⟨hr.cut?.trans hq.cut?, hr.begun.trans hq.begun⟩

/-- An unused picker of messages of a known length, or of messages with at least one marker. -/
inductive Fresh : Picker → Prop where
  | fixedLength (length : Nat) : Fresh (.fixedLength (.new length))
  | marker (start stop : Option Bytes) (caseSensitive : Bool)
      (h : (MarkerFramePicker.new start stop caseSensitive).start.isSome ∨
        (MarkerFramePicker.new start stop caseSensitive).stop.isSome) :
      Fresh (.marker (.new start stop caseSensitive))

/-- The unfinished picker has taken these bytes. -/
inductive Holds : Picker → Bytes → Prop where
  | fixedLength {p : FixedLengthFramePicker} {taken : Bytes} (h : p.Holds taken) :
      Holds (.fixedLength p) taken
  | marker {p : MarkerFramePicker} {taken : Bytes} (hp : p.Delimited) (h : p.Holds taken) :
      Holds (.marker p) taken

theorem Fresh.cut?_append (hp : p.Fresh) (h : p.cut? stream = some (message, rest)) :
    p.cut? (stream ++ more) = some (message, rest ++ more) := by
  cases hp with
  | fixedLength => exact FixedLengthFramePicker.cut?_append h
  | marker _ _ _ hm => exact MarkerFramePicker.cut?_append (MarkerFramePicker.delimited_new hm) h

theorem Holds.cut?_append (hp : p.Holds taken) (h : p.cut? stream = some (message, rest)) :
    p.cut? (stream ++ more) = some (message, rest ++ more) := by
  cases hp with
  | fixedLength => exact FixedLengthFramePicker.cut?_append h
  | marker hd => exact MarkerFramePicker.cut?_append hd h

/-- An unused picker has taken nothing. It is finished only if its message is the empty one. -/
theorem Fresh.holds_nil (hp : p.Fresh) :
    FramePicker.isFinished p = false ∧ p.Holds [] ∨
      FramePicker.isFinished p = true ∧
        ∀ stream, p.cut? stream = some ((FramePicker.buildFrame p).1.data, stream) := by
  cases hp with
  | marker _ _ _ hm =>
      exact .inl ⟨rfl, .marker (MarkerFramePicker.delimited_new hm) MarkerFramePicker.holds_new⟩
  | fixedLength n =>
      cases n with
      | zero => exact .inr ⟨rfl, fun stream => rfl⟩
      | succ n => exact .inl ⟨rfl, .fixedLength ⟨rfl, Nat.succ_pos n, rfl⟩⟩

theorem Holds.isFinished (h : p.Holds taken) : FramePicker.isFinished p = false := by
  cases h with
  | fixedLength h => exact h.finished
  | marker _ h => exact h.finished

/-- An unfinished picker has taken no complete message. -/
theorem Holds.cut? (h : p.Holds taken) : p.cut? taken = none := by
  cases h with
  | fixedLength h => exact if_neg (Nat.not_le.2 h.short)
  | marker hp h => exact h.cut? hp

/-- The message in the making is what the bytes taken hold of it. -/
theorem Holds.partialFrame (h : p.Holds taken) :
    (FramePicker.partialFrame p).data = p.begun taken := by
  cases h with
  | fixedLength h => exact h.data
  | marker _ h => exact h.partialFrame

/-- A chunk finishes the picker if it completes the first message of the stream, and then this is
the message of the picker. -/
theorem Holds.append (h : p.Holds taken) (chunk : Bytes) (address : String) :
    ((FramePicker.append p chunk address).finished = true ∧ p.cut? (taken ++ chunk) =
        some ((FramePicker.buildFrame (FramePicker.append p chunk address).picker).1.data,
          (FramePicker.append p chunk address).rest)) ∨
      (FramePicker.append p chunk address).finished = false ∧
        (FramePicker.append p chunk address).rest = [] ∧
        (FramePicker.append p chunk address).picker.Holds (taken ++ chunk) ∧
        (FramePicker.append p chunk address).picker.Alike p := by
  cases h with
  | @fixedLength p _ h =>
      refine (FixedLengthFramePicker.append_spec h chunk address).imp id ?_
      rintro ⟨hf, hr, hh⟩
      refine ⟨hf, hr, .fixedLength hh, funext fun stream => ?_, rfl⟩
      show FixedLengthFramePicker.cut? _ stream = FixedLengthFramePicker.cut? _ stream
      unfold FixedLengthFramePicker.cut?
      rw [show (FramePicker.append p chunk address).picker.length = p.length from
        p.length_append chunk address]
  | @marker p _ hp h =>
      refine (MarkerFramePicker.append_spec hp h chunk address).imp id ?_
      rintro ⟨hf, hr, hh⟩
      have hmarkers := p.markers_append chunk address
      exact ⟨hf, hr, .marker (hp.of_markers hmarkers) hh,
        MarkerFramePicker.cut?_of_markers hmarkers, MarkerFramePicker.begun_of_markers hmarkers⟩

end Picker

end Reactor
