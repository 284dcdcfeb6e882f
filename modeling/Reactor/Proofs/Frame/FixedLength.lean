import Reactor.Proofs.Frame.Contract

/-! The message of a known length, however the stream is cut into chunks. Feeding goes on when the
picker is finished: what it hands back is then all that follows the message. -/

namespace Reactor.FixedLengthFramePicker

variable {p : FixedLengthFramePicker} {n : Nat} {taken : Bytes}

/-- A picker that was fed chunks, and what each append handed back. -/
structure Fed where
  picker : FixedLengthFramePicker
  rests : List Bytes

def feed (p : FixedLengthFramePicker) : List (Bytes × String) → Fed
  | [] => ⟨p, []⟩
  | (chunk, address) :: chunks =>
      let fed := p.append chunk address
      let later := fed.picker.feed chunks
      ⟨later.picker, fed.rest :: later.rests⟩

/-- The same with all bounds checked. -/
def feed? (p : FixedLengthFramePicker) : List (Bytes × String) → Option Fed
  | [] => some ⟨p, []⟩
  | (chunk, address) :: chunks => do
      let fed ← p.append? chunk address
      let later ← fed.picker.feed? chunks
      return ⟨later.picker, fed.rest :: later.rests⟩

/-- A picker of `n` bytes that was fed this stream has the first ones of it, and is finished if
there are as many. -/
structure Took (p : FixedLengthFramePicker) (n : Nat) (taken : Bytes) : Prop where
  length : p.length = n
  data : p.buffer.data = taken.take n
  finished : p.buffer.finished = true ↔ n ≤ taken.length

theorem took_new (n : Nat) : (new n).Took n [] where
  length := rfl
  data := List.take_nil.symm
  finished := by simp [new]

/-- A chunk is taken as far as bytes are missing. What is left of it follows what was left
before. -/
theorem Took.append (h : p.Took n taken) (chunk : Bytes) (address : String) :
    (p.append chunk address).picker.Took n (taken ++ chunk) ∧
      taken.drop n ++ (p.append chunk address).rest = (taken ++ chunk).drop n := by
  unfold FixedLengthFramePicker.append
  by_cases hf : p.buffer.finished = true
  · have hle := h.finished.1 hf
    rw [if_pos hf]
    refine ⟨⟨h.length, ?_, ?_⟩, ?_⟩
    · rw [h.data, List.take_append_of_le_length hle]
    · rw [List.length_append]
      exact iff_of_true hf (by omega)
    · rw [List.drop_append_of_le_length hle]
  · have hlt : taken.length < n := Nat.lt_of_not_le fun hle => hf (h.finished.2 hle)
    have hdata : p.buffer.data = taken := by rw [h.data, List.take_of_length_le (Nat.le_of_lt hlt)]
    have htake : (taken ++ chunk).take n = taken ++ chunk.take (n - taken.length) := by
      rw [List.take_append, List.take_of_length_le (Nat.le_of_lt hlt)]
    rw [if_neg hf]
    simp only [h.length, hdata]
    refine ⟨⟨rfl, htake.symm, ?_⟩, ?_⟩
    · simp only [beq_iff_eq, List.length_append, List.length_take]
      omega
    · rw [List.drop_append, List.drop_eq_nil_of_le (Nat.le_of_lt hlt)]

/-- Chunk by chunk a picker takes the stream, and no bound is violated on the way. -/
theorem Took.feed (h : p.Took n taken) (chunks : List (Bytes × String)) :
    p.feed? chunks = some (p.feed chunks) ∧
      (p.feed chunks).picker.Took n (taken ++ (chunks.map Prod.fst).flatten) ∧
      taken.drop n ++ (p.feed chunks).rests.flatten =
        (taken ++ (chunks.map Prod.fst).flatten).drop n := by
  induction chunks generalizing p taken with
  | nil =>
      refine ⟨rfl, ?_, ?_⟩
      · rw [List.map_nil, List.flatten_nil, List.append_nil]
        exact h
      · simp [FixedLengthFramePicker.feed]
  | cons entry chunks ih =>
      obtain ⟨chunk, address⟩ := entry
      have hshort : p.buffer.data.length ≤ p.length := by
        rw [h.data, h.length, List.length_take]
        exact Nat.min_le_left _ _
      obtain ⟨htook, hrest⟩ := h.append chunk address
      obtain ⟨hbounds, hall, hrests⟩ := ih htook
      rw [List.map_cons, List.flatten_cons, ← List.append_assoc]
      refine ⟨?_, hall, ?_⟩
      · simp only [feed?, append?_eq hshort, Option.bind_eq_bind, Option.bind_some, hbounds,
          Option.pure_def, FixedLengthFramePicker.feed]
      · rw [← hrests, ← hrest, List.append_assoc]
        rfl

/-- However a stream is cut into chunks, a picker makes of it the message of `n` bytes. -/
structure Fills (p : FixedLengthFramePicker) (n : Nat) (chunks : List (Bytes × String)) : Prop where
  /-- In particular there are never more bytes collected than wanted. -/
  bounds : p.feed? chunks = some (p.feed chunks)
  finished : FramePicker.isFinished (p.feed chunks).picker = true ↔
    n ≤ (chunks.map Prod.fst).flatten.length
  frame : (FramePicker.buildFrame (p.feed chunks).picker).1.data =
    (chunks.map Prod.fst).flatten.take n
  rests : (p.feed chunks).rests.flatten = (chunks.map Prod.fst).flatten.drop n
  unfinished : (chunks.map Prod.fst).flatten.length < n →
    (FramePicker.partialFrame (p.feed chunks).picker).data = (chunks.map Prod.fst).flatten

theorem Took.fills (h : p.Took n []) (chunks : List (Bytes × String)) : p.Fills n chunks := by
  obtain ⟨hbounds, hall, hrests⟩ := h.feed chunks
  rw [List.nil_append] at hall hrests
  refine ⟨hbounds, hall.finished, hall.data, ?_, fun hlt => ?_⟩
  · rw [← hrests, List.drop_nil, List.nil_append]
  · exact hall.data.trans (List.take_of_length_le (Nat.le_of_lt hlt))

theorem length_perform (p : FixedLengthFramePicker) (call : FramePicker.Call) :
    (FramePicker.perform p call).2.length = p.length := by
  cases call with
  | append chunk address => exact p.length_append chunk address
  | isFinished => rfl
  | snapshot => rfl
  | build => rfl
  | reset => rfl

/-- A new picker of `n` bytes makes the message of `n` bytes of every stream, and so does one that
has been used in any way before, once it is reset. -/
theorem fills_of_reset (n : Nat) (chunks : List (Bytes × String)) :
    (new n).Fills n chunks ∧ ∀ history : List FramePicker.Call,
      (FramePicker.reset (FramePicker.used (new n) history)).Fills n chunks := by
  refine ⟨(took_new n).fills chunks, fun history => ?_⟩
  have hlength : (FramePicker.used (new n) history).length = n :=
    FramePicker.used_of_kept (I := fun p => p.length = n)
      (fun p call hp => (length_perform p call).trans hp) history rfl
  have hreset : FramePicker.reset (FramePicker.used (new n) history) = new n :=
    congrArg new hlength
  rw [hreset]
  exact (took_new n).fills chunks

end Reactor.FixedLengthFramePicker
