import Reactor.Frame.Picker

/-! The picker of messages of a known length. -/

namespace Reactor

/-- Collects `length` bytes. With length zero it is finished from the start. -/
structure FixedLengthFramePicker where
  length : Nat
  buffer : PickerBuffer
  deriving DecidableEq, Repr

namespace FixedLengthFramePicker

def new (length : Nat) : FixedLengthFramePicker :=
  ⟨length, { PickerBuffer.empty with finished := length == 0 }⟩

def append (p : FixedLengthFramePicker) (chunk : Bytes) (address : String) :
    Appended FixedLengthFramePicker :=
  if p.buffer.finished then ⟨p, chunk, true⟩
  else
    let need := p.length - p.buffer.data.length
    let data := p.buffer.data ++ chunk.take need
    let finished := data.length == p.length
    ⟨⟨p.length, data, address, finished⟩, chunk.drop need, finished⟩

instance : FramePicker FixedLengthFramePicker where
  append := append
  isFinished p := p.buffer.finished
  buildFrame p := (p.buffer.takeFrame.1, ⟨p.length, p.buffer.takeFrame.2⟩)
  partialFrame p := p.buffer.snapshot
  reset p := new p.length

instance : LawfulFramePicker FixedLengthFramePicker where
  rest_suffix p chunk address := by
    show (append p chunk address).rest <:+ chunk
    unfold append
    split
    · exact List.suffix_refl chunk
    · exact List.drop_suffix _ chunk
  finished_eq p chunk address := by
    show (append p chunk address).finished = (append p chunk address).picker.buffer.finished
    unfold append
    split <;> simp_all
  append_of_isFinished p chunk address h := by
    show append p chunk address = _
    unfold append
    exact if_pos h

end FixedLengthFramePicker

end Reactor
