import Reactor.Frame.Picker

/-! The picker whose message is whatever arrives in one piece. -/

namespace Reactor

/-- Collects exactly one chunk. -/
structure RawFramePicker where
  buffer : PickerBuffer
  deriving DecidableEq, Repr

namespace RawFramePicker

def new : RawFramePicker := ⟨.empty⟩

def append (p : RawFramePicker) (chunk : Bytes) (address : String) : Appended RawFramePicker :=
  if p.buffer.finished then ⟨p, chunk, true⟩
  else ⟨⟨⟨p.buffer.data ++ chunk, address, true⟩⟩, [], true⟩

instance : FramePicker RawFramePicker where
  append := append
  isFinished p := p.buffer.finished
  buildFrame p := (p.buffer.takeFrame.1, ⟨p.buffer.takeFrame.2⟩)
  partialFrame p := p.buffer.snapshot
  reset _ := new

instance : LawfulFramePicker RawFramePicker where
  rest_suffix p chunk address := by
    show (append p chunk address).rest <:+ chunk
    unfold append
    split
    · exact List.suffix_refl chunk
    · exact List.nil_suffix
  finished_eq p chunk address := by
    show (append p chunk address).finished = (append p chunk address).picker.buffer.finished
    unfold append
    split <;> simp_all
  append_of_isFinished p chunk address h := by
    show append p chunk address = _
    unfold append
    exact if_pos h

end RawFramePicker

end Reactor
