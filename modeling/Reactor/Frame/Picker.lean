import Reactor.Frame.Basic

/-!
Frame pickers. A picker is fed the chunks of a stream in order, decides after each one whether the
message is complete, and hands back the bytes that it did not consume: they belong to the next
message.
-/

namespace Reactor

/-- What a picker makes of a chunk: its next state, the bytes it did not consume, and whether the
message is complete. -/
structure Appended (π : Type) where
  picker : π
  rest : Bytes
  finished : Bool

/-- The operations of a picker. A well-behaved picker returns a suffix of the chunk as its rest,
reports the same completion as `isFinished`, and leaves further chunks alone once it is finished;
`LawfulFramePicker` states this. -/
class FramePicker (π : Type) where
  /-- Feeds a chunk that came from an address. -/
  append : π → Bytes → String → Appended π
  isFinished : π → Bool
  /-- Moves the collected bytes out as a frame. -/
  buildFrame : π → Frame × π
  partialFrame : π → PartialFrame
  /-- The picker as it was before it was fed anything. -/
  reset : π → π

/-- The promises of a picker: the bytes it leaves are a suffix of the chunk, the completion it
reports is its own, and it returns every chunk untouched, without a change, once it is finished. -/
class LawfulFramePicker (π : Type) [FramePicker π] : Prop where
  rest_suffix (p : π) (chunk : Bytes) (address : String) :
    (FramePicker.append p chunk address).rest <:+ chunk
  finished_eq (p : π) (chunk : Bytes) (address : String) :
    (FramePicker.append p chunk address).finished =
      FramePicker.isFinished (FramePicker.append p chunk address).picker
  append_of_isFinished (p : π) (chunk : Bytes) (address : String) :
    FramePicker.isFinished p = true → FramePicker.append p chunk address = ⟨p, chunk, true⟩

/-- What every picker keeps: the bytes collected, the address of the last chunk fed, and whether
the message is complete. -/
structure PickerBuffer where
  data : Bytes
  address : String
  finished : Bool
  deriving DecidableEq, Repr

namespace PickerBuffer

def empty : PickerBuffer := ⟨[], "", false⟩

/-- The collected bytes as a frame, and the buffer without them. -/
def takeFrame (buffer : PickerBuffer) : Frame × PickerBuffer :=
  (⟨buffer.data, buffer.address⟩, { buffer with data := [] })

def snapshot (buffer : PickerBuffer) : PartialFrame :=
  ⟨⟨buffer.data, buffer.address⟩⟩

end PickerBuffer

end Reactor
