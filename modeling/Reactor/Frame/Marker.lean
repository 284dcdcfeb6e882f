import Reactor.Frame.Picker

/-!
The picker of messages between markers. Bytes before the start marker are discarded, and the frame
includes both markers. With a start marker alone the frame is that marker; with an end marker alone
it is everything up to and including the marker.
-/

namespace Reactor

/-- Collects a message that is delimited by a start marker, an end marker, or both. `started` says
that the start has been found (so `buffer` begins with it), and `searched` is the least position at
which the end marker may still begin. -/
structure MarkerFramePicker where
  start : Option Bytes
  stop : Option Bytes
  caseSensitive : Bool
  started : Bool
  searched : Nat
  buffer : PickerBuffer
  deriving DecidableEq, Repr

namespace MarkerFramePicker

/-- A picker with the given markers; an empty marker counts as absent. -/
def new (start stop : Option Bytes) (caseSensitive : Bool) : MarkerFramePicker where
  start := start.filter (!·.isEmpty)
  stop := stop.filter (!·.isEmpty)
  caseSensitive := caseSensitive
  started := false
  searched := 0
  buffer := .empty

/-- The length of the start marker, zero if there is none. -/
def startLength (p : MarkerFramePicker) : Nat :=
  (p.start.map List.length).getD 0

/-- Looks for the start marker. When it is found everything before it is dropped. As long as it is
missing, only the tail that may be the first part of a split marker is kept. -/
def seekStart (p : MarkerFramePicker) : MarkerFramePicker :=
  match p.start with
  | none => { p with started := true }
  | some start =>
      let data := p.buffer.data
      match Bytes.findFrom? p.caseSensitive start data 0 with
      | some offset =>
          { p with
            started := true
            searched := start.length
            buffer := { p.buffer with data := data.drop offset } }
      | none =>
          let keep := min (start.length - 1) data.length
          { p with buffer := { p.buffer with data := data.drop (data.length - keep) } }

/-- The length of the frame at the front of the buffer, or the position from which the end marker
has to be looked for next time. -/
def frameEnd (p : MarkerFramePicker) : Except Nat Nat :=
  let data := p.buffer.data
  match p.stop with
  | none => if p.start.isSome then .ok p.startLength else .ok data.length
  | some stop =>
      match Bytes.findFrom? p.caseSensitive stop data (max p.searched p.startLength) with
      | some offset => .ok (offset + stop.length)
      | none => .error (max (data.length - (stop.length - 1)) p.startLength)

/-- Takes the bytes of a chunk in, and looks for the start marker if it is still missing. -/
def absorb (p : MarkerFramePicker) (chunk : Bytes) (address : String) : MarkerFramePicker :=
  let fed := { p with buffer := { p.buffer with data := p.buffer.data ++ chunk, address := address } }
  if fed.started then fed else fed.seekStart

/-- Cuts the frame off, if it is complete. The bytes past its end are the last ones of the chunk
that was just taken in. -/
def cutFrame (p : MarkerFramePicker) (chunk : Bytes) : Appended MarkerFramePicker :=
  match p.frameEnd with
  | .ok length =>
      let excess := p.buffer.data.length - length
      let data := p.buffer.data.take length
      ⟨{ p with buffer := { p.buffer with data := data, finished := true } },
        chunk.drop (chunk.length - excess), true⟩
  | .error searched => ⟨{ p with searched := searched }, [], false⟩

def append (p : MarkerFramePicker) (chunk : Bytes) (address : String) :
    Appended MarkerFramePicker :=
  if p.buffer.finished then ⟨p, chunk, true⟩
  else
    let fed := p.absorb chunk address
    if fed.started then fed.cutFrame chunk else ⟨fed, [], false⟩

/-- What has been collected; nothing, as long as the start marker is missing. -/
def partialFrame (p : MarkerFramePicker) : PartialFrame :=
  if p.started then p.buffer.snapshot else ⟨⟨[], p.buffer.address⟩⟩

instance : FramePicker MarkerFramePicker where
  append := append
  isFinished p := p.buffer.finished
  buildFrame p := (p.buffer.takeFrame.1, { p with buffer := p.buffer.takeFrame.2 })
  partialFrame := partialFrame
  reset p := { p with started := false, searched := 0, buffer := .empty }

theorem seekStart_finished (p : MarkerFramePicker) :
    p.seekStart.buffer.finished = p.buffer.finished := by
  unfold seekStart
  split
  · rfl
  · dsimp only
    split <;> rfl

theorem absorb_finished (p : MarkerFramePicker) (chunk : Bytes) (address : String) :
    (p.absorb chunk address).buffer.finished = p.buffer.finished := by
  unfold absorb
  dsimp only
  split
  · rfl
  · rw [seekStart_finished]

theorem cutFrame_rest_suffix (p : MarkerFramePicker) (chunk : Bytes) :
    (p.cutFrame chunk).rest <:+ chunk := by
  unfold cutFrame
  split
  · exact List.drop_suffix _ chunk
  · exact List.nil_suffix

theorem cutFrame_finished_eq (p : MarkerFramePicker) (chunk : Bytes)
    (h : p.buffer.finished = false) :
    (p.cutFrame chunk).finished = (p.cutFrame chunk).picker.buffer.finished := by
  unfold cutFrame
  split
  · rfl
  · exact h.symm

instance : LawfulFramePicker MarkerFramePicker where
  rest_suffix p chunk address := by
    show (append p chunk address).rest <:+ chunk
    unfold append
    split
    · exact List.suffix_refl chunk
    · dsimp only
      split
      · exact cutFrame_rest_suffix _ chunk
      · exact List.nil_suffix
  finished_eq p chunk address := by
    show (append p chunk address).finished = (append p chunk address).picker.buffer.finished
    unfold append
    by_cases h : p.buffer.finished = true
    · simp [h]
    · have hf : (p.absorb chunk address).buffer.finished = false := by
        rw [absorb_finished]
        exact Bool.eq_false_iff.2 h
      rw [if_neg h]
      dsimp only
      split
      · exact cutFrame_finished_eq _ chunk hf
      · exact hf.symm
  append_of_isFinished p chunk address h := by
    show append p chunk address = _
    unfold append
    exact if_pos h

end MarkerFramePicker

end Reactor
