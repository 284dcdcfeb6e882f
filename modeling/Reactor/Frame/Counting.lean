import Reactor.Frame.Picker

/-! A picker that counts its chunks and takes a bounded number of bytes from each. -/

namespace Reactor

/-- Takes at most `take` bytes of each chunk and is finished after `count` chunks. Unlike the other
pickers it may leave bytes behind while it is unfinished. -/
structure CountingFramePicker where
  take : Nat
  count : Nat
  seen : Nat
  data : Bytes
  address : String
  deriving DecidableEq, Repr

namespace CountingFramePicker

def new (take count : Nat) : CountingFramePicker := ⟨take, count, 0, [], ""⟩

def isFinished (p : CountingFramePicker) : Bool := decide (p.count ≤ p.seen)

def append (p : CountingFramePicker) (chunk : Bytes) (address : String) :
    Appended CountingFramePicker :=
  if p.isFinished then ⟨p, chunk, true⟩
  else
    let fed := { p with
      seen := p.seen + 1
      data := p.data ++ chunk.take p.take
      address := address }
    ⟨fed, chunk.drop p.take, fed.isFinished⟩

instance : FramePicker CountingFramePicker where
  append := append
  isFinished := isFinished
  buildFrame p := (⟨p.data, p.address⟩, { p with data := [] })
  partialFrame p := ⟨⟨p.data, p.address⟩⟩
  reset p := new p.take p.count

instance : LawfulFramePicker CountingFramePicker where
  rest_suffix p chunk address := by
    show (append p chunk address).rest <:+ chunk
    unfold append
    split
    · exact List.suffix_refl chunk
    · exact List.drop_suffix _ chunk
  finished_eq p chunk address := by
    show (append p chunk address).finished = (append p chunk address).picker.isFinished
    unfold append
    split <;> simp_all
  append_of_isFinished p chunk address h := by
    show append p chunk address = _
    unfold append
    exact if_pos h

end CountingFramePicker

end Reactor
