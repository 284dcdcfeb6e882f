import Reactor.Frame.Raw
import Reactor.Frame.FixedLength
import Reactor.Frame.Marker
import Reactor.Frame.Counting

/-! The pickers of this library as one type, so that an operation can hold any of them. -/

namespace Reactor

inductive Picker where
  | raw (p : RawFramePicker)
  | fixedLength (p : FixedLengthFramePicker)
  | marker (p : MarkerFramePicker)
  | counting (p : CountingFramePicker)
  deriving DecidableEq, Repr

namespace Picker

/-- An answer of a particular picker as one of this type. -/
def lift {π : Type} (wrap : π → Picker) (a : Appended π) : Appended Picker :=
  ⟨wrap a.picker, a.rest, a.finished⟩

def append (p : Picker) (chunk : Bytes) (address : String) : Appended Picker :=
  match p with
  | raw p => lift raw (FramePicker.append p chunk address)
  | fixedLength p => lift fixedLength (FramePicker.append p chunk address)
  | marker p => lift marker (FramePicker.append p chunk address)
  | counting p => lift counting (FramePicker.append p chunk address)

def isFinished : Picker → Bool
  | raw p => FramePicker.isFinished p
  | fixedLength p => FramePicker.isFinished p
  | marker p => FramePicker.isFinished p
  | counting p => FramePicker.isFinished p

def buildFrame : Picker → Frame × Picker
  | raw p => (FramePicker.buildFrame p).map id raw
  | fixedLength p => (FramePicker.buildFrame p).map id fixedLength
  | marker p => (FramePicker.buildFrame p).map id marker
  | counting p => (FramePicker.buildFrame p).map id counting

def partialFrame : Picker → PartialFrame
  | raw p => FramePicker.partialFrame p
  | fixedLength p => FramePicker.partialFrame p
  | marker p => FramePicker.partialFrame p
  | counting p => FramePicker.partialFrame p

def reset : Picker → Picker
  | raw p => raw (FramePicker.reset p)
  | fixedLength p => fixedLength (FramePicker.reset p)
  | marker p => marker (FramePicker.reset p)
  | counting p => counting (FramePicker.reset p)

instance : FramePicker Picker where
  append := append
  isFinished := isFinished
  buildFrame := buildFrame
  partialFrame := partialFrame
  reset := reset

theorem append_of_finished {p : Picker} (chunk : Bytes) (address : String)
    (h : p.isFinished = true) : p.append chunk address = ⟨p, chunk, true⟩ := by
  cases p <;> simp only [append, isFinished] at h ⊢ <;>
    rw [LawfulFramePicker.append_of_isFinished _ _ _ h] <;> rfl

instance : LawfulFramePicker Picker where
  rest_suffix p chunk address := by
    cases p with
    | raw q => exact LawfulFramePicker.rest_suffix q chunk address
    | fixedLength q => exact LawfulFramePicker.rest_suffix q chunk address
    | marker q => exact LawfulFramePicker.rest_suffix q chunk address
    | counting q => exact LawfulFramePicker.rest_suffix q chunk address
  finished_eq p chunk address := by
    cases p with
    | raw q => exact LawfulFramePicker.finished_eq q chunk address
    | fixedLength q => exact LawfulFramePicker.finished_eq q chunk address
    | marker q => exact LawfulFramePicker.finished_eq q chunk address
    | counting q => exact LawfulFramePicker.finished_eq q chunk address
  append_of_isFinished _ chunk address h := append_of_finished chunk address h

/-- The number of bytes that a picker of known length collects. -/
def length? : Picker → Option Nat
  | fixedLength p => some p.length
  | _ => none

end Picker

end Reactor
