import Reactor.Proofs.Frame.Bounds
import Reactor.Proofs.Frame.ByteOrder
import Reactor.Proofs.Frame.Pieces

/-! What a picker owes to those who use it, after any calls in any order: also after a message has
been taken out before it was complete, and after the picker has been reset. -/

namespace Reactor

/-! ## The calls of a picker -/

namespace FramePicker

inductive Call where
  | append (chunk : Bytes) (address : String)
  | isFinished
  | snapshot
  | build
  | reset
  deriving DecidableEq, Repr

inductive Reply where
  | appended (rest : Bytes) (finished : Bool)
  | finished (answer : Bool)
  | snapshot (snapshot : PartialFrame)
  | built (frame : Frame)
  | done
  deriving DecidableEq, Repr

variable {π : Type} [FramePicker π]

def perform (p : π) : Call → Reply × π
  | .append chunk address =>
      let fed := append p chunk address
      (.appended fed.rest fed.finished, fed.picker)
  | .isFinished => (.finished (isFinished p), p)
  | .snapshot => (.snapshot (partialFrame p), p)
  | .build => (.built (buildFrame p).1, (buildFrame p).2)
  | .reset => (.done, reset p)

def used (p : π) (calls : List Call) : π :=
  calls.foldl (fun p call => (perform p call).2) p

/-- All that can be observed of a picker: its answers to some calls. -/
def replies (p : π) : List Call → List Reply
  | [] => []
  | call :: calls => (perform p call).1 :: replies (perform p call).2 calls

/-- What every call keeps holds after all of them. -/
theorem used_of_kept {I : π → Prop} (hkept : ∀ p call, I p → I (perform p call).2)
    (calls : List Call) {p : π} (h : I p) : I (used p calls) := by
  induction calls generalizing p with
  | nil => exact h
  | cons call calls ih => exact ih (hkept p call h)

end FramePicker

open FramePicker (Call perform used replies)

namespace MarkerFramePicker

theorem reset_of_markers {p q : MarkerFramePicker} (h : q.markers = p.markers) :
    FramePicker.reset q = FramePicker.reset p := by
  simp only [markers, Prod.mk.injEq] at h
  obtain ⟨hstart, hstop, hcase⟩ := h
  simp only [FramePicker.reset, hstart, hstop, hcase]

end MarkerFramePicker

namespace CountingFramePicker

theorem limits_append (p : CountingFramePicker) (chunk : Bytes) (address : String) :
    (p.append chunk address).picker.take = p.take ∧
      (p.append chunk address).picker.count = p.count := by
  unfold append
  split <;> exact ⟨rfl, rfl⟩

end CountingFramePicker

/-! ## Every picker -/

namespace Picker

variable {p p₀ : Picker} {chunk : Bytes} {address : String}

/-- A picker of the library within its bounds. -/
def Regular : Picker → Prop
  | raw _ => True
  | fixedLength p => p.buffer.data.length ≤ p.length
  | marker p => p.Poised
  | counting _ => False

theorem Regular.builtIn (h : p.Regular) : p.BuiltIn := by
  cases p with
  | raw p => trivial
  | fixedLength p => exact h
  | marker p => trivial
  | counting p => exact h

theorem Unused.regular (h : p.Unused) : p.Regular := by
  cases h with
  | raw => trivial
  | fixedLength length => exact Nat.zero_le length
  | marker start stop caseSensitive => exact MarkerFramePicker.poised_new start stop caseSensitive

/-- A picker stays within its bounds, whatever is done with it. -/
theorem Regular.perform (h : p.Regular) (call : Call) : (perform p call).2.Regular := by
  cases call with
  | append chunk address =>
      cases p with
      | raw p => trivial
      | fixedLength p => exact p.length_data_append h chunk address
      | marker p => exact MarkerFramePicker.Poised.append h chunk address
      | counting p => exact h
  | isFinished => exact h
  | snapshot => exact h
  | build =>
      cases p with
      | raw p => trivial
      | fixedLength p => exact Nat.zero_le _
      | marker p => exact MarkerFramePicker.Poised.build h
      | counting p => exact h
  | reset =>
      cases p with
      | raw p => trivial
      | fixedLength p => exact Nat.zero_le _
      | marker p => exact MarkerFramePicker.Poised.reset h
      | counting p => exact h

theorem Regular.append?_eq (h : p.Regular) (chunk : Bytes) (address : String) :
    p.append? chunk address = some (FramePicker.append p chunk address) := by
  cases p with
  | raw p => rfl
  | fixedLength p => exact congrArg (Option.map _) (p.append?_eq h chunk address)
  | marker p => exact congrArg (Option.map _) (MarkerFramePicker.Poised.append?_eq h chunk address)
  | counting p => rfl

/-- No call of a picker touches what a reset goes back to. -/
theorem reset_perform (p : Picker) (call : Call) :
    FramePicker.reset (FramePicker.perform p call).2 = FramePicker.reset p := by
  cases call with
  | append chunk address =>
      cases p with
      | raw p => rfl
      | fixedLength p =>
          exact congrArg (fun n => fixedLength (.new n)) (p.length_append chunk address)
      | marker p =>
          have hmarkers := p.markers_append chunk address
          exact congrArg marker (MarkerFramePicker.reset_of_markers hmarkers)
      | counting p =>
          obtain ⟨htake, hcount⟩ := p.limits_append chunk address
          change counting (.new (p.append chunk address).picker.take
            (p.append chunk address).picker.count) = counting (.new p.take p.count)
          rw [htake, hcount]
  | isFinished => rfl
  | snapshot => rfl
  | build => cases p <;> rfl
  | reset => cases p <;> rfl

theorem Unused.reset (h : p.Unused) : FramePicker.reset p = p := by
  cases h <;> rfl

/-- After a reset a picker is the one that had not been used. -/
theorem Unused.reset_used (h : p₀.Unused) (history : List Call) :
    FramePicker.reset (used p₀ history) = p₀ :=
  FramePicker.used_of_kept (I := fun p => FramePicker.reset p = p₀)
    (fun p call hp => (reset_perform p call).trans hp) history h.reset

/-- What a picker promises to one who appends a chunk. -/
structure Contract (p : Picker) (chunk : Bytes) (address : String) : Prop where
  /-- No byte is looked for outside the chunk and what has been collected, and no size is
  negative. -/
  inBounds : p.append? chunk address = some (FramePicker.append p chunk address)
  suffix : (FramePicker.append p chunk address).rest <:+ chunk
  reports : (FramePicker.append p chunk address).finished =
    FramePicker.isFinished (FramePicker.append p chunk address).picker
  takesAll : (FramePicker.append p chunk address).finished = false →
    (FramePicker.append p chunk address).rest = []
  idle : FramePicker.isFinished p = true →
    (FramePicker.append p chunk address).rest = chunk ∧
      (FramePicker.append p chunk address).finished = true ∧
      ∀ later, replies (FramePicker.append p chunk address).picker later = replies p later

theorem Regular.contract (h : p.Regular) (chunk : Bytes) (address : String) :
    p.Contract chunk address where
  inBounds := h.append?_eq chunk address
  suffix := LawfulFramePicker.rest_suffix p chunk address
  reports := LawfulFramePicker.finished_eq p chunk address
  takesAll hf := (handsBackLast p chunk address h.builtIn hf).1
  idle hf := by
    rw [LawfulFramePicker.append_of_isFinished p chunk address hf]
    exact ⟨rfl, rfl, fun _ => rfl⟩

/-- Whatever has been done with a picker, it keeps its promises, and once it is reset it can not be
told from one that has not been used. -/
theorem contract_of_used (h : p₀.Unused) (history : List Call) :
    (∀ chunk address, (used p₀ history).Contract chunk address) ∧
      ∀ later, replies (FramePicker.reset (used p₀ history)) later = replies p₀ later := by
  have hregular : (used p₀ history).Regular :=
    FramePicker.used_of_kept (fun _ call hp => hp.perform call) history h.regular
  refine ⟨hregular.contract, fun later => ?_⟩
  rw [h.reset_used history]

/-- A message is taken out after its start marker has come in: the picker goes on to its end marker,
and after a reset it looks for the start marker again. -/
theorem contract_of_used_marker :
    let p₀ := Picker.marker (.new (some [0x3c]) (some [0x3e]) true)
    let history := [Call.append [0x61, 0x3c, 0x62] "a", .build]
    p₀.Unused ∧ (∀ chunk address, (used p₀ history).Contract chunk address) ∧
      replies (used p₀ history) [.append [0x63, 0x64, 0x3e, 0x65] "b", .build] =
        [.appended [0x65] true, .built ⟨[0x63, 0x64, 0x3e], "b"⟩] ∧
      replies (FramePicker.reset (used p₀ history)) [.append [0x63, 0x64, 0x3e, 0x65] "b", .build] =
        [.appended [] false, .built ⟨[], "b"⟩] := by
  intro p₀ history
  have hp₀ : p₀.Unused := .marker _ _ _
  obtain ⟨hcontract, hreset⟩ := contract_of_used hp₀ history
  refine ⟨hp₀, hcontract, by decide, ?_⟩
  rw [hreset]
  decide

end Picker

end Reactor
