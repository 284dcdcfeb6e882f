import Mathlib.Order.Bounds.Defs
import Reactor.Proofs.Frame.Bounds

/-! The message between markers as the naive search through the whole stream finds it, and the
picker that is fed the stream in chunks until it is finished. However the stream was cut, both yield
the same message and leave the same rest. -/

namespace Reactor

namespace Bytes

variable {caseSensitive : Bool} {needle text : Bytes} {i k : Nat}

/-- Every byte of the needle agrees with the byte at its place, counted from `i`, of the text. -/
def Matches (caseSensitive : Bool) (needle text : Bytes) (i : Nat) : Prop :=
  ∀ k (hk : k < needle.length), ∃ b, text[i + k]? = some b ∧ agree caseSensitive needle[k] b = true

theorem startsWith_iff :
    ∀ {needle text : Bytes}, startsWith caseSensitive needle text = true ↔
      ∀ k (hk : k < needle.length), ∃ b, text[k]? = some b ∧ agree caseSensitive needle[k] b = true
  | [], _ => by simp [startsWith]
  | n :: needle, [] => by
      refine iff_of_false (by simp [startsWith]) fun h => ?_
      obtain ⟨b, hb, -⟩ := h 0 (Nat.succ_pos _)
      cases hb
  | n :: needle, t :: text => by
      rw [startsWith, Bool.and_eq_true, startsWith_iff]
      constructor
      · rintro ⟨hfirst, hothers⟩ k hk
        cases k with
        | zero => exact ⟨t, rfl, hfirst⟩
        | succ k => exact hothers k (Nat.lt_of_succ_lt_succ hk)
      · intro h
        refine ⟨?_, fun k hk => h (k + 1) (Nat.succ_lt_succ hk)⟩
        obtain ⟨b, hb, hagree⟩ := h 0 (Nat.succ_pos _)
        cases hb
        exact hagree

theorem occurs_iff_matches :
    Occurs caseSensitive needle text i ↔ Matches caseSensitive needle text i := by
  rw [Occurs, startsWith_iff]
  simp only [List.getElem?_drop, Matches]

/-- The search yields the least place from its start on at which the needle matches. -/
theorem findFrom?_eq_some_iff_isLeast (hn : needle ≠ []) :
    findFrom? caseSensitive needle text k = some i ↔
      IsLeast {j | k ≤ j ∧ Matches caseSensitive needle text j} i := by
  simp only [findFrom?_eq_some_iff hn, occurs_iff_matches]
  constructor
  · rintro ⟨hk, hi, hleast⟩
    exact ⟨⟨hk, hi⟩, fun j hj => Nat.le_of_not_lt fun hji => hleast j hj.1 hji hj.2⟩
  · rintro ⟨⟨hk, hi⟩, hleast⟩
    exact ⟨hk, hi, fun j hkj hji hj => Nat.not_lt.2 (hleast ⟨hkj, hj⟩) hji⟩

end Bytes

namespace MarkerFramePicker

variable {p : MarkerFramePicker} {start stop : Option Bytes} {caseSensitive : Bool}
  {taken stream : Bytes} {i e : Nat}

/-! ## The naive search -/

/-- The message begins at the least place at which the start marker matches, or with the stream if
there is no start marker. -/
def Begins (start : Option Bytes) (caseSensitive : Bool) (stream : Bytes) (i : Nat) : Prop :=
  match start with
  | none => i = 0
  | some start => IsLeast {j | Bytes.Matches caseSensitive start stream j} i

/-- The message that begins at `i` ends behind the start marker, or, if there is an end marker,
behind the least match of it that begins there or later. -/
def Ends (start stop : Option Bytes) (caseSensitive : Bool) (stream : Bytes) (i e : Nat) : Prop :=
  let body := i + (start.map List.length).getD 0
  match stop with
  | none => e = body
  | some stop =>
      ∃ q, IsLeast {j | body ≤ j ∧ Bytes.Matches caseSensitive stop stream j} q ∧
        e = q + stop.length

theorem begins_iff (hp : p.Delimited) :
    Begins p.start p.caseSensitive stream i ↔ p.startAt? stream = some i := by
  unfold Begins startAt?
  rcases hstart : p.start with _ | start
  · exact eq_comm.trans (Option.some.injEq 0 i).symm.to_iff
  · have hne : start ≠ [] := Bytes.ne_nil_of_eq_some hp.start hstart
    simp only [Bytes.findFrom?_eq_some_iff_isLeast hne, Nat.zero_le, true_and]

theorem ends_iff (hp : p.Delimited) :
    Ends p.start p.stop p.caseSensitive stream i e ↔ p.endAt? stream i = some e := by
  unfold Ends endAt?
  rcases hstop : p.stop with _ | stop
  · exact eq_comm.trans (Option.some.injEq _ e).symm.to_iff
  · have hne : stop ≠ [] := Bytes.ne_nil_of_eq_some hp.stop hstop
    simp only [← Bytes.findFrom?_eq_some_iff_isLeast hne, Option.map_eq_some_iff, startLength,
      eq_comm (a := e)]

/-- There is a first message exactly if it begins and ends in the stream. -/
theorem cut?_eq_some_iff {message rest : Bytes} (hp : p.Delimited) :
    p.cut? stream = some (message, rest) ↔ ∃ i e, Begins p.start p.caseSensitive stream i ∧
      Ends p.start p.stop p.caseSensitive stream i e ∧ message = (stream.drop i).take (e - i) ∧
        rest = stream.drop e := by
  simp only [begins_iff hp, ends_iff hp, cut?, Option.bind_eq_bind, Option.bind_eq_some_iff,
    Option.some.injEq, Prod.mk.injEq]
  grind

/-! ## The stream in chunks -/

/-- A picker that was fed chunks, and what each append handed back. -/
structure Fed where
  picker : MarkerFramePicker
  rests : List Bytes

def Fed.appended (x : Fed) (chunks : List (Bytes × String)) : Bytes :=
  ((chunks.take x.rests.length).map Prod.fst).flatten

/-- Appends chunks, each with the address it came from, in order until the picker is finished. -/
def feed (p : MarkerFramePicker) : List (Bytes × String) → Fed
  | [] => ⟨p, []⟩
  | (chunk, address) :: chunks =>
      let fed := p.append chunk address
      if fed.finished then ⟨fed.picker, [fed.rest]⟩
      else
        let later := fed.picker.feed chunks
        ⟨later.picker, fed.rest :: later.rests⟩

/-- The same with all bounds checked. -/
def feed? (p : MarkerFramePicker) : List (Bytes × String) → Option Fed
  | [] => some ⟨p, []⟩
  | (chunk, address) :: chunks => do
      let fed ← p.append? chunk address
      if fed.finished then return ⟨fed.picker, [fed.rest]⟩
      else
        let later ← fed.picker.feed? chunks
        return ⟨later.picker, fed.rest :: later.rests⟩

/-- The picker has cut off the first message of the stream, or it has taken all of the stream and
knows of no message in it. -/
inductive Fed.Spec (x : Fed) (p : MarkerFramePicker) (count : Nat) (stream : Bytes) : Prop where
  | finished (earlier : Nat) (rest : Bytes) (hf : x.picker.buffer.finished = true)
      (hr : x.rests = List.replicate earlier [] ++ [rest])
      (hc : p.cut? stream = some (x.picker.buffer.data, rest))
  | unfinished (hr : x.rests = List.replicate count []) (hh : x.picker.Holds stream)
      (hm : x.picker.markers = p.markers)

theorem feed_spec (hp : p.Delimited) (h : p.Holds taken) (chunks : List (Bytes × String)) :
    (p.feed chunks).Spec p chunks.length (taken ++ (p.feed chunks).appended chunks) ∧
      p.feed? chunks = some (p.feed chunks) := by
  induction chunks generalizing p taken with
  | nil =>
      refine ⟨.unfinished rfl ?_ rfl, rfl⟩
      rwa [show (p.feed []).appended [] = [] from rfl, List.append_nil]
  | cons first chunks ih =>
      obtain ⟨chunk, address⟩ := first
      simp only [feed, feed?, h.append? hp chunk address, Option.bind_eq_bind, Option.bind_some]
      have hreport := LawfulFramePicker.finished_eq p chunk address
      rcases append_spec hp h chunk address with ⟨hf, hcut⟩ | ⟨hf, hrest, hholds⟩
      · rw [if_pos hf]
        refine ⟨.finished 0 _ (hreport.symm.trans hf) rfl ?_, if_pos hf⟩
        simpa [Fed.appended] using hcut
      · have hmarkers := p.markers_append chunk address
        rw [if_neg (by simp [hf]), if_neg (by simp [hf])]
        obtain ⟨hspec, hchecked⟩ := ih (hp.of_markers hmarkers) hholds
        refine ⟨?_, by rw [hchecked]; rfl⟩
        rw [List.append_assoc] at hspec
        cases hspec with
        | finished earlier rest hf hr hc =>
            rw [cut?_of_markers hmarkers] at hc
            exact .finished (earlier + 1) rest hf (by simp [hr, hrest, List.replicate_succ]) hc
        | unfinished hr hh hm =>
            exact .unfinished (by simp [hr, hrest, List.replicate_succ]) hh (hm.trans hmarkers)

namespace Fed.Spec

variable {x : Fed} {count : Nat} {s : Bytes}

theorem finished_iff (hp : p.Delimited) (h : x.Spec p count s) :
    x.picker.buffer.finished = true ↔ ∃ i e, Begins p.start p.caseSensitive s i ∧
      Ends p.start p.stop p.caseSensitive s i e := by
  cases h with
  | finished earlier rest hf hr hc =>
      obtain ⟨i, e, hi, he, -, -⟩ := (cut?_eq_some_iff hp).1 hc
      exact iff_of_true hf ⟨i, e, hi, he⟩
  | unfinished hr hh hm =>
      refine iff_of_false (by simp [hh.finished]) ?_
      rintro ⟨i, e, hi, he⟩
      have hsome := (cut?_eq_some_iff hp).2 ⟨i, e, hi, he, rfl, rfl⟩
      rw [← cut?_of_markers hm, hh.cut? (hp.of_markers hm)] at hsome
      cases hsome

/-- What the picker has cut off, and what the last append handed back. -/
theorem message (hp : p.Delimited) (h : x.Spec p count s)
    (hi : Begins p.start p.caseSensitive s i)
    (he : Ends p.start p.stop p.caseSensitive s i e) :
    i ≤ e ∧ e ≤ s.length ∧ x.picker.buffer.data = (s.drop i).take (e - i) ∧
      ∃ earlier, x.rests = List.replicate earlier [] ++ [s.drop e] := by
  obtain ⟨hle, hlen⟩ := endAt?_le hp ((begins_iff hp).1 hi) ((ends_iff hp).1 he)
  have hsome := (cut?_eq_some_iff hp).2 ⟨i, e, hi, he, rfl, rfl⟩
  cases h with
  | finished earlier rest hf hr hc =>
      rw [hsome, Option.some.injEq, Prod.mk.injEq] at hc
      obtain ⟨hdata, rfl⟩ := hc
      exact ⟨by omega, hlen, hdata.symm, earlier, hr⟩
  | unfinished hr hh hm =>
      rw [← cut?_of_markers hm, hh.cut? (hp.of_markers hm)] at hsome
      cases hsome

/-- What is there of a message that is not complete. -/
theorem partialFrame (hp : p.Delimited) (h : x.Spec p count s)
    (hf : x.picker.buffer.finished = false) : x.rests = List.replicate count [] ∧
      (∀ i, Begins p.start p.caseSensitive s i → x.picker.partialFrame.data = s.drop i) ∧
      ((¬ ∃ i, Begins p.start p.caseSensitive s i) → x.picker.partialFrame.data = []) := by
  cases h with
  | finished earlier rest hf' => simp [hf'] at hf
  | unfinished hr hh hm =>
      rw [hh.partialFrame, begun_of_markers hm]
      simp only [begins_iff hp, begun]
      refine ⟨hr, fun i hi => by simp [hi], fun hnone => ?_⟩
      rcases hstart : p.startAt? s with _ | i
      · rfl
      · exact absurd ⟨i, hstart⟩ hnone

end Fed.Spec

/-- An empty marker counts as absent, so the others are kept. -/
theorem markers_new (hstart : start ≠ some []) (hstop : stop ≠ some []) (caseSensitive : Bool) :
    (new start stop caseSensitive).markers = (start, stop, caseSensitive) := by
  have hkept : ∀ marker : Option Bytes, marker ≠ some [] →
      marker.filter (!·.isEmpty) = marker := by
    rintro (_ | marker) h
    · rfl
    · rw [Option.filter_some, if_pos]
      simpa using h
  simp only [markers, new, hkept start hstart, hkept stop hstop]

/-- Without markers the first chunk is the message. -/
theorem feed_cons_of_unmarked (caseSensitive : Bool) (chunk : Bytes) (address : String)
    (chunks : List (Bytes × String)) :
    let x := (new none none caseSensitive).feed ((chunk, address) :: chunks)
    (new none none caseSensitive).feed? ((chunk, address) :: chunks) = some x ∧
      x.picker.buffer.finished = true ∧ x.appended ((chunk, address) :: chunks) = chunk ∧
      x.picker.buffer.data = chunk ∧ x.rests = [[]] := by
  simp only [feed, feed?, (poised_new none none caseSensitive).append?_eq, append_unmarked]
  exact ⟨rfl, rfl, List.append_nil chunk, rfl, rfl⟩

/-- The picker that is fed a stream in chunks agrees with the naive search through all of the
stream: on whether there is a message, on its bytes, on what follows it, and on what is there of it
as long as it is not complete. Without markers the first chunk is the message. No bound is violated
on the way. -/
theorem feed_new (start stop : Option Bytes) (hstart : start ≠ some []) (hstop : stop ≠ some [])
    (caseSensitive : Bool) (chunks : List (Bytes × String)) :
    let x := (new start stop caseSensitive).feed chunks
    let s := x.appended chunks
    (new start stop caseSensitive).feed? chunks = some x ∧
      (start.isSome ∨ stop.isSome →
        (FramePicker.isFinished x.picker = true ↔
          ∃ i e, Begins start caseSensitive s i ∧ Ends start stop caseSensitive s i e) ∧
        (∀ i e, Begins start caseSensitive s i → Ends start stop caseSensitive s i e →
          i ≤ e ∧ e ≤ s.length ∧
            (FramePicker.buildFrame x.picker).1.data = (s.drop i).take (e - i) ∧
            ∃ earlier, x.rests = List.replicate earlier [] ++ [s.drop e]) ∧
        (FramePicker.isFinished x.picker = false →
          x.rests = List.replicate chunks.length [] ∧
          (∀ i, Begins start caseSensitive s i →
            (FramePicker.partialFrame x.picker).data = s.drop i) ∧
          ((¬ ∃ i, Begins start caseSensitive s i) →
            (FramePicker.partialFrame x.picker).data = []))) ∧
      (start = none ∧ stop = none →
        (chunks = [] → FramePicker.isFinished x.picker = false ∧ x.rests = [] ∧
          (FramePicker.partialFrame x.picker).data = []) ∧
        ∀ first later, chunks = first :: later → FramePicker.isFinished x.picker = true ∧
          s = first.1 ∧ (FramePicker.buildFrame x.picker).1.data = first.1 ∧
          x.rests = [[]]) := by
  intro x s
  by_cases hmarked : start.isSome ∨ stop.isSome
  · have hmarkers := markers_new hstart hstop caseSensitive
    simp only [markers, Prod.mk.injEq] at hmarkers
    obtain ⟨hfirst, hlast, hcase⟩ := hmarkers
    have hp : (new start stop caseSensitive).Delimited := delimited_new (by rwa [hfirst, hlast])
    obtain ⟨hspec, hchecked⟩ := feed_spec hp holds_new chunks
    rw [List.nil_append] at hspec
    have hfinished := hspec.finished_iff hp
    have hmessage := fun i e => hspec.message (i := i) (e := e) hp
    have hpartial := hspec.partialFrame hp
    simp only [hfirst, hlast, hcase] at hfinished hmessage hpartial
    refine ⟨hchecked, fun _ => ⟨hfinished, hmessage, hpartial⟩, ?_⟩
    rintro ⟨rfl, rfl⟩
    simp at hmarked
  · obtain ⟨rfl, rfl⟩ : start = none ∧ stop = none := by simpa using hmarked
    cases chunks with
    | nil =>
        refine ⟨rfl, fun h => absurd h hmarked, fun _ => ⟨fun _ => ⟨rfl, rfl, rfl⟩, ?_⟩⟩
        rintro first later ⟨⟩
    | cons first later =>
        obtain ⟨hchecked, hfed⟩ :=
          feed_cons_of_unmarked caseSensitive first.1 first.2 later
        refine ⟨hchecked, fun h => absurd h hmarked, fun _ => ⟨?_, ?_⟩⟩
        · rintro ⟨⟩
        · rintro _ _ ⟨⟩
          exact hfed

/-- A start marker, in either case, that is split between two chunks behind some noise. -/
theorem feed_new_split :
    let x := (new (some [0x41, 0x42]) (some [0x0A]) false).feed
      [([0x7A, 0x61], ""), ([0x62, 0x63, 0x0A, 0x64], "")]
    some ([0x41, 0x42] : Bytes) ≠ some [] ∧ some ([0x0A] : Bytes) ≠ some [] ∧
      FramePicker.isFinished x.picker = true ∧
      (FramePicker.buildFrame x.picker).1.data = [0x61, 0x62, 0x63, 0x0A] ∧
      x.rests = [[], [0x64]] ∧
      ∃ i e, Begins (some [0x41, 0x42]) false [0x7A, 0x61, 0x62, 0x63, 0x0A, 0x64] i ∧
        Ends (some [0x41, 0x42]) (some [0x0A]) false [0x7A, 0x61, 0x62, 0x63, 0x0A, 0x64] i e := by
  refine ⟨by decide, by decide, by decide, by decide, by decide, ?_⟩
  obtain ⟨-, hmarked, -⟩ := feed_new (some [0x41, 0x42]) (some [0x0A]) (by decide) (by decide)
    false [([0x7A, 0x61], ""), ([0x62, 0x63, 0x0A, 0x64], "")]
  exact (hmarked (by decide)).1.1 (by decide)

end MarkerFramePicker

end Reactor
