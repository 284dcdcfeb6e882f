import Reactor.Frame.AnyPicker
import Reactor.Proofs.Frame.Marker

/-! The pickers once more, with each difference, each place where bytes are cut and each width of a
window checked. None of them is out of range, neither on the way from a new picker to a finished one
nor after anything else that can be done with a picker. -/

namespace Reactor

/-- The difference of two sizes, if it is not negative. -/
def sub? (m n : Nat) : Option Nat :=
  if n ≤ m then some (m - n) else none

theorem sub?_eq {m n : Nat} (h : n ≤ m) : sub? m n = some (m - n) :=
  if_pos h

namespace Bytes

variable {caseSensitive : Bool} {needle text : Bytes} {start i : Nat}

/-- The bytes from a place on, if there is such a place. -/
def drop? (text : Bytes) (i : Nat) : Option Bytes :=
  if i ≤ text.length then some (text.drop i) else none

theorem drop?_eq (h : i ≤ text.length) : text.drop? i = some (text.drop i) :=
  if_pos h

/-- The search through windows of the width of the needle. A window has to have a width. -/
def search? (caseSensitive : Bool) (needle text : Bytes) (start : Nat) : Option (Option Nat) :=
  if text.length ≤ start then some none
  else if needle.isEmpty then none
  else do
    let rest ← text.drop? start
    return (find? caseSensitive needle rest).map (· + start)

theorem search?_eq (hn : needle ≠ []) :
    search? caseSensitive needle text start =
      some (findFrom? caseSensitive needle text start) := by
  unfold search? findFrom?
  split
  · rename_i hle
    rw [List.drop_eq_nil_of_le hle]
    simp [find?, hn]
  · rename_i hle
    rw [if_neg (by simpa using hn), drop?_eq (by omega)]
    rfl

end Bytes

namespace FixedLengthFramePicker

variable {p : FixedLengthFramePicker}

/-- To append a chunk with all bounds checked; there is no outcome if one of them is violated. -/
def append? (p : FixedLengthFramePicker) (chunk : Bytes) (address : String) :
    Option (Appended FixedLengthFramePicker) :=
  if p.buffer.finished then some ⟨p, chunk, true⟩
  else do
    let need := min (← sub? p.length p.buffer.data.length) chunk.length
    let rest ← chunk.drop? need
    let data := p.buffer.data ++ chunk.take need
    let finished := data.length == p.length
    return ⟨⟨p.length, data, address, finished⟩, rest, finished⟩

/-- No bound is violated by a picker that has not collected more than it has to. -/
theorem append?_eq (h : p.buffer.data.length ≤ p.length) (chunk : Bytes) (address : String) :
    p.append? chunk address = some (p.append chunk address) := by
  unfold append? append
  split
  · rfl
  · simp only [sub?_eq h, Option.bind_eq_bind, Option.bind_some,
      Bytes.drop?_eq (Nat.min_le_right _ _), Option.pure_def]
    rcases Nat.le_total (p.length - p.buffer.data.length) chunk.length with hle | hle
    · rw [Nat.min_eq_left hle]
    · rw [Nat.min_eq_right hle, List.take_length, List.drop_length, List.take_of_length_le hle,
        List.drop_eq_nil_of_le hle]

theorem length_data_append {p : FixedLengthFramePicker} (h : p.buffer.data.length ≤ p.length)
    (chunk : Bytes) (address : String) :
    (p.append chunk address).picker.buffer.data.length ≤
      (p.append chunk address).picker.length := by
  unfold append
  by_cases hf : p.buffer.finished = true
  · rw [if_pos hf]
    exact h
  · rw [if_neg hf]
    change (p.buffer.data ++ chunk.take (p.length - p.buffer.data.length)).length ≤ p.length
    rw [List.length_append, List.length_take]
    omega

end FixedLengthFramePicker

namespace MarkerFramePicker

variable {p : MarkerFramePicker} {taken chunk : Bytes} {address : String} {i : Nat}

def seekStart? (p : MarkerFramePicker) : Option MarkerFramePicker :=
  match p.start with
  | none => some { p with started := true }
  | some start => do
      match ← Bytes.search? p.caseSensitive start p.buffer.data 0 with
      | some offset =>
          let data ← p.buffer.data.drop? offset
          return { p with
            started := true
            searched := start.length
            buffer := { p.buffer with data := data } }
      | none =>
          let keep := min (← sub? start.length 1) p.buffer.data.length
          let data ← p.buffer.data.drop? (← sub? p.buffer.data.length keep)
          return { p with buffer := { p.buffer with data := data } }

def frameEnd? (p : MarkerFramePicker) : Option (Except Nat Nat) :=
  match p.stop with
  | none => some (if p.start.isSome then .ok p.startLength else .ok p.buffer.data.length)
  | some stop => do
      match ← Bytes.search? p.caseSensitive stop p.buffer.data (max p.searched p.startLength) with
      | some offset => return .ok (offset + stop.length)
      | none =>
          let last ← sub? stop.length 1
          return .error (max (p.buffer.data.length - last) p.startLength)

def absorb? (p : MarkerFramePicker) (chunk : Bytes) (address : String) :
    Option MarkerFramePicker :=
  let fed := { p with
    buffer := { p.buffer with data := p.buffer.data ++ chunk, address := address } }
  if fed.started then some fed else fed.seekStart?

def cutFrame? (p : MarkerFramePicker) (chunk : Bytes) : Option (Appended MarkerFramePicker) := do
  match ← p.frameEnd? with
  | .ok length =>
      let excess ← sub? p.buffer.data.length length
      let rest ← chunk.drop? (← sub? chunk.length excess)
      let data := p.buffer.data.take length
      return ⟨{ p with buffer := { p.buffer with data := data, finished := true } }, rest, true⟩
  | .error searched => return ⟨{ p with searched := searched }, [], false⟩

/-- To append a chunk with all bounds checked; there is no outcome if one of them is violated. -/
def append? (p : MarkerFramePicker) (chunk : Bytes) (address : String) :
    Option (Appended MarkerFramePicker) :=
  if p.buffer.finished then some ⟨p, chunk, true⟩
  else do
    let fed ← p.absorb? chunk address
    if fed.started then fed.cutFrame? chunk else return ⟨fed, [], false⟩

theorem seekStart?_eq (hs : p.start ≠ some []) : p.seekStart? = some p.seekStart := by
  unfold seekStart? seekStart
  rcases hstart : p.start with _ | start
  · rfl
  · have hne : start ≠ [] := Bytes.ne_nil_of_eq_some hs hstart
    have hpos := List.length_pos_iff.2 hne
    simp only [Bytes.search?_eq hne, Option.bind_eq_bind, Option.bind_some]
    rcases hfind : Bytes.findFrom? p.caseSensitive start p.buffer.data 0 with _ | offset
    · simp only [sub?_eq hpos, Option.bind_some, sub?_eq (Nat.min_le_right _ _),
        Bytes.drop?_eq (Nat.sub_le _ _), Option.pure_def]
    · have hle := Bytes.le_length_of_findFrom? hne hfind
      simp only [Bytes.drop?_eq (show offset ≤ p.buffer.data.length by omega), Option.bind_some,
        Option.pure_def]

theorem absorb?_eq (hs : p.start ≠ some []) (chunk : Bytes) (address : String) :
    p.absorb? chunk address = some (p.absorb chunk address) := by
  unfold absorb? absorb
  dsimp only
  split
  · rfl
  · exact seekStart?_eq hs

theorem frameEnd?_eq (hs : p.stop ≠ some []) : p.frameEnd? = some p.frameEnd := by
  unfold frameEnd? frameEnd
  rcases hstop : p.stop with _ | stop
  · rfl
  · have hne : stop ≠ [] := Bytes.ne_nil_of_eq_some hs hstop
    have hpos := List.length_pos_iff.2 hne
    simp only [Bytes.search?_eq hne, Option.bind_eq_bind, Option.bind_some]
    rcases Bytes.findFrom? p.caseSensitive stop p.buffer.data (max p.searched p.startLength) with
      _ | offset
    · simp only [sub?_eq hpos, Option.bind_some, Option.pure_def]
    · rfl

/-- The end of a frame lies in the buffer, and what is past it came with the chunk. -/
def Fits (p : MarkerFramePicker) (chunk : Bytes) : Prop :=
  ∀ length, p.frameEnd = .ok length →
    length ≤ p.buffer.data.length ∧ p.buffer.data.length - length ≤ chunk.length

theorem cutFrame?_eq (hs : p.stop ≠ some []) (hfits : p.Fits chunk) :
    p.cutFrame? chunk = some (p.cutFrame chunk) := by
  unfold cutFrame? cutFrame
  simp only [frameEnd?_eq hs, Option.bind_eq_bind, Option.bind_some]
  rcases hend : p.frameEnd with searched | length
  · rfl
  · obtain ⟨hlen, hexcess⟩ := hfits length hend
    simp only [sub?_eq hlen, sub?_eq hexcess, Bytes.drop?_eq (Nat.sub_le _ _), Option.bind_some,
      Option.pure_def]

theorem Ready.fits (hp : p.Delimited) (h : p.Ready taken chunk i) : p.Fits chunk := by
  intro length hend
  rcases he : p.endAt? (taken ++ chunk) i with _ | e
  · obtain ⟨stop, -, herror⟩ := h.frameEnd_of_none he
    rw [hend] at herror
    cases herror
  · have hlast := h.frameEnd_of_some hp he
    rw [hend, Except.ok.injEq] at hlast
    have hle := endAt?_le hp h.begins he
    have hlate := h.late e he
    rw [hlast, h.data, List.length_drop]
    rw [List.length_append] at hle ⊢
    omega

theorem append?_of_fits (hstart : p.start ≠ some []) (hstop : p.stop ≠ some [])
    (hfits : (p.absorb chunk address).started = true → (p.absorb chunk address).Fits chunk) :
    p.append? chunk address = some (p.append chunk address) := by
  have hmarkers := p.markers_absorb chunk address
  simp only [markers, Prod.mk.injEq] at hmarkers
  unfold append? append
  split
  · rfl
  · simp only [absorb?_eq hstart, Option.bind_eq_bind, Option.bind_some]
    split
    · rename_i hs
      exact cutFrame?_eq (hmarkers.2.1 ▸ hstop) (hfits hs)
    · rfl

/-- No bound is violated by a chunk that is appended to an unfinished picker. -/
theorem Holds.append? (hp : p.Delimited) (h : p.Holds taken) (chunk : Bytes) (address : String) :
    p.append? chunk address = some (p.append chunk address) := by
  refine append?_of_fits hp.start hp.stop fun hs => ?_
  rcases absorb_spec hp h chunk address with ⟨-, hs'⟩ | ⟨i, hready⟩
  · rw [hs'] at hs
    cases hs
  · exact hready.fits (hp.of_markers (p.markers_absorb chunk address))

/-! ## After any calls -/

/-- The markers are not empty, and what an unfinished picker has collected is short: shorter than
the start marker as long as this is missing, and too short to hold the end marker at a place where
it may still begin. It may be shorter than this place, since a message can be taken out before it is
complete. -/
structure Poised (p : MarkerFramePicker) : Prop where
  start : p.start ≠ some []
  stop : p.stop ≠ some []
  seeking : p.buffer.finished = false → p.started = false →
    p.buffer.data.length ≤ p.startLength - 1
  ending : p.buffer.finished = false → p.started = true → ∃ stop, p.stop = some stop ∧
    p.buffer.data.length < max p.searched p.startLength + stop.length

theorem poised_of_unstarted (hstart : p.start ≠ some []) (hstop : p.stop ≠ some [])
    (hs : p.started = false) (hd : p.buffer.data.length ≤ p.startLength - 1) : p.Poised :=
  ⟨hstart, hstop, fun _ _ => hd, fun _ hs' => by rw [hs] at hs'; cases hs'⟩

theorem poised_new (start stop : Option Bytes) (caseSensitive : Bool) :
    (new start stop caseSensitive).Poised := by
  refine poised_of_unstarted ?_ ?_ rfl (Nat.zero_le _)
  · simp [new, Option.filter_eq_some_iff]
  · simp [new, Option.filter_eq_some_iff]

theorem Poised.build (h : p.Poised) : (FramePicker.buildFrame p).2.Poised := by
  refine ⟨h.start, h.stop, fun _ _ => Nat.zero_le _, fun hf hs => ?_⟩
  obtain ⟨stop, hstop, hlt⟩ := h.ending hf hs
  exact ⟨stop, hstop, Nat.zero_lt_of_lt hlt⟩

theorem Poised.reset (h : p.Poised) : (FramePicker.reset p).Poised :=
  poised_of_unstarted h.start h.stop rfl (Nat.zero_le _)

/-- What is past the end of the message of a started picker came with the chunk: the end marker does
not lie in the bytes that were there before, and without one the message is the start marker. -/
structure Scans (p : MarkerFramePicker) (chunk : Bytes) : Prop where
  marked : p.stop = none → p.start.isSome = true →
    p.startLength ≤ p.buffer.data.length ∧ p.buffer.data.length ≤ p.startLength + chunk.length
  ending : ∀ stop, p.stop = some stop →
    p.buffer.data.length ≤ max p.searched p.startLength + stop.length + chunk.length

theorem seekStart_cases (hstart : p.start ≠ some [])
    (hd : p.buffer.data.length ≤ p.startLength - 1 + chunk.length) (hs : p.started = false) :
    (p.seekStart.started = false ∧ p.seekStart.buffer.data.length ≤ p.seekStart.startLength - 1) ∨
      p.seekStart.started = true ∧ p.seekStart.Scans chunk := by
  rcases hm : p.start with _ | start
  · have hlen : p.startLength = 0 := by simp [startLength, hm]
    have hseek : p.seekStart = { p with started := true } := by simp only [seekStart, hm]
    rw [hseek]
    refine .inr ⟨rfl, fun _ h => ?_, fun stop _ => ?_⟩
    · simp [hm] at h
    · change p.buffer.data.length ≤ max p.searched p.startLength + stop.length + chunk.length
      omega
  · have hlen : p.startLength = start.length := by simp [startLength, hm]
    have hne : start ≠ [] := Bytes.ne_nil_of_eq_some hstart hm
    have hpos := List.length_pos_iff.2 hne
    rcases hfind : Bytes.findFrom? p.caseSensitive start p.buffer.data 0 with _ | offset
    · have hseek : p.seekStart = { p with
          buffer := { p.buffer with
            data := p.buffer.data.drop (p.buffer.data.length -
              min (start.length - 1) p.buffer.data.length) } } := by
        simp only [seekStart, hm, hfind]
      rw [hseek]
      refine .inl ⟨hs, ?_⟩
      change (p.buffer.data.drop _).length ≤ p.startLength - 1
      rw [List.length_drop]
      omega
    · have hle := Bytes.le_length_of_findFrom? hne hfind
      have hseek : p.seekStart = { p with
          started := true
          searched := start.length
          buffer := { p.buffer with data := p.buffer.data.drop offset } } := by
        simp only [seekStart, hm, hfind]
      rw [hseek]
      refine .inr ⟨rfl, fun _ _ => ?_, fun stop _ => ?_⟩
      · change p.startLength ≤ (p.buffer.data.drop offset).length ∧
          (p.buffer.data.drop offset).length ≤ p.startLength + chunk.length
        rw [List.length_drop]
        omega
      · change (p.buffer.data.drop offset).length ≤
          max start.length p.startLength + stop.length + chunk.length
        rw [List.length_drop]
        omega

theorem Poised.absorb_cases (h : p.Poised) (hf : p.buffer.finished = false) (chunk : Bytes)
    (address : String) :
    ((p.absorb chunk address).started = false ∧
        (p.absorb chunk address).buffer.data.length ≤ (p.absorb chunk address).startLength - 1) ∨
      (p.absorb chunk address).started = true ∧ (p.absorb chunk address).Scans chunk := by
  unfold absorb
  dsimp only
  by_cases hs : p.started = true
  · obtain ⟨stop, hstop, hlt⟩ := h.ending hf hs
    rw [if_pos hs]
    refine .inr ⟨hs, fun hnone => ?_, fun stop' hstop' => ?_⟩
    · change p.stop = none at hnone
      rw [hstop] at hnone
      cases hnone
    · obtain rfl : stop = stop' := Option.some.inj (hstop.symm.trans hstop')
      change (p.buffer.data ++ chunk).length ≤
        max p.searched p.startLength + stop.length + chunk.length
      rw [List.length_append]
      omega
  · rw [if_neg hs]
    have hs' : p.started = false := by simpa using hs
    have hd := h.seeking hf hs'
    refine seekStart_cases h.start ?_ hs'
    change (p.buffer.data ++ chunk).length ≤ p.startLength - 1 + chunk.length
    rw [List.length_append]
    omega

/-- The message ends in the buffer, and what is past it came with the chunk. -/
theorem Scans.fits (h : p.Scans chunk) (hstop : p.stop ≠ some []) : p.Fits chunk := by
  intro length hend
  unfold frameEnd at hend
  rcases hm : p.stop with _ | stop
  · rw [hm] at hend
    dsimp only at hend
    by_cases hstart : p.start.isSome = true
    · obtain ⟨hle, hle'⟩ := h.marked hm hstart
      rw [if_pos hstart, Except.ok.injEq] at hend
      omega
    · rw [if_neg hstart, Except.ok.injEq] at hend
      omega
  · have hle := h.ending stop hm
    rw [hm] at hend
    dsimp only at hend
    rcases hfind : Bytes.findFrom? p.caseSensitive stop p.buffer.data
      (max p.searched p.startLength) with _ | offset
    · rw [hfind] at hend
      cases hend
    · have hne : stop ≠ [] := Bytes.ne_nil_of_eq_some hstop hm
      have hlate := ((Bytes.findFrom?_eq_some_iff hne).1 hfind).1
      have hfound := Bytes.le_length_of_findFrom? hne hfind
      rw [hfind, Except.ok.injEq] at hend
      omega

theorem lt_of_frameEnd {searched : Nat} (hstop : p.stop ≠ some [])
    (h : p.frameEnd = .error searched) : ∃ stop, p.stop = some stop ∧
      p.buffer.data.length < max searched p.startLength + stop.length := by
  unfold frameEnd at h
  rcases hm : p.stop with _ | stop
  · rw [hm] at h
    dsimp only at h
    split at h <;> cases h
  · have hpos : 0 < stop.length :=
      List.length_pos_iff.2 (Bytes.ne_nil_of_eq_some hstop hm)
    rw [hm] at h
    dsimp only at h
    split at h
    · cases h
    · rw [Except.error.injEq] at h
      exact ⟨stop, rfl, by omega⟩

/-- A picker that has looked for the end in vain goes on where it may still begin. -/
theorem poised_cutFrame (hstart : p.start ≠ some []) (hstop : p.stop ≠ some [])
    (hs : p.started = true) (chunk : Bytes) : (p.cutFrame chunk).picker.Poised := by
  unfold cutFrame
  rcases hend : p.frameEnd with searched | length
  · have hlt := lt_of_frameEnd hstop hend
    refine ⟨hstart, hstop, fun _ hs' => ?_, fun _ _ => hlt⟩
    change p.started = false at hs'
    rw [hs] at hs'
    cases hs'
  · exact ⟨hstart, hstop, nofun, nofun⟩

theorem Poised.append (h : p.Poised) (chunk : Bytes) (address : String) :
    (p.append chunk address).picker.Poised := by
  have hmarkers := p.markers_absorb chunk address
  simp only [markers, Prod.mk.injEq] at hmarkers
  have hstart : (p.absorb chunk address).start ≠ some [] := hmarkers.1 ▸ h.start
  have hstop : (p.absorb chunk address).stop ≠ some [] := hmarkers.2.1 ▸ h.stop
  unfold MarkerFramePicker.append
  by_cases hf : p.buffer.finished = true
  · rw [if_pos hf]
    exact h
  · rw [if_neg hf]
    dsimp only
    rcases h.absorb_cases (by simpa using hf) chunk address with ⟨hs, hd⟩ | ⟨hs, -⟩
    · rw [if_neg (by simp [hs])]
      exact poised_of_unstarted hstart hstop hs hd
    · rw [if_pos hs]
      exact poised_cutFrame hstart hstop hs chunk

/-- No bound is violated by a chunk, whatever has been done with the picker before. -/
theorem Poised.append?_eq (h : p.Poised) (chunk : Bytes) (address : String) :
    p.append? chunk address = some (p.append chunk address) := by
  by_cases hf : p.buffer.finished = true
  · simp [MarkerFramePicker.append?, MarkerFramePicker.append, hf]
  · have hmarkers := p.markers_absorb chunk address
    simp only [markers, Prod.mk.injEq] at hmarkers
    refine append?_of_fits h.start h.stop fun hs => ?_
    rcases h.absorb_cases (by simpa using hf) chunk address with ⟨hs', -⟩ | ⟨-, hscans⟩
    · rw [hs'] at hs
      cases hs
    · exact hscans.fits (hmarkers.2.1 ▸ h.stop)

end MarkerFramePicker

/-- To append a chunk to any picker with all bounds checked. A picker that takes all of a chunk, or
as many bytes of it as there are, has no bound to violate. -/
def Picker.append? (p : Picker) (chunk : Bytes) (address : String) : Option (Appended Picker) :=
  match p with
  | raw p => some (lift raw (p.append chunk address))
  | fixedLength p => (p.append? chunk address).map (lift fixedLength)
  | marker p => (p.append? chunk address).map (lift marker)
  | counting p => some (lift counting (p.append chunk address))

end Reactor
