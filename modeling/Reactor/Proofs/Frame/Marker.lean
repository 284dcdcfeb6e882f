import Reactor.Frame.Marker
import Reactor.Proofs.Frame.Search

/-! Messages between markers, cut from a stream in one pass, and the picker that does the same chunk
by chunk: it keeps only what may still matter, and never looks twice where nothing was found. -/

namespace Reactor.MarkerFramePicker

variable {p : MarkerFramePicker} {taken chunk stream more : Bytes} {address : String} {i e : Nat}

/-! ## In one pass -/

/-- Where the message begins in a stream: at the first start marker, or with the stream if there is
no start marker. -/
def startAt? (p : MarkerFramePicker) (stream : Bytes) : Option Nat :=
  match p.start with
  | none => some 0
  | some start => Bytes.findFrom? p.caseSensitive start stream 0

/-- Where a message ends that begins at a place of a stream: past the first end marker that follows
its start marker, or past the start marker if there is no end marker. -/
def endAt? (p : MarkerFramePicker) (stream : Bytes) (i : Nat) : Option Nat :=
  match p.stop with
  | none => some (i + p.startLength)
  | some stop =>
      (Bytes.findFrom? p.caseSensitive stop stream (i + p.startLength)).map (· + stop.length)

/-- The first message of a stream, and what follows it. -/
def cut? (p : MarkerFramePicker) (stream : Bytes) : Option (Bytes × Bytes) := do
  let i ← p.startAt? stream
  let e ← p.endAt? stream i
  some ((stream.drop i).take (e - i), stream.drop e)

/-- What a stream holds of the message that it begins, as long as the message is not complete. -/
def begun (p : MarkerFramePicker) (stream : Bytes) : Bytes :=
  ((p.startAt? stream).map (stream.drop ·)).getD []

/-- There is a marker, and no marker is empty. -/
structure Delimited (p : MarkerFramePicker) : Prop where
  start : p.start ≠ some []
  stop : p.stop ≠ some []
  marked : p.start.isSome ∨ p.stop.isSome

theorem delimited_new {start stop : Option Bytes} {caseSensitive : Bool}
    (h : (new start stop caseSensitive).start.isSome ∨ (new start stop caseSensitive).stop.isSome) :
    (new start stop caseSensitive).Delimited := by
  refine ⟨fun hs => ?_, fun hs => ?_, h⟩
  all_goals simp [new, Option.filter_eq_some_iff] at hs

theorem startAt?_le (hp : p.Delimited) (h : p.startAt? stream = some i) :
    i + p.startLength ≤ stream.length := by
  unfold startAt? at h
  unfold startLength
  rcases hs : p.start with _ | start
  all_goals
    rw [hs] at h
    dsimp only at h
  · cases h
    exact Nat.zero_le _
  · exact (Bytes.le_length_of_findFrom? (Bytes.ne_nil_of_eq_some hp.start hs) h).2

theorem startAt?_append (hp : p.Delimited) (h : p.startAt? stream = some i) :
    p.startAt? (stream ++ more) = some i := by
  unfold startAt? at h ⊢
  rcases hs : p.start with _ | start
  all_goals
    rw [hs] at h
    dsimp only at h ⊢
  · exact h
  · exact Bytes.findFrom?_append (Bytes.ne_nil_of_eq_some hp.start hs) h

theorem endAt?_le (hp : p.Delimited) (hi : p.startAt? stream = some i)
    (h : p.endAt? stream i = some e) : i + p.startLength ≤ e ∧ e ≤ stream.length := by
  unfold endAt? at h
  rcases hs : p.stop with _ | stop
  all_goals
    rw [hs] at h
    dsimp only at h
  · cases h
    exact ⟨Nat.le_refl _, startAt?_le hp hi⟩
  · obtain ⟨j, hj, rfl⟩ := Option.map_eq_some_iff.1 h
    have hle := Bytes.le_length_of_findFrom? (Bytes.ne_nil_of_eq_some hp.stop hs) hj
    omega

theorem endAt?_append (hp : p.Delimited) (h : p.endAt? stream i = some e) :
    p.endAt? (stream ++ more) i = some e := by
  unfold endAt? at h ⊢
  rcases hs : p.stop with _ | stop
  all_goals
    rw [hs] at h
    dsimp only at h ⊢
  · exact h
  · obtain ⟨j, hj, rfl⟩ := Option.map_eq_some_iff.1 h
    rw [Bytes.findFrom?_append (Bytes.ne_nil_of_eq_some hp.stop hs) hj]
    rfl

/-- A message that is complete does not change when more bytes arrive. -/
theorem cut?_append {message rest : Bytes} (hp : p.Delimited)
    (h : p.cut? stream = some (message, rest)) :
    p.cut? (stream ++ more) = some (message, rest ++ more) := by
  simp only [cut?, Option.bind_eq_bind, Option.bind_eq_some_iff] at h
  obtain ⟨i, hi, e, he, heq⟩ := h
  have hle := endAt?_le hp hi he
  cases heq
  simp only [cut?, startAt?_append hp hi, endAt?_append hp he, Option.bind_eq_bind,
    Option.bind_some]
  rw [List.drop_append_of_le_length (by omega), List.drop_append_of_le_length hle.2,
    List.take_append_of_le_length]
  rw [List.length_drop]
  omega

/-! ## Chunk by chunk -/

/-- What an unfinished picker knows of the bytes that it has taken. -/
inductive Holds (p : MarkerFramePicker) (taken : Bytes) : Prop where
  /-- The start marker is missing. The last bytes may be the first part of it. -/
  | seeking (hs : p.started = false) (hf : p.buffer.finished = false)
      (hk : p.searched ≤ p.startLength)
      (hn : p.start = none ∧ taken = [] ∨ p.startAt? taken = none)
      (hd : p.buffer.data = taken.drop (taken.length - (p.startLength - 1)))
  /-- The message has begun. From the place where the search goes on, no end marker fits into what
  is there. -/
  | ending {i : Nat} (hs : p.started = true) (hf : p.buffer.finished = false)
      (hk : ∀ stop, p.stop = some stop →
        p.searched ≤ p.startLength ∨ p.searched + stop.length ≤ p.buffer.data.length + 1)
      (hi : p.startAt? taken = some i) (hn : p.endAt? taken i = none)
      (hd : p.buffer.data = taken.drop i)

theorem Holds.finished (h : p.Holds taken) : p.buffer.finished = false := by
  cases h with
  | seeking _ hf => exact hf
  | ending _ hf => exact hf

theorem holds_new {start stop : Option Bytes} {caseSensitive : Bool} :
    (new start stop caseSensitive).Holds [] := by
  refine .seeking rfl rfl (Nat.zero_le _) ?_ (by simp [new, PickerBuffer.empty])
  rcases hs : (new start stop caseSensitive).start with _ | marker
  · exact .inl ⟨rfl, rfl⟩
  · have hne : marker ≠ [] := by
      rintro rfl
      simp [new, Option.filter_eq_some_iff] at hs
    refine .inr ?_
    simp [startAt?, hs, Bytes.findFrom?, Bytes.find?, hne]

/-- As long as the picker is not finished there is no complete message in what it has taken. -/
theorem Holds.cut? (hp : p.Delimited) (h : p.Holds taken) : p.cut? taken = none := by
  cases h with
  | seeking _ _ _ hn =>
      rcases hn with ⟨hstart, rfl⟩ | hn
      · rcases hs : p.stop with _ | stop
        · have hm := hp.marked
          simp [hstart, hs] at hm
        · have hne : stop ≠ [] := Bytes.ne_nil_of_eq_some hp.stop hs
          simp [MarkerFramePicker.cut?, startAt?, endAt?, hstart, hs, Bytes.findFrom?, Bytes.find?,
            hne]
      · simp [MarkerFramePicker.cut?, hn]
  | ending _ _ _ hi hn => simp [MarkerFramePicker.cut?, hi, hn]

/-- The message in the making begins where the first start marker does. -/
theorem Holds.partialFrame (h : p.Holds taken) :
    p.partialFrame.data = p.begun taken := by
  unfold MarkerFramePicker.partialFrame begun
  cases h with
  | ending hs _ _ hi _ hd =>
      rw [if_pos hs, hi]
      exact hd
  | seeking hs _ _ hn =>
      rw [if_neg (by simp [hs])]
      rcases hn with ⟨hstart, rfl⟩ | hn
      · simp [startAt?, hstart, PartialFrame.data]
      · simp [hn, PartialFrame.data]

/-- The message has begun, and if it ends in what was taken and the chunk together, then not before
the chunk. -/
structure Ready (p : MarkerFramePicker) (taken chunk : Bytes) (i : Nat) : Prop where
  started : p.started = true
  finished : p.buffer.finished = false
  begins : p.startAt? (taken ++ chunk) = some i
  data : p.buffer.data = (taken ++ chunk).drop i
  late : ∀ e, p.endAt? (taken ++ chunk) i = some e → taken.length < e
  searched : ∀ stop, p.stop = some stop →
    Bytes.findFrom? p.caseSensitive stop p.buffer.data (max p.searched p.startLength) =
      Bytes.findFrom? p.caseSensitive stop p.buffer.data p.startLength

section Arrival

/-- If the message has not ended in what was taken, it ends in the chunk. -/
theorem lt_endAt?_of_none (hp : p.Delimited)
    (hn : p.endAt? taken i = none) (he : p.endAt? (taken ++ chunk) i = some e) :
    taken.length < e := by
  unfold endAt? at hn he
  rcases hs : p.stop with _ | stop
  all_goals
    rw [hs] at hn he
    dsimp only at hn he
  · cases hn
  · have hne : stop ≠ [] := Bytes.ne_nil_of_eq_some hp.stop hs
    obtain ⟨j, hj, rfl⟩ := Option.map_eq_some_iff.1 he
    obtain ⟨hij, ho, -⟩ := (Bytes.findFrom?_eq_some_iff hne).1 hj
    refine Nat.lt_of_not_le fun hle => ?_
    exact (Bytes.findFrom?_eq_none_iff hne).1 (Option.map_eq_none_iff.1 hn) j hij
      (ho.of_append (by omega))

/-- If the start marker is not in what was taken, it ends in the chunk. -/
theorem lt_startAt?_of_none (hp : p.Delimited) (hn : p.startAt? taken = none)
    (hi : p.startAt? (taken ++ chunk) = some i) : taken.length < i + p.startLength := by
  unfold startAt? at hn hi
  rcases hs : p.start with _ | start
  all_goals
    rw [hs] at hn hi
    dsimp only at hn hi
  · cases hn
  · have hne : start ≠ [] := Bytes.ne_nil_of_eq_some hp.start hs
    obtain ⟨-, ho, -⟩ := (Bytes.findFrom?_eq_some_iff hne).1 hi
    simp only [startLength, hs, Option.map_some, Option.getD_some]
    refine Nat.lt_of_not_le fun hle => ?_
    exact (Bytes.findFrom?_eq_none_iff hne).1 hn i (Nat.zero_le i) (ho.of_append (by omega))

/-- The search for the start marker may leave out the bytes from which on the marker did not fit
before. -/
theorem startAt?_of_none {start : Bytes} (hp : p.Delimited) (hs : p.start = some start)
    (hn : p.startAt? taken = none) (chunk : Bytes) :
    p.startAt? (taken ++ chunk) =
      (Bytes.findFrom? p.caseSensitive start
        ((taken ++ chunk).drop (taken.length - (start.length - 1))) 0).map
        (· + (taken.length - (start.length - 1))) := by
  have hne : start ≠ [] := Bytes.ne_nil_of_eq_some hp.start hs
  simp only [startAt?, hs] at hn ⊢
  rw [← Bytes.findFrom?_drop, Nat.add_zero]
  refine Bytes.findFrom?_skip hne (Nat.zero_le _) fun j _ hj ho => ?_
  exact (Bytes.findFrom?_eq_none_iff hne).1 hn j (Nat.zero_le j) (ho.of_append (by omega))

/-- The search for the end marker may go on where the marker did not fit before. -/
theorem findFrom?_resume {stop : Bytes} (hp : p.Delimited) (hs : p.stop = some stop)
    (hn : p.endAt? taken i = none) {searched : Nat}
    (hk : searched ≤ p.startLength ∨ searched + stop.length ≤ (taken.drop i).length + 1) :
    Bytes.findFrom? p.caseSensitive stop (taken.drop i ++ chunk) (max searched p.startLength) =
      Bytes.findFrom? p.caseSensitive stop (taken.drop i ++ chunk) p.startLength := by
  have hne : stop ≠ [] := Bytes.ne_nil_of_eq_some hp.stop hs
  simp only [endAt?, hs, Option.map_eq_none_iff, Bytes.findFrom?_drop] at hn
  refine (Bytes.findFrom?_skip hne (Nat.le_max_right _ _) fun j hj hlt ho => ?_).symm
  exact (Bytes.findFrom?_eq_none_iff hne).1 hn j hj (ho.of_append (by omega))

end Arrival

/-- Once the message has begun, a chunk is put behind what is there. -/
theorem absorb_ending (hp : p.Delimited) (hs : p.started = true) (hf : p.buffer.finished = false)
    (hk : ∀ stop, p.stop = some stop →
      p.searched ≤ p.startLength ∨ p.searched + stop.length ≤ p.buffer.data.length + 1)
    (hi : p.startAt? taken = some i) (hn : p.endAt? taken i = none)
    (hd : p.buffer.data = taken.drop i) : (p.absorb chunk address).Ready taken chunk i := by
  have habsorb : p.absorb chunk address = { p with
      buffer := { p.buffer with data := p.buffer.data ++ chunk, address := address } } := by
    simp [absorb, hs]
  have hle := startAt?_le hp hi
  have hbegins : p.startAt? (taken ++ chunk) = some i := startAt?_append hp hi
  have hdata : p.buffer.data ++ chunk = (taken ++ chunk).drop i := by
    rw [hd, List.drop_append_of_le_length (by omega)]
  have hresume : ∀ stop, p.stop = some stop →
      Bytes.findFrom? p.caseSensitive stop (p.buffer.data ++ chunk)
          (max p.searched p.startLength) =
        Bytes.findFrom? p.caseSensitive stop (p.buffer.data ++ chunk) p.startLength := by
    intro stop hstop
    have hk' := hk stop hstop
    rw [hd] at hk' ⊢
    exact findFrom?_resume hp hstop hn hk'
  rw [habsorb]
  exact ⟨hs, hf, hbegins, hdata, fun e he => lt_endAt?_of_none hp hn he, hresume⟩

/-- Without a start marker the message begins with the first chunk. -/
theorem absorb_unmarked (hp : p.Delimited) (hs : p.started = false)
    (hf : p.buffer.finished = false) (hk : p.searched ≤ p.startLength)
    (hstart : p.start = none) (hd : p.buffer.data = []) :
    (p.absorb chunk address).Ready [] chunk 0 := by
  have habsorb : p.absorb chunk address = { p with
      started := true
      buffer := { p.buffer with data := p.buffer.data ++ chunk, address := address } } := by
    simp [absorb, hs, seekStart, hstart]
  have hbegins : p.startAt? ([] ++ chunk) = some 0 := by simp [startAt?, hstart]
  have hlate : ∀ e, p.endAt? ([] ++ chunk) 0 = some e → ([] : Bytes).length < e := by
    intro e he
    refine lt_endAt?_of_none hp ?_ he
    rcases hstop : p.stop with _ | stop
    · have hm := hp.marked
      simp [hstart, hstop] at hm
    · have hne : stop ≠ [] := Bytes.ne_nil_of_eq_some hp.stop hstop
      simp [endAt?, hstop, Bytes.findFrom?, Bytes.find?, hne]
  rw [habsorb]
  refine ⟨rfl, hf, hbegins, by simp [hd], hlate, fun stop _ => ?_⟩
  show Bytes.findFrom? _ _ _ (max p.searched p.startLength) = _
  rw [Nat.max_eq_right hk]
  rfl

/-- A missing start marker is completed by the chunk, or goes on missing. -/
theorem absorb_marked {start : Bytes} (hp : p.Delimited) (hs : p.started = false)
    (hf : p.buffer.finished = false) (hk : p.searched ≤ p.startLength)
    (hstart : p.start = some start) (hn : p.startAt? taken = none)
    (hd : p.buffer.data = taken.drop (taken.length - (p.startLength - 1))) :
    ((p.absorb chunk address).Holds (taken ++ chunk) ∧
        (p.absorb chunk address).started = false) ∨
      ∃ i, (p.absorb chunk address).Ready taken chunk i := by
  have hne : start ≠ [] := Bytes.ne_nil_of_eq_some hp.start hstart
  have hlen : p.startLength = start.length := by simp [startLength, hstart]
  have hsearch := startAt?_of_none hp hstart hn chunk
  rw [hlen] at hd
  have hdata : p.buffer.data ++ chunk =
      (taken ++ chunk).drop (taken.length - (start.length - 1)) := by
    rw [hd, List.drop_append_of_le_length (by omega)]
  rw [← hdata] at hsearch
  rcases hfind : Bytes.findFrom? p.caseSensitive start (p.buffer.data ++ chunk) 0 with _ | o
  · have habsorb : p.absorb chunk address = { p with
        buffer := { p.buffer with
          data := (taken ++ chunk).drop ((taken ++ chunk).length - (start.length - 1))
          address := address } } := by
      have hkeep : (p.buffer.data ++ chunk).drop ((p.buffer.data ++ chunk).length -
            min (start.length - 1) (p.buffer.data ++ chunk).length) =
          (taken ++ chunk).drop ((taken ++ chunk).length - (start.length - 1)) := by
        rw [hdata, List.drop_drop]
        simp only [List.length_append, List.length_drop]
        congr 1
        omega
      simp only [absorb, hs, seekStart, hstart, hfind, Bool.false_eq_true, if_false, hkeep]
    rw [hfind] at hsearch
    rw [habsorb]
    refine .inl ⟨.seeking hs hf hk (.inr hsearch) ?_, hs⟩
    rw [← hlen]
    rfl
  · have habsorb : p.absorb chunk address = { p with
        started := true
        searched := start.length
        buffer := { p.buffer with
          data := (p.buffer.data ++ chunk).drop o
          address := address } } := by
      simp only [absorb, hs, seekStart, hstart, hfind, Bool.false_eq_true, if_false]
    rw [hfind] at hsearch
    have hlate := fun e (he : p.endAt? (taken ++ chunk) _ = some e) =>
      Nat.lt_of_lt_of_le (lt_startAt?_of_none hp hn hsearch) (endAt?_le hp hsearch he).1
    rw [habsorb]
    refine .inr ⟨_, rfl, hf, hsearch, ?_, hlate, fun stop _ => ?_⟩
    · show (p.buffer.data ++ chunk).drop o = _
      rw [hdata, List.drop_drop, Nat.add_comm]
    · show Bytes.findFrom? _ _ _ (max start.length p.startLength) = _
      rw [hlen, Nat.max_self, ← hlen]
      rfl

theorem absorb_spec (hp : p.Delimited) (h : p.Holds taken) (chunk : Bytes) (address : String) :
    ((p.absorb chunk address).Holds (taken ++ chunk) ∧
        (p.absorb chunk address).started = false) ∨
      ∃ i, (p.absorb chunk address).Ready taken chunk i := by
  cases h with
  | ending hs hf hk hi hn hd => exact .inr ⟨_, absorb_ending hp hs hf hk hi hn hd⟩
  | seeking hs hf hk hn hd =>
      rcases hstart : p.start with _ | start
      · obtain rfl : taken = [] := by
          rcases hn with ⟨-, hnil⟩ | hn
          · exact hnil
          · simp [startAt?, hstart] at hn
        exact .inr ⟨0, absorb_unmarked hp hs hf hk hstart (by simpa using hd)⟩
      · have hnone : p.startAt? taken = none :=
          hn.resolve_left fun hno => by simp [hstart] at hno
        exact absorb_marked hp hs hf hk hstart hnone hd

/-- The end of the message at the front of the buffer is its end in the stream. -/
theorem Ready.frameEnd_of_some (hp : p.Delimited) (h : p.Ready taken chunk i)
    (he : p.endAt? (taken ++ chunk) i = some e) : p.frameEnd = .ok (e - i) := by
  unfold endAt? at he
  unfold frameEnd
  rcases hs : p.stop with _ | stop
  all_goals
    rw [hs] at he
    dsimp only at he ⊢
  · cases he
    have hm : p.start.isSome = true := by simpa [hs] using hp.marked
    rw [if_pos hm, Nat.add_sub_cancel_left]
  · rw [Bytes.findFrom?_drop, ← h.data, Option.map_map, Option.map_eq_some_iff] at he
    obtain ⟨j, hj, rfl⟩ := he
    rw [h.searched stop hs, hj]
    simp only [Function.comp_apply]
    congr 1
    omega

theorem Ready.frameEnd_of_none (h : p.Ready taken chunk i)
    (he : p.endAt? (taken ++ chunk) i = none) : ∃ stop, p.stop = some stop ∧
      p.frameEnd = .error (max (p.buffer.data.length - (stop.length - 1)) p.startLength) := by
  unfold endAt? at he
  unfold frameEnd
  rcases hs : p.stop with _ | stop
  all_goals
    rw [hs] at he
    dsimp only at he ⊢
  · cases he
  · rw [Bytes.findFrom?_drop, ← h.data, Option.map_map, Option.map_eq_none_iff] at he
    rw [h.searched stop hs, he]
    exact ⟨stop, rfl, rfl⟩

theorem Ready.cutFrame_of_some (hp : p.Delimited) (h : p.Ready taken chunk i)
    (he : p.endAt? (taken ++ chunk) i = some e) :
    (p.cutFrame chunk).finished = true ∧ p.cut? (taken ++ chunk) =
      some ((p.cutFrame chunk).picker.buffer.data, (p.cutFrame chunk).rest) := by
  have hle := endAt?_le hp h.begins he
  have hlt := h.late e he
  have hlen : p.buffer.data.length = taken.length + chunk.length - i := by
    rw [h.data, List.length_drop, List.length_append]
  have hrest : (taken ++ chunk).drop e =
      chunk.drop (chunk.length - (p.buffer.data.length - (e - i))) := by
    have hnil : taken.drop e = [] := List.drop_eq_nil_of_le (Nat.le_of_lt hlt)
    rw [List.length_append] at hle
    rw [List.drop_append, hnil, List.nil_append, hlen]
    congr 1
    omega
  simp only [cutFrame, h.frameEnd_of_some hp he, cut?, h.begins, he, Option.bind_eq_bind,
    Option.bind_some, hrest, ← h.data, and_self]

theorem Ready.cutFrame_of_none (hp : p.Delimited) (h : p.Ready taken chunk i)
    (he : p.endAt? (taken ++ chunk) i = none) :
    (p.cutFrame chunk).finished = false ∧ (p.cutFrame chunk).rest = [] ∧
      (p.cutFrame chunk).picker.Holds (taken ++ chunk) := by
  obtain ⟨stop, hstop, hend⟩ := h.frameEnd_of_none he
  simp only [cutFrame, hend, true_and]
  refine .ending h.started h.finished (fun stop' hstop' => ?_) h.begins he h.data
  obtain rfl : stop = stop' := Option.some.inj (hstop.symm.trans hstop')
  have hpos := List.length_pos_iff.2 (Bytes.ne_nil_of_eq_some hp.stop hstop)
  show max (p.buffer.data.length - (stop.length - 1)) p.startLength ≤ p.startLength ∨
    max (p.buffer.data.length - (stop.length - 1)) p.startLength + stop.length ≤
      p.buffer.data.length + 1
  omega

/-! ## The laws of the picker -/

/-- What a picker looks for. -/
def markers (p : MarkerFramePicker) : Option Bytes × Option Bytes × Bool :=
  (p.start, p.stop, p.caseSensitive)

theorem cut?_of_markers {q : MarkerFramePicker} (h : q.markers = p.markers) : q.cut? = p.cut? := by
  cases p
  cases q
  simp only [markers, Prod.mk.injEq] at h
  obtain ⟨rfl, rfl, rfl⟩ := h
  rfl

theorem begun_of_markers {q : MarkerFramePicker} (h : q.markers = p.markers) :
    q.begun = p.begun := by
  simp only [markers, Prod.mk.injEq] at h
  refine funext fun stream => ?_
  simp only [begun, startAt?, h.1, h.2.2]

theorem Delimited.of_markers {q : MarkerFramePicker} (hp : p.Delimited)
    (h : q.markers = p.markers) : q.Delimited := by
  simp only [markers, Prod.mk.injEq] at h
  obtain ⟨hstart, hstop, -⟩ := h
  exact ⟨hstart ▸ hp.start, hstop ▸ hp.stop, by rw [hstart, hstop]; exact hp.marked⟩

theorem markers_seekStart (p : MarkerFramePicker) : p.seekStart.markers = p.markers := by
  unfold seekStart
  split
  · rfl
  · dsimp only
    split <;> rfl

theorem markers_absorb (p : MarkerFramePicker) (chunk : Bytes) (address : String) :
    (p.absorb chunk address).markers = p.markers := by
  unfold absorb
  dsimp only
  split
  · rfl
  · exact markers_seekStart _

theorem markers_append (p : MarkerFramePicker) (chunk : Bytes) (address : String) :
    (p.append chunk address).picker.markers = p.markers := by
  have habsorb := markers_absorb p chunk address
  unfold append
  split
  · rfl
  · dsimp only
    split
    · unfold cutFrame
      split <;> exact habsorb
    · exact habsorb

/-- A chunk finishes the picker if it completes the first message of the stream, and then the picker
cuts this message off. -/
theorem append_spec (hp : p.Delimited) (h : p.Holds taken) (chunk : Bytes) (address : String) :
    ((p.append chunk address).finished = true ∧ p.cut? (taken ++ chunk) =
        some ((p.append chunk address).picker.buffer.data, (p.append chunk address).rest)) ∨
      (p.append chunk address).finished = false ∧ (p.append chunk address).rest = [] ∧
        (p.append chunk address).picker.Holds (taken ++ chunk) := by
  have hmarkers := markers_absorb p chunk address
  unfold append
  rw [if_neg (by simp [h.finished])]
  dsimp only
  rcases absorb_spec hp h chunk address with ⟨hholds, hs⟩ | ⟨i, hready⟩
  · rw [if_neg (by simp [hs])]
    exact .inr ⟨rfl, rfl, hholds⟩
  · rw [if_pos hready.started, ← cut?_of_markers hmarkers]
    have hfed := hp.of_markers hmarkers
    rcases he : (p.absorb chunk address).endAt? (taken ++ chunk) i with _ | e
    · exact .inr (hready.cutFrame_of_none hfed he)
    · exact .inl (hready.cutFrame_of_some hfed he)

/-- Without markers the first chunk is the message. -/
theorem append_unmarked (caseSensitive : Bool) (chunk : Bytes) (address : String) :
    (new none none caseSensitive).append chunk address =
      ⟨⟨none, none, caseSensitive, true, 0, ⟨chunk, address, true⟩⟩, [], true⟩ := by
  simp [append, new, absorb, seekStart, cutFrame, frameEnd, PickerBuffer.empty]

end Reactor.MarkerFramePicker
