import Reactor.Proofs.Frame.Pieces

/-! The way of every byte from a source into a message. An assembler is read from again and again,
and its calls may pull from different sources. Each byte that arrives has a place in the order of
arrival. A message is the piece that ends where the bytes that are left over begin, so the pieces
are in order and have no byte in common. The bytes that are left over always came in one chunk; that
is why the one address that the assembler keeps for them is the right one. -/

namespace Reactor

/-! ## Bytes that arrive -/

/-- A byte that has been pulled, with the source and the address of its chunk. -/
structure Arrival (κ : Type) where
  source : κ
  address : String
  byte : UInt8
  deriving DecidableEq, Repr

namespace Arrival

variable {κ : Type} {l more before piece left : List (Arrival κ)} {b : Arrival κ} {source : κ}
  {i i' j k : Nat}

def bytes (l : List (Arrival κ)) : Bytes := l.map byte

def ofChunk (source : κ) (chunk : Bytes × String) : List (Arrival κ) :=
  chunk.1.map (⟨source, chunk.2, ·⟩)

def ofChunks (source : κ) (chunks : List (Bytes × String)) : List (Arrival κ) :=
  chunks.flatMap (ofChunk source)

/-- The arrivals from one place up to another. -/
def segment (l : List (Arrival κ)) (i j : Nat) : List (Arrival κ) := (l.take j).drop i

/-- The arrivals from one place up to another are all from the source of the last one. -/
def LikeLast (l : List (Arrival κ)) (i j : Nat) : Prop :=
  ∀ b ∈ segment l i j, ∀ last ∈ (l.take j).getLast?, b.source = last.source

theorem bytes_append (l more : List (Arrival κ)) : bytes (l ++ more) = bytes l ++ bytes more :=
  List.map_append

theorem length_bytes (l : List (Arrival κ)) : (bytes l).length = l.length :=
  List.length_map byte

theorem bytes_ofChunk (source : κ) (chunk : Bytes × String) :
    bytes (ofChunk source chunk) = chunk.1 := by
  simp [bytes, ofChunk, Function.comp_def]

theorem ofChunks_singleton (source : κ) (chunk : Bytes × String) :
    ofChunks source [chunk] = ofChunk source chunk :=
  List.append_nil _

theorem of_mem_ofChunk {chunk : Bytes × String} (h : b ∈ ofChunk source chunk) :
    b.source = source ∧ b.address = chunk.2 := by
  obtain ⟨byte, -, rfl⟩ := List.mem_map.1 h
  exact ⟨rfl, rfl⟩

theorem source_of_mem_ofChunks {chunks : List (Bytes × String)} (h : b ∈ ofChunks source chunks) :
    b.source = source := by
  obtain ⟨chunk, -, hb⟩ := List.mem_flatMap.1 h
  exact (of_mem_ofChunk hb).1

theorem segment_length (l : List (Arrival κ)) (i : Nat) : segment l i l.length = l.drop i := by
  rw [segment, List.take_length]

/-- What has arrived stays at its place. -/
theorem segment_append (h : j ≤ l.length) : segment (l ++ more) i j = segment l i j := by
  rw [segment, List.take_append_of_le_length h, segment]

theorem segment_piece : segment (before ++ piece ++ left) before.length
    (before.length + piece.length) = piece := by
  rw [segment, ← List.length_append, List.take_left, List.drop_left]

theorem mem_segment_of_le (hi : i ≤ i') (h : b ∈ segment l i' j) : b ∈ segment l i j :=
  (List.drop_sublist_drop_left (l.take j) hi).subset h

theorem mem_drop_of_mem_segment (h : b ∈ segment l i j) : b ∈ l.drop i :=
  ((List.take_sublist j l).drop i).subset h

theorem mem_segment_of_take (h : b ∈ segment (l.take j) i k) : b ∈ segment l i k := by
  rw [segment, List.take_take, Nat.min_comm, ← List.take_take] at h
  exact ((List.take_sublist j (l.take k)).drop i).subset h

theorem segment_append_drop (hj : i ≤ j) (l : List (Arrival κ)) :
    segment l i j ++ l.drop j = l.drop i := by
  have hdrop : l.drop j = (l.drop j).drop (i - (l.take j).length) := by
    rcases Nat.le_total j l.length with hle | hle
    · rw [List.length_take, Nat.min_eq_left hle, Nat.sub_eq_zero_of_le hj, List.drop_zero]
    · rw [List.drop_eq_nil_of_le hle, List.drop_nil]
  rw [segment, hdrop, ← List.drop_append, List.take_append_drop]

/-- An arrival between two places is before or behind a third one. -/
theorem mem_segment_cases (hk : i ≤ k) (h : b ∈ segment l i j) :
    b ∈ segment l i k ∨ b ∈ segment l k j := by
  rw [segment, ← segment_append_drop hk, List.mem_append] at h
  exact h.imp_left mem_segment_of_take

theorem exists_mem_segment (hk : i < k) (h : segment l i j ≠ []) :
    ∃ b ∈ segment l i j, b ∈ segment l i k := by
  have hne : segment (l.take j) i k ≠ [] := by
    have hlt : i < (l.take j).length := by simpa [segment] using h
    intro hnil
    have hle := List.drop_eq_nil_iff.1 hnil
    rw [List.length_take] at hle
    omega
  obtain ⟨b, hb⟩ := List.exists_mem_of_ne_nil _ hne
  exact ⟨b, ((List.take_sublist k (l.take j)).drop i).subset hb, mem_segment_of_take hb⟩

theorem LikeLast.append (h : LikeLast l i j) (hj : j ≤ l.length) (more : List (Arrival κ)) :
    LikeLast (l ++ more) i j := by
  intro b hb last hlast
  rw [segment_append hj] at hb
  rw [List.take_append_of_le_length hj] at hlast
  exact h b hb last hlast

theorem LikeLast.of_le (h : LikeLast l i j) (hi : i ≤ i') : LikeLast l i' j :=
  fun b hb => h b (mem_segment_of_le hi hb)

end Arrival

/-! ## The record of the chunks -/

/-- The chunk that a pull yields, if it yields one. -/
def Chunk.pulled : Ending SocketError Chunk → List (Bytes × String)
  | .done (.data bytes address) => [(bytes, address)]
  | _ => []

theorem Arrival.ofChunks_pulled_of_none {κ : Type} (source : κ) {pulled : Ending SocketError Chunk}
    (h : Chunk.bytes pulled = []) : ofChunks source (Chunk.pulled pulled) = [] := by
  rcases pulled with (⟨bytes, _⟩ | _ | _) | _ | _
  · obtain rfl : bytes = [] := h
    rfl
  all_goals rfl

/-- A source, and the chunks that have been pulled from it. -/
structure Logged (σ : Type) where
  source : σ
  chunks : List (Bytes × String)

namespace Logged

variable {σ : Type} [ChunkSource σ]

def pull (s : Logged σ) : Ending SocketError Chunk × Logged σ :=
  ((ChunkSource.pull s.source).1,
    ⟨(ChunkSource.pull s.source).2, s.chunks ++ Chunk.pulled (ChunkSource.pull s.source).1⟩)

instance : ChunkSource (Logged σ) where
  pull := pull
  remaining s := ChunkSource.remaining s.source
  remaining_lt s := ChunkSource.remaining_lt s.source

end Logged

namespace FrameAssembler

variable {π σ : Type} [FramePicker π] [ChunkSource σ]

def chunks (a : FrameAssembler) (p : π) (s : σ) : List (Bytes × String) :=
  (a.assemble p (Logged.mk s [])).source.chunks

/-- To log the chunks changes nothing else. -/
theorem assemble_unlogged (a : FrameAssembler) (p : π) (s : Logged σ) :
    (a.assemble p s).along Logged.source = a.assemble p s.source :=
  (assemble_along (f := Logged.source) (fun _ => rfl) a p s).symm

end FrameAssembler

/-! ## One call -/

section Call

variable {κ σ : Type} {frame : Frame} {taken news piece left held : List (Arrival κ)} {p : Picker}
  {a : FrameAssembler} {source : κ}

/-- A call has come to a message that consists of these bytes, and leaves those over. -/
structure Assembled.Delivers (x : Assembled Picker σ) (frame : Frame)
    (piece left : List (Arrival κ)) : Prop where
  ending : x.ending = .done (.frame frame)
  data : Arrival.bytes piece = frame.data
  last : ∀ b ∈ piece.getLast?, b.address = frame.address
  unhandled : Arrival.bytes left = x.assembler.unhandled
  origin : ∀ b ∈ left, b.address = x.assembler.address

/-- A call that pulls these bytes, with a picker that has taken others before, comes to a message or
its picker takes them too. What it leaves over came in one chunk. -/
inductive Assembled.Carves (x : Assembled Picker σ) (taken news : List (Arrival κ)) : Prop where
  | frame (frame : Frame) (before piece left : List (Arrival κ))
      (hall : taken ++ news = before ++ piece ++ left) (hleft : left <:+ news)
      (hx : x.Delivers frame piece left)
  | unframed (he : ∀ frame, x.ending ≠ .done (.frame frame)) (ha : x.assembler.unhandled = [])
      (hc : x.picker.Collects (Arrival.bytes (taken ++ news)))

theorem Assembled.Delivers.unlogged {x : Assembled Picker (Logged σ)}
    (h : x.Delivers frame piece left) : (x.along Logged.source).Delivers frame piece left :=
  ⟨h.ending, h.data, h.last, h.unhandled, h.origin⟩

theorem Assembled.Carves.unlogged {x : Assembled Picker (Logged σ)} (h : x.Carves taken news) :
    (x.along Logged.source).Carves taken news := by
  cases h with
  | frame frame before piece left hall hleft hx =>
      exact .frame frame before piece left hall hleft hx.unlogged
  | unframed he ha hc => exact .unframed he ha hc

/-- The picker has taken some of the bytes in this call. -/
theorem Assembled.Carves.of_taken {x : Assembled Picker σ} {new : List (Arrival κ)}
    (h : x.Carves (taken ++ new) news) : x.Carves taken (new ++ news) := by
  cases h with
  | frame frame before piece left hall hleft hx =>
      rw [List.append_assoc] at hall
      exact .frame frame before piece left hall (hleft.trans (List.suffix_append new news)) hx
  | unframed he ha hc =>
      rw [List.append_assoc] at hc
      exact .unframed he ha hc

namespace FrameAssembler

/-- The chunk that completes a message gives it its last byte and its address, and all that is left
over. -/
theorem delivers_of_completes (taken new : List (Arrival κ)) {address : String} {n : Nat}
    (ha : a.unhandled = []) (hp : FramePicker.isFinished p = false) (hnew : new ≠ [])
    (haddress : ∀ b ∈ new, b.address = address)
    (hn : p.Completes (Arrival.bytes taken) (Arrival.bytes new) address n) (s : σ) :
    ∃ frame before piece left, taken ++ new = before ++ piece ++ left ∧ left <:+ new ∧
      ((a.stash (FramePicker.append p (Arrival.bytes new) address).rest address).deliver
        (FramePicker.append p (Arrival.bytes new) address).picker s).Delivers frame piece left := by
  have hkept := unhandled_stash_of_nil ha
    (FramePicker.append p (Arrival.bytes new) address).rest address
  obtain ⟨before, front, hfront, hchunk, htaken⟩ :=
    hn.exists_front (by simpa [Arrival.bytes] using hnew)
  obtain ⟨own, left, rfl, rfl, hleft⟩ := List.map_eq_append_iff.1 hchunk
  have hsplit : (taken ++ own).map Arrival.byte = _ := List.map_append.trans htaken
  obtain ⟨skipped, piece, hpieces, -, hpiece⟩ := List.map_eq_append_iff.1 hsplit
  refine ⟨_, skipped, piece, left, ?_, List.suffix_append own left, rfl, hpiece, ?_, ?_, ?_⟩
  · rw [← List.append_assoc, hpieces]
  · intro b hb
    have hlast : (taken ++ own).getLast? = some b := by
      rw [hpieces, List.getLast?_append, hb]
      rfl
    have hne : own ≠ [] := fun hnil => hfront (congrArg (List.map Arrival.byte) hnil)
    have hown : own.getLast? = some b := by
      rw [List.getLast?_append, List.getLast?_eq_some_getLast hne] at hlast
      rw [List.getLast?_eq_some_getLast hne]
      exact hlast
    rw [haddress b (List.mem_append_left left (List.mem_of_getLast? hown))]
    exact (Picker.address_append hp _ _).symm
  · exact hleft.trans hkept.symm
  · intro b hb
    have hrest : (FramePicker.append p (Arrival.bytes (own ++ left)) address).rest ≠ [] := by
      rw [← hleft]
      simpa using List.ne_nil_of_mem hb
    rw [haddress b (List.mem_append_right own hb)]
    exact (address_stash a hrest address).symm

variable [ChunkSource σ]

theorem pullAll_carves (hc : p.Collects (Arrival.bytes taken)) (ha : a.unhandled = [])
    (s : Logged σ) (source : κ) : ∃ chunks, (a.pullAll p s).source.chunks = s.chunks ++ chunks ∧
      (a.pullAll p s).Carves taken (Arrival.ofChunks source chunks) := by
  induction s using ChunkSource.pulls_induction generalizing a p taken with
  | none s h =>
      rw [pullAll_of_none h]
      refine ⟨Chunk.pulled (ChunkSource.pull s).1, rfl,
        .unframed (Chunk.conclusion_ne_frame _ _) ha ?_⟩
      rw [Arrival.ofChunks_pulled_of_none source h, List.append_nil]
      exact hc
  | some s bytes address h hb ih =>
      have hlog : (ChunkSource.pull s).2.chunks = s.chunks ++ [(bytes, address)] := by
        show s.chunks ++ Chunk.pulled (ChunkSource.pull s).1 = _
        rw [h]
        rfl
      have hnew : Arrival.bytes (Arrival.ofChunk source (bytes, address)) = bytes :=
        Arrival.bytes_ofChunk source (bytes, address)
      have hne : Arrival.ofChunk source (bytes, address) ≠ [] := by simpa [Arrival.ofChunk] using hb
      rw [pullAll_of_bytes h hb]
      rcases hc.append_cases hb address with ⟨n, hn⟩ | hn
      · rw [if_pos hn.finished]
        obtain ⟨frame, before, piece, left, hall, hleft, hx⟩ :=
          delivers_of_completes taken (Arrival.ofChunk source (bytes, address)) ha hc.isFinished hne
            (fun b hb => (Arrival.of_mem_ofChunk hb).2) (hnew ▸ hn) (ChunkSource.pull s).2
        refine ⟨[(bytes, address)], hlog, ?_⟩
        rw [Arrival.ofChunks_singleton]
        exact .frame frame before piece left hall hleft (hnew ▸ hx)
      · rw [if_neg (by simp [hn.unfinished])]
        have hkept := unhandled_stash_of_nil ha (FramePicker.append p bytes address).rest address
        have hcollects : (FramePicker.append p bytes address).picker.Collects
            (Arrival.bytes (taken ++ Arrival.ofChunk source (bytes, address))) := by
          rw [Arrival.bytes_append, hnew]
          exact hn.collects
        obtain ⟨chunks, hchunks, hcarves⟩ := ih hcollects (hkept.trans hn.rest)
        refine ⟨(bytes, address) :: chunks, ?_, hcarves.of_taken⟩
        rw [hchunks, hlog, List.append_assoc]
        rfl

/-- An unused picker finds its message in the bytes that are left over, or it takes them all. -/
theorem assemble_of_unused (hu : p.Unused) (hheld : Arrival.bytes held = a.unhandled)
    (ho : ∀ b ∈ held, b.address = a.address) (s : σ) (source : κ) :
    (∃ frame before piece left, a.chunks p s = [] ∧ held = before ++ piece ++ left ∧
      (a.assemble p s).Delivers frame piece left) ∨
    (a.assemble p s).Carves held (Arrival.ofChunks source (a.chunks p s)) := by
  have hlogged := assemble_unlogged a p (Logged.mk s [])
  have hresume := assemble_eq_resume a p (Logged.mk s [])
  unfold chunks
  rw [← hlogged]
  cases replays_resume hu a with
  | empty hx hb =>
      rw [hx] at hresume
      refine .inl ⟨.empty, [], [], held, ?_, rfl, Assembled.Delivers.unlogged ?_⟩
      · rw [hresume]
        rfl
      · rw [hresume]
        exact ⟨congrArg (fun frame => Ending.done (Reading.frame frame)) hb, rfl, nofun, hheld, ho⟩
  | piece n ha hf hn hx =>
      rw [hx, ← hheld] at hresume
      rw [← hheld] at hn ha
      obtain ⟨frame, before, piece, left, hall, -, hdelivers⟩ :=
        delivers_of_completes (a := empty) [] held rfl hf
          (by simpa [Arrival.bytes] using ha) ho hn (Logged.mk s [])
      refine .inl ⟨frame, before, piece, left, ?_, hall, Assembled.Delivers.unlogged ?_⟩
      · rw [hresume]
        rfl
      · rw [hresume]
        exact hdelivers
  | unfinished hf ha hc =>
      rw [if_neg (by simp [hf])] at hresume
      rw [← hheld] at hc
      obtain ⟨chunks, hchunks, hcarves⟩ := pullAll_carves hc ha (Logged.mk s []) source
      rw [hresume, hchunks]
      exact .inr hcarves.unlogged

/-- A picker that has taken all there was goes on with what is pulled. -/
theorem assemble_of_collects (hc : p.Collects (Arrival.bytes taken)) (ha : a.unhandled = []) (s : σ)
    (source : κ) : (a.assemble p s).Carves taken (Arrival.ofChunks source (a.chunks p s)) := by
  have hlogged := assemble_unlogged a p (Logged.mk s [])
  have hresume := assemble_eq_resume a p (Logged.mk s [])
  rw [resume_of_collects hc ha, if_neg (by simp)] at hresume
  obtain ⟨chunks, hchunks, hcarves⟩ := pullAll_carves hc ha (Logged.mk s []) source
  unfold FrameAssembler.chunks
  rw [← hlogged, hresume, hchunks]
  exact hcarves.unlogged

end FrameAssembler

end Call

/-! ## Reading on -/

/-- An attempt to read a message: its picker and its source, the place of the first byte that may
become part of the message, and the number of bytes that had arrived when it began. -/
structure Attempt (κ : Type) where
  picker : Picker
  source : κ
  settled : Nat
  begun : Nat

/-- A message that an attempt has come to, with the place of its first byte. -/
structure Delivery (κ : Type) where
  source : κ
  begun : Nat
  place : Nat
  frame : Frame

def Delivery.stop {κ : Type} (m : Delivery κ) : Nat := m.place + m.frame.data.length

theorem Delivery.place_le_stop {κ : Type} (m : Delivery κ) : m.place ≤ m.stop :=
  Nat.le_add_right _ _

/-- An assembler that has been read from: the attempt that has not come to a message yet, all bytes
that have arrived, and all messages. -/
structure Assembly (κ : Type) where
  assembler : FrameAssembler
  attempt? : Option (Attempt κ)
  arrived : List (Arrival κ)
  messages : List (Delivery κ)

namespace Assembly

variable {κ σ : Type} {r : Assembly κ} {t : Attempt κ} {m : Delivery κ} {unused : Picker}

def start : Assembly κ := ⟨.empty, none, [], []⟩

/-- The place of the first byte that is left over. -/
def waiting (r : Assembly κ) : Nat := r.arrived.length - r.assembler.unhandled.length

/-- No byte before this place becomes part of a message any more. -/
def settled (r : Assembly κ) : Nat := (r.attempt?.map Attempt.settled).getD r.waiting

/-- The attempt of the next call: the one that has not come to a message yet, or else a new one. -/
def next (r : Assembly κ) (source : κ) (unused : Picker) : Attempt κ :=
  r.attempt?.getD ⟨unused, source, r.waiting, r.arrived.length⟩

/-- What a call has led to. The message is cut off right before the bytes that are left over. -/
def after (r : Assembly κ) (t : Attempt κ) (x : Assembled Picker σ) (news : List (Arrival κ)) :
    Assembly κ :=
  let arrived := r.arrived ++ news
  match x.ending with
  | .done (.frame frame) =>
      let place := arrived.length - x.assembler.unhandled.length - frame.data.length
      ⟨x.assembler, none, arrived, r.messages ++ [⟨t.source, t.begun, place, frame⟩]⟩
  | _ => ⟨x.assembler, some { t with picker := x.picker }, arrived, r.messages⟩

/-- A call of the assembler, which pulls from a source. -/
def call [ChunkSource σ] (r : Assembly κ) (source : κ) (unused : Picker) (s : σ) : Assembly κ :=
  let t := r.next source unused
  r.after t (r.assembler.assemble t.picker s)
    (Arrival.ofChunks t.source (r.assembler.chunks t.picker s))

/-- The attempt is given up, and with it what its picker has taken. -/
def giveUp (r : Assembly κ) : Assembly κ := { r with attempt? := none }

/-- What has come of calls with pickers of the library, a new one after each message, whatever the
sources were. -/
inductive Reached : Assembly κ → Prop where
  | start : Reached start
  | call {r : Assembly κ} {σ : Type} [ChunkSource σ] (h : Reached r) (source : κ) {unused : Picker}
      (hu : unused.Unused) (s : σ) : Reached (r.call source unused s)
  | giveUp {r : Assembly κ} (h : Reached r) : Reached r.giveUp

/-- The bytes that a message consists of, as they arrived. -/
def piece (r : Assembly κ) (m : Delivery κ) : List (Arrival κ) :=
  Arrival.segment r.arrived m.place m.stop

/-! ## What calls keep -/

/-- A message is a piece of what has arrived, and carries the address of its last byte. It may begin
in bytes that were left over when its attempt began, and goes on with bytes from its own source. -/
structure Sound (m : Delivery κ) (arrived : List (Arrival κ)) : Prop where
  begun : m.begun ≤ arrived.length
  stop : m.stop ≤ arrived.length
  data : Arrival.bytes (Arrival.segment arrived m.place m.stop) = m.frame.data
  last : ∀ b ∈ (Arrival.segment arrived m.place m.stop).getLast?, b.address = m.frame.address
  replayed : Arrival.LikeLast arrived m.place m.begun
  own : ∀ b ∈ Arrival.segment arrived m.begun m.stop, b.source = m.source

/-- An attempt begins with what was left over, and goes on with bytes from its own source. -/
structure Tried (t : Attempt κ) (arrived : List (Arrival κ)) : Prop where
  settled : t.settled ≤ t.begun
  begun : t.begun ≤ arrived.length
  replayed : Arrival.LikeLast arrived t.settled t.begun
  own : ∀ b ∈ arrived.drop t.begun, b.source = t.source

/-- The bytes that are left over are the last ones that have arrived, and they came in one chunk. -/
structure Idle (r : Assembly κ) : Prop where
  unhandled : Arrival.bytes (r.arrived.drop r.waiting) = r.assembler.unhandled
  origin : ∀ b ∈ r.arrived.drop r.waiting, b.address = r.assembler.address
  alike : Arrival.LikeLast r.arrived r.waiting r.arrived.length

/-- The picker of the attempt has taken all that has arrived since the last message. -/
structure Busy (r : Assembly κ) (t : Attempt κ) : Prop where
  unhandled : r.assembler.unhandled = []
  tried : Tried t r.arrived
  collects : t.picker.Collects (Arrival.bytes (r.arrived.drop t.settled))

/-- Every byte is accounted for: the messages are pieces of what has arrived, in order, and what
comes after them is left over or has been taken. -/
structure Accounted (r : Assembly κ) : Prop where
  messages : ∀ m ∈ r.messages, Sound m r.arrived
  ordered : r.messages.Pairwise (·.stop ≤ ·.place)
  settled : ∀ m ∈ r.messages, m.stop ≤ r.settled
  idle : r.attempt? = none → r.Idle
  busy : ∀ t, r.attempt? = some t → r.Busy t

theorem Sound.append {arrived : List (Arrival κ)} (h : Sound m arrived) (news : List (Arrival κ)) :
    Sound m (arrived ++ news) := by
  have hlength : arrived.length ≤ (arrived ++ news).length := by
    rw [List.length_append]
    exact Nat.le_add_right _ _
  refine ⟨Nat.le_trans h.begun hlength, Nat.le_trans h.stop hlength, ?_, ?_,
    h.replayed.append h.begun news, ?_⟩
  all_goals rw [Arrival.segment_append h.stop]
  · exact h.data
  · exact h.last
  · exact h.own

theorem Tried.append {arrived news : List (Arrival κ)} (h : Tried t arrived)
    (hnews : ∀ b ∈ news, b.source = t.source) : Tried t (arrived ++ news) := by
  refine ⟨h.settled, ?_, h.replayed.append h.begun news, fun b hb => ?_⟩
  · rw [List.length_append]
    exact Nat.le_add_right_of_le h.begun
  · rw [List.drop_append_of_le_length h.begun, List.mem_append] at hb
    exact hb.elim (h.own b) (hnews b)

theorem settled_of_none (h : r.attempt? = none) : r.settled = r.waiting := by
  simp [settled, h]

theorem settled_of_some (h : r.attempt? = some t) : r.settled = t.settled := by
  simp [settled, h]

theorem settled_next (r : Assembly κ) (source : κ) (unused : Picker) :
    (r.next source unused).settled = r.settled := by
  rcases h : r.attempt? with _ | t
  · simp [settled, next, h]
  · simp [settled, next, h]

theorem next_of_none (h : r.attempt? = none) (source : κ) (unused : Picker) :
    r.next source unused = ⟨unused, source, r.waiting, r.arrived.length⟩ := by
  simp [next, h]

theorem next_of_some (h : r.attempt? = some t) (source : κ) (unused : Picker) :
    r.next source unused = t := by
  simp [next, h]

theorem Accounted.tried (h : r.Accounted) (source : κ) (unused : Picker) :
    Tried (r.next source unused) r.arrived := by
  rcases ht : r.attempt? with _ | t
  · have hidle := h.idle ht
    rw [next_of_none ht]
    refine ⟨Nat.sub_le _ _, Nat.le_refl _, hidle.alike, fun b hb => ?_⟩
    rw [List.drop_length] at hb
    cases hb
  · rw [next_of_some ht]
    exact (h.busy t ht).tried

theorem after_of_frame {x : Assembled Picker σ} {frame : Frame}
    (hx : x.ending = .done (.frame frame)) (news : List (Arrival κ)) :
    r.after t x news = ⟨x.assembler, none, r.arrived ++ news, r.messages ++ [⟨t.source, t.begun,
      (r.arrived ++ news).length - x.assembler.unhandled.length - frame.data.length, frame⟩]⟩ := by
  simp only [after, hx]

theorem after_of_unframed {x : Assembled Picker σ} (hx : ∀ frame, x.ending ≠ .done (.frame frame))
    (news : List (Arrival κ)) : r.after t x news =
      ⟨x.assembler, some { t with picker := x.picker }, r.arrived ++ news, r.messages⟩ := by
  unfold after
  dsimp only
  split
  · rename_i frame hframe
    exact absurd hframe (hx frame)
  · rfl

theorem sound_of_delivers {x : Assembled Picker σ} {frame : Frame}
    {arrived front piece left : List (Arrival κ)} (ht : Tried t arrived)
    (hall : arrived = front ++ piece ++ left) (hfront : t.settled ≤ front.length)
    (hx : x.Delivers frame piece left) :
    Sound ⟨t.source, t.begun, front.length, frame⟩ arrived := by
  have hlength : frame.data.length = piece.length := by
    rw [← hx.data, Arrival.length_bytes]
  have hpiece :
      Arrival.segment arrived front.length (front.length + frame.data.length) = piece := by
    rw [hall, hlength, Arrival.segment_piece]
  constructor
  case begun => exact ht.begun
  case stop =>
    change front.length + frame.data.length ≤ arrived.length
    rw [hall, hlength, List.length_append, List.length_append]
    exact Nat.le_add_right _ _
  case data =>
    change Arrival.bytes (Arrival.segment arrived front.length _) = frame.data
    rw [Delivery.stop, hpiece, hx.data]
  case last =>
    change ∀ b ∈ (Arrival.segment arrived front.length _).getLast?, b.address = frame.address
    rw [Delivery.stop, hpiece]
    exact hx.last
  case replayed => exact ht.replayed.of_le hfront
  case own => exact fun b hb => ht.own b (Arrival.mem_drop_of_mem_segment hb)

theorem waiting_of_left (earlier left : List (Arrival κ)) (hall : r.arrived = earlier ++ left)
    (hleft : Arrival.bytes left = r.assembler.unhandled) : r.waiting = earlier.length := by
  rw [waiting, hall, ← hleft, Arrival.length_bytes, List.length_append, Nat.add_sub_cancel]

theorem idle_of_left (earlier left : List (Arrival κ)) (hall : r.arrived = earlier ++ left)
    (hleft : Arrival.bytes left = r.assembler.unhandled)
    (ho : ∀ b ∈ left, b.address = r.assembler.address)
    (hl : ∀ b ∈ left, ∀ last ∈ r.arrived.getLast?, b.source = last.source) : r.Idle := by
  have hdrop : r.arrived.drop r.waiting = left := by
    rw [waiting_of_left earlier left hall hleft, hall, List.drop_left]
  refine ⟨by rw [hdrop, hleft], by rwa [hdrop], fun b hb last hlast => ?_⟩
  rw [Arrival.segment_length, hdrop] at hb
  rw [List.take_length] at hlast
  exact hl b hb last hlast

/-- What an attempt cuts from the bytes at hand lies behind all that is settled. -/
theorem Tried.exists_front (ht : Tried t r.arrived) {before piece left news : List (Arrival κ)}
    (hall : r.arrived.drop t.settled ++ news = before ++ piece ++ left) :
    ∃ front, r.arrived ++ news = front ++ piece ++ left ∧ t.settled ≤ front.length := by
  refine ⟨r.arrived.take t.settled ++ before, ?_, ?_⟩
  · calc
      r.arrived ++ news = r.arrived.take t.settled ++ (r.arrived.drop t.settled ++ news) := by
        rw [← List.append_assoc, List.take_append_drop]
      _ = r.arrived.take t.settled ++ before ++ piece ++ left := by
        rw [hall, List.append_assoc, List.append_assoc, List.append_assoc]
  · have hle := Nat.le_trans ht.settled ht.begun
    rw [List.length_append, List.length_take, Nat.min_eq_left hle]
    exact Nat.le_add_right _ _

/-- A call that comes to a message. -/
theorem Accounted.deliver (h : r.Accounted) (ht : Tried t r.arrived) (hs : t.settled = r.settled)
    {x : Assembled Picker σ} {frame : Frame} {before piece left news : List (Arrival κ)}
    (hnews : ∀ b ∈ news, b.source = t.source)
    (hall : r.arrived.drop t.settled ++ news = before ++ piece ++ left)
    (hx : x.Delivers frame piece left)
    (hl : ∀ b ∈ left, ∀ last ∈ (r.arrived ++ news).getLast?, b.source = last.source) :
    (r.after t x news).Accounted := by
  obtain ⟨front, harrived, hsettled⟩ := ht.exists_front hall
  have hplace : (r.arrived ++ news).length - x.assembler.unhandled.length - frame.data.length =
      front.length := by
    rw [harrived, ← hx.unhandled, ← hx.data, Arrival.length_bytes, Arrival.length_bytes,
      List.length_append, List.length_append]
    omega
  have hmessage := sound_of_delivers (ht.append hnews) harrived hsettled hx
  have hstop : ∀ m ∈ r.messages, m.stop ≤ front.length := fun m hm =>
    Nat.le_trans (hs ▸ h.settled m hm) hsettled
  rw [after_of_frame hx.ending, hplace]
  have hwaiting := waiting_of_left (r := ⟨x.assembler, none, r.arrived ++ news, r.messages ++
    [⟨t.source, t.begun, front.length, frame⟩]⟩) (front ++ piece) left harrived hx.unhandled
  rw [List.length_append, ← Arrival.length_bytes piece, hx.data] at hwaiting
  constructor
  case messages =>
    intro m hm
    rcases List.mem_append.1 hm with hm | hm
    · exact (h.messages m hm).append news
    · obtain rfl := List.mem_singleton.1 hm
      exact hmessage
  case ordered =>
    refine List.pairwise_append.2 ⟨h.ordered, List.pairwise_singleton _ _, fun m hm m' hm' => ?_⟩
    obtain rfl := List.mem_singleton.1 hm'
    exact hstop m hm
  case settled =>
    intro m hm
    rw [settled_of_none rfl, hwaiting]
    rcases List.mem_append.1 hm with hm | hm
    · exact Nat.le_add_right_of_le (hstop m hm)
    · obtain rfl := List.mem_singleton.1 hm
      exact Nat.le_refl _
  case idle => exact fun _ => idle_of_left _ _ harrived hx.unhandled hx.origin hl
  case busy => exact nofun

/-- A call that does not come to a message. -/
theorem Accounted.goOn (h : r.Accounted) (ht : Tried t r.arrived) (hs : t.settled = r.settled)
    {x : Assembled Picker σ} {news : List (Arrival κ)} (hnews : ∀ b ∈ news, b.source = t.source)
    (he : ∀ frame, x.ending ≠ .done (.frame frame)) (ha : x.assembler.unhandled = [])
    (hc : x.picker.Collects (Arrival.bytes (r.arrived.drop t.settled ++ news))) :
    (r.after t x news).Accounted := by
  have hgrown := ht.append hnews
  rw [after_of_unframed he]
  constructor
  case messages => exact fun m hm => (h.messages m hm).append news
  case ordered => exact h.ordered
  case settled =>
    intro m hm
    rw [settled_of_some rfl]
    exact hs ▸ h.settled m hm
  case idle => exact nofun
  case busy =>
    rintro _ ⟨⟩
    refine ⟨ha, ⟨hgrown.settled, hgrown.begun, hgrown.replayed, hgrown.own⟩, ?_⟩
    rw [← List.drop_append_of_le_length (Nat.le_trans ht.settled ht.begun)] at hc
    exact hc

/-- What a source yields last is left over if anything is. -/
theorem source_of_suffix {source : κ} {l left news : List (Arrival κ)} (hleft : left <:+ news)
    (hnews : ∀ b ∈ news, b.source = source) :
    ∀ b ∈ left, ∀ last ∈ (l ++ news).getLast?, b.source = last.source := by
  intro b hb last hlast
  have hne : news ≠ [] := List.ne_nil_of_mem (hleft.subset hb)
  rw [List.getLast?_append, List.getLast?_eq_some_getLast hne] at hlast
  obtain rfl : news.getLast hne = last := Option.some.inj hlast
  rw [hnews b (hleft.subset hb), hnews _ (List.getLast_mem hne)]

theorem Accounted.carve (h : r.Accounted) (ht : Tried t r.arrived) (hs : t.settled = r.settled)
    {x : Assembled Picker σ} {news : List (Arrival κ)} (hnews : ∀ b ∈ news, b.source = t.source)
    (hx : x.Carves (r.arrived.drop t.settled) news) : (r.after t x news).Accounted := by
  cases hx with
  | frame frame before piece left hall hleft hx =>
      exact h.deliver ht hs hnews hall hx (source_of_suffix hleft hnews)
  | unframed he ha hc => exact h.goOn ht hs hnews he ha hc

/-- Every call keeps account of the bytes. -/
theorem Accounted.call [ChunkSource σ] (h : r.Accounted) (source : κ) (hu : unused.Unused) (s : σ) :
    (r.call source unused s).Accounted := by
  have ht := h.tried source unused
  have hs := r.settled_next source unused
  have hnews : ∀ b ∈ Arrival.ofChunks (r.next source unused).source
      (r.assembler.chunks (r.next source unused).picker s), b.source = _ :=
    fun b hb => Arrival.source_of_mem_ofChunks hb
  unfold Assembly.call
  dsimp only
  rcases hattempt : r.attempt? with _ | t
  · have hidle := h.idle hattempt
    have hpicker : (r.next source unused).picker = unused := by rw [next_of_none hattempt]
    have hheld : Arrival.bytes (r.arrived.drop (r.next source unused).settled) =
        r.assembler.unhandled := by
      rw [hs, settled_of_none hattempt]
      exact hidle.unhandled
    have horigin : ∀ b ∈ r.arrived.drop (r.next source unused).settled,
        b.address = r.assembler.address := by
      rw [hs, settled_of_none hattempt]
      exact hidle.origin
    rcases FrameAssembler.assemble_of_unused (hpicker ▸ hu) hheld horigin s
        (r.next source unused).source with
      ⟨frame, before, piece, left, hnone, hall, hx⟩ | hx
    · have hnothing : Arrival.ofChunks (r.next source unused).source
          (r.assembler.chunks (r.next source unused).picker s) = [] := by
        rw [hnone]
        rfl
      rw [hnothing] at hnews ⊢
      refine h.deliver ht hs hnews (by rw [hall, List.append_nil]) hx fun b hb last hlast => ?_
      rw [List.append_nil] at hlast
      refine hidle.alike b ?_ last (by rwa [List.take_length])
      rw [Arrival.segment_length, ← settled_of_none hattempt, ← hs, hall]
      exact List.mem_append_right _ hb
    · exact h.carve ht hs hnews hx
  · have hbusy := h.busy t hattempt
    have hnext := next_of_some hattempt source unused
    refine h.carve ht hs hnews (FrameAssembler.assemble_of_collects ?_ hbusy.unhandled s _)
    rw [hnext]
    exact hbusy.collects

theorem accounted_start : (start : Assembly κ).Accounted where
  messages := nofun
  ordered := .nil
  settled := nofun
  idle _ := idle_of_left [] [] rfl rfl nofun nofun
  busy := nofun

/-- What an attempt that is given up has taken becomes part of no message. -/
theorem Accounted.giveUp (h : r.Accounted) : r.giveUp.Accounted := by
  rcases hattempt : r.attempt? with _ | t
  · have hsame : r.giveUp = r := by
      cases r
      exact congrArg (Assembly.mk _ · _ _) hattempt.symm
    rw [hsame]
    exact h
  · have hbusy := h.busy t hattempt
    have hidle : r.giveUp.Idle := idle_of_left r.arrived [] (List.append_nil _).symm
      hbusy.unhandled.symm nofun nofun
    have hwaiting : r.giveUp.waiting = r.arrived.length :=
      waiting_of_left r.arrived [] (List.append_nil _).symm hbusy.unhandled.symm
    refine ⟨h.messages, h.ordered, fun m hm => ?_, fun _ => hidle, nofun⟩
    rw [settled_of_none rfl, hwaiting]
    exact (h.messages m hm).stop

theorem Reached.accounted (h : Reached r) : r.Accounted := by
  induction h with
  | start => exact accounted_start
  | call h source hu s ih => exact ih.call source hu s
  | giveUp h ih => exact ih.giveUp

/-- Messages that are in order, from a place on, lie one after another in what has arrived there. -/
theorem pieces_sublist (arrived : List (Arrival κ)) {messages : List (Delivery κ)} {i : Nat}
    (h : messages.Pairwise (·.stop ≤ ·.place)) (hi : ∀ m ∈ messages, i ≤ m.place) :
    (messages.map fun m => Arrival.segment arrived m.place m.stop).flatten.Sublist
      (arrived.drop i) := by
  induction messages generalizing i with
  | nil => exact List.nil_sublist _
  | cons m messages ih =>
      obtain ⟨hm, hlater⟩ := List.pairwise_cons.1 h
      rw [List.map_cons, List.flatten_cons]
      refine .trans ((List.Sublist.refl _).append (ih hlater hm)) ?_
      rw [Arrival.segment_append_drop m.place_le_stop]
      exact List.drop_sublist_drop_left _ (hi m List.mem_cons_self)

/-! ## The addresses of messages -/

/-- Whatever has been read, the messages are pieces of what has arrived, in order and without a byte
in common, and the bytes that are left over are the last ones that have arrived. A message that is
not empty carries the address of the chunk in which its last byte came. So does every message that a
further call comes to. -/
theorem address_of_last_byte (h : Reached r) :
    (∀ m ∈ r.messages, Arrival.bytes (r.piece m) = m.frame.data ∧
      (m.frame.data ≠ [] →
        ∃ last, (r.piece m).getLast? = some last ∧ m.frame.address = last.address)) ∧
    r.messages.Pairwise (·.stop ≤ ·.place) ∧
    (r.attempt? = none → Arrival.bytes (r.arrived.drop r.waiting) = r.assembler.unhandled ∧
      ∀ m ∈ r.messages, m.stop ≤ r.waiting) ∧
    ∀ {σ : Type} [ChunkSource σ] (source : κ) (unused : Picker) (s : σ) (frame : Frame),
      unused.Unused →
      (r.assembler.assemble (r.next source unused).picker s).ending = .done (.frame frame) →
      Reached (r.call source unused s) ∧
        ∃ m, (r.call source unused s).messages = r.messages ++ [m] ∧ m.frame = frame := by
  have haccounted := h.accounted
  refine ⟨fun m hm => ?_, haccounted.ordered, fun hnone => ?_, ?_⟩
  · have hsound := haccounted.messages m hm
    refine ⟨hsound.data, fun hne => ?_⟩
    have hpiece : r.piece m ≠ [] := by
      intro hnil
      rw [← hsound.data] at hne
      exact hne (congrArg Arrival.bytes hnil)
    have hlast := List.getLast?_eq_some_getLast hpiece
    exact ⟨_, hlast, (hsound.last _ hlast).symm⟩
  · refine ⟨(haccounted.idle hnone).unhandled, fun m hm => ?_⟩
    rw [← settled_of_none hnone]
    exact haccounted.settled m hm
  · intro σ _ source unused s frame hu hframe
    have hcall : (r.call source unused s).messages = _ :=
      congrArg Assembly.messages (after_of_frame hframe _)
    exact ⟨h.call source hu s, _, hcall, rfl⟩

/-! ## Three messages from one chunk -/

/-- Five bytes have come in one chunk, and the first two make a message. -/
def afterChunk : Assembly Unit :=
  start.call () (.fixedLength (.new 2))
    (ChunkScript.mk [.ok (.data [0x61, 0x62, 0x63, 0x64, 0x65] "a")] 0)

theorem afterChunk_eq : afterChunk =
    ⟨⟨[0x63, 0x64, 0x65], "a"⟩, none, Arrival.ofChunk () ([0x61, 0x62, 0x63, 0x64, 0x65], "a"),
      [⟨(), 0, 0, ⟨[0x61, 0x62], "a"⟩⟩]⟩ := by
  have hcall : ∀ {σ : Type} [ChunkSource σ] (s : σ), (ChunkSource.pull s).1 =
        .done (.data [0x61, 0x62, 0x63, 0x64, 0x65] "a") →
      FrameAssembler.empty.assemble (Picker.fixedLength (.new 2)) s = _ :=
    fun s hs => FrameAssembler.assemble_of_chunk rfl hs (by decide) (by decide)
  unfold afterChunk Assembly.call FrameAssembler.chunks
  dsimp only [start, next, Option.getD_none]
  rw [hcall _ rfl, hcall _ rfl]
  rfl

/-- Two more messages are cut from what was left over, without a pull. -/
def afterReplays : Assembly Unit :=
  (afterChunk.call () (.fixedLength (.new 2)) (ChunkScript.mk [] 0)).call ()
    (.fixedLength (.new 1)) (ChunkScript.mk [] 0)

/-- The last byte of the chunk is in the third message, which has the address of the chunk too. -/
theorem address_of_replayed_byte :
    Reached afterReplays ∧
      afterReplays.messages.map Delivery.frame =
        [⟨[0x61, 0x62], "a"⟩, ⟨[0x63, 0x64], "a"⟩, ⟨[0x65], "a"⟩] ∧
      ∀ m ∈ afterReplays.messages, m.frame.data ≠ [] → ∃ last,
        (afterReplays.piece m).getLast? = some last ∧ m.frame.address = last.address := by
  have hreached : Reached afterReplays :=
    ((Reached.start.call () (.fixedLength 2) _).call () (.fixedLength 2) _).call ()
      (.fixedLength 1) _
  obtain ⟨hmessages, -⟩ := address_of_last_byte hreached
  refine ⟨hreached, ?_, fun m hm => (hmessages m hm).2⟩
  unfold afterReplays
  rw [afterChunk_eq]
  rfl

end Assembly

end Reactor
