import Reactor.Proofs.Frame.Provenance
import Reactor.Transport.Stream

/-! The two ways in which bytes of a stream come in. Reads in band and reads of urgent data pull
from different sources, but what is left over of either waits in the same assembler, and the next
read begins with it. So a message holds bytes from the other channel exactly if it begins in what an
earlier read of that channel has left over. -/

namespace Reactor

/-! ## Messages of several sources -/

namespace Assembly

variable {κ : Type} {r : Assembly κ} {m : Delivery κ}

/-- All bytes of the message are from the source that it was read from. -/
def Own (r : Assembly κ) (m : Delivery κ) : Prop := ∀ b ∈ r.piece m, b.source = m.source

/-- The last byte that had arrived when the reading of the message began is from its source. -/
def FollowsOwn (r : Assembly κ) (m : Delivery κ) : Prop :=
  ∃ last, (r.arrived.take m.begun).getLast? = some last ∧ last.source = m.source

/-- A message that begins in bytes that were left over begins with bytes from their source. Those
that it goes on with are from its own source. -/
theorem Sound.own_iff (h : Sound m r.arrived) :
    r.Own m ↔ m.frame.data = [] ∨ m.begun ≤ m.place ∨ r.FollowsOwn m := by
  have hnil : r.piece m = [] ↔ m.frame.data = [] := by
    rw [← h.data]
    exact List.map_eq_nil_iff.symm
  constructor
  · intro hown
    by_cases hpiece : r.piece m = []
    · exact .inl (hnil.1 hpiece)
    by_cases hplace : m.begun ≤ m.place
    · exact .inr (.inl hplace)
    obtain ⟨b, hb, hreplayed⟩ := Arrival.exists_mem_segment (Nat.lt_of_not_le hplace) hpiece
    have htake : r.arrived.take m.begun ≠ [] := by
      intro htake
      rw [Arrival.segment, htake, List.drop_nil] at hreplayed
      cases hreplayed
    have hlast := List.getLast?_eq_some_getLast htake
    exact .inr (.inr ⟨_, hlast, (h.replayed b hreplayed _ hlast).symm.trans (hown b hb)⟩)
  · rintro (hdata | hplace | ⟨last, hlast, hsource⟩) b hb
    · rw [hnil.2 hdata] at hb
      cases hb
    · exact h.own b (Arrival.mem_segment_of_le hplace hb)
    · rcases Nat.le_total m.begun m.place with hplace | hplace
      · exact h.own b (Arrival.mem_segment_of_le hplace hb)
      · rcases Arrival.mem_segment_cases hplace hb with hreplayed | hown
        · exact (h.replayed b hreplayed last hlast).trans hsource
        · exact h.own b hown

variable [DecidableEq κ]

def delivered (r : Assembly κ) (source : κ) : Bytes :=
  ((r.messages.filter (·.source = source)).map (·.frame.data)).flatten

def yielded (r : Assembly κ) (source : κ) : Bytes :=
  Arrival.bytes (r.arrived.filter (·.source = source))

/-- Messages that hold no bytes from other sources hold those of their source in order. -/
theorem Accounted.delivered_sublist (h : r.Accounted) {source : κ}
    (hown : ∀ m ∈ r.messages, m.source = source → r.Own m) :
    (r.delivered source).Sublist (r.yielded source) := by
  have hall := pieces_sublist (i := 0) r.arrived
    (h.ordered.filter (·.source = source)) (fun m _ => m.place.zero_le)
  have hsource : ∀ b ∈ ((r.messages.filter (·.source = source)).map r.piece).flatten,
      decide (b.source = source) = true := by
    intro b hb
    obtain ⟨piece, hpiece, hb⟩ := List.mem_flatten.1 hb
    obtain ⟨m, hm, rfl⟩ := List.mem_map.1 hpiece
    obtain ⟨hmem, hsource⟩ := List.mem_filter.1 hm
    rw [decide_eq_true_eq] at hsource
    rw [decide_eq_true_eq, hown m hmem hsource b hb, hsource]
  have hdata : r.delivered source = Arrival.bytes
      ((r.messages.filter (·.source = source)).map r.piece).flatten := by
    rw [delivered, Arrival.bytes, List.map_flatten, List.map_map]
    refine congrArg List.flatten (List.map_congr_left fun m hm => ?_)
    exact (h.messages m (List.mem_filter.1 hm).1).data.symm
  rw [hdata, yielded, ← List.filter_eq_self.2 hsource]
  exact (hall.filter _).map _

end Assembly

/-! ## Reading from a stream -/

inductive Channel where
  | ordinary | urgent
  deriving DecidableEq, Repr

/-- One who reads from a stream, now in band and now urgent data. -/
structure Receiver where
  socket : StreamSocket
  attempt? : Option (Attempt Channel)
  arrived : List (Arrival Channel)
  messages : List (Delivery Channel)

namespace Receiver

variable {K : Type} [SystemCalls K] {r : Receiver} {unused : Picker} {channel : Channel} {fd : Nat}

def start (s : StreamSocket) : Receiver := ⟨s, none, [], []⟩

/-- What the receiver keeps besides its stream. -/
def assembly (r : Receiver) : Assembly Channel :=
  ⟨r.socket.assembler, r.attempt?, r.arrived, r.messages⟩

/-- A read goes on with the message that is not complete, on its channel, or else it begins one with
an unused picker. -/
def read (k : K) (r : Receiver) (channel : Channel) (unused : Picker) :
    SocketAnswer K StreamSocket Reading × Picker :=
  let t := r.assembly.next channel unused
  r.socket.read k t.picker (t.source = .urgent)

def news (k : K) (r : Receiver) (channel : Channel) (unused : Picker) : List (Arrival Channel) :=
  let t := r.assembly.next channel unused
  let size := r.socket.config.readBufferSize
  match r.socket.stream, t.source with
  | some (.tcp, fd), .urgent =>
      Arrival.ofChunks .urgent (r.socket.assembler.chunks t.picker (UrgentSource.mk k fd size))
  | some (_, fd), .ordinary =>
      Arrival.ofChunks .ordinary (r.socket.assembler.chunks t.picker (StreamSource.mk k fd size))
  | none, _ | some (.unix, _), .urgent => []

def after (k : K) (r : Receiver) (channel : Channel) (unused : Picker) : Receiver :=
  let x := r.read k channel unused
  let y := r.assembly.after (r.assembly.next channel unused)
    (Assembled.mk x.1.ending x.1.socket.assembler x.2 ()) (r.news k channel unused)
  ⟨x.1.socket, y.attempt?, y.arrived, y.messages⟩

def giveUp (r : Receiver) : Receiver := { r with attempt? := none }

/-- What has come of reading from a stream again and again, whatever the system was at each read. -/
inductive Reached (K : Type) [SystemCalls K] (s : StreamSocket) : Receiver → Prop where
  | start : Reached K s (start s)
  | read {r : Receiver} (h : Reached K s r) (k : K) (channel : Channel) {unused : Picker}
      (hu : unused.Unused) : Reached K s (r.after k channel unused)
  | giveUp {r : Receiver} (h : Reached K s r) : Reached K s r.giveUp

theorem assembler_after {σ : Type} (y : Assembly Channel) (t : Attempt Channel)
    (x : Assembled Picker σ) (news : List (Arrival Channel)) :
    (y.after t x news).assembler = x.assembler := by
  unfold Assembly.after
  dsimp only
  split <;> rfl

theorem assembly_mk {s : StreamSocket} {y : Assembly Channel} (h : s.assembler = y.assembler) :
    assembly ⟨s, y.attempt?, y.arrived, y.messages⟩ = y := by
  cases y
  simp only [assembly, h]

/-- A read on a channel of an open stream is a call of the assembler that pulls from there. -/
theorem assembly_after (hs : r.socket.stream = some (.tcp, fd)) (k : K) (channel : Channel)
    (unused : Picker) :
    (r.after k channel unused).socket.stream = some (.tcp, fd) ∧
      (r.after k channel unused).assembly = match (r.assembly.next channel unused).source with
        | .ordinary => r.assembly.call channel unused
            (StreamSource.mk k fd r.socket.config.readBufferSize)
        | .urgent => r.assembly.call channel unused
            (UrgentSource.mk k fd r.socket.config.readBufferSize) := by
  unfold after read news StreamSocket.read
  dsimp only
  cases ht : (r.assembly.next channel unused).source with
  | ordinary =>
      have hin : decide (Channel.ordinary = Channel.urgent) = false := rfl
      rw [hs, hin]
      dsimp only
      refine ⟨rfl, (assembly_mk (assembler_after _ _ _ _).symm).trans ?_⟩
      simp only [Assembly.call, ht]
      rfl
  | urgent =>
      have hout : decide (Channel.urgent = Channel.urgent) = true := rfl
      rw [hs, hout]
      dsimp only
      refine ⟨rfl, (assembly_mk (assembler_after _ _ _ _).symm).trans ?_⟩
      simp only [Assembly.call, ht]
      rfl

/-- Reading from an open stream is reading from its assembler, now from one source and now from the
other. -/
theorem Reached.assembly {s : StreamSocket} (hs : s.stream = some (.tcp, fd))
    (ha : s.assembler = .empty) (h : Reached K s r) :
    r.socket.stream = some (.tcp, fd) ∧ r.assembly.Reached := by
  induction h with
  | start =>
      have hstart : (Receiver.start s).assembly = Assembly.start := by
        rw [Receiver.assembly, Receiver.start, ha]
        rfl
      exact ⟨hs, hstart ▸ .start⟩
  | @read r h k channel unused hu ih =>
      obtain ⟨hstream, hreached⟩ := ih
      obtain ⟨hafter, hassembly⟩ := assembly_after hstream k channel unused
      refine ⟨hafter, ?_⟩
      rw [hassembly]
      cases (r.assembly.next channel unused).source with
      | ordinary => exact hreached.call channel hu _
      | urgent => exact hreached.call channel hu _
  | giveUp h ih => exact ⟨ih.1, ih.2.giveUp⟩

/-- Whatever has been read from an open stream, in band and out of band, the messages are pieces of
what has arrived, in order and without a byte in common. A message consists of bytes from its own
channel exactly if it is empty, or begins with bytes that its own reading has pulled, or those left
over before are from its channel. As long as this holds of the messages of a channel, they hold
bytes of this channel in order. Every message that a further read comes to is one of them. -/
theorem own_iff_of_reached {s : StreamSocket} (hs : s.stream = some (.tcp, fd))
    (ha : s.assembler = .empty) (h : Reached K s r) :
    (∀ m ∈ r.messages, Arrival.bytes (r.assembly.piece m) = m.frame.data ∧
      (r.assembly.Own m ↔
        m.frame.data = [] ∨ m.begun ≤ m.place ∨ r.assembly.FollowsOwn m)) ∧
    r.messages.Pairwise (·.stop ≤ ·.place) ∧
    (∀ channel, (∀ m ∈ r.messages, m.source = channel → r.assembly.Own m) →
      (r.assembly.delivered channel).Sublist (r.assembly.yielded channel)) ∧
    ∀ (k : K) (channel : Channel) (unused : Picker) (frame : Frame), unused.Unused →
      (r.read k channel unused).1.ending = .done (.frame frame) →
      Reached K s (r.after k channel unused) ∧
        ∃ m, (r.after k channel unused).messages = r.messages ++ [m] ∧ m.frame = frame ∧
          m.source = (r.assembly.next channel unused).source := by
  have haccounted := (h.assembly hs ha).2.accounted
  refine ⟨fun m hm => ?_, haccounted.ordered, fun channel => haccounted.delivered_sublist,
    fun k channel unused frame hu hframe => ?_⟩
  · have hsound := haccounted.messages m hm
    exact ⟨hsound.data, hsound.own_iff⟩
  · have hafter : (r.after k channel unused).messages = _ :=
      congrArg Assembly.messages (Assembly.after_of_frame (σ := Unit) hframe _)
    exact ⟨h.read k channel hu, _, hafter, rfl, rfl⟩

end Receiver

/-! ## A byte that is left over in band -/

/-- A stream that has these ordinary and these urgent bytes waiting, and stays open. -/
structure Line where
  ordinary : Bytes
  urgent : Bytes

namespace Line

/-- What can be had of some waiting bytes at once. -/
def receive (waiting : Bytes) (size : Nat) : Except IoError Bytes :=
  if waiting = [] then .error (.system .again) else .ok (waiting.take size)

theorem length_drop_lt {waiting bytes : Bytes} {size : Nat} (h : receive waiting size = .ok bytes)
    (hne : bytes ≠ []) : (waiting.drop size).length < waiting.length := by
  unfold receive at h
  split at h
  · cases h
  · obtain rfl : waiting.take size = bytes := by simpa using h
    have hsize : size ≠ 0 := by
      rintro rfl
      exact hne rfl
    have hpos : 0 < waiting.length := by
      rw [List.length_pos_iff]
      assumption
    rw [List.length_drop]
    omega

instance : SystemCalls Line where
  connect k _ := (.ok 0, k)
  takeError k _ := (.ok none, k)
  peerName _ _ := .ok "127.0.0.1:1"
  setNoDelay k _ := (.ok (), k)
  receive k _ size := (receive k.ordinary size, { k with ordinary := k.ordinary.drop size })
  receiveUrgent k _ size := (receive k.urgent size, { k with urgent := k.urgent.drop size })
  receiveFrom k _ _ := (.error (.kind .unsupported), k)
  send k _ data := (.ok data.length, k)
  sendUrgent k _ data := (.ok data.length, k)
  shutdown k _ := k
  close k _ := k
  listen k _ _ := (.error (.kind .unsupported), k)
  localName _ _ := .error (.kind .unsupported)
  listenAt k _ := (.error (.kind .unsupported), k)
  pathExists _ _ := false
  removePath k _ := (.error (.kind .notFound), k)
  accept k _ := (.error (.kind .wouldBlock), k)
  waiting k _ := k.ordinary.length + k.urgent.length
  receive_lt k _ _ _ h hne := Nat.add_lt_add_right (length_drop_lt h hne) k.urgent.length
  receiveUrgent_lt k _ _ _ h hne := Nat.add_lt_add_left (length_drop_lt h hne) k.ordinary.length

def socket : StreamSocket := { StreamSocket.new .default with stream := some (.tcp, 0) }

end Line

namespace Receiver

/-- Six ordinary bytes have come in, and the first three make a message. -/
def afterInBand : Receiver :=
  (start Line.socket).after (Line.mk [0x61, 0x62, 0x63, 0x64, 0x65, 0x66] []) .ordinary
    (.fixedLength (.new 3))

theorem afterInBand_eq : afterInBand =
    ⟨{ Line.socket with assembler := ⟨[0x64, 0x65, 0x66], ""⟩ }, none,
      Arrival.ofChunk .ordinary ([0x61, 0x62, 0x63, 0x64, 0x65, 0x66], ""),
      [⟨.ordinary, 0, 0, ⟨[0x61, 0x62, 0x63], ""⟩⟩]⟩ := by
  have hcall : ∀ {σ : Type} [ChunkSource σ] (s : σ), (ChunkSource.pull s).1 =
        .done (.data [0x61, 0x62, 0x63, 0x64, 0x65, 0x66] "") →
      FrameAssembler.empty.assemble (Picker.fixedLength (.new 3)) s = _ :=
    fun s hs => FrameAssembler.assemble_of_chunk rfl hs (by decide) (by decide)
  have hordinary : decide (Channel.ordinary = Channel.urgent) = false := rfl
  unfold afterInBand after read news StreamSocket.read FrameAssembler.chunks
  dsimp only [start, Receiver.assembly, Assembly.next, Option.getD_none, Line.socket,
    StreamSocket.new]
  rw [hordinary]
  dsimp only
  rw [hcall _ rfl, hcall _ rfl]
  rfl

/-- A byte of urgent data is there, and one byte is read out of band. -/
def afterOutOfBand : Receiver :=
  afterInBand.after (Line.mk [] [0x58]) .urgent (.fixedLength (.new 1))

theorem afterOutOfBand_eq : afterOutOfBand =
    ⟨{ Line.socket with assembler := ⟨[0x65, 0x66], ""⟩ }, none,
      Arrival.ofChunk .ordinary ([0x61, 0x62, 0x63, 0x64, 0x65, 0x66], ""),
      [⟨.ordinary, 0, 0, ⟨[0x61, 0x62, 0x63], ""⟩⟩, ⟨.urgent, 6, 3, ⟨[0x64], ""⟩⟩]⟩ := by
  unfold afterOutOfBand
  rw [afterInBand_eq]
  rfl

theorem reached_afterOutOfBand : Reached Line Line.socket afterOutOfBand :=
  (Reached.start.read _ .ordinary (.fixedLength 3)).read _ .urgent (.fixedLength 1)

/-- What was left over before the second read is not urgent. -/
theorem own_iff_ordinary :
    Reached Line Line.socket afterOutOfBand ∧ ∀ m ∈ afterOutOfBand.messages,
      afterOutOfBand.assembly.Own m ↔ m.source = .ordinary := by
  obtain ⟨hmessages, -⟩ := own_iff_of_reached rfl rfl reached_afterOutOfBand
  refine ⟨reached_afterOutOfBand, fun m hm => ?_⟩
  rw [(hmessages m hm).2]
  rw [afterOutOfBand_eq] at hm ⊢
  rcases List.mem_cons.1 hm with rfl | hm
  · simp
  · obtain rfl := List.mem_singleton.1 hm
    have hfollows : ¬ ∃ last : Arrival Channel, some (Arrival.mk .ordinary "" 0x66) = some last ∧
        last.source = .urgent := by
      rintro ⟨_, ⟨⟩, ⟨⟩⟩
    simp only [List.cons_ne_nil, false_or, reduceCtorEq, iff_false, not_or]
    exact ⟨by decide, hfollows⟩

/-- The message that is read out of band is the fourth ordinary byte; the urgent byte is still
there. -/
theorem ordinary_byte_out_of_band :
    Reached Line Line.socket afterOutOfBand ∧
      afterOutOfBand.messages.map (fun m => (m.source, m.frame.data)) =
        [(.ordinary, [0x61, 0x62, 0x63]), (.urgent, [0x64])] ∧
      ¬ ∀ (s : StreamSocket) (fd : Nat) (r : Receiver), s.stream = some (.tcp, fd) →
        s.assembler = .empty → Reached Line s r → ∀ m ∈ r.messages, r.assembly.Own m := by
  refine ⟨reached_afterOutOfBand, by rw [afterOutOfBand_eq]; rfl, fun hclaim => ?_⟩
  have hown := hclaim Line.socket 0 afterOutOfBand rfl rfl reached_afterOutOfBand
    ⟨.urgent, 6, 3, ⟨[0x64], ""⟩⟩ (by rw [afterOutOfBand_eq]; simp)
  have hsource := hown ⟨.ordinary, "", 0x64⟩ (by rw [afterOutOfBand_eq]; decide)
  cases hsource

end Receiver

end Reactor
