import Reactor.Transport.Socket

/-! Sockets that read through an assembler. Streams and datagram sockets do. -/

namespace Reactor

variable {W S σ : Type} [ChunkSource σ]

/-- A mapped ending has come to something if the original has. -/
theorem Ending.done_of_map {ε α β : Type} {f : α → β} {ending : Ending ε α} {b : β}
    (h : ending.map f = .done b) : ∃ a, ending = .done a ∧ f a = b := by
  cases ending with
  | done a => exact ⟨a, rfl, by simpa [Ending.map] using h⟩
  | cut => cases h
  | crashed => cases h

/-- Some of the sockets read through an assembler from a source of chunks. A read that comes to
something runs the assembler, and no other call that a socket can get on its way to its completion
touches what the assembler keeps. -/
structure SocketRules.Assembling (rules : SocketRules W S) (σ : Type) [ChunkSource σ] where
  Is : S → Prop
  assembler : S → FrameAssembler
  source : W → S → σ
  read {world : W} {socket : S} (h : Is socket) (picker : Picker) (previous : Option PartialFrame)
    {outcome : ReadOutcome S}
    (hr : (rules.read world socket picker previous false).1.ending = .done outcome) :
    (∃ reading, outcome = .ofReading reading ∧
      ((assembler socket).assemble picker (source world socket)).ending = .done reading) ∧
    (rules.read world socket picker previous false).2 =
      ((assembler socket).assemble picker (source world socket)).picker ∧
    Is (rules.read world socket picker previous false).1.socket ∧
    assembler (rules.read world socket picker previous false).1.socket =
      ((assembler socket).assemble picker (source world socket)).assembler
  write {world : W} {socket : S} (h : Is socket) (data : Bytes) (outOfBand : Bool) :
    Is (rules.write world socket data outOfBand).socket ∧
      assembler (rules.write world socket data outOfBand).socket = assembler socket
  pollConnect {world : W} {socket : S} (h : Is socket) :
    Is (rules.pollConnect world socket).socket ∧
      assembler (rules.pollConnect world socket).socket = assembler socket
  connect {world : W} {socket : S} (h : Is socket) (hc : rules.isOpen world socket = false)
    (address : String) :
    Is (rules.connect world socket address).socket ∧
      assembler (rules.connect world socket address).socket = assembler socket

variable {K : Type} [SystemCalls K]

namespace StreamSocket

theorem socket_write (k : K) (s : StreamSocket) (data : Bytes) (outOfBand : Bool) :
    (s.write k data outOfBand).socket = s := by
  unfold write
  split <;> rfl

theorem pollConnect_assembler (k : K) (s : StreamSocket) :
    (s.pollConnect k).socket.assembler = s.assembler ∧
      (s.pollConnect k).socket.stream = s.stream := by
  unfold pollConnect
  split
  · exact ⟨rfl, rfl⟩
  split
  · exact ⟨rfl, rfl⟩
  split
  · exact ⟨rfl, rfl⟩
  · exact ⟨rfl, rfl⟩
  split
  · exact ⟨rfl, rfl⟩
  · exact ⟨rfl, rfl⟩
  unfold establish
  dsimp only
  split <;> exact ⟨rfl, rfl⟩

/-- Opening begins with an assembler without bytes. -/
theorem connect_assembler (k : K) {s : StreamSocket} (hs : s.assembler = .empty)
    (address : String) : (s.connect k address).socket.assembler = .empty := by
  unfold connect
  split
  · exact hs
  dsimp only
  split
  · rfl
  split <;> rfl

/-- A read in band that comes to something is a call of the assembler. -/
theorem read_assembler (k : K) (s : StreamSocket) (picker : Picker) {reading : Reading}
    (h : (s.read k picker false).1.ending = .done reading) :
    s.isOpen = true ∧
      (s.assembler.assemble picker
        (StreamSource.mk k (s.rawFd.getD 0) s.config.readBufferSize)).ending = .done reading ∧
      (s.read k picker false).2 = (s.assembler.assemble picker
        (StreamSource.mk k (s.rawFd.getD 0) s.config.readBufferSize)).picker ∧
      (s.read k picker false).1.socket = { s with
        assembler := (s.assembler.assemble picker
          (StreamSource.mk k (s.rawFd.getD 0) s.config.readBufferSize)).assembler } := by
  unfold read at h ⊢
  rcases hs : s.stream with _ | ⟨_ | _, fd⟩
  all_goals
    rw [hs] at h
    dsimp only at h
  · cases h
  all_goals
    have hfd : s.rawFd.getD 0 = fd := by simp [rawFd, hs]
    rw [hfd]
    exact ⟨by simp [isOpen, hs], h, rfl, rfl⟩

end StreamSocket

namespace DatagramSocket

theorem socket_write (k : K) (s : DatagramSocket) (data : Bytes) (outOfBand : Bool) :
    (s.write k data outOfBand).socket = s := by
  unfold write
  split <;> rfl

/-- Opening begins with an assembler without bytes. -/
theorem connect_assembler (k : K) {s : DatagramSocket} (hs : s.assembler = .empty)
    (address : String) : (s.connect k address).socket.assembler = .empty := by
  unfold connect
  split
  · exact hs
  dsimp only
  split
  · split <;> rfl
  · rfl

/-- A read in band that comes to something is a call of the assembler. -/
theorem read_assembler (k : K) (s : DatagramSocket) (picker : Picker) {reading : Reading}
    (h : (s.read k picker false).1.ending = .done reading) :
    s.isOpen = true ∧
      (s.assembler.assemble picker
        (DatagramSource.mk k (s.fd.getD 0) s.config.datagramBufferSize false)).ending =
          .done reading ∧
      (s.read k picker false).2 = (s.assembler.assemble picker
        (DatagramSource.mk k (s.fd.getD 0) s.config.datagramBufferSize false)).picker ∧
      (s.read k picker false).1.socket = { s with
        assembler := (s.assembler.assemble picker
          (DatagramSource.mk k (s.fd.getD 0) s.config.datagramBufferSize false)).assembler } := by
  unfold read at h ⊢
  rcases hs : s.fd with _ | fd
  all_goals
    rw [hs] at h
    dsimp only at h
  · cases h
  · exact ⟨by simp [isOpen, hs], h, rfl, rfl⟩

end DatagramSocket

namespace Transport

/-- Streams read the ordinary bytes that the system has received. What is left over is forgotten
when the stream is closed. -/
def streams : (rules : SocketRules K Transport).Assembling (StreamSource K) where
  Is t := ∃ s, t = .stream s ∧ (s.isOpen = false → s.assembler = .empty)
  assembler
    | .stream s => s.assembler
    | _ => .empty
  source k
    | .stream s => ⟨k, s.rawFd.getD 0, s.config.readBufferSize⟩
    | _ => ⟨k, 0, 0⟩
  read := by
    rintro k _ ⟨s, rfl, hs⟩ picker previous outcome hr
    obtain ⟨reading, hreading, rfl⟩ := Ending.done_of_map hr
    obtain ⟨hopen, hend, hpicker, hsocket⟩ := s.read_assembler k picker hreading
    have hanswer : (rules.read k (.stream s) picker previous false).1.socket =
        .stream (s.read k picker false).1.socket := rfl
    refine ⟨⟨reading, rfl, hend⟩, hpicker, ?_, ?_⟩
    · rw [hanswer, hsocket]
      refine ⟨_, rfl, fun hclosed => ?_⟩
      have hstill : s.isOpen = false := hclosed
      rw [hopen] at hstill
      cases hstill
    · rw [hanswer, hsocket]
  write := by
    rintro k _ ⟨s, rfl, hs⟩ data outOfBand
    have hanswer : (rules.write k (.stream s) data outOfBand).socket =
        .stream (s.write k data outOfBand).socket := rfl
    rw [hanswer, s.socket_write]
    exact ⟨⟨s, rfl, hs⟩, rfl⟩
  pollConnect := by
    rintro k _ ⟨s, rfl, hs⟩
    obtain ⟨hassembler, hstream⟩ := s.pollConnect_assembler k
    refine ⟨⟨_, rfl, fun hclosed => ?_⟩, hassembler⟩
    rw [hassembler]
    refine hs ?_
    rw [← hclosed, StreamSocket.isOpen, StreamSocket.isOpen, hstream]
  connect := by
    rintro k _ ⟨s, rfl, hs⟩ hc address
    have hempty := StreamSocket.connect_assembler k (hs hc) address
    exact ⟨⟨_, rfl, fun _ => hempty⟩, hempty.trans (hs hc).symm⟩

/-- Datagram sockets read one datagram at a time. What is left over is forgotten when the socket is
closed. -/
def datagrams : (rules : SocketRules K Transport).Assembling (DatagramSource K) where
  Is t := ∃ s, t = .datagram s ∧ (s.isOpen = false → s.assembler = .empty)
  assembler
    | .datagram s => s.assembler
    | _ => .empty
  source k
    | .datagram s => ⟨k, s.fd.getD 0, s.config.datagramBufferSize, false⟩
    | _ => ⟨k, 0, 0, false⟩
  read := by
    rintro k _ ⟨s, rfl, hs⟩ picker previous outcome hr
    obtain ⟨reading, hreading, rfl⟩ := Ending.done_of_map hr
    obtain ⟨hopen, hend, hpicker, hsocket⟩ := s.read_assembler k picker hreading
    have hanswer : (rules.read k (.datagram s) picker previous false).1.socket =
        .datagram (s.read k picker false).1.socket := rfl
    refine ⟨⟨reading, rfl, hend⟩, hpicker, ?_, ?_⟩
    · rw [hanswer, hsocket]
      refine ⟨_, rfl, fun hclosed => ?_⟩
      have hstill : s.isOpen = false := hclosed
      rw [hopen] at hstill
      cases hstill
    · rw [hanswer, hsocket]
  write := by
    rintro k _ ⟨s, rfl, hs⟩ data outOfBand
    have hanswer : (rules.write k (.datagram s) data outOfBand).socket =
        .datagram (s.write k data outOfBand).socket := rfl
    rw [hanswer, s.socket_write]
    exact ⟨⟨s, rfl, hs⟩, rfl⟩
  pollConnect := by
    rintro k _ ⟨s, rfl, hs⟩
    exact ⟨⟨s, rfl, hs⟩, rfl⟩
  connect := by
    rintro k _ ⟨s, rfl, hs⟩ hc address
    have hempty := DatagramSocket.connect_assembler k (hs hc) address
    exact ⟨⟨_, rfl, fun _ => hempty⟩, hempty.trans (hs hc).symm⟩

end Transport

end Reactor
