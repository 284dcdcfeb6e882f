import Reactor.Proofs.Frame.Assembler
import Reactor.Transport.Datagram

/-! What a read of a datagram socket comes to. The bytes that are left over are taken first; if they
do not make a message, one datagram is received at most. A datagram with bytes settles the read: it
yields a message, or it ends before one is complete. An empty one settles nothing. -/

namespace Reactor

/-! ## The record of what was received -/

/-- A system, and the datagrams that have been received from it, with their origins. -/
structure Ledger (K : Type) where
  system : K
  datagrams : List (Bytes × String)

namespace Ledger

variable {K : Type} [SystemCalls K]

/-- The answer to a call that receives no datagram. -/
def pass {α : Type} (l : Ledger K) (answer : α × K) : α × Ledger K :=
  (answer.1, { l with system := answer.2 })

def receiveFrom (l : Ledger K) (fd size : Nat) : Except IoError (Bytes × String) × Ledger K :=
  ((SystemCalls.receiveFrom l.system fd size).1,
    ⟨(SystemCalls.receiveFrom l.system fd size).2,
      l.datagrams ++ (SystemCalls.receiveFrom l.system fd size).1.toOption.toList⟩)

instance : SystemCalls (Ledger K) where
  connect l address := l.pass (SystemCalls.connect l.system address)
  takeError l fd := l.pass (SystemCalls.takeError l.system fd)
  peerName l fd := SystemCalls.peerName l.system fd
  setNoDelay l fd := l.pass (SystemCalls.setNoDelay l.system fd)
  receive l fd size := l.pass (SystemCalls.receive l.system fd size)
  receiveUrgent l fd size := l.pass (SystemCalls.receiveUrgent l.system fd size)
  receiveFrom := receiveFrom
  send l fd data := l.pass (SystemCalls.send l.system fd data)
  sendUrgent l fd data := l.pass (SystemCalls.sendUrgent l.system fd data)
  shutdown l fd := { l with system := SystemCalls.shutdown l.system fd }
  close l fd := { l with system := SystemCalls.close l.system fd }
  listen l address backlog := l.pass (SystemCalls.listen l.system address backlog)
  localName l fd := SystemCalls.localName l.system fd
  listenAt l path := l.pass (SystemCalls.listenAt l.system path)
  pathExists l path := SystemCalls.pathExists l.system path
  removePath l path := l.pass (SystemCalls.removePath l.system path)
  accept l fd := l.pass (SystemCalls.accept l.system fd)
  waiting l fd := SystemCalls.waiting l.system fd
  receive_lt l fd size bytes := SystemCalls.receive_lt l.system fd size bytes
  receiveUrgent_lt l fd size bytes := SystemCalls.receiveUrgent_lt l.system fd size bytes

end Ledger

/-! ## One datagram -/

namespace FrameAssembler

variable {π : Type} [FramePicker π]

/-- What a call comes to once it has asked for a datagram. -/
def settle (a : FrameAssembler) (p : π) :
    Except IoError (Bytes × String) → Assembled π Unit
  | .ok (bytes, origin) =>
      if bytes = [] then ⟨.done (.pending (FramePicker.partialFrame p)), a, p, ()⟩
      else
        let fed := FramePicker.append p bytes origin
        let a := a.stash fed.rest origin
        if fed.finished then a.deliver fed.picker () else ⟨.cut .unreachedFrame, a, fed.picker, ()⟩
  | .error e =>
      ⟨if e.wouldBlock then .done (.pending (FramePicker.partialFrame p)) else .cut (.io e), a, p, ()⟩

variable {K : Type} [SystemCalls K]

/-- The datagram is received in one pull, and another one finds its end. -/
theorem pullAll_eq_settle (a : FrameAssembler) (p : π) (k : K) (fd size : Nat) :
    a.pullAll p (DatagramSource.mk k fd size false) =
      let answer := SystemCalls.receiveFrom k fd size
      let x := a.settle p answer.1
      ⟨x.ending, x.assembler, x.picker, ⟨answer.2, fd, size, answer.1.isOk⟩⟩ := by
  rcases hr : SystemCalls.receiveFrom k fd size with ⟨e | ⟨bytes, origin⟩, k'⟩
  · have hpull : ChunkSource.pull (DatagramSource.mk k fd size false) =
        (if e.wouldBlock then .done .wouldBlock else .cut (.io e), ⟨k', fd, size, false⟩) := by
      simp [ChunkSource.pull, DatagramSource.pull, hr]
    rw [pullAll_of_none (by rw [hpull]; dsimp only; split <;> rfl), hpull]
    dsimp only [settle]
    congr 1
    split <;> rfl
  · have hpull : ChunkSource.pull (DatagramSource.mk k fd size false) =
        (.done (.data bytes origin), ⟨k', fd, size, true⟩) := by
      simp [ChunkSource.pull, DatagramSource.pull, hr]
    by_cases hb : bytes = []
    · subst hb
      rw [pullAll_of_none (by rw [hpull]; rfl), hpull]
      rfl
    · have hend : ChunkSource.pull (DatagramSource.mk k' fd size true) =
          (.done .endOfStream, ⟨k', fd, size, true⟩) := rfl
      rw [pullAll_of_bytes (by rw [hpull]) hb, hpull]
      simp only [settle, if_neg hb]
      split
      · rfl
      · rw [pullAll_of_none (by rw [hend]; rfl), hend]
        rfl

end FrameAssembler

namespace DatagramSocket

variable {K : Type} [SystemCalls K] {k : K} {s : DatagramSocket} {p : Picker} {outOfBand : Bool}
  {fd : Nat}

/-- A closed socket reads nothing, and none reads urgent data. -/
theorem read_refused (h : s.fd = none ∨ outOfBand = true) :
    ∃ e, ∀ {L : Type} [SystemCalls L] (l : L), s.read l p outOfBand = (⟨.cut e, s, l, false⟩, p) := by
  rcases hfd : s.fd with _ | fd
  · exact ⟨.notOpen, fun l => by simp [read, hfd]⟩
  · obtain rfl : outOfBand = true := by simpa [hfd] using h
    exact ⟨noUrgentData, fun l => by simp [read, hfd]⟩

/-- A read takes the bytes that are left over, and asks for a datagram if they do not make a
message. -/
theorem read_open (hfd : s.fd = some fd) (k : K) (p : Picker) :
    s.read k p false =
      let r := s.assembler.resume p
      let answer := SystemCalls.receiveFrom k fd s.config.datagramBufferSize
      let x := if r.finished then r.assembler.deliver r.picker ()
        else r.assembler.settle r.picker answer.1
      (⟨x.ending, { s with assembler := x.assembler }, if r.finished then k else answer.2, false⟩,
        x.picker) := by
  simp only [read, hfd, FrameAssembler.assemble_eq_resume, FrameAssembler.pullAll_eq_settle]
  split <;> rfl

def received (k : K) (s : DatagramSocket) (p : Picker) (outOfBand : Bool) :
    List (Bytes × String) :=
  (s.read (Ledger.mk k []) p outOfBand).1.world.datagrams

theorem received_refused (h : s.fd = none ∨ outOfBand = true) : s.received k p outOfBand = [] := by
  obtain ⟨e, hread⟩ := read_refused (p := p) h
  rw [received, hread]

theorem received_open (hfd : s.fd = some fd) :
    s.received k p false =
      if (s.assembler.resume p).finished then []
      else (SystemCalls.receiveFrom k fd s.config.datagramBufferSize).1.toOption.toList := by
  rw [received, read_open hfd]
  dsimp only
  split <;> rfl

/-- The record of what is received changes nothing else. -/
theorem read_ledger (past : List (Bytes × String)) :
    s.read (Ledger.mk k past) p outOfBand =
      let x := s.read k p outOfBand
      (⟨x.1.ending, x.1.socket, ⟨x.1.world, past ++ s.received k p outOfBand⟩, false⟩, x.2) := by
  by_cases h : s.fd = none ∨ outOfBand = true
  · obtain ⟨e, hread⟩ := read_refused (p := p) h
    simp only [hread, received_refused h, List.append_nil]
  · simp only [not_or, Bool.not_eq_true] at h
    obtain ⟨fd, hfd⟩ := Option.ne_none_iff_exists'.1 h.1
    rw [h.2, received_open hfd, read_open hfd, read_open hfd]
    by_cases hf : (s.assembler.resume p).finished = true
    · simp [hf]
    · simp only [if_neg hf]
      rfl

/-- A read receives one datagram at most. If it has bytes, the read yields a message or reports that
the datagram ended before one was complete; if it is empty, the message goes on. -/
theorem read_settles (k : K) (s : DatagramSocket) (p : Picker) (outOfBand : Bool) :
    (s.received k p outOfBand).length ≤ 1 ∧
    ∀ datagram ∈ s.received k p outOfBand,
      (datagram.1 ≠ [] →
        (∃ frame, (s.read k p outOfBand).1.ending = .done (.frame frame)) ∨
          (s.read k p outOfBand).1.ending = .cut .unreachedFrame) ∧
      (datagram.1 = [] →
        ∃ snapshot, (s.read k p outOfBand).1.ending = .done (.pending snapshot)) := by
  by_cases h : s.fd = none ∨ outOfBand = true
  · simp [received_refused h]
  · simp only [not_or, Bool.not_eq_true] at h
    obtain ⟨fd, hfd⟩ := Option.ne_none_iff_exists'.1 h.1
    rw [h.2, received_open hfd, read_open hfd]
    by_cases hf : (s.assembler.resume p).finished = true
    · simp [hf]
    · simp only [if_neg hf]
      rcases (SystemCalls.receiveFrom k fd s.config.datagramBufferSize).1 with e | ⟨bytes, origin⟩
      · simp [Except.toOption]
      · refine ⟨Nat.le_refl 1, fun datagram hd => ?_⟩
        obtain rfl : datagram = (bytes, origin) := by simpa [Except.toOption] using hd
        refine ⟨fun hb => ?_, fun hb => ?_⟩
        · simp only [FrameAssembler.settle, if_neg hb]
          split
          · exact .inl ⟨_, rfl⟩
          · exact .inr rfl
        · simp only [FrameAssembler.settle, if_pos hb]
          exact ⟨_, rfl⟩

end DatagramSocket

/-! ## An empty datagram -/

/-- A system on which nothing but datagrams arrives. -/
structure Mailbox where
  datagrams : List (Bytes × String)

namespace Mailbox

/-- The datagrams come in the order of the list. -/
def receiveFrom (m : Mailbox) (size : Nat) : Except IoError (Bytes × String) × Mailbox :=
  match m.datagrams with
  | [] => (.error (.kind .wouldBlock), m)
  | (bytes, origin) :: datagrams => (.ok (bytes.take size, origin), ⟨datagrams⟩)

instance : SystemCalls Mailbox where
  connect m _ := (.ok 0, m)
  takeError m _ := (.ok none, m)
  peerName _ _ := .error (.kind .notConnected)
  setNoDelay m _ := (.ok (), m)
  receive m _ _ := (.error (.kind .wouldBlock), m)
  receiveUrgent m _ _ := (.error (.kind .wouldBlock), m)
  receiveFrom m _ size := m.receiveFrom size
  send m _ data := (.ok data.length, m)
  sendUrgent m _ _ := (.error (.kind .unsupported), m)
  shutdown m _ := m
  close m _ := m
  listen m _ _ := (.error (.kind .unsupported), m)
  localName _ _ := .error (.kind .unsupported)
  listenAt m _ := (.error (.kind .unsupported), m)
  pathExists _ _ := false
  removePath m _ := (.error (.kind .notFound), m)
  accept m _ := (.error (.kind .wouldBlock), m)
  waiting _ _ := 0
  receive_lt _ _ _ _ h := by cases h
  receiveUrgent_lt _ _ _ _ h := by cases h

def socket : DatagramSocket := { DatagramSocket.new .default with fd := some 0 }

end Mailbox

/-- An empty datagram is taken for bytes that are not there yet: the read has received it, and yet the
message goes on. -/
theorem DatagramSocket.read_unsettled :
    let m : Mailbox := ⟨[([], "a")]⟩
    let p := Picker.fixedLength (.new 4)
    Mailbox.socket.isOpen = true ∧ Mailbox.socket.received m p false = [([], "a")] ∧
      (Mailbox.socket.read m p false).1.ending = .done (.pending ⟨.empty⟩) ∧
      ¬ ∀ (m : Mailbox) (s : DatagramSocket) (p : Picker), s.isOpen = true →
        s.received m p false ≠ [] →
        (∃ frame, (s.read m p false).1.ending = .done (.frame frame)) ∨
          (s.read m p false).1.ending = .cut .unreachedFrame := by
  intro m p
  have hreceived : Mailbox.socket.received m p false = [([], "a")] := by
    rw [received_open rfl]
    decide
  have hread : (Mailbox.socket.read m p false).1.ending = .done (.pending ⟨.empty⟩) := by
    rw [read_open rfl]
    rfl
  refine ⟨rfl, hreceived, hread, fun hclaim => ?_⟩
  have hsettled := hclaim m Mailbox.socket p rfl (by simp [hreceived])
  rw [hread] at hsettled
  rcases hsettled with ⟨frame, hframe⟩ | hcut
  · simp at hframe
  · simp at hcut

end Reactor
