import Reactor.LocalNet.System
import Reactor.Proofs.Frame.Feeding
import Reactor.Proofs.Transport.Channels
import Reactor.Transport.Socket

/-! The end of a stream, as a reader meets it. A system that is asked for at least one byte hands
out none only at the end of the stream; a system that is asked for no bytes at all hands out none at
any time. So the end that is reported to the reader of a message is that of the stream, as long as
the settings ask for bytes. -/

namespace Reactor

/-- What a system knows of the other end of a stream: whether it is closed, and the bytes of each
channel that have come in and have not been received yet. Where it hands out none of the bytes that
it is asked for, the other end is closed and no more are waiting. -/
structure StreamView (K : Type) [SystemCalls K] where
  closed : K → Nat → Prop
  waiting : K → Nat → Channel → Bytes
  receive_end {k k' : K} {fd size : Nat} : SystemCalls.receive k fd size = (.ok [], k') →
    0 < size → closed k' fd ∧ waiting k' fd .ordinary = []
  receiveUrgent_end {k k' : K} {fd size : Nat} :
    SystemCalls.receiveUrgent k fd size = (.ok [], k') →
      0 < size → closed k' fd ∧ waiting k' fd .urgent = []

namespace StreamView

variable {K : Type} [SystemCalls K]

/-- Nothing is left of a channel of a stream, and nothing will come any more. -/
def AtEnd (view : StreamView K) (channel : Channel) (fd : Nat) (k : K) : Prop :=
  view.closed k fd ∧ view.waiting k fd channel = []

theorem received_of_conclusion {idle : IoError → Bool} {result : Except IoError Bytes}
    {snapshot : PartialFrame}
    (h : Chunk.conclusion snapshot (Chunk.ofReceived idle result) = .cut .unreachedFrame) :
    result = .ok [] := by
  unfold Chunk.ofReceived at h
  split at h
  · rfl
  · cases h
  · split at h <;> cases h

variable (view : StreamView K) {size fd : Nat}

/-- A pull of ordinary bytes misses the end of a message only at the end of the stream. -/
theorem atEnd_of_stream (hsize : 0 < size) (s : StreamSource K) (snapshot : PartialFrame)
    (hs : s.fd = fd ∧ s.size = size)
    (h : Chunk.conclusion snapshot (ChunkSource.pull s).1 = .cut .unreachedFrame) :
    view.AtEnd .ordinary fd (ChunkSource.pull s).2.system := by
  obtain ⟨rfl, rfl⟩ := hs
  have hnone := received_of_conclusion h
  exact view.receive_end (Prod.ext hnone rfl) hsize

theorem atEnd_of_urgent (hsize : 0 < size) (s : UrgentSource K) (snapshot : PartialFrame)
    (hs : s.fd = fd ∧ s.size = size)
    (h : Chunk.conclusion snapshot (ChunkSource.pull s).1 = .cut .unreachedFrame) :
    view.AtEnd .urgent fd (ChunkSource.pull s).2.system := by
  obtain ⟨rfl, rfl⟩ := hs
  have hnone := received_of_conclusion h
  exact view.receiveUrgent_end (Prod.ext hnone rfl) hsize

end StreamView

namespace LocalNet.LocalSystem

/-- What a local system knows of its streams. They carry no urgent data. -/
def streamView : StreamView LocalSystem where
  closed k fd := ∃ e, k.endpoint fd = .stream e ∧ e.ended = true
  waiting k fd channel :=
    match channel, k.endpoint fd with
    | .ordinary, .stream e => e.incoming
    | _, _ => []
  receive_end := by
    intro k k' fd size h hsize
    change k.receive fd size = (.ok [], k') at h
    unfold receive at h
    cases he : k.endpoint fd with
    | stream e =>
        rw [he] at h
        dsimp only at h
        by_cases hin : e.incoming = []
        · rw [if_neg (by simp [hin])] at h
          split at h
          · cases h
          · split at h
            · cases h
              exact ⟨⟨e, he, by assumption⟩, by rw [he]; exact hin⟩
            · cases h
        · rw [if_pos hin] at h
          have hnone : e.incoming.take size = [] := Except.ok.inj (congrArg Prod.fst h)
          rcases List.take_eq_nil_iff.1 hnone with hzero | hnil
          · omega
          · contradiction
    | listener place clients => rw [he] at h; cases h
    | datagram waiting target => rw [he] at h; cases h
    | closed => rw [he] at h; cases h
  receiveUrgent_end h := by cases h

end LocalNet.LocalSystem

/-! ## One read -/

namespace StreamSocket

section Source

variable {K σ π : Type} [ChunkSource σ] [FramePicker π] {s : StreamSocket} {p : π} {source : σ}

/-- The answer of a read that pulls from a source. -/
def answerFrom (system : σ → K) (s : StreamSocket) (p : π) (source : σ) :
    SocketAnswer K StreamSocket Reading × π :=
  let a := s.assembler.assemble p source
  (⟨a.ending, { s with assembler := a.assembler }, system a.source, false⟩, a.picker)

/-- What a read does besides its answer: it changes nothing of the socket but its assembler, and to
watch the picker changes nothing of it. -/
structure Reads (s : StreamSocket) (p : π) (pulled : Bytes)
    (x : SocketAnswer K StreamSocket Reading × Watched π)
    (y : SocketAnswer K StreamSocket Reading × π) : Prop where
  answer : x.1 = y.1
  picker : x.2.picker = y.2
  socket : x.1.socket = { s with assembler := x.1.socket.assembler }
  consumed : LawfulFramePicker π → (x.2.consumed ++ x.1.socket.assembler.unhandled).Perm
    (s.assembler.unhandled ++ pulled)

theorem reads_from (system : σ → K) (s : StreamSocket) (p : π) (source : σ) :
    Reads s p (s.assembler.received p source) (s.answerFrom system (Watched.start p) source)
      (s.answerFrom system p source) := by
  have hsame : s.assembler.assemble p source =
      (s.assembler.assemble (Watched.start p) source).unwatched :=
    (s.assembler.assemble_unwatched (Watched.start p) source).symm
  obtain ⟨-, hconsumed⟩ := s.assembler.assemble_gives p source
  unfold answerFrom
  rw [hsame]
  exact ⟨rfl, rfl, rfl, hconsumed⟩

/-- A read that pulls from a source misses the end of a message only if a pull of this source does,
and then its picker has been given all that was left over and all that the read has received. -/
theorem unreached_from {system : σ → K} {E : K → Prop} {I : σ → Prop}
    (hI : ∀ t, I t → I (ChunkSource.pull t).2)
    (hE : ∀ t snapshot, I t →
      Chunk.conclusion snapshot (ChunkSource.pull t).1 = .cut .unreachedFrame →
        E (system (ChunkSource.pull t).2))
    (hs : I source)
    (h : (s.answerFrom system p source).1.ending = .cut .unreachedFrame) :
    E (s.answerFrom system p source).1.world ∧
      (s.answerFrom system (Watched.start p) source).2.given =
        s.assembler.unhandled ++ s.assembler.received p source := by
  obtain ⟨hp, hend⟩ := s.assembler.assemble_unreached (E := fun t => E (system t)) hI hE p hs h
  exact ⟨hend, (s.assembler.assemble_gives p source).1 hp⟩

end Source

variable {K : Type} [SystemCalls K] {π : Type} [FramePicker π]

def pulled (k : K) (s : StreamSocket) (p : π) (channel : Channel) : Bytes :=
  match s.stream, channel with
  | none, _ | some (.unix, _), .urgent => []
  | some (.tcp, fd), .urgent =>
      s.assembler.received p (UrgentSource.mk k fd s.config.readBufferSize)
  | some (_, fd), .ordinary =>
      s.assembler.received p (StreamSource.mk k fd s.config.readBufferSize)

/-- A read is refused, or it pulls from the source of its channel. -/
inductive ReadsFrom (k : K) (s : StreamSocket) : Channel → Prop where
  | refused {channel : Channel} (e : SocketError) (he : e ≠ .unreachedFrame)
      (hread : ∀ {π : Type} [FramePicker π] (p : π),
        s.read k p (channel = .urgent) = (⟨.cut e, s, k, false⟩, p) ∧ s.pulled k p channel = []) :
      ReadsFrom k s channel
  | ordinary (fd : Nat) (hfd : s.rawFd = some fd)
      (hread : ∀ {π : Type} [FramePicker π] (p : π),
        let source : StreamSource K := ⟨k, fd, s.config.readBufferSize⟩
        s.read k p false = s.answerFrom StreamSource.system p source ∧
          s.pulled k p .ordinary = s.assembler.received p source) : ReadsFrom k s .ordinary
  | urgent (fd : Nat) (hfd : s.rawFd = some fd)
      (hread : ∀ {π : Type} [FramePicker π] (p : π),
        let source : UrgentSource K := ⟨k, fd, s.config.readBufferSize⟩
        s.read k p true = s.answerFrom UrgentSource.system p source ∧
          s.pulled k p .urgent = s.assembler.received p source) : ReadsFrom k s .urgent

theorem readsFrom (k : K) (s : StreamSocket) (channel : Channel) : s.ReadsFrom k channel := by
  obtain ⟨stream, isConnected, address, assembler, config⟩ := s
  rcases stream with _ | ⟨_ | _, fd⟩
  · exact .refused .notOpen (by simp) fun _ => ⟨rfl, rfl⟩
  · cases channel with
    | ordinary => exact .ordinary fd rfl fun _ => ⟨rfl, rfl⟩
    | urgent => exact .urgent fd rfl fun _ => ⟨rfl, rfl⟩
  · cases channel with
    | ordinary => exact .ordinary fd rfl fun _ => ⟨rfl, rfl⟩
    | urgent => exact .refused noUrgentData (by simp [noUrgentData]) fun _ => ⟨rfl, rfl⟩

theorem reads (k : K) (s : StreamSocket) (p : π) (channel : Channel) :
    Reads s p (s.pulled k p channel) (s.read k (Watched.start p) (channel = .urgent))
      (s.read k p (channel = .urgent)) := by
  cases s.readsFrom k channel with
  | refused e _ hread =>
      rw [(hread p).1, (hread p).2, (hread (Watched.start p)).1]
      exact ⟨rfl, rfl, rfl, fun _ => by simp [Watched.start]⟩
  | ordinary fd _ hread =>
      show Reads s p (s.pulled k p .ordinary) (s.read k (Watched.start p) false) (s.read k p false)
      rw [(hread p).1, (hread p).2, (hread (Watched.start p)).1]
      exact reads_from StreamSource.system s p _
  | urgent fd _ hread =>
      show Reads s p (s.pulled k p .urgent) (s.read k (Watched.start p) true) (s.read k p true)
      rw [(hread p).1, (hread p).2, (hread (Watched.start p)).1]
      exact reads_from UrgentSource.system s p _

/-- A read that asks for bytes misses the end of a message only at the end of the stream. -/
theorem read_unreached (view : StreamView K) {k : K} {s : StreamSocket} {p : π} {channel : Channel}
    (hsize : 0 < s.config.readBufferSize)
    (h : (s.read k p (channel = .urgent)).1.ending = .cut .unreachedFrame) :
    ∃ fd, s.rawFd = some fd ∧ view.AtEnd channel fd (s.read k p (channel = .urgent)).1.world ∧
      (s.read k (Watched.start p) (channel = .urgent)).2.given =
        s.assembler.unhandled ++ s.pulled k p channel := by
  cases s.readsFrom k channel with
  | refused e he hread =>
      rw [(hread p).1] at h
      exact absurd (Ending.cut.inj h) he
  | ordinary fd hfd hread =>
      change (s.read k p false).1.ending = _ at h
      refine ⟨fd, hfd, ?_⟩
      show view.AtEnd .ordinary fd (s.read k p false).1.world ∧
        (s.read k (Watched.start p) false).2.given = _
      rw [(hread p).1] at h ⊢
      rw [(hread p).2, (hread (Watched.start p)).1]
      exact unreached_from (E := view.AtEnd .ordinary fd) (fun _ ht => ht)
        (view.atEnd_of_stream hsize) ⟨rfl, rfl⟩ h
  | urgent fd hfd hread =>
      change (s.read k p true).1.ending = _ at h
      refine ⟨fd, hfd, ?_⟩
      show view.AtEnd .urgent fd (s.read k p true).1.world ∧
        (s.read k (Watched.start p) true).2.given = _
      rw [(hread p).1] at h ⊢
      rw [(hread p).2, (hread (Watched.start p)).1]
      exact unreached_from (E := view.AtEnd .urgent fd) (fun _ ht => ht)
        (view.atEnd_of_urgent hsize) ⟨rfl, rfl⟩ h

/-- No bytes are taken for the end of the stream, whatever the reason. -/
theorem read_of_nothing {k k' : K} {s : StreamSocket} {kind : StreamKind} {fd : Nat} {p : π}
    (hs : s.stream = some (kind, fd)) (ha : s.assembler = .empty)
    (hp : FramePicker.isFinished p = false)
    (h : SystemCalls.receive k fd s.config.readBufferSize = (.ok [], k')) :
    s.read k p false = (⟨.cut .unreachedFrame, s, k', false⟩, p) := by
  have hpull : ChunkSource.pull (StreamSource.mk k fd s.config.readBufferSize) =
      (.done .endOfStream, ⟨k', fd, s.config.readBufferSize⟩) := by
    show StreamSource.pull _ = _
    simp only [StreamSource.pull, h, Chunk.ofReceived]
  have hresume : FrameAssembler.empty.resume p = ⟨.empty, p, false⟩ := by
    rw [FrameAssembler.resume, if_neg (by simp [hp])]
    rfl
  have hcall : s.assembler.assemble p (StreamSource.mk k fd s.config.readBufferSize) =
      ⟨.cut .unreachedFrame, .empty, p, ⟨k', fd, s.config.readBufferSize⟩⟩ := by
    rw [ha, FrameAssembler.assemble_eq_resume, hresume, if_neg (by simp),
      FrameAssembler.pullAll_of_none (by rw [hpull]; rfl), hpull]
    rfl
  obtain ⟨stream, isConnected, address, assembler, config⟩ := s
  obtain rfl : stream = some (kind, fd) := hs
  obtain rfl : assembler = .empty := ha
  cases kind <;> simp only [read, hcall]

/-! ## The other calls of a socket -/

/-- The socket has these settings, and nothing is left over in it. -/
def Blank (config : TransportConfig) (s : StreamSocket) : Prop :=
  s.config = config ∧ s.assembler = .empty

theorem blank_client {f : SocketFactory} {address : String} {s : StreamSocket}
    (h : f.client address = .ok (.stream s)) : s.Blank f.config := by
  rw [SocketFactory.client] at h
  cases haddress : Address.parse address with
  | error e =>
      rw [haddress] at h
      cases h
  | ok target =>
      rw [haddress] at h
      have hs := Except.ok.inj h
      dsimp only at hs
      split at hs
      · cases hs
      · cases hs
        exact ⟨rfl, rfl⟩

theorem blank_accepted (kind : StreamKind) (fd : Nat) (config : TransportConfig) (k : K) :
    (accepted kind fd config k).1.Blank config := by
  cases kind with
  | unix => exact ⟨rfl, rfl⟩
  | tcp =>
      unfold accepted
      dsimp only
      split <;> exact ⟨rfl, rfl⟩

theorem blank_close (k : K) (s : StreamSocket) : (s.close k).1.Blank s.config := ⟨rfl, rfl⟩

/-- An attempt to connect drops what was left over, unless the address can not be read. -/
theorem blank_connect {address : String} {target : Address} (h : Address.parse address = .ok target)
    (k : K) (s : StreamSocket) : (s.connect k address).socket.Blank s.config := by
  unfold connect
  rw [h]
  dsimp only
  split
  · exact ⟨rfl, rfl⟩
  · split <;> exact ⟨rfl, rfl⟩

theorem connect_of_error {address : String} {e : SocketError} (h : Address.parse address = .error e)
    (k : K) (s : StreamSocket) : (s.connect k address).socket = s := by
  unfold connect
  rw [h]

theorem pollConnect_kept (k : K) (s : StreamSocket) :
    (s.pollConnect k).socket.config = s.config ∧
      (s.pollConnect k).socket.assembler = s.assembler := by
  unfold pollConnect establish
  repeat' split
  all_goals exact ⟨rfl, rfl⟩

end StreamSocket

/-! ## Reading to the end -/

/-- One who reads messages from the streams of a socket, with one picker after the other. -/
structure Intake (K : Type) where
  socket : StreamSocket
  system : K
  /-- The bytes that have been received of the stream so far. -/
  received : Bytes
  /-- The bytes of them that pickers have consumed. -/
  consumed : Bytes

namespace Intake

variable {K : Type} [SystemCalls K] {π : Type} [FramePicker π]

def start (s : StreamSocket) (k : K) : Intake K := ⟨s, k, [], []⟩

def read (r : Intake K) (p : π) (channel : Channel) : Intake K :=
  let x := r.socket.read r.system (Watched.start p) (channel = .urgent)
  ⟨x.1.socket, x.1.world, r.received ++ r.socket.pulled r.system p channel,
    r.consumed ++ x.2.consumed⟩

/-- An attempt to connect. It begins a new stream, unless the address can not be read. -/
def connect (r : Intake K) (address : String) : Intake K :=
  let x := r.socket.connect r.system address
  match Address.parse address with
  | .error _ => { r with socket := x.socket, system := x.world }
  | .ok _ => start x.socket x.world

def pollConnect (r : Intake K) : Intake K :=
  let x := r.socket.pollConnect r.system
  { r with socket := x.socket, system := x.world }

def close (r : Intake K) : Intake K :=
  start (r.socket.close r.system).1 (r.socket.close r.system).2

/-- What has come of the calls of a socket with the settings of a factory: one that the factory has
made for a client, or one that a listener with these settings has accepted. Between the calls the
system may become any other. -/
inductive Reached (f : SocketFactory) : Intake K → Prop where
  | client {address : String} {s : StreamSocket} (h : f.client address = .ok (.stream s)) (k : K) :
      Reached f (start s k)
  | accepted {l : ListenerSocket} (hl : l.config = f.config) {k : K} {unused : Picker}
      {s : StreamSocket} {address : String}
      (h : (l.read k unused).ending = .done (.accepted s address)) :
      Reached f (start s (l.read k unused).world)
  | connect {r : Intake K} (h : Reached f r) (address : String) : Reached f (r.connect address)
  | pollConnect {r : Intake K} (h : Reached f r) : Reached f r.pollConnect
  | read {r : Intake K} (h : Reached f r) {π : Type} [FramePicker π] [LawfulFramePicker π] (p : π)
      (channel : Channel) : Reached f (r.read p channel)
  | close {r : Intake K} (h : Reached f r) : Reached f r.close
  | meanwhile {r : Intake K} (h : Reached f r) (k : K) : Reached f { r with system := k }

/-- The settings are those of the factory, and what has been received was consumed or is left
over. -/
structure Kept (config : TransportConfig) (r : Intake K) : Prop where
  config : r.socket.config = config
  account : (r.consumed ++ r.socket.assembler.unhandled).Perm r.received

variable {f : SocketFactory} {config : TransportConfig} {r : Intake K}

omit [SystemCalls K] in
theorem kept_start {s : StreamSocket} (h : s.Blank config) (k : K) : (start s k).Kept config := by
  refine ⟨h.1, ?_⟩
  show ([] ++ s.assembler.unhandled).Perm []
  rw [h.2]
  exact .refl _

theorem Kept.read (h : r.Kept config) [LawfulFramePicker π] (p : π) (channel : Channel) :
    (r.read p channel).Kept config := by
  have hreads := r.socket.reads r.system p channel
  constructor
  · exact (congrArg StreamSocket.config hreads.socket).trans h.config
  · have hconsumed := (hreads.consumed inferInstance).append_left r.consumed
    have haccount := h.account.append_right (r.socket.pulled r.system p channel)
    rw [List.append_assoc] at haccount
    show (r.consumed ++ _ ++ _).Perm (r.received ++ _)
    rw [List.append_assoc]
    exact hconsumed.trans haccount

theorem Kept.connect (h : r.Kept config) (address : String) : (r.connect address).Kept config := by
  unfold Intake.connect
  cases haddress : Address.parse address with
  | error e =>
      have hsocket := StreamSocket.connect_of_error haddress r.system r.socket
      constructor
      · exact (congrArg StreamSocket.config hsocket).trans h.config
      · show (r.consumed ++ (r.socket.connect r.system address).socket.assembler.unhandled).Perm _
        rw [hsocket]
        exact h.account
  | ok target =>
      apply kept_start
      rw [← h.config]
      exact StreamSocket.blank_connect haddress r.system r.socket

theorem Kept.pollConnect (h : r.Kept config) : r.pollConnect.Kept config := by
  obtain ⟨hconfig, hassembler⟩ := StreamSocket.pollConnect_kept r.system r.socket
  constructor
  · exact hconfig.trans h.config
  · show (r.consumed ++ (r.socket.pollConnect r.system).socket.assembler.unhandled).Perm _
    rw [hassembler]
    exact h.account

theorem blank_of_accepted {l : ListenerSocket} {k : K} {unused : Picker} {s : StreamSocket}
    {address : String} (h : (l.read k unused).ending = .done (.accepted s address)) :
    s.Blank l.config := by
  unfold ListenerSocket.read at h
  split at h
  · cases h
  · split at h
    · cases h
      exact StreamSocket.blank_accepted _ _ l.config _
    · split at h <;> cases h

theorem Reached.kept (h : r.Reached f) : r.Kept f.config := by
  induction h with
  | client h k => exact kept_start (StreamSocket.blank_client h) k
  | accepted hl h => exact kept_start (hl ▸ blank_of_accepted h) _
  | connect _ address ih => exact ih.connect address
  | pollConnect _ ih => exact ih.pollConnect
  | read _ p channel ih => exact ih.read p channel
  | close _ ih =>
      apply kept_start
      rw [← ih.config]
      exact StreamSocket.blank_close _ _
  | meanwhile _ k ih => exact ⟨ih.config, ih.account⟩

/-- Whatever has been done with a socket of a factory whose settings ask for at least one byte, and
whatever the picker, a read misses the end of a message only at the end of the stream: the other end
is closed, and no byte of the channel waits. All bytes of the stream have been consumed by earlier
pickers, or they have been given to this one. -/
theorem endOfStream_of_unreached (view : StreamView K) (hsize : 0 < f.config.readBufferSize)
    (hr : r.Reached f) (p : π) (channel : Channel)
    (h : (r.socket.read r.system p (channel = .urgent)).1.ending = .cut .unreachedFrame) :
    let x := r.socket.read r.system (Watched.start p) (channel = .urgent)
    (x.1, x.2.picker) = r.socket.read r.system p (channel = .urgent) ∧
      ∃ fd, r.socket.rawFd = some fd ∧ view.closed x.1.world fd ∧
        view.waiting x.1.world fd channel = [] ∧
        (r.consumed ++ x.2.given).Perm (r.received ++ r.socket.pulled r.system p channel ++
          view.waiting x.1.world fd channel) := by
  have hkept := hr.kept
  have hreads := r.socket.reads r.system p channel
  rw [← hkept.config] at hsize
  obtain ⟨fd, hfd, hend, hgiven⟩ := StreamSocket.read_unreached view hsize h
  refine ⟨Prod.ext hreads.answer hreads.picker, fd, hfd, ?_⟩
  rw [hreads.answer]
  refine ⟨hend.1, hend.2, ?_⟩
  rw [hend.2, List.append_nil, hgiven, ← List.append_assoc]
  exact hkept.account.append_right _

/-! ## Two bytes -/

open LocalNet

/-- A client has sent two bytes, and has left since or has not; the listener has accepted it. -/
def visited (left : Bool) : LocalSystem where
  endpoints := #[.listener .path [], .stream ⟨2, [0x61, 0x62], left, !left, false⟩,
    if left then .closed else .stream ⟨1, [], false, true, false⟩]
  files := .initial
  nextService := 40000

/-- The socket of the client at the side of the listener. -/
def visitor (config : TransportConfig) : StreamSocket :=
  { StreamSocket.new config with stream := some (.unix, 1), isConnected := true }

theorem reached_visited (f : SocketFactory) (left : Bool) :
    (start (visitor f.config) (visited left)).Reached f := by
  have haccepted : (ListenerSocket.read ((visited left).put 0 (.listener .path [1]))
      ⟨some (.path "/l", 0), f.config⟩ (.raw .new)).ending =
        .done (.accepted (visitor f.config) "") := by
    cases left <;> rfl
  have hreached : (start (visitor f.config) _).Reached f := .accepted rfl haccepted
  exact hreached.meanwhile (visited left)

/-- The client has left, and its two bytes are given to a picker that waits for four. -/
theorem endOfStream_of_unreached_left :
    let f : SocketFactory := ⟨.default⟩
    let r := start (visitor f.config) (visited true)
    let p := Picker.fixedLength (.new 4)
    let x := r.socket.read r.system (Watched.start p) false
    0 < f.config.readBufferSize ∧ r.Reached f ∧
      (r.socket.read r.system p false).1.ending = .cut .unreachedFrame ∧
      LocalSystem.streamView.closed x.1.world 1 ∧
      LocalSystem.streamView.waiting x.1.world 1 .ordinary = [] ∧
      x.2.given.Perm (r.socket.pulled r.system p .ordinary) := by
  intro f r p x
  have hsize : 0 < f.config.readBufferSize := by decide
  have hreached : r.Reached f := reached_visited f true
  have hunreached : (r.socket.read r.system p false).1.ending = .cut .unreachedFrame := by
    show (FrameAssembler.empty.assemble p (StreamSource.mk (visited true) 1 8192)).ending = _
    rw [FrameAssembler.assemble_eq_resume]
    show (FrameAssembler.empty.pullAll p (StreamSource.mk (visited true) 1 8192)).ending = _
    have hbytes : (ChunkSource.pull (StreamSource.mk (visited true) 1 8192)).1 =
        .done (.data [0x61, 0x62] "") := rfl
    rw [FrameAssembler.pullAll_of_bytes hbytes (by decide), if_neg (by decide),
      FrameAssembler.pullAll_of_none rfl]
    rfl
  obtain ⟨-, fd, hfd, hclosed, hwaiting, hperm⟩ :=
    endOfStream_of_unreached LocalSystem.streamView hsize hreached p .ordinary hunreached
  obtain rfl : 1 = fd := Option.some.inj hfd
  refine ⟨hsize, hreached, hunreached, hclosed, hwaiting, ?_⟩
  rw [hwaiting, List.append_nil] at hperm
  exact hperm

/-- The environment makes the settings ask for no bytes. -/
theorem readBufferSize_zero :
    (TransportConfig.fromEnvironment [("ASOCK_READ_BUFFER", [0x30])]).readBufferSize = 0 := by
  have hdecoded : Text.Utf8.decode? [0x30] = some "0" := by
    simp [Text.Utf8.decode?, Text.Utf8.scan, Text.Utf8.scan.start]
  have htext : Environment.text? [("ASOCK_READ_BUFFER", [0x30])] "ASOCK_READ_BUFFER" =
      some ['0'] := by
    show (Text.Utf8.decode? [0x30]).bind (fun text => some (Text.trimBlanks text.toList)) = _
    rw [hdecoded]
    rfl
  show (((Environment.text? _ "ASOCK_READ_BUFFER").bind (Text.natural? _)).getD _) = 0
  rw [htext]
  rfl

/-- The settings ask for no bytes, as the environment wants. The end of the stream is reported while
the client is still there and its two bytes wait. -/
theorem unreached_midstream :
    let f : SocketFactory := ⟨.fromEnvironment [("ASOCK_READ_BUFFER", [0x30])]⟩
    let r := start (visitor f.config) (visited false)
    let x := r.socket.read r.system (Picker.raw .new) false
    r.Reached f ∧ x.1.ending = .cut .unreachedFrame ∧
      ¬ LocalSystem.streamView.closed x.1.world 1 ∧
      LocalSystem.streamView.waiting x.1.world 1 .ordinary = [0x61, 0x62] ∧
      ¬ ∀ (f : SocketFactory) (r : Intake LocalSystem) (p : Picker), r.Reached f →
        (r.socket.read r.system p false).1.ending = .cut .unreachedFrame →
        ∃ fd, r.socket.rawFd = some fd ∧
          LocalSystem.streamView.closed (r.socket.read r.system p false).1.world fd := by
  intro f r x
  have hreached : r.Reached f := reached_visited f false
  have hnothing : SystemCalls.receive (visited false) 1 f.config.readBufferSize =
      (.ok [], visited false) := by
    rw [readBufferSize_zero]
    rfl
  have hread : r.socket.read r.system (Picker.raw .new) false =
      (⟨.cut .unreachedFrame, visitor f.config, visited false, false⟩, .raw .new) :=
    StreamSocket.read_of_nothing rfl rfl rfl hnothing
  have hx : x = _ := hread
  have hopen : ¬ LocalSystem.streamView.closed (visited false) 1 := by
    rintro ⟨e, he, hended⟩
    cases he
    cases hended
  refine ⟨hreached, by rw [hx], by rwa [hx], by rw [hx]; rfl, fun hclaim => ?_⟩
  obtain ⟨fd, hfd, hclosed⟩ := hclaim f r (.raw .new) hreached (by rw [hread])
  obtain rfl : 1 = fd := Option.some.inj hfd
  rw [hread] at hclosed
  exact hopen hclosed

end Intake

end Reactor
