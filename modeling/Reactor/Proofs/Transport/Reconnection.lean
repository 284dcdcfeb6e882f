import Reactor.Proofs.Frame.Consumption
import Reactor.Proofs.Transport.Assembling
import Reactor.Proofs.Transport.EndOfStream

/-! The connections that a socket makes one after the other. Bytes that are left over wait in the
socket, and outlive the descriptor that they were received from. But each way to lose a connection
forgets them, and so does every attempt to open another one, as soon as its address can be read. So
the messages of a connection hold no bytes of an earlier one. -/

namespace Reactor

variable {K : Type} [SystemCalls K]

/-- An address that can be read closes a stream that is open. Another one is opened, or none. -/
theorem StreamSocket.connect_cases {address : String} {target : Address}
    (h : Address.parse address = .ok target) (k : K) (s : StreamSocket) :
    let closed := { (s.close k).1 with address := address }
    (∃ e k', s.connect k address = ⟨.cut e, closed, k', false⟩) ∨
      ∃ kind fd k', s.connect k address =
        ⟨.done (), { closed with stream := some (kind, fd) }, k', false⟩ := by
  unfold connect
  rw [h]
  dsimp only
  split
  · exact .inl ⟨_, _, rfl⟩
  · split
    · exact .inl ⟨_, _, rfl⟩
    · exact .inr ⟨_, _, _, rfl⟩

theorem StreamSocket.stream_accepted (kind : StreamKind) (fd : Nat) (config : TransportConfig)
    (k : K) : (accepted kind fd config k).1.stream = some (kind, fd) := by
  cases kind with
  | unix => rfl
  | tcp =>
      unfold accepted
      dsimp only
      split <;> rfl

namespace DatagramSocket

theorem connect_cases {address : String} {target : Address}
    (h : Address.parse address = .ok target) (k : K) (s : DatagramSocket) :
    let closed := { (s.close k).1 with address := address }
    (∃ e k', s.connect k address = ⟨.cut e, closed, k', false⟩) ∨
      ∃ fd k', s.connect k address = ⟨.done (), { closed with fd := some fd }, k', false⟩ := by
  unfold connect
  rw [h]
  dsimp only
  split
  · split
    · exact .inl ⟨_, _, rfl⟩
    · exact .inr ⟨_, _, rfl⟩
  · exact .inl ⟨_, _, rfl⟩

/-- The bytes that a read receives. -/
def pulled (k : K) (s : DatagramSocket) (p : Picker) (outOfBand : Bool) : Bytes :=
  match s.fd, outOfBand with
  | some fd, false =>
      s.assembler.received p (DatagramSource.mk k fd s.config.datagramBufferSize false)
  | _, _ => []

end DatagramSocket

namespace Transport

def assembler : Transport → FrameAssembler
  | stream s => s.assembler
  | datagram s => s.assembler
  | listener _ => .empty

def pulled (k : K) (t : Transport) (p : Picker) (outOfBand : Bool) : Bytes :=
  match t with
  | stream s => s.pulled k p (if outOfBand then .urgent else .ordinary)
  | datagram s => s.pulled k p outOfBand
  | listener _ => []

/-! ## Closed sockets -/

/-- The socket is seen to be closed, and nothing is left over in it. Nothing comes of its calls, as
long as it is not opened, whatever the system. -/
structure Closed (K : Type) [SystemCalls K] (t : Transport) : Prop where
  isOpen : t.isOpen = false
  isConnected : t.isConnected = false
  rawFd : t.rawFd = none
  unhandled : t.assembler.unhandled = []
  pollConnect (k : K) : t.pollConnect k = ⟨.done false, t, k, false⟩
  read (k : K) (p : Picker) (outOfBand : Bool) :
    t.read k p outOfBand = (⟨.cut .notOpen, t, k, false⟩, p)
  write (k : K) (data : Bytes) (outOfBand : Bool) :
    t.write k data outOfBand = ⟨.cut .notOpen, t, k, false⟩

theorem closed_stream {s : StreamSocket} (hs : s.stream = none) (hc : s.isConnected = false)
    (ha : s.assembler = .empty) : (stream s).Closed K := by
  obtain ⟨_, _, _, _, _⟩ := s
  subst hs hc ha
  exact ⟨rfl, rfl, rfl, rfl, fun _ => rfl, fun _ _ _ => rfl, fun _ _ _ => rfl⟩

theorem closed_datagram {s : DatagramSocket} (hfd : s.fd = none) (ha : s.assembler = .empty) :
    (datagram s).Closed K := by
  obtain ⟨_, _, _, _⟩ := s
  subst hfd ha
  exact ⟨rfl, rfl, rfl, rfl, fun _ => rfl, fun _ _ _ => rfl, fun _ _ _ => rfl⟩

/-! ## The calls of a socket -/

inductive Connects (k : K) (t : Transport) (address : String) : Prop where
  /-- The address can not be read, and nothing is done. -/
  | unread (e : SocketError) (ht : Address.parse address = .error e)
      (hc : t.connect k address = ⟨.cut e, t, k, false⟩)
  /-- There is no such connection, and none is left. -/
  | failed (target : Address) (e : SocketError) (ht : Address.parse address = .ok target)
      (he : (t.connect k address).ending = .cut e) (hc : (t.connect k address).socket.Closed K)
  /-- A connection is begun, with nothing left over from another one. -/
  | opened (target : Address) (ht : Address.parse address = .ok target)
      (he : (t.connect k address).ending = .done ())
      (ho : (t.connect k address).socket.isOpen = true)
      (ha : (t.connect k address).socket.assembler.unhandled = [])

theorem connects (k : K) {t : Transport} (ht : t.isServer = false) (address : String) :
    t.Connects k address := by
  cases haddress : Address.parse address with
  | error e =>
      refine .unread e haddress ?_
      cases t with
      | stream s =>
          show (s.connect k address).lift stream id = _
          rw [StreamSocket.connect, haddress]
          rfl
      | datagram s =>
          show (s.connect k address).lift datagram id = _
          rw [DatagramSocket.connect, haddress]
          rfl
      | listener s => cases ht
  | ok target =>
      cases t with
      | stream s =>
          have hlift : (stream s).connect k address = (s.connect k address).lift stream id := rfl
          rcases s.connect_cases haddress k with ⟨e, k', hc⟩ | ⟨kind, fd, k', hc⟩
          all_goals rw [hc] at hlift
          · exact .failed target e haddress (by rw [hlift]; rfl)
              (by rw [hlift]; exact closed_stream rfl rfl rfl)
          · exact .opened target haddress (by rw [hlift]; rfl) (by rw [hlift]; rfl)
              (by rw [hlift]; rfl)
      | datagram s =>
          have hlift : (datagram s).connect k address = (s.connect k address).lift datagram id :=
            rfl
          rcases s.connect_cases haddress k with ⟨e, k', hc⟩ | ⟨fd, k', hc⟩
          all_goals rw [hc] at hlift
          · exact .failed target e haddress (by rw [hlift]; rfl)
              (by rw [hlift]; exact closed_datagram rfl rfl)
          · exact .opened target haddress (by rw [hlift]; rfl) (by rw [hlift]; rfl)
              (by rw [hlift]; rfl)
      | listener s => cases ht

theorem isServer_connect (k : K) (t : Transport) (address : String) :
    (t.connect k address).socket.isServer = t.isServer := by
  cases t <;> rfl

theorem isServer_close (k : K) (t : Transport) : (t.close k).1.isServer = t.isServer := by
  cases t <;> rfl

theorem closed_close (k : K) {t : Transport} (ht : t.isServer = false) :
    (t.close k).1.Closed K := by
  cases t with
  | stream s => exact closed_stream rfl rfl rfl
  | datagram s => exact closed_datagram rfl rfl
  | listener s => cases ht

/-- The socket is as open as it was, and the same bytes are left over. -/
structure Kept (t t' : Transport) : Prop where
  isServer : t'.isServer = t.isServer
  isOpen : t'.isOpen = t.isOpen
  assembler : t'.assembler = t.assembler

theorem kept_pollConnect (k : K) (t : Transport) : t.Kept (t.pollConnect k).socket := by
  cases t with
  | stream s =>
      obtain ⟨hassembler, hstream⟩ := s.pollConnect_assembler k
      exact ⟨rfl, congrArg Option.isSome hstream, hassembler⟩
  | datagram s => exact ⟨rfl, rfl, rfl⟩
  | listener s => exact ⟨rfl, rfl, rfl⟩

/-- A write changes nothing of the socket. -/
theorem socket_write (k : K) (t : Transport) (data : Bytes) (outOfBand : Bool) :
    (t.write k data outOfBand).socket = t := by
  cases t with
  | stream s => exact congrArg stream (s.socket_write k data outOfBand)
  | datagram s => exact congrArg datagram (s.socket_write k data outOfBand)
  | listener s => rfl

/-- What comes of a read. It draws from the bytes that its picker has collected, those that are left
over and those that it receives. -/
structure Reads (k : K) (t : Transport) (p : Picker) (outOfBand : Bool) : Prop where
  isServer : (t.read k p outOfBand).1.socket.isServer = t.isServer
  isOpen : (t.read k p outOfBand).1.socket.isOpen = t.isOpen
  draws : ∃ x : Assembled Picker Unit,
    x.Draws p.collected t.assembler.unhandled (t.pulled k p outOfBand) ∧
      (t.read k p outOfBand).1.ending = x.ending.map .ofReading ∧
      (t.read k p outOfBand).1.socket.assembler = x.assembler ∧
      (t.read k p outOfBand).2 = x.picker

variable {k : K} {t : Transport} {p : Picker} {outOfBand : Bool}

theorem reads_of_refused {e : SocketError}
    (hread : t.read k p outOfBand = (⟨.cut e, t, k, false⟩, p))
    (hpulled : t.pulled k p outOfBand = []) : t.Reads k p outOfBand := by
  have hdraws : Assembled.Draws ⟨.cut e, t.assembler, p, ()⟩ p.collected t.assembler.unhandled
      (t.pulled k p outOfBand) := by
    rw [hpulled]
    refine ⟨by simp, ?_, ?_⟩ <;> rw [List.append_nil]
  refine ⟨?_, ?_, _, hdraws, ?_⟩ <;> rw [hread]
  exact ⟨rfl, rfl, rfl⟩

theorem reads_of_call {σ : Type} [ChunkSource σ] (source : σ)
    (hpulled : t.pulled k p outOfBand = t.assembler.received p source)
    (hserver : (t.read k p outOfBand).1.socket.isServer = t.isServer)
    (hopen : (t.read k p outOfBand).1.socket.isOpen = t.isOpen)
    (hcall : (t.read k p outOfBand).1.ending =
        (t.assembler.assemble p source).ending.map .ofReading ∧
      (t.read k p outOfBand).1.socket.assembler = (t.assembler.assemble p source).assembler ∧
      (t.read k p outOfBand).2 = (t.assembler.assemble p source).picker) :
    t.Reads k p outOfBand := by
  have hdraws := (t.assembler.assemble_draws p source).along fun _ => ()
  rw [← hpulled] at hdraws
  exact ⟨hserver, hopen, _, hdraws, hcall⟩

theorem reads (k : K) (ht : t.isServer = false) (p : Picker) (outOfBand : Bool) :
    t.Reads k p outOfBand := by
  cases t with
  | stream s =>
      obtain ⟨stream, isConnected, address, assembler, config⟩ := s
      rcases stream with _ | ⟨_ | _, fd⟩
      · exact reads_of_refused rfl rfl
      · cases outOfBand with
        | false =>
            exact reads_of_call (StreamSource.mk k fd config.readBufferSize) rfl rfl rfl
              ⟨rfl, rfl, rfl⟩
        | true =>
            exact reads_of_call (UrgentSource.mk k fd config.readBufferSize) rfl rfl rfl
              ⟨rfl, rfl, rfl⟩
      · cases outOfBand with
        | false =>
            exact reads_of_call (StreamSource.mk k fd config.readBufferSize) rfl rfl rfl
              ⟨rfl, rfl, rfl⟩
        | true => exact reads_of_refused rfl rfl
  | datagram s =>
      obtain ⟨fd, address, assembler, config⟩ := s
      rcases fd with _ | fd
      · exact reads_of_refused rfl rfl
      · cases outOfBand with
        | false =>
            exact reads_of_call (DatagramSource.mk k fd config.datagramBufferSize false) rfl rfl rfl
              ⟨rfl, rfl, rfl⟩
        | true => exact reads_of_refused rfl rfl
  | listener s => cases ht

end Transport

/-! ## One connection after the other -/

/-- One who opens a socket again and again, and reads from it with a picker. -/
structure Correspondent where
  socket : Transport
  /-- The socket was opened, and no call has closed it since. -/
  opened : Bool
  picker : Picker
  /-- The bytes that have been received since the socket was opened. -/
  received : Bytes

namespace Correspondent

section Calls

variable (r : Correspondent) (k : K)

/-- An attempt to open the socket. With a new connection, reading begins with another picker. -/
def connect (address : String) (p : Picker) : Correspondent :=
  let answer := r.socket.connect k address
  match Address.parse address, answer.ending with
  | .error _, _ => { r with socket := answer.socket }
  | .ok _, .done () => ⟨answer.socket, true, p, []⟩
  | .ok _, _ => { r with socket := answer.socket, opened := false }

def pollConnect : Correspondent := { r with socket := (r.socket.pollConnect k).socket }

def read (outOfBand : Bool) : Correspondent :=
  let x := r.socket.read k r.picker outOfBand
  ⟨x.1.socket, r.opened, x.2, r.received ++ r.socket.pulled k r.picker outOfBand⟩

/-- Somebody else reads from the socket. -/
def readAside (other : Picker) (outOfBand : Bool) : Correspondent :=
  { r with
    socket := (r.socket.read k other outOfBand).1.socket
    received := r.received ++ r.socket.pulled k other outOfBand }

def write (data : Bytes) (outOfBand : Bool) : Correspondent :=
  { r with socket := (r.socket.write k data outOfBand).socket }

def close : Correspondent := { r with socket := (r.socket.close k).1, opened := false }

end Calls

/-- What has come of calls in any order of a socket that is not a listener's, whatever the system
was at each of them. A picker that reading begins with has collected nothing. -/
inductive Reached (K : Type) [SystemCalls K] : Correspondent → Prop where
  | stream (config : TransportConfig) {p : Picker} (hp : p.collected = []) :
      Reached K ⟨.stream (.new config), false, p, []⟩
  | datagram (config : TransportConfig) {p : Picker} (hp : p.collected = []) :
      Reached K ⟨.datagram (.new config), false, p, []⟩
  | accepted (kind : StreamKind) (fd : Nat) (config : TransportConfig) (k : K) {p : Picker}
      (hp : p.collected = []) :
      Reached K ⟨.stream (StreamSocket.accepted kind fd config k).1, true, p, []⟩
  | connect {r : Correspondent} (h : Reached K r) (k : K) (address : String) {p : Picker}
      (hp : p.collected = []) : Reached K (r.connect k address p)
  | pollConnect {r : Correspondent} (h : Reached K r) (k : K) : Reached K (r.pollConnect k)
  | read {r : Correspondent} (h : Reached K r) (k : K) (outOfBand : Bool) :
      Reached K (r.read k outOfBand)
  | readAside {r : Correspondent} (h : Reached K r) (k : K) (other : Picker) (outOfBand : Bool) :
      Reached K (r.readAside k other outOfBand)
  | begin {r : Correspondent} (h : Reached K r) {p : Picker} (hp : p.collected = []) :
      Reached K { r with picker := p }
  | write {r : Correspondent} (h : Reached K r) (k : K) (data : Bytes) (outOfBand : Bool) :
      Reached K (r.write k data outOfBand)
  | close {r : Correspondent} (h : Reached K r) (k : K) : Reached K (r.close k)

/-- The socket is open if it was opened, and it is closed otherwise. What the picker has collected
and what is left over are different bytes that have been received since. -/
structure Sound (K : Type) [SystemCalls K] (r : Correspondent) : Prop where
  isServer : r.socket.isServer = false
  isOpen : r.socket.isOpen = r.opened
  closed : r.opened = false → r.socket.Closed K
  account : (r.picker.collected ++ r.socket.assembler.unhandled).Subperm r.received

variable {r : Correspondent} {p : Picker}

/-- Nothing is left over, and nothing has been received. -/
theorem account_start (hp : p.collected = []) {t : Transport} (ht : t.assembler.unhandled = []) :
    (p.collected ++ t.assembler.unhandled).Subperm [] := by
  rw [hp, ht]
  exact .refl []

theorem Sound.account_closed (h : r.Sound K) {t : Transport} (ht : t.Closed K) :
    (r.picker.collected ++ t.assembler.unhandled).Subperm r.received := by
  rw [ht.unhandled, List.append_nil]
  exact (List.sublist_append_left _ _).subperm.trans h.account

/-- Bytes that come in are added to those that have been received. -/
theorem Sound.account_append (h : r.Sound K) (news : Bytes) :
    (r.picker.collected ++ (r.socket.assembler.unhandled ++ news)).Subperm
      (r.received ++ news) := by
  rw [← List.append_assoc]
  exact (List.subperm_append_right news).2 h.account

theorem Sound.connect (h : r.Sound K) (k : K) (address : String) (hp : p.collected = []) :
    (r.connect k address p).Sound K := by
  have hserver := (r.socket.isServer_connect k address).trans h.isServer
  unfold Correspondent.connect
  dsimp only
  cases Transport.connects k h.isServer address with
  | unread e ht hc =>
      rw [ht, hc]
      exact h
  | failed target e ht he hc =>
      rw [ht, he]
      exact ⟨hserver, hc.isOpen, fun _ => hc, h.account_closed hc⟩
  | opened target ht he ho ha =>
      rw [ht, he]
      exact ⟨hserver, ho, nofun, account_start hp ha⟩

theorem Sound.pollConnect (h : r.Sound K) (k : K) : (r.pollConnect k).Sound K := by
  have hkept := r.socket.kept_pollConnect k
  refine ⟨hkept.isServer.trans h.isServer, hkept.isOpen.trans h.isOpen, fun hclosed => ?_, ?_⟩
  · have hc := h.closed hclosed
    show (r.socket.pollConnect k).socket.Closed K
    rwa [hc.pollConnect]
  · show (_ ++ (r.socket.pollConnect k).socket.assembler.unhandled).Subperm _
    rw [hkept.assembler]
    exact h.account

/-- A read leaves a closed socket as it is. -/
theorem Sound.closed_read (h : r.Sound K) (k : K) (p : Picker) (outOfBand : Bool)
    (hclosed : r.opened = false) : (r.socket.read k p outOfBand).1.socket.Closed K := by
  have hc := h.closed hclosed
  rwa [hc.read]

theorem Sound.read (h : r.Sound K) (k : K) (outOfBand : Bool) : (r.read k outOfBand).Sound K := by
  have hreads := Transport.reads k h.isServer r.picker outOfBand
  obtain ⟨x, hx, -, hassembler, hpicker⟩ := hreads.draws
  refine ⟨hreads.isServer.trans h.isServer, hreads.isOpen.trans h.isOpen,
    h.closed_read k r.picker outOfBand, ?_⟩
  show ((r.socket.read k r.picker outOfBand).2.collected ++
    (r.socket.read k r.picker outOfBand).1.socket.assembler.unhandled).Subperm _
  rw [hpicker, hassembler]
  exact hx.picker.trans (h.account_append _)

theorem Sound.readAside (h : r.Sound K) (k : K) (other : Picker) (outOfBand : Bool) :
    (r.readAside k other outOfBand).Sound K := by
  have hreads := Transport.reads k h.isServer other outOfBand
  obtain ⟨x, hx, -, hassembler, -⟩ := hreads.draws
  -- the other picker may hold bytes from anywhere, but it leaves none of them over
  refine ⟨hreads.isServer.trans h.isServer, hreads.isOpen.trans h.isOpen,
    h.closed_read k other outOfBand, ?_⟩
  show (r.picker.collected ++
    (r.socket.read k other outOfBand).1.socket.assembler.unhandled).Subperm _
  rw [hassembler]
  exact ((List.subperm_append_left _).2 hx.unhandled).trans (h.account_append _)

theorem Sound.begin (h : r.Sound K) (hp : p.collected = []) :
    Sound K { r with picker := p } := by
  refine ⟨h.isServer, h.isOpen, h.closed, ?_⟩
  show (p.collected ++ _).Subperm _
  rw [hp]
  exact (List.sublist_append_right _ _).subperm.trans h.account

theorem Sound.close (h : r.Sound K) (k : K) : (r.close k).Sound K := by
  have hc := Transport.closed_close k h.isServer
  exact ⟨(r.socket.isServer_close k).trans h.isServer, hc.isOpen, fun _ => hc, h.account_closed hc⟩

theorem Reached.sound (h : r.Reached K) : r.Sound K := by
  induction h with
  | stream config hp =>
      have hc : (Transport.stream (.new config)).Closed K := Transport.closed_stream rfl rfl rfl
      exact ⟨rfl, rfl, fun _ => hc, account_start hp rfl⟩
  | datagram config hp =>
      have hc : (Transport.datagram (.new config)).Closed K := Transport.closed_datagram rfl rfl
      exact ⟨rfl, rfl, fun _ => hc, account_start hp rfl⟩
  | accepted kind fd config k hp =>
      have hblank := StreamSocket.blank_accepted kind fd config k
      have hopen := congrArg Option.isSome (StreamSocket.stream_accepted kind fd config k)
      exact ⟨rfl, hopen, nofun, account_start hp (congrArg FrameAssembler.unhandled hblank.2)⟩
  | connect _ k address hp ih => exact ih.connect k address hp
  | pollConnect _ k ih => exact ih.pollConnect k
  | read _ k outOfBand ih => exact ih.read k outOfBand
  | readAside _ k other outOfBand ih => exact ih.readAside k other outOfBand
  | begin _ hp ih => exact ih.begin hp
  | write _ k data outOfBand ih =>
      rw [Correspondent.write, Transport.socket_write]
      exact ih
  | close _ k ih => exact ih.close k

/-- Whatever calls have been made of a stream or a datagram socket, and whatever the system has
answered: the socket is open if it was opened and not closed since. Otherwise it is seen to be
closed, it reads and writes nothing, and nothing is left over in it. An attempt to open it leaves no
bytes of an earlier connection behind, at whatever point it fails; only if the address can not be
read is the socket left as it was. So a message consists of bytes that have been received since the
socket was opened. -/
theorem frame_since_opened (h : r.Reached K) :
    r.socket.isOpen = r.opened ∧ (r.opened = false → r.socket.Closed K) ∧
      (∀ (k : K) (address : String), r.socket.Connects k address) ∧
      ∀ (k : K) (outOfBand : Bool) (frame : Frame),
        (r.socket.read k r.picker outOfBand).1.ending = .done (.frame frame) →
        frame.data.Subperm (r.received ++ r.socket.pulled k r.picker outOfBand) := by
  have hsound := h.sound
  refine ⟨hsound.isOpen, hsound.closed, fun k => Transport.connects k hsound.isServer,
    fun k outOfBand frame hframe => ?_⟩
  -- a message is what the assembler has built, and this has drawn from bytes of the connection only
  obtain ⟨x, hx, hending, -⟩ := (Transport.reads k hsound.isServer r.picker outOfBand).draws
  obtain ⟨reading, hreading, hof⟩ := Ending.done_of_map (hending.symm.trans hframe)
  obtain rfl : reading = .frame frame := by
    cases reading with
    | pending => cases hof
    | frame f => cases hof; rfl
  have hmessage : frame.data.Subperm _ :=
    (List.sublist_append_left _ _).subperm.trans (hx.message frame hreading)
  exact hmessage.trans (hsound.account_append _)

/-! ## Three bytes that are left over -/

/-- Six bytes have come in through a stream, and the first three make a message. -/
def halfRead : Correspondent :=
  Correspondent.read ⟨.stream (StreamSocket.accepted .unix 0 .default (Line.mk [] [])).1, true,
    .fixedLength (.new 3), []⟩ (Line.mk [0x61, 0x62, 0x63, 0x64, 0x65, 0x66] []) false

theorem reached_halfRead : halfRead.Reached Line :=
  (Reached.accepted .unix 0 .default (Line.mk [] []) rfl).read _ false

theorem unhandled_halfRead : halfRead.socket.assembler.unhandled = [0x64, 0x65, 0x66] := by
  show (FrameAssembler.empty.assemble (Picker.fixedLength (.new 3)) (StreamSource.mk
    (Line.mk [0x61, 0x62, 0x63, 0x64, 0x65, 0x66] []) 0 8192)).assembler.unhandled = _
  have hbytes : (ChunkSource.pull (StreamSource.mk
      (Line.mk [0x61, 0x62, 0x63, 0x64, 0x65, 0x66] []) 0 8192)).1 =
        .done (.data [0x61, 0x62, 0x63, 0x64, 0x65, 0x66] "") := rfl
  rw [FrameAssembler.assemble_of_chunk rfl hbytes (by decide) (by decide)]
  rfl

/-- The socket is opened again, and the first message of the new connection is read. -/
theorem frame_since_opened_again :
    let r := halfRead.connect (Line.mk [] []) "unix://l" (.fixedLength (.new 2))
    let k := Line.mk [0x78, 0x79] []
    halfRead.socket.assembler.unhandled = [0x64, 0x65, 0x66] ∧ r.Reached Line ∧ r.received = [] ∧
      (r.socket.read k r.picker false).1.ending = .done (.frame ⟨[0x78, 0x79], ""⟩) ∧
      ([0x78, 0x79] : Bytes).Subperm (r.socket.pulled k r.picker false) := by
  intro r k
  have hreached : r.Reached Line :=
    reached_halfRead.connect _ "unix://l" (Picker.Unused.fixedLength 2).collected_eq_nil
  have hread : (r.socket.read k r.picker false).1.ending = .done (.frame ⟨[0x78, 0x79], ""⟩) := by
    show ((FrameAssembler.empty.assemble (Picker.fixedLength (.new 2))
      (StreamSource.mk k 0 8192)).ending.map ReadOutcome.ofReading) = _
    have hbytes : (ChunkSource.pull (StreamSource.mk k 0 8192)).1 =
        .done (.data [0x78, 0x79] "") := rfl
    rw [FrameAssembler.assemble_of_chunk rfl hbytes (by decide) (by decide)]
    rfl
  obtain ⟨-, -, -, hframe⟩ := frame_since_opened hreached
  exact ⟨unhandled_halfRead, hreached, rfl, hread, hframe k false _ hread⟩

end Correspondent

end Reactor
