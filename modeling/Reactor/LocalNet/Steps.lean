import Reactor.LocalNet.Network

/-! The steps by which the transports are exercised in a local network. -/

namespace Reactor.LocalNet

/-- A picker that is used once, or the kept one of a number. -/
inductive PickerChoice where
  | fresh (picker : Picker)
  | kept (number : Nat)

inductive NetStep where
  /-- Listens at a new address of a scheme, `tcp` or `unix`. -/
  | listen (name : String) (scheme : Scheme)
  /-- Makes a peer for datagrams at a new address of a scheme, `udp` or `udg`. -/
  | bind (name : String) (scheme : Scheme)
  /-- Makes a socket and opens it; without a choice, the factory chooses between streams and
  datagrams. -/
  | connect (name target : String) (datagram : Option Bool)
  | accept (name listener : String)
  | reopen (name target : String)
  | pollConnect (name : String)
  | read (name : String) (picker : PickerChoice) (outOfBand : Bool)
  | write (name : String) (data : Bytes) (outOfBand : Bool)
  | close (name : String)
  | drop (name : String)
  | reset (picker : Nat)
  | describe (name : String)
  | peerSend (name : String) (data : Bytes)
  | peerReceive (name : String)
  /-- The peer stops sending. -/
  | peerEnd (name : String)
  | peerClose (name : String)

inductive NetResult where
  | nothing
  | flag (value : Bool)
  | count (value : Nat)
  | text (value : String)
  | bytes (value : Bytes)
  | reading (value : Reading)
  /-- A client that a read has accepted: what is said of the outcome, and where it came from. -/
  | client (description address : String)
  /-- A client that is kept under a name. -/
  | accepted (isConnected : Bool) (address : String)
  | nobody
  | error (error : SocketError)
  /-- There is no socket of the name. -/
  | missing

namespace Network

def result {α : Type} (n : Network) (ending : Ending SocketError α) (f : α → NetResult) : NetResult :=
  match ending with
  | .done value => f value
  | .cut error => .error (n.shownError error)
  | .crashed => .nothing

/-- Takes over the answer of a socket. -/
def absorb {α : Type} (n : Network) (name : String) (a : SocketAnswer LocalSystem Transport α)
    (f : α → NetResult) : NetResult × Network :=
  let n := n.keep name a.socket a.world
  (n.result a.ending f, n)

/-- Takes over the answer of a socket that is new. -/
def welcome {α : Type} (n : Network) (name : String) (a : SocketAnswer LocalSystem Transport α)
    (f : α → NetResult) : NetResult × Network :=
  let n := n.enter name a.socket a.world
  (n.result a.ending f, n)

/-- Does something with the socket of a name. -/
def use (n : Network) (name : String) (f : Transport → NetResult × Network) :
    NetResult × Network :=
  match n.socket? name with
  | some t => f t
  | none => (.missing, n)

/-- Makes a listener at a new address. -/
def startListening (n : Network) (name : String) (scheme : Scheme) : NetResult × Network :=
  let path := "unix://" ++ n.newPath
  let address := if scheme = .unix then path else "tcp://127.0.0.1:0"
  let a := ListenerSocket.connect n.system (.new n.config) address
  let found := a.socket.localAddress? a.world
  let known := (found.map ("tcp://" ++ ·)).getD address
  let n := { n with addresses := (name, known) :: n.addresses }
  n.welcome name (a.lift .listener id) fun _ => .flag found.isSome

/-- Makes a peer for datagrams. An earlier one of the name is closed then. -/
def bindPeer (n : Network) (name : String) (scheme : Scheme) : NetResult × Network :=
  let fd := n.system.endpoints.size
  let path := n.newPath
  let (address, system) :=
    if scheme = .udg then ("udg://" ++ path, (n.system.bindAt path (.datagram [] none)).2)
    else ("udp://127.0.0.1:" ++ toString (50000 + fd), (n.system.create (.datagram [] none)).2)
  let system := match n.peers.lookup name with
    | some old => system.close old.fd
    | none => system
  (.nothing, { n with
    system := system
    peers := (name, .datagram fd none) :: n.peers
    addresses := (name, address) :: n.addresses })

/-- Makes a socket of a client and opens it. -/
def startConnecting (n : Network) (name target : String) (datagram : Option Bool) :
    NetResult × Network :=
  let address := n.resolve target
  let made : Except SocketError Transport := match datagram with
    | some true => .ok (.datagram (.new n.config))
    | some false => .ok (.stream (.new n.config))
    | none => SocketFactory.client ⟨n.config⟩ address
  match made with
  | .error e => (.error (n.shownError e), n)
  | .ok t => n.welcome name (t.connect n.system address) fun _ => .nothing

/-- Accepts a client under a name. -/
def acceptAs (n : Network) (name listener : String) : NetResult × Network :=
  n.use listener fun t =>
    let a := (t.read n.system (.raw .new) false).1
    let n := n.keep listener a.socket a.world
    match a.ending with
    | .done (.accepted client address) =>
        (.accepted client.isConnected (n.shown address), n.enter name client n.system)
    | .cut error => (.error (n.shownError error), n)
    | _ => (.nobody, n)

/-- Reads from a socket. A client that comes in is let go. -/
def readFrom (n : Network) (name : String) (choice : PickerChoice) (outOfBand : Bool) :
    NetResult × Network :=
  n.use name fun t =>
    let picker : Picker := match choice with
      | .fresh picker => picker
      | .kept number => n.pickers[number]?.getD (.raw .new)
    let (a, picker) := t.read n.system picker outOfBand
    let pickers := match choice with
      | .fresh _ => n.pickers
      | .kept number => n.pickers.setIfInBounds number picker
    let world := match a.ending with
      | .done (.accepted client _) => (client.close a.world).2
      | _ => a.world
    { n with pickers := pickers }.absorb name { a with world := world } fun
      | .pending snapshot => .reading (.pending snapshot)
      | .frame f => .reading (.frame f)
      | .accepted client address =>
          .client (ReadOutcome.describe (.accepted client address)) (n.shown address)

def sendFrom (n : Network) (peer : Peer) (data : Bytes) : NetResult × Network :=
  match peer with
  | .stream fd =>
      let (result, system) := n.system.send fd data
      (.flag result.toBool, { n with system := system })
  | .datagram _ none => (.error .notOpen, n)
  | .datagram fd (some _) =>
      match n.system.send fd data with
      | (.ok count, system) => (.count count, { n with system := system })
      | (.error e, system) => (.error (.io e), { n with system := system })

/-- Lets a peer receive: all that waits in a stream, or one datagram. -/
def receiveAt (n : Network) (name : String) (peer : Peer) : NetResult × Network :=
  match peer with
  | .stream fd =>
      let (result, system) := n.system.receive fd ((n.system.endpoint fd).waiting + 1)
      ((result.toOption.map NetResult.bytes).getD .nothing, { n with system := system })
  | .datagram fd sender =>
      match n.system.receiveFrom fd 65536 with
      | (.ok (data, from'), system) =>
          let sender := if from'.isEmpty then sender else some from'
          (.bytes data, { n with
            system := system
            peers := (name, .datagram fd sender) :: n.peers })
      | (.error e, system) => (.error (.io e), { n with system := system })

/-- Does something with the peer of a name; where there is none nothing happens. -/
def usePeer (n : Network) (name : String) (f : Peer → NetResult × Network) :
    NetResult × Network :=
  match n.peers.lookup name with
  | some peer => f peer
  | none => (.nothing, n)

def step (n : Network) : NetStep → NetResult × Network
  | .listen name scheme => n.startListening name scheme
  | .bind name scheme => n.bindPeer name scheme
  | .connect name target datagram => n.startConnecting name target datagram
  | .accept name listener => n.acceptAs name listener
  | .reopen name target =>
      n.use name fun t => n.absorb name (t.connect n.system (n.resolve target)) fun _ => .nothing
  | .pollConnect name => n.use name fun t => n.absorb name (t.pollConnect n.system) .flag
  | .read name picker outOfBand => n.readFrom name picker outOfBand
  | .write name data outOfBand =>
      n.use name fun t => n.absorb name (t.write n.system data outOfBand) .count
  | .close name =>
      n.use name fun t =>
        let (t, system) := t.close n.system
        (.nothing, n.keep name t system)
  | .drop name =>
      match n.socket? name with
      | none => (.flag false, n)
      | some t => (.flag true, { n with
          system := (t.close n.system).2
          sockets := n.sockets.filter fun entry => entry.1 ≠ name })
  | .reset number => (.nothing, { n with pickers := n.pickers.modify number Picker.reset })
  | .describe name => n.use name fun t => (.text (Transport.rules.describe n.system t), n)
  | .peerSend name data => n.usePeer name fun peer => n.sendFrom peer data
  | .peerReceive name => n.usePeer name fun peer => n.receiveAt name peer
  | .peerEnd name =>
      n.usePeer name fun peer => (.flag true, { n with system := n.system.endSending peer.fd })
  | .peerClose name =>
      n.usePeer name fun peer => (.nothing, { n with
        system := n.system.close peer.fd
        peers := n.peers.filter fun entry => entry.1 ≠ name })

end Network

end Reactor.LocalNet
