import Reactor.Frame.Source
import Reactor.Transport.System

/-! What a system receives, as sources of chunks. -/

namespace Reactor

variable {K : Type} [SystemCalls K]

/-- What a source makes of received bytes: none are the end of the stream. `idle` tells which errors
mean that nothing is there right now. -/
def Chunk.ofReceived (idle : IoError → Bool) : Except IoError Bytes → Ending SocketError Chunk
  | .ok [] => .done .endOfStream
  | .ok bytes => .done (.data bytes "")
  | .error e => if idle e then .done .wouldBlock else .cut (.io e)

theorem Chunk.received_of_data {idle : IoError → Bool} {result : Except IoError Bytes}
    {bytes : Bytes} {address : String}
    (h : Chunk.ofReceived idle result = .done (.data bytes address)) : result = .ok bytes := by
  unfold Chunk.ofReceived at h
  split at h
  · simp at h
  · simp_all
  · split at h <;> simp at h

/-- The ordinary bytes of a stream, in chunks of a limited size. -/
structure StreamSource (K : Type) where
  system : K
  fd : Nat
  size : Nat

namespace StreamSource

def pull (s : StreamSource K) : Ending SocketError Chunk × StreamSource K :=
  let (result, system) := SystemCalls.receive s.system s.fd s.size
  (Chunk.ofReceived IoError.wouldBlock result, { s with system := system })

instance : ChunkSource (StreamSource K) where
  pull := pull
  remaining s := SystemCalls.waiting s.system s.fd
  remaining_lt s bytes _ h hne :=
    SystemCalls.receive_lt s.system s.fd s.size bytes (Chunk.received_of_data h) hne

end StreamSource

/-- The urgent data of a stream. To ask for it where there is none is no error. -/
structure UrgentSource (K : Type) where
  system : K
  fd : Nat
  size : Nat

namespace UrgentSource

/-- Whether an error means that no urgent data is there. -/
def idle (e : IoError) : Bool := e = .system .again || e = .system .invalidArgument

def pull (s : UrgentSource K) : Ending SocketError Chunk × UrgentSource K :=
  let (result, system) := SystemCalls.receiveUrgent s.system s.fd s.size
  (Chunk.ofReceived idle result, { s with system := system })

instance : ChunkSource (UrgentSource K) where
  pull := pull
  remaining s := SystemCalls.waiting s.system s.fd
  remaining_lt s bytes _ h hne :=
    SystemCalls.receiveUrgent_lt s.system s.fd s.size bytes (Chunk.received_of_data h) hne

end UrgentSource

/-- The next datagram. Once it has been received the stream of its bytes is at its end. -/
structure DatagramSource (K : Type) where
  system : K
  fd : Nat
  size : Nat
  received : Bool

namespace DatagramSource

def pull (s : DatagramSource K) : Ending SocketError Chunk × DatagramSource K :=
  if s.received then (.done .endOfStream, s)
  else
    let (result, system) := SystemCalls.receiveFrom s.system s.fd s.size
    let s := { s with system := system }
    match result with
    | .ok (bytes, address) => (.done (.data bytes address), { s with received := true })
    | .error e => (if e.wouldBlock then .done .wouldBlock else .cut (.io e), s)

instance : ChunkSource (DatagramSource K) where
  pull := pull
  remaining s := if s.received then 0 else 1
  remaining_lt s bytes address := by
    unfold pull
    split
    · intro h
      cases h
    · rcases SystemCalls.receiveFrom s.system s.fd s.size with ⟨⟨e⟩ | ⟨b, a⟩, k⟩
      · intro h
        dsimp only at h
        split at h <;> cases h
      · simp_all

end DatagramSource

end Reactor
