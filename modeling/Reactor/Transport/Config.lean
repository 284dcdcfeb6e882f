import Reactor.Environment
import Reactor.Text.Describe

/-! The settings that the transports share. -/

namespace Reactor

/-- How much is read from a stream at a time, how much of a datagram is kept, how many clients may
wait at a listener, and whether small segments are sent without delay. -/
structure TransportConfig where
  readBufferSize : Nat
  datagramBufferSize : Nat
  listenBacklog : Int
  noDelay : Bool
  deriving DecidableEq, Repr

namespace TransportConfig

def default : TransportConfig := ⟨8192, 65536, 1024, true⟩

def fromEnvironment (env : Environment) : TransportConfig where
  readBufferSize := (env.unsigned? "ASOCK_READ_BUFFER" 64).getD default.readBufferSize
  datagramBufferSize := default.datagramBufferSize
  listenBacklog := (env.signed? "ASOCK_LISTEN_BACKLOG" 32).getD default.listenBacklog
  noDelay := env.flag "ASOCK_TCP_NODELAY" default.noDelay

/-- What is wrong with the settings, if anything is. -/
def defect? (c : TransportConfig) : Option String :=
  if c.readBufferSize = 0 then some "read_buffer_size must be at least 1"
  else if c.datagramBufferSize = 0 then some "datagram_buffer_size must be at least 1"
  else if c.listenBacklog ≤ 0 then some "listen_backlog must be positive"
  else none

def describe (c : TransportConfig) : String :=
  Text.record "TransportConfig"
    [("read_buffer_size", toString c.readBufferSize),
      ("datagram_buffer_size", toString c.datagramBufferSize),
      ("listen_backlog", toString c.listenBacklog), ("nodelay", Text.flag c.noDelay)]

end TransportConfig

end Reactor
