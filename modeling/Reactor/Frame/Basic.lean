import Reactor.Text.Describe
import Reactor.Text.Utf8

/-! Frames: complete messages cut from what a socket receives, and messages in the making. -/

namespace Reactor

/-- A complete message, with the address it came from; on a connected stream the address is
empty. -/
structure Frame where
  data : Bytes
  address : String
  deriving DecidableEq, Repr

namespace Frame

def empty : Frame := ⟨[], ""⟩

/-- The bytes read as text; malformed pieces show as the replacement character. -/
def text (frame : Frame) : String :=
  Text.Utf8.decodeLossy frame.data

def describe (frame : Frame) : String :=
  Text.record "Frame"
    [("data", Text.bytes frame.data), ("remote_address", Text.quoted frame.address)]

end Frame

/-- What has been collected of a message that is not complete yet. -/
structure PartialFrame where
  frame : Frame
  deriving DecidableEq, Repr

namespace PartialFrame

def data (snapshot : PartialFrame) : Bytes := snapshot.frame.data

def address (snapshot : PartialFrame) : String := snapshot.frame.address

def text (snapshot : PartialFrame) : String := snapshot.frame.text

def describe (snapshot : PartialFrame) : String :=
  Text.tuple "PartialFrame" [snapshot.frame.describe]

end PartialFrame

end Reactor
