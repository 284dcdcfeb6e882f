/-! Byte sequences, and the comparisons that look for one inside another. -/

namespace Reactor

abbrev Bytes := List UInt8

namespace Bytes

/-- The lower-case form of an ASCII letter; every other byte is its own. -/
def lowerAscii (b : UInt8) : UInt8 :=
  if 0x41 ≤ b ∧ b ≤ 0x5A then b + 0x20 else b

/-- Whether two bytes agree, with or without regard to ASCII case. -/
def agree (caseSensitive : Bool) (a b : UInt8) : Bool :=
  if caseSensitive then a == b else lowerAscii a == lowerAscii b

/-- Whether `text` begins with `needle`. -/
def startsWith (caseSensitive : Bool) : Bytes → Bytes → Bool
  | [], _ => true
  | _ :: _, [] => false
  | n :: needle, t :: text => agree caseSensitive n t && startsWith caseSensitive needle text

/-- The least position at which `needle` begins in `text`. -/
def find? (caseSensitive : Bool) (needle : Bytes) : Bytes → Option Nat
  | [] => if needle.isEmpty then some 0 else none
  | t :: text =>
      if startsWith caseSensitive needle (t :: text) then some 0
      else (find? caseSensitive needle text).map (· + 1)

/-- The least position at or after `start` at which `needle` begins in `text`. -/
def findFrom? (caseSensitive : Bool) (needle text : Bytes) (start : Nat) : Option Nat :=
  (find? caseSensitive needle (text.drop start)).map (· + start)

end Bytes

end Reactor
