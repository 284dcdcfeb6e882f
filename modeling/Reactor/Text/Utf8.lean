import Reactor.Bytes

/-!
Reading bytes as UTF-8. Malformed input is cut into maximal pieces that could have begun a
character; each piece counts as one defect, and well-formed characters around it survive.
-/

namespace Reactor.Text.Utf8

/-- What a character still lacks: the value collected so far, the number of bytes to come, and the
bounds of the next one. -/
structure Pending where
  value : Nat
  missing : Nat
  low : UInt8
  high : UInt8

/-- The state after the first byte of a character of several bytes. The bounds of the second byte
keep out overlong forms, surrogates and values beyond the last code point. -/
def Pending.ofLead (b : UInt8) : Option Pending :=
  if 0xC2 ≤ b ∧ b ≤ 0xDF then some ⟨b.toNat - 0xC0, 1, 0x80, 0xBF⟩
  else if b = 0xE0 then some ⟨0, 2, 0xA0, 0xBF⟩
  else if b = 0xED then some ⟨0xD, 2, 0x80, 0x9F⟩
  else if 0xE1 ≤ b ∧ b ≤ 0xEF then some ⟨b.toNat - 0xE0, 2, 0x80, 0xBF⟩
  else if b = 0xF0 then some ⟨0, 3, 0x90, 0xBF⟩
  else if 0xF1 ≤ b ∧ b ≤ 0xF3 then some ⟨b.toNat - 0xF0, 3, 0x80, 0xBF⟩
  else if b = 0xF4 then some ⟨4, 3, 0x80, 0x8F⟩
  else none

/-- The characters of a byte sequence in order; `none` stands for a malformed piece. -/
def scan : Option Pending → Bytes → List (Option Char)
  | none, [] => []
  | some _, [] => [none]
  | none, b :: rest => start b rest
  | some p, b :: rest =>
      if p.low ≤ b ∧ b ≤ p.high then
        let value := p.value * 64 + (b.toNat - 0x80)
        if p.missing ≤ 1 then some (Char.ofNat value) :: scan none rest
        else scan (some ⟨value, p.missing - 1, 0x80, 0xBF⟩) rest
      else none :: start b rest
where
  /-- Reads a byte between two characters. -/
  start (b : UInt8) (rest : Bytes) : List (Option Char) :=
    if b < 0x80 then some (Char.ofNat b.toNat) :: scan none rest
    else match Pending.ofLead b with
      | some p => scan (some p) rest
      | none => none :: scan none rest

/-- The text of the bytes, if they are well-formed throughout. -/
def decode? (bytes : Bytes) : Option String :=
  ((scan none bytes).mapM id).map String.ofList

/-- The text of the bytes, with the replacement character for each malformed piece. -/
def decodeLossy (bytes : Bytes) : String :=
  String.ofList ((scan none bytes).map fun c => c.getD '\uFFFD')

def encode (text : String) : Bytes :=
  text.toUTF8.toList

end Reactor.Text.Utf8
