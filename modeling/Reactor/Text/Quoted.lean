import Reactor.Text.CharTable

/-!
Quoted strings: the text between double quotes, with escapes for the quote, the backslash and
everything that would not show as a character of its own.
-/

namespace Reactor.Text

/-- The digits of a number in base sixteen, in lower case. -/
def hexadecimal (n : Nat) : String :=
  String.ofList (Nat.toDigits 16 n)

/-- The marks of voicing of half width. They extend a grapheme, yet take up a place of their own. -/
def isHalfwidthMark (c : Char) : Bool := c = '\uFF9E' || c = '\uFF9F'

/-- Whether a character shows only together with the one before it. -/
def isCombining (c : Char) : Bool :=
  inRanges graphemeExtendRanges c.toNat && !isHalfwidthMark c

/-- Whether a character shows by itself inside quotes. -/
def isPlain (c : Char) : Bool :=
  if c.toNat < 0x7F then 0x20 ≤ c.toNat
  else !isCombining c && !inRanges unprintableRanges c.toNat

/-- A character as it is written inside quotes. -/
def escapeChar (c : Char) : String :=
  if c = '"' then "\\\""
  else if c = '\\' then "\\\\"
  else if c = '\n' then "\\n"
  else if c = '\r' then "\\r"
  else if c = '\t' then "\\t"
  else if c = '\x00' then "\\0"
  else if isPlain c then c.toString
  else "\\u\x7b" ++ hexadecimal c.toNat ++ "\x7d"

def quoted (text : String) : String :=
  "\"" ++ String.join (text.toList.map escapeChar) ++ "\""

end Reactor.Text
