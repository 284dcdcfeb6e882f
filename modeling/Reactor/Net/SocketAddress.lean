import Reactor.Text.Numeral
import Reactor.Text.Quoted

/-!
Numeric internet addresses with the number of a service, in the customary notation: `1.2.3.4:80`,
`[::1]:80`, `[fe80::1%3]:80`. Reading is done by functions that take the characters and return what is left of
them; a function that fails has consumed nothing.
-/

namespace Reactor.Net

/-- The four bytes of an address of version 4. -/
structure Ipv4 where
  a : UInt8
  b : UInt8
  c : UInt8
  d : UInt8
  deriving DecidableEq, Repr

/-- The eight groups of an address of version 6. -/
structure Ipv6 where
  groups : List UInt16
  length_eq : groups.length = 8
  deriving DecidableEq

/-- An internet address with the number of a service at it; an address of version 6 may name the
link it belongs to, zero standing for none. -/
inductive SocketAddress where
  | v4 (ip : Ipv4) (service : UInt16)
  | v6 (ip : Ipv6) (service : UInt16) (scope : UInt32)
  deriving DecidableEq

/-! ## Writing -/

namespace Ipv4

def text (ip : Ipv4) : String :=
  String.intercalate "." ([ip.a, ip.b, ip.c, ip.d].map fun n => toString n.toNat)

/-- The two groups that hold the address inside one of version 6. -/
def groups (ip : Ipv4) : List UInt16 :=
  [ip.a.toUInt16 * 256 + ip.b.toUInt16, ip.c.toUInt16 * 256 + ip.d.toUInt16]

end Ipv4

namespace Ipv6

/-- The address of version 4 that is mapped into this one. -/
def mapped? (ip : Ipv6) : Option Ipv4 :=
  match ip.groups with
  | [0, 0, 0, 0, 0, 0xFFFF, hi, lo] =>
      some ⟨(hi >>> 8).toUInt8, hi.toUInt8, (lo >>> 8).toUInt8, lo.toUInt8⟩
  | _ => none

/-- The number of zeros at the front. -/
def zeros (groups : List UInt16) : Nat :=
  (groups.takeWhile (· == 0)).length

/-- The position of the longest run of zeros; of several equally long ones, the first. -/
def longestZeros (groups : List UInt16) : Nat :=
  (List.range groups.length).foldl
    (fun best i => if zeros (groups.drop best) < zeros (groups.drop i) then i else best) 0

/-- Groups in base sixteen, between colons. -/
def join (groups : List UInt16) : String :=
  String.intercalate ":" (groups.map fun g => Text.hexadecimal g.toNat)

/-- A mapped address shows the address of version 4 in dots. In any other one the first longest
run of at least two zero groups is left out. -/
def text (ip : Ipv6) : String :=
  match ip.mapped? with
  | some v4 => "::ffff:" ++ v4.text
  | none =>
      let start := longestZeros ip.groups
      let count := zeros (ip.groups.drop start)
      if 2 ≤ count then join (ip.groups.take start) ++ "::" ++ join (ip.groups.drop (start + count))
      else join ip.groups

end Ipv6

namespace SocketAddress

def service : SocketAddress → UInt16
  | v4 _ service => service
  | v6 _ service _ => service

def ipText : SocketAddress → String
  | v4 ip _ => ip.text
  | v6 ip _ _ => ip.text

def text : SocketAddress → String
  | v4 ip service => ip.text ++ ":" ++ toString service.toNat
  | v6 ip service scope =>
      let link := if scope = 0 then "" else "%" ++ toString scope.toNat
      "[" ++ ip.text ++ link ++ "]:" ++ toString service.toNat

end SocketAddress

/-! ## Reading -/

namespace Reading

/-- The rest of the characters after the one given. -/
def expect (c : Char) : List Char → Option (List Char)
  | [] => none
  | d :: rest => if d = c then some rest else none

/-- A number in the given base, at most `max`. A bound on the number of its digits and a ban on
superfluous zeros may apply. -/
def number (base max : Nat) (maxDigits : Option Nat) (zerosAllowed : Bool) (text : List Char) :
    Option (Nat × List Char) :=
  let digits := text.takeWhile fun c => (Text.digit? base c).isSome
  let value := digits.foldl (fun value c => value * base + (Text.digit? base c).getD 0) 0
  let tooMany := match maxDigits with
    | some bound => decide (bound < digits.length)
    | none => false
  let superfluous := !zerosAllowed && digits.head? == some '0' && decide (1 < digits.length)
  if digits.isEmpty || tooMany || superfluous || decide (max < value) then none
  else some (value, text.drop digits.length)

def octet (text : List Char) : Option (UInt8 × List Char) :=
  (number 10 255 (some 3) false text).map fun (n, rest) => (n.toUInt8, rest)

def ipv4 (text : List Char) : Option (Ipv4 × List Char) := do
  let (a, rest) ← octet text
  let (b, rest) ← octet (← expect '.' rest)
  let (c, rest) ← octet (← expect '.' rest)
  let (d, rest) ← octet (← expect '.' rest)
  return (⟨a, b, c, d⟩, rest)

/-- The separator in front of every group but the first. -/
def separator (isFirst : Bool) (text : List Char) : Option (List Char) :=
  if isFirst then some text else expect ':' text

/-- Groups of an address of version 6: those read, whether an address of version 4 closes them,
and the characters that are left. -/
structure Groups where
  groups : List UInt16
  dotted : Bool
  rest : List Char

/-- As many groups as there are, up to `room`. An address of version 4 may stand for the last two,
as long as there is room for two. -/
def groups : (room : Nat) → (isFirst : Bool) → List Char → Groups
  | 0, _, text => ⟨[], false, text⟩
  | room + 1, isFirst, text =>
      let dotted := if room = 0 then none else (separator isFirst text).bind ipv4
      match dotted with
      | some (ip, rest) => ⟨ip.groups, true, rest⟩
      | none =>
          match (separator isFirst text).bind (number 16 0xFFFF (some 4) true) with
          | some (group, rest) =>
              let more := groups room false rest
              { more with groups := group.toUInt16 :: more.groups }
          | none => ⟨[], false, text⟩

/-- Eight groups, or fewer with a double colon that stands for at least one zero group. -/
def ipv6 (text : List Char) : Option (Ipv6 × List Char) :=
  let head := groups 8 true text
  if h : head.groups.length = 8 then some (⟨head.groups, h⟩, head.rest)
  else if head.dotted then none
  else do
    let rest ← expect ':' (← expect ':' head.rest)
    let tail := groups (7 - head.groups.length) true rest
    let zeros := List.replicate (8 - head.groups.length - tail.groups.length) 0
    let all := head.groups ++ zeros ++ tail.groups
    if h : all.length = 8 then return (⟨all, h⟩, tail.rest) else none

def service (text : List Char) : Option (UInt16 × List Char) := do
  let (n, rest) ← number 10 65535 none true (← expect ':' text)
  return (n.toUInt16, rest)

def scope (text : List Char) : Option (UInt32 × List Char) := do
  let (n, rest) ← number 10 4294967295 none true (← expect '%' text)
  return (n.toUInt32, rest)

def socketAddressV4 (text : List Char) : Option (SocketAddress × List Char) := do
  let (ip, rest) ← ipv4 text
  let (service, rest) ← service rest
  return (.v4 ip service, rest)

def socketAddressV6 (text : List Char) : Option (SocketAddress × List Char) := do
  let (ip, rest) ← ipv6 (← expect '[' text)
  let (scope, rest) := (scope rest).getD (0, rest)
  let (service, rest) ← service (← expect ']' rest)
  return (.v6 ip service scope, rest)

end Reading

/-- The address that the whole text denotes. -/
def SocketAddress.parse? (text : List Char) : Option SocketAddress :=
  match (Reading.socketAddressV4 text).or (Reading.socketAddressV6 text) with
  | some (address, []) => some address
  | _ => none

end Reactor.Net
