/-! Reading whole numbers of a bounded range in decimal notation. -/

namespace Reactor.Text

/-- The value of a digit in a base of at most sixteen. -/
def digit? (base : Nat) (c : Char) : Option Nat :=
  let n := c.toNat
  let value :=
    if 0x30 ≤ n ∧ n ≤ 0x39 then n - 0x30
    else if 0x61 ≤ n ∧ n ≤ 0x66 then n - 0x61 + 10
    else if 0x41 ≤ n ∧ n ≤ 0x46 then n - 0x41 + 10
    else base
  if value < base then some value else none

/-- The value of a non-empty run of decimal digits. -/
def decimal? : List Char → Option Nat
  | [] => none
  | digits => digits.foldlM (fun value c => (digit? 10 c).map (value * 10 + ·)) 0

/-- A number without minus sign, at most `max`; a plus sign may stand in front. -/
def natural? (max : Nat) (text : List Char) : Option Nat :=
  let digits := match text with
    | '+' :: rest => rest
    | other => other
  (decimal? digits).filter (· ≤ max)

/-- A number with an optional sign, between `min` and `max`. -/
def integer? (min max : Int) (text : List Char) : Option Int :=
  let value := match text with
    | '+' :: rest => (decimal? rest).map Int.ofNat
    | '-' :: rest => (decimal? rest).map fun n => -(Int.ofNat n)
    | other => (decimal? other).map Int.ofNat
  value.filter fun n => decide (min ≤ n) && decide (n ≤ max)

end Reactor.Text
