/-! Spans of time with nanosecond resolution. -/

namespace Reactor

/-- A span of time, counted in nanoseconds. -/
structure Duration where
  nanos : Nat
  deriving DecidableEq, Repr, Inhabited

namespace Duration

def ofMicros (n : Nat) : Duration := ⟨n * 1000⟩

def ofMillis (n : Nat) : Duration := ⟨n * 1000000⟩

def wholeMicros (d : Duration) : Nat := d.nanos / 1000

/-- A number of `unit`s with as many decimals as it needs; `places` is the number of decimals
that `unit` nanoseconds resolve. -/
def decimals (nanos unit places : Nat) : String :=
  let rest := toString (nanos % unit)
  let digits := List.replicate (places - rest.length) '0' ++ rest.toList
  let shown := (digits.reverse.dropWhile (· == '0')).reverse
  let whole := toString (nanos / unit)
  if shown.isEmpty then whole else whole ++ "." ++ String.ofList shown

/-- The span in the largest unit that it reaches: seconds, milliseconds, microseconds or
nanoseconds. -/
def describe (d : Duration) : String :=
  if 1000000000 ≤ d.nanos then decimals d.nanos 1000000000 9 ++ "s"
  else if 1000000 ≤ d.nanos then decimals d.nanos 1000000 6 ++ "ms"
  else if 1000 ≤ d.nanos then decimals d.nanos 1000 3 ++ "µs"
  else toString d.nanos ++ "ns"

end Duration

end Reactor
