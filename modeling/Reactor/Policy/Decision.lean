import Reactor.Text.Describe

/-! The verdicts of an admission policy. -/

namespace Reactor

/-- What is decided about a socket that asks to take part. -/
inductive Decision where
  /-- It takes part from this tick on. -/
  | grant
  /-- It is held back; the others are still asked about. -/
  | skip
  /-- It is held back, and so are all that come after it in this tick. -/
  | defer
  deriving DecidableEq, Repr

namespace Decision

/-- A plain yes or no. -/
def ofBool (granted : Bool) : Decision :=
  if granted then grant else skip

def name : Decision → String
  | grant => "Admit"
  | skip => "Skip"
  | defer => "Defer"

end Decision

end Reactor
