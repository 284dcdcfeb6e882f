import Reactor.Text.Describe

/-! Whether a run is in progress, and whether it has been asked to stop. -/

namespace Reactor

structure RunControl where
  executing : Bool
  stopRequested : Bool
  deriving DecidableEq, Repr

namespace RunControl

/-- No run, and no request. -/
def idle : RunControl := ⟨false, false⟩

/-- Enters a run, unless one is in progress. A stop that was requested earlier is forgotten. -/
def beginRun (c : RunControl) : Bool × RunControl :=
  if c.executing then (false, c) else (true, ⟨true, false⟩)

/-- Leaves the run. -/
def endRun (_ : RunControl) : RunControl := idle

/-- Asks the run to stop; without a run there is nothing to ask. -/
def requestStop (c : RunControl) : Bool × RunControl :=
  if c.executing then (true, { c with stopRequested := true }) else (false, c)

def describe (c : RunControl) : String :=
  Text.record "RunControl"
    [("executing", Text.flag c.executing), ("stop_requested", Text.flag c.stopRequested)]

/-- The description of a handle by which the run of this control can be stopped. -/
def describeHandle (c : RunControl) : String :=
  Text.record "StopHandle" [("control", c.describe)]

end RunControl

end Reactor
