import Reactor.Environment
import Reactor.Text.Describe

/-! The settings of an executor. -/

namespace Reactor

/-- How long a tick waits for readiness, and how long an idle tick pauses. -/
structure ExecutorConfig where
  pollTimeout : Duration
  minTickInterval : Duration
  deriving DecidableEq, Repr

namespace ExecutorConfig

def default : ExecutorConfig := ⟨.ofMillis 100, .ofMillis 1⟩

/-- The longest wait that can be asked of the system. -/
def maxPollTimeout : Duration := .ofMillis 65535

def fromEnvironment (env : Environment) : ExecutorConfig :=
  ⟨env.millis "ASOCK_POLL_TIMEOUT_MS" default.pollTimeout,
    env.micros "ASOCK_MIN_TICK_US" default.minTickInterval⟩

def defect? (c : ExecutorConfig) : Option String :=
  if c.pollTimeout.nanos = 0 then some "poll_timeout must be > 0"
  else if maxPollTimeout.nanos < c.pollTimeout.nanos then
    some "poll_timeout must be <= 65535ms"
  else none

def describe (c : ExecutorConfig) : String :=
  Text.record "ExecutorConfig"
    [("poll_timeout", c.pollTimeout.describe), ("min_tick_interval", c.minTickInterval.describe)]

end ExecutorConfig

end Reactor
