import Reactor.Select.Poll

/-! The conditions in which the descriptors of a scenario are; they never change. -/

namespace Reactor.Scenario

inductive FdCondition where
  /-- It can be written to, and there is nothing to read. -/
  | idle
  | readable
  /-- The other end has stopped sending. -/
  | ended
  /-- The other end is closed. -/
  | hangup
  /-- It can neither be read nor be written to. -/
  | full
  | invalid
  deriving DecidableEq, Repr

namespace FdCondition

/-- All conditions by name; the position of a condition serves as a descriptor in it. -/
def names : List (String × FdCondition) :=
  [("idle", idle), ("readable", readable), ("ended", ended), ("hangup", hangup), ("full", full),
    ("invalid", invalid)]

/-- The descriptor in the condition of a name. -/
def fdOfName? (name : String) : Option Nat := names.findIdx? (·.1 = name)

/-- The descriptors that a scripted socket can have. -/
def fdOfSocket? (name : String) : Option Nat :=
  if name = "idle" ∨ name = "readable" then fdOfName? name else none

/-- What is true of a descriptor in a condition. -/
def flags : FdCondition → PollFlags
  | idle => ⟨false, false, true, false, false, false⟩
  | readable | ended => ⟨true, false, true, false, false, false⟩
  | hangup => ⟨true, false, true, false, true, false⟩
  | full => ⟨false, false, false, false, false, false⟩
  | invalid => ⟨false, false, false, false, false, true⟩

end FdCondition

/-- The condition that a descriptor is in. -/
def FdCondition.ofFd (fd : Nat) : FdCondition :=
  match names[fd]? with
  | some entry => entry.2
  | none => invalid

/-- What polling reports of a descriptor: what was asked for, and always that it is broken. -/
def pollFd (request : Nat × PollFlags) : PollFlags :=
  let wanted := request.2
  let found := (FdCondition.ofFd request.1).flags
  { found with
    readable := wanted.readable && found.readable
    urgent := wanted.urgent && found.urgent
    writable := wanted.writable && found.writable }

/-- Polls the descriptors of a scenario. -/
def pollEntries (entries : List PollEntry) (_millis : Nat) : Except Errno Nat × List PollEntry :=
  let filled := entries.map fun e => { e with revents := (pollFd (e.fd, e.events)).word }
  (.ok (filled.countP (·.revents ≠ 0)), filled)

/-- Selects among the sockets of a scenario. -/
def pollAll (interests : List Interest) (timeout : Duration) : Except IoError Readiness :=
  let (outcome, _, ready) := PollSelector.new.select pollEntries interests timeout .none
  outcome.map fun () => ready

end Reactor.Scenario
