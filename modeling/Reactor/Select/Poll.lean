import Reactor.Duration
import Reactor.Error.Io
import Reactor.Select.Interest

/-!
Selection by polling the descriptors of the system. Interests without a descriptor are ready every
time, and as long as there is one of them polling does not wait.
-/

namespace Reactor

/-- The conditions that can be asked for or reported of a descriptor. -/
structure PollFlags where
  readable : Bool
  urgent : Bool
  writable : Bool
  error : Bool
  hangup : Bool
  invalid : Bool
  deriving DecidableEq, Repr

namespace PollFlags

/-- The conditions that an interest asks for. -/
def wanted (i : Interest) : PollFlags := ⟨i.read, i.read, i.write, false, false, false⟩

/-- Whether the descriptor can not be used any more; this counts as readiness for everything. -/
def broken (f : PollFlags) : Bool := f.error || f.hangup || f.invalid

/-- Whether an interest in reading is met. -/
def allowsRead (f : PollFlags) : Bool := f.broken || f.readable || f.urgent

/-- Whether an interest in writing is met. -/
def allowsWrite (f : PollFlags) : Bool := f.broken || f.writable

end PollFlags

/-- What the system can say of a descriptor, each in a bit of its own. The last four are finer
shades of the first ones. -/
inductive PollCondition where
  | readable | urgent | writable | error | hangup | invalid
  | ordinaryReadable | bandReadable | ordinaryWritable | bandWritable
  deriving DecidableEq, Repr

/-- The place of the bit of a condition. -/
def PollCondition.bit : PollCondition → Nat
  | readable => 0
  | urgent => 1
  | writable => 2
  | error => 3
  | hangup => 4
  | invalid => 5
  | ordinaryReadable => 6
  | bandReadable => 7
  | ordinaryWritable => 8
  | bandWritable => 9

/-- A word in which the system puts together what it says of a descriptor. -/
abbrev PollWord := BitVec 16

namespace PollWord

/-- Whether a condition is reported. -/
def has (w : PollWord) (c : PollCondition) : Bool := w.getLsbD c.bit

/-- Whether nothing else than conditions is reported. -/
def isKnown (w : PollWord) : Bool := w >>> 10 == 0

end PollWord

namespace PollFlags

/-- The conditions as a word. -/
def word (f : PollFlags) : PollWord :=
  (BitVec.ofBoolListLE [f.readable, f.urgent, f.writable, f.error, f.hangup, f.invalid]).setWidth 16

/-- The conditions that a word stands for. A word with an unknown bit can not be read. -/
def ofWord? (w : PollWord) : Option PollFlags :=
  if w.isKnown then
    some ⟨w.has .readable, w.has .urgent, w.has .writable, w.has .error, w.has .hangup,
      w.has .invalid⟩
  else none

end PollFlags

/-- A descriptor that is polled: the conditions that are asked for, and the word that polling fills
in. -/
structure PollEntry where
  fd : Nat
  events : PollFlags
  revents : PollWord
  deriving DecidableEq, Repr

/-- The conditions that have been reported for an entry, if they are known. -/
def PollEntry.reported (e : PollEntry) : Option PollFlags := PollFlags.ofWord? e.revents

/-- An answer of the system: the conditions of the polled descriptors in the order in which they
were passed (nothing, where they are unknown), or the number of an error. -/
abbrev PollAnswer := Except Errno (List (Option PollFlags))

namespace PollSelector

/-- A wait in whole milliseconds, rounded up so that a short wait is not taken for none, and cut
off at the longest wait that can be asked for. -/
def timeoutMillis (wait : Duration) : Nat :=
  let millis := (wait.wholeMicros + 999) / 1000
  if millis ≤ 65535 then millis else 65535

/-- How long polling may wait. -/
def wait (interests : List Interest) (timeout : Duration) : Duration :=
  if interests.any (·.fd.isNone) then ⟨0⟩ else timeout

/-- The descriptors to poll, with the conditions to poll them for. -/
def polled (interests : List Interest) : List (Nat × PollFlags) :=
  interests.filterMap fun i => i.fd.map fun fd => (fd, PollFlags.wanted i)

/-- Pairs every interest with its conditions: those wanted where there is no descriptor, and else
the next ones reported. -/
def conditions : List Interest → List (Option PollFlags) → List (Interest × Option PollFlags)
  | [], _ => []
  | i :: rest, reported =>
      match i.fd with
      | none => (i, some (.wanted i)) :: conditions rest reported
      | some _ => (i, reported.head?.join) :: conditions rest reported.tail

/-- The interests that are met. -/
def readiness (conditions : List (Interest × Option PollFlags)) : Readiness where
  read := conditions.filterMap fun (i, flags) =>
    if i.read && (flags.map PollFlags.allowsRead).getD false then some i.handle else none
  write := conditions.filterMap fun (i, flags) =>
    if i.write && (flags.map PollFlags.allowsWrite).getD false then some i.handle else none

/-- Reads the answer of the system. An interrupted wait reports no descriptor; any other error is
one of the selection as a whole. -/
def interpret (interests : List Interest) (answer : PollAnswer) : Except IoError Readiness :=
  match answer with
  | .ok reported => .ok (readiness (conditions interests reported))
  | .error code =>
      if code = .interrupted then .ok (readiness (conditions interests []))
      else .error (.system code)

end PollSelector

/-- Adds an interest to those that are met. Of an interest without conditions nothing is known. -/
def Readiness.add (r : Readiness) (i : Interest) : Option PollFlags → Readiness
  | .none => r
  | some flags =>
      { read := if i.read && flags.allowsRead then r.read ++ [i.handle] else r.read
        write := if i.write && flags.allowsWrite then r.write ++ [i.handle] else r.write }

/-- A selector that polls. It notes the conditions of the interests, and goes on using the room for
these notes from one selection to the next. -/
structure PollSelector where
  flags : List (Option PollFlags)

namespace PollSelector

def new : PollSelector := ⟨[]⟩

/-- The entries to poll, in the order of their interests. Nothing is filled in yet. -/
def entries (interests : List Interest) : List PollEntry :=
  (polled interests).map fun (fd, events) => ⟨fd, events, 0⟩

/-- Notes the conditions of the interests: those wanted where there is no descriptor, and else those
of the next entry, unless polling was interrupted. -/
def noteAll (s : PollSelector) (interrupted : Bool) : List Interest → List PollEntry → PollSelector
  | [], _ => s
  | i :: rest, filled =>
      match i.fd with
      | none => noteAll ⟨s.flags ++ [some (.wanted i)]⟩ interrupted rest filled
      | some _ =>
          let found := (filled.head?.bind PollEntry.reported).filter fun _ => !interrupted
          noteAll ⟨s.flags ++ [found]⟩ interrupted rest filled.tail

/-- Selects by means of `poll`, which polls entries for at most a number of milliseconds, and tells
how many of them have something to report besides filling them in. Without a descriptor nothing is
polled. A selector and a `ready` that have been used before are cleared first. -/
def select (poll : List PollEntry → Nat → Except Errno Nat × List PollEntry) (s : PollSelector)
    (interests : List Interest) (timeout : Duration) (ready : Readiness) :
    Except IoError Unit × PollSelector × Readiness :=
  let ready := ready.clear
  let s : PollSelector := { s with flags := [] }
  let unfilled := entries interests
  let (answer, filled) :=
    if unfilled.isEmpty then (.ok 0, unfilled)
    else poll unfilled (timeoutMillis (wait interests timeout))
  let finish (interrupted : Bool) : Except IoError Unit × PollSelector × Readiness :=
    let s := s.noteAll interrupted interests filled
    (.ok (), s, (interests.zip s.flags).foldl (fun ready (i, flags) => ready.add i flags) ready)
  match answer with
  | .ok _ => finish false
  | .error code =>
      if code = .interrupted then finish true else (.error (.system code), s, ready)

end PollSelector

end Reactor
