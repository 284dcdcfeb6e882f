import Mathlib.Order.Bounds.Basic
import Reactor.Config
import Reactor.Select.Poll

/-! How long a selection lets the system wait. The wait is counted in whole microseconds before it
is rounded up to milliseconds, so what a span has beyond its last microsecond is dropped: the system
waits for the least number of milliseconds that covers the span, unless the span exceeds a whole
number of them by less than a microsecond. Then the wait is that number, a millisecond less. -/

namespace Reactor

namespace Duration

/-- The numbers of milliseconds that cover a span. -/
def coveringMillis (d : Duration) : Set Nat := {m | d.nanos ≤ (ofMillis m).nanos}

/-- The span exceeds a whole number of milliseconds, but by less than a microsecond. -/
def BarelyExceedsMillis (d : Duration) : Prop :=
  0 < d.nanos % 1000000 ∧ d.nanos % 1000000 < 1000

theorem isLeast_coveringMillis (d : Duration) :
    IsLeast d.coveringMillis ((d.nanos + 999999) / 1000000) := by
  constructor
  · change d.nanos ≤ (d.nanos + 999999) / 1000000 * 1000000
    omega
  · intro m hm
    change d.nanos ≤ m * 1000000 at hm
    omega

/-- To count whole microseconds first makes no difference for most spans. -/
theorem roundUp_wholeMicros {d : Duration} (h : ¬ d.BarelyExceedsMillis) :
    (d.wholeMicros + 999) / 1000 = (d.nanos + 999999) / 1000000 := by
  unfold BarelyExceedsMillis at h
  unfold wholeMicros
  omega

/-- It loses a millisecond where the span barely exceeds some. -/
theorem roundUp_wholeMicros_of_barely {d : Duration} (h : d.BarelyExceedsMillis) :
    (d.wholeMicros + 999) / 1000 + 1 = (d.nanos + 999999) / 1000000 := by
  unfold BarelyExceedsMillis at h
  unfold wholeMicros
  omega

end Duration

/-- What the settings of an executor admit is more than nothing, and at most the longest wait. -/
theorem ExecutorConfig.pollTimeout_of_accepted {c : ExecutorConfig} (hc : c.defect? = none) :
    0 < c.pollTimeout.nanos ∧ c.pollTimeout.nanos ≤ maxPollTimeout.nanos := by
  unfold defect? at hc
  split at hc
  · cases hc
  · split at hc
    · cases hc
    · omega

namespace PollSelector

variable {interests : List Interest} {timeout : Duration} {m n : Nat}

/-- No accepted wait reaches the bound of the system's call. -/
theorem timeoutMillis_of_le (h : timeout.nanos ≤ ExecutorConfig.maxPollTimeout.nanos) :
    timeoutMillis timeout = (timeout.wholeMicros + 999) / 1000 := by
  have hmicros : timeout.wholeMicros ≤ 65535000 := by
    change timeout.nanos ≤ 65535 * 1000000 at h
    unfold Duration.wholeMicros
    omega
  unfold timeoutMillis
  dsimp only
  rw [if_pos (by omega)]

/-! ## What polling is asked for -/

/-- The selection lets the system wait for so many milliseconds: it comes to what it would come to
if it asked for just this wait, whatever the system answers. -/
def Waits (interests : List Interest) (timeout : Duration) (m : Nat) : Prop :=
  ∀ (poll : List PollEntry → Nat → Except Errno Nat × List PollEntry) (s : PollSelector)
    (ready : Readiness), s.select poll interests timeout ready =
      s.select (fun entries _ => poll entries m) interests timeout ready

/-- An answer that tells whether the system was asked for this wait. -/
def confirming (m : Nat) (entries : List PollEntry) (millis : Nat) :
    Except Errno Nat × List PollEntry :=
  (if millis = m then .ok 0 else .error .again, entries)

theorem entries_ne_nil (hne : interests ≠ []) (hfd : ∀ i ∈ interests, i.fd.isSome = true) :
    (entries interests).isEmpty = false := by
  cases interests with
  | nil => exact absurd rfl hne
  | cons i rest =>
      obtain ⟨fd, hi⟩ := Option.isSome_iff_exists.1 (hfd i List.mem_cons_self)
      simp [entries, polled, hi]

theorem wait_of_descriptors (hfd : ∀ i ∈ interests, i.fd.isSome = true) :
    wait interests timeout = timeout := by
  have hnone : interests.any (·.fd.isNone) = false := by
    rw [List.any_eq_false]
    intro i hi
    simp [Option.isSome_iff_ne_none.1 (hfd i hi)]
  rw [wait, hnone]
  rfl

/-- If all interests have descriptors, the selection asks for one wait, which depends on its timeout
alone. -/
theorem waits_iff (hne : interests ≠ []) (hfd : ∀ i ∈ interests, i.fd.isSome = true) :
    Waits interests timeout m ↔ m = timeoutMillis timeout := by
  have hentries := entries_ne_nil hne hfd
  have hwait : wait interests timeout = timeout := wait_of_descriptors hfd
  constructor
  · intro h
    by_contra hm
    have hrefused : Errno.again ≠ .interrupted := by decide
    have hanswer := congrArg (·.1) (h (confirming (timeoutMillis timeout)) new .none)
    simp [select, hentries, hwait, confirming, hm, hrefused] at hanswer
  · rintro rfl poll s ready
    simp only [select, hentries, hwait]

/-- For every accepted timeout, a selection in which all interests have descriptors lets the system
wait for one number of milliseconds, which is never cut off. It is the least one that covers the
timeout, unless the timeout exceeds a whole number of milliseconds by less than a microsecond. Then
one more would be the least. A timeout of less than a microsecond is no wait at all. -/
theorem waits_least_iff {c : ExecutorConfig} (hc : c.defect? = none) (hne : interests ≠ [])
    (hfd : ∀ i ∈ interests, i.fd.isSome = true) :
    ∃ m, (∀ n, Waits interests c.pollTimeout n ↔ n = m) ∧
      m = (c.pollTimeout.wholeMicros + 999) / 1000 ∧
      (IsLeast c.pollTimeout.coveringMillis m ↔ ¬ c.pollTimeout.BarelyExceedsMillis) ∧
      (c.pollTimeout.BarelyExceedsMillis → IsLeast c.pollTimeout.coveringMillis (m + 1)) ∧
      (m = 0 ↔ c.pollTimeout.nanos < 1000) := by
  obtain ⟨hpos, hle⟩ := ExecutorConfig.pollTimeout_of_accepted hc
  have hmillis := timeoutMillis_of_le hle
  have hleast := c.pollTimeout.isLeast_coveringMillis
  refine ⟨timeoutMillis c.pollTimeout, fun n => waits_iff hne hfd, hmillis, ⟨fun h hbarely => ?_,
    fun h => ?_⟩, fun h => ?_, ?_⟩
  · have hlost := Duration.roundUp_wholeMicros_of_barely hbarely
    rw [← hmillis, ← h.unique hleast] at hlost
    omega
  · rw [hmillis, Duration.roundUp_wholeMicros h]
    exact hleast
  · rw [hmillis, Duration.roundUp_wholeMicros_of_barely h]
    exact hleast
  · rw [hmillis, Duration.wholeMicros]
    omega

def single : List Interest := [⟨⟨1⟩, some 3, true, false⟩]

/-- Two milliseconds and a microsecond are a wait of three milliseconds. -/
theorem waits_least_iff_micro :
    let c : ExecutorConfig := ⟨.ofMicros 2001, .ofMillis 1⟩
    c.defect? = none ∧ single ≠ [] ∧ (∀ i ∈ single, i.fd.isSome = true) ∧
      Waits single c.pollTimeout 3 ∧ IsLeast c.pollTimeout.coveringMillis 3 := by
  intro c
  have hc : c.defect? = none := by decide
  have hne : single ≠ [] := by decide
  have hfd : ∀ i ∈ single, i.fd.isSome = true := by decide
  have hexact : ¬ c.pollTimeout.BarelyExceedsMillis := by
    change ¬ (0 < 2001000 % 1000000 ∧ 2001000 % 1000000 < 1000)
    omega
  obtain ⟨m, hwaits, hm, hleast, -⟩ := waits_least_iff hc hne hfd
  obtain rfl : m = 3 := hm.trans (by decide)
  exact ⟨hc, hne, hfd, (hwaits 3).2 rfl, hleast.2 hexact⟩

/-- Half a microsecond is accepted as a timeout, and the system does not wait at all; a millisecond
and a nanosecond are a wait of one millisecond. -/
theorem waits_too_short :
    let c : ExecutorConfig := ⟨⟨500⟩, .ofMillis 1⟩
    let c' : ExecutorConfig := ⟨⟨1000001⟩, .ofMillis 1⟩
    c.defect? = none ∧ Waits single c.pollTimeout 0 ∧
      c'.defect? = none ∧ Waits single c'.pollTimeout 1 ∧
      ¬ ∀ (c : ExecutorConfig) (interests : List Interest) (m : Nat), c.defect? = none →
        interests ≠ [] → (∀ i ∈ interests, i.fd.isSome = true) → Waits interests c.pollTimeout m →
          IsLeast c.pollTimeout.coveringMillis m ∧ m ≠ 0 := by
  intro c c'
  have hne : single ≠ [] := by decide
  have hfd : ∀ i ∈ single, i.fd.isSome = true := by decide
  have hc : c.defect? = none := by decide
  have hwaits : Waits single c.pollTimeout 0 := (waits_iff hne hfd).2 (by decide)
  have hshort : Waits single c'.pollTimeout 1 := (waits_iff hne hfd).2 (by decide)
  refine ⟨hc, hwaits, by decide, hshort, fun hclaim => ?_⟩
  exact (hclaim c single 0 hc hne hfd hwaits).2 rfl

end PollSelector

end Reactor
