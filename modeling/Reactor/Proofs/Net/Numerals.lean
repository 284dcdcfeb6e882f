import Mathlib.Tactic.IntervalCases
import Reactor.Net.SocketAddress

/-! Numbers are read back from their digits: a number written in a base of at most sixteen, followed
by anything that does not start with a digit, is read as that number, and what follows is left. -/

namespace Reactor.Net

/-! ## The digits of a number -/

theorem digit?_digitChar {base d : Nat} (hbase : base ≤ 16) (hd : d < base) :
    Text.digit? base d.digitChar = some d := by
  have hsmall : d < 16 := by omega
  interval_cases d
  all_goals simp [Text.digit?, Nat.digitChar, hd]

/-- The digits of a number are those of the number without its last digit, and the last one. -/
theorem toDigits_induction {base : Nat} (hbase : 1 < base) {motive : Nat → List Char → Prop}
    (single : ∀ n, n < base → motive n [n.digitChar])
    (snoc : ∀ n, base ≤ n → motive (n / base) (Nat.toDigits base (n / base)) →
      motive n (Nat.toDigits base (n / base) ++ [(n % base).digitChar])) (n : Nat) :
    motive n (Nat.toDigits base n) := by
  induction n using Nat.strong_induction_on with
  | _ n ih =>
      by_cases hn : n < base
      · rw [Nat.toDigits_of_lt_base hn]
        exact single n hn
      · rw [Nat.toDigits_of_base_le hbase (Nat.le_of_not_lt hn)]
        apply snoc n (Nat.le_of_not_lt hn)
        exact ih (n / base) (Nat.div_lt_self (by omega) hbase)

section Digits

variable {base : Nat} (hbase : 1 < base)

include hbase

theorem exists_of_mem_toDigits (n : Nat) :
    ∀ c ∈ Nat.toDigits base n, ∃ d < base, c = d.digitChar := by
  apply toDigits_induction hbase
    (motive := fun _ digits => ∀ c ∈ digits, ∃ d < base, c = d.digitChar)
  · intro n hn c hc
    exact ⟨n, hn, List.mem_singleton.1 hc⟩
  · intro n _ ih c hc
    rcases List.mem_append.1 hc with hc | hc
    · exact ih c hc
    · exact ⟨n % base, Nat.mod_lt n (by omega), List.mem_singleton.1 hc⟩

/-- No number but zero starts with a zero. -/
theorem head?_toDigits {n : Nat} (hn : 0 < n) : (Nat.toDigits base n).head? ≠ some '0' := by
  revert hn
  apply toDigits_induction hbase (motive := fun n digits => 0 < n → digits.head? ≠ some '0')
  · intro n _ hn hzero
    have : n = 0 := by simpa using hzero
    omega
  · intro n hn ih _
    have hhead := ih (Nat.div_pos hn (by omega))
    rwa [List.head?_append, Option.or_of_isSome (by simp [Nat.toDigits_ne_nil])]

variable (hmax : base ≤ 16)

include hmax

theorem isSome_digit?_of_mem_toDigits (n : Nat) :
    ∀ c ∈ Nat.toDigits base n, (Text.digit? base c).isSome = true := by
  intro c hc
  obtain ⟨d, hd, rfl⟩ := exists_of_mem_toDigits hbase n c hc
  simp [digit?_digitChar hmax hd]

/-- The digits of a number add up to it. -/
theorem foldl_toDigits (n : Nat) :
    (Nat.toDigits base n).foldl (fun value c => value * base + (Text.digit? base c).getD 0) 0 =
      n := by
  apply toDigits_induction hbase (motive := fun n digits =>
    digits.foldl (fun value c => value * base + (Text.digit? base c).getD 0) 0 = n)
  · intro n hn
    simp [digit?_digitChar hmax hn]
  · intro n _ ih
    have hlast : n % base < base := Nat.mod_lt n (by omega)
    rw [List.foldl_append, ih]
    simp only [List.foldl_cons, List.foldl_nil, digit?_digitChar hmax hlast, Option.getD_some]
    rw [Nat.mul_comm]
    exact Nat.div_add_mod n base

end Digits

/-! ## Reading -/

namespace Reading

/-- The text does not start with a digit. -/
def Stops (base : Nat) (text : List Char) : Prop :=
  ∀ c ∈ text.head?, Text.digit? base c = none

theorem takeWhile_digits_append {base : Nat} {digits rest : List Char}
    (hdigits : ∀ c ∈ digits, (Text.digit? base c).isSome = true) (hrest : Stops base rest) :
    (digits ++ rest).takeWhile (fun c => (Text.digit? base c).isSome) = digits := by
  rw [List.takeWhile_append_of_pos hdigits]
  cases rest with
  | nil => simp
  | cons c rest =>
      have hc : Text.digit? base c = none := hrest c rfl
      simp [hc]

/-- A number is read back from its digits. -/
theorem number_toDigits {base max n : Nat} {maxDigits : Option Nat} {rest : List Char}
    (hbase : 1 < base) (hbound : base ≤ 16) (hn : n ≤ max)
    (hlength : ∀ bound ∈ maxDigits, 0 < bound ∧ n < base ^ bound) (hrest : Stops base rest)
    (zerosAllowed : Bool) :
    number base max maxDigits zerosAllowed (Nat.toDigits base n ++ rest) = some (n, rest) := by
  have hdigits := takeWhile_digits_append (isSome_digit?_of_mem_toDigits hbase hbound n) hrest
  have hempty : (Nat.toDigits base n).isEmpty = false := by
    simp [Nat.toDigits_ne_nil]
  have hfew : ∀ bound ∈ maxDigits, (Nat.toDigits base n).length ≤ bound := by
    intro bound hb
    obtain ⟨hpos, hlt⟩ := hlength bound hb
    exact (Nat.length_toDigits_le_iff hbase hpos).2 hlt
  have hzeros : ((Nat.toDigits base n).head? == some '0' &&
      decide (1 < (Nat.toDigits base n).length)) = false := by
    cases n with
    | zero => simp
    | succ n => simp [head?_toDigits hbase]
  simp only [number, hdigits, foldl_toDigits hbase hbound, hempty, Bool.and_assoc, hzeros,
    Nat.not_lt.2 hn]
  cases maxDigits with
  | none => simp
  | some bound => simp [Nat.not_lt.2 (hfew bound rfl)]

theorem number_of_stops {base max : Nat} {maxDigits : Option Nat} {text : List Char}
    (h : Stops base text) (zerosAllowed : Bool) :
    number base max maxDigits zerosAllowed text = none := by
  have hdigits : text.takeWhile (fun c => (Text.digit? base c).isSome) = [] :=
    takeWhile_digits_append (List.forall_mem_nil _) h
  simp [number, hdigits]

/-- What a number leaves is what follows the digits. -/
theorem number_rest {base max n : Nat} {maxDigits : Option Nat} {zerosAllowed : Bool}
    {text rest : List Char} (h : number base max maxDigits zerosAllowed text = some (n, rest)) :
    rest = text.dropWhile fun c => (Text.digit? base c).isSome := by
  obtain ⟨-, hsome⟩ := Option.ite_none_left_eq_some.1 h
  have hrest := congrArg Prod.snd (Option.some.inj hsome)
  calc rest = text.drop (text.takeWhile fun c => (Text.digit? base c).isSome).length := hrest.symm
    _ = (text.takeWhile (fun c => (Text.digit? base c).isSome) ++
          text.dropWhile fun c => (Text.digit? base c).isSome).drop
        (text.takeWhile fun c => (Text.digit? base c).isSome).length := by
      rw [List.takeWhile_append_dropWhile]
    _ = text.dropWhile fun c => (Text.digit? base c).isSome := List.drop_left

end Reading

end Reactor.Net
