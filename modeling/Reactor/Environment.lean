import Reactor.Duration
import Reactor.Text.Blank
import Reactor.Text.Numeral
import Reactor.Text.Utf8

/-!
Settings taken from environment variables. A variable counts as unset if its bytes are not text,
and a value that can not be read leaves the default in force.
-/

namespace Reactor

/-- The variables that are set, with their bytes. -/
abbrev Environment := List (String × Bytes)

namespace Environment

/-- The text of a variable without the blanks at either end. -/
def text? (env : Environment) (key : String) : Option (List Char) := do
  let bytes ← env.lookup key
  let text ← Text.Utf8.decode? bytes
  return Text.trimBlanks text.toList

/-- The value of a variable that holds a number from zero up to a bound. -/
def natural? (env : Environment) (key : String) (max : Nat) : Option Nat :=
  (env.text? key).bind (Text.natural? max)

/-- The value of a variable that holds a signed number of a given width. -/
def signed? (env : Environment) (key : String) (bits : Nat) : Option Int :=
  (env.text? key).bind (Text.integer? (-(Int.pow 2 (bits - 1))) (Int.pow 2 (bits - 1) - 1))

/-- The value of a variable that holds a number from zero up to the largest of a given width. -/
def unsigned? (env : Environment) (key : String) (bits : Nat) : Option Nat :=
  env.natural? key (Nat.pow 2 bits - 1)

/-- The value of a variable that holds one of the words `true` and `false`. -/
def boolean? (env : Environment) (key : String) : Option Bool :=
  match (env.text? key).map String.ofList with
  | some "true" => some true
  | some "false" => some false
  | _ => none

/-- The value of a variable that holds a single character. -/
def char? (env : Environment) (key : String) : Option Char :=
  match env.text? key with
  | some [c] => some c
  | _ => none

/-- The words that switch a flag on; no other word does. -/
def affirmations : List String := ["1", "true", "yes", "on"]

/-- Whether a flag is on. Its words are read without regard to the case of ASCII letters; only an
unset variable leaves the default in force. -/
def flag (env : Environment) (key : String) (default : Bool) : Bool :=
  match env.text? key with
  | some text => affirmations.contains (String.ofList (text.map Char.toLower))
  | none => default

def millis (env : Environment) (key : String) (default : Duration) : Duration :=
  ((env.unsigned? key 64).map Duration.ofMillis).getD default

def micros (env : Environment) (key : String) (default : Duration) : Duration :=
  ((env.unsigned? key 64).map Duration.ofMicros).getD default

end Environment

end Reactor
