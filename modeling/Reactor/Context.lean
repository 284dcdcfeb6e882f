import Reactor.Text.Describe

/-! The values that a caller hands to all handlers of a run: at most one of each type. -/

namespace Reactor

/-- The types of value that a context can hold. -/
inductive ContextKey where
  | integer | boolean | text | numbers
  deriving DecidableEq, Repr

/-- The values of one type. -/
abbrev ContextKey.Value : ContextKey → Type
  | integer => Int
  | boolean => Bool
  | text => String
  | numbers => List Nat

/-- A place for one value of each type. -/
structure ExecutionContext where
  integer : Option Int
  boolean : Option Bool
  text : Option String
  numbers : Option (List Nat)
  deriving DecidableEq, Repr

namespace ExecutionContext

def empty : ExecutionContext := ⟨none, none, none, none⟩

def get? (c : ExecutionContext) : (key : ContextKey) → Option key.Value
  | .integer => c.integer
  | .boolean => c.boolean
  | .text => c.text
  | .numbers => c.numbers

/-- Fills or clears the place of a type. -/
def put (c : ExecutionContext) : (key : ContextKey) → Option key.Value → ExecutionContext
  | .integer, v => { c with integer := v }
  | .boolean, v => { c with boolean := v }
  | .text, v => { c with text := v }
  | .numbers, v => { c with numbers := v }

def contains (c : ExecutionContext) (key : ContextKey) : Bool := (c.get? key).isSome

/-- The number of values held. -/
def size (c : ExecutionContext) : Nat :=
  ([.integer, .boolean, .text, .numbers].filter c.contains).length

def describe (c : ExecutionContext) : String :=
  Text.record "ExecutionContext" [("values", toString c.size)]

@[simp] theorem get?_put (c : ExecutionContext) (key : ContextKey) (v : Option key.Value) :
    (c.put key v).get? key = v := by
  cases key <;> rfl

end ExecutionContext

end Reactor
