import Reactor.Bytes
import Reactor.Text.Quoted

/-! The notation in which values are described for a reader: records, tuples, lists and maps. -/

namespace Reactor.Text

/-- `Name { field: value, … }`, or the bare name of a record without fields. -/
def record (name : String) (fields : List (String × String)) : String :=
  if fields.isEmpty then name
  else
    let shown := fields.map fun field => field.1 ++ ": " ++ field.2
    name ++ " \x7b " ++ String.intercalate ", " shown ++ " \x7d"

/-- `Name(value, …)`. -/
def tuple (name : String) (values : List String) : String :=
  name ++ "(" ++ String.intercalate ", " values ++ ")"

/-- `[value, …]`. -/
def listing (values : List String) : String :=
  "[" ++ String.intercalate ", " values ++ "]"

/-- `{key: value, …}`. -/
def mapping (entries : List (String × String)) : String :=
  let shown := entries.map fun entry => entry.1 ++ ": " ++ entry.2
  "\x7b" ++ String.intercalate ", " shown ++ "\x7d"

/-- `Some(value)` or `None`. -/
def optional : Option String → String
  | some value => tuple "Some" [value]
  | none => "None"

def flag (value : Bool) : String :=
  if value then "true" else "false"

/-- The bytes of a sequence as decimal numbers. -/
def bytes (data : Bytes) : String :=
  listing (data.map fun b => toString b.toNat)

end Reactor.Text
