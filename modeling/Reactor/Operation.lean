import Reactor.Frame.AnyPicker

/-! What an executor is to do with a socket next. -/

namespace Reactor

/-- Read one message with a picker, from the ordinary stream or from the urgent data. -/
structure ReadOperation where
  picker : Picker
  outOfBand : Bool
  deriving DecidableEq, Repr

/-- Write a payload, as ordinary or as urgent data. -/
structure WriteOperation where
  data : Bytes
  outOfBand : Bool
  deriving DecidableEq, Repr

namespace WriteOperation

/-- The operation that writes nothing. -/
def empty : WriteOperation := ⟨[], false⟩

def hasData (w : WriteOperation) : Bool := !w.data.isEmpty

def describe (w : WriteOperation) : String :=
  Text.record "WriteOperation"
    [("data", Text.bytes w.data), ("out_of_band", Text.flag w.outOfBand)]

end WriteOperation

def ReadOperation.describe (r : ReadOperation) : String :=
  Text.record "ReadOperation"
    [("finished", Text.flag r.picker.isFinished), ("out_of_band", Text.flag r.outOfBand)]

inductive Operation where
  | read (operation : ReadOperation)
  | write (operation : WriteOperation)
  deriving DecidableEq, Repr

namespace Operation

def isRead : Operation → Bool
  | read _ => true
  | write _ => false

def isWrite : Operation → Bool
  | read _ => false
  | write _ => true

/-- The word for the kind of an operation. -/
def kind : Operation → String
  | read _ => "read"
  | write _ => "write"

def describe : Operation → String
  | read r => Text.tuple "Read" [r.describe]
  | write w => Text.tuple "Write" [w.describe]

/-- The kind of an operation that may be missing, as it is described. -/
def describeKind (operation : Option Operation) : String :=
  Text.optional (operation.map fun o => Text.quoted o.kind)

end Operation

end Reactor
