import Reactor.Event

/-! A handler assembled from one callback for each kind of event. -/

namespace Reactor

/-- The callbacks by kind of event, and the one for faults. The kinds without a callback are
ignored. -/
structure CallbackHandler (C : Type) where
  callbacks : List (EventKind × C)
  exception : Option C

namespace CallbackHandler

variable {C : Type}

def empty : CallbackHandler C := ⟨[], none⟩

/-- Sets the callback of a kind, in place of an earlier one. -/
def on (h : CallbackHandler C) (kind : EventKind) (callback : C) : CallbackHandler C :=
  { h with callbacks := (kind, callback) :: h.callbacks.filter fun entry => entry.1 ≠ kind }

/-- Sets the callback for faults, in place of an earlier one. -/
def onFault (h : CallbackHandler C) (callback : C) : CallbackHandler C :=
  { h with exception := some callback }

def callback? (h : CallbackHandler C) (kind : EventKind) : Option C :=
  (h.callbacks.find? fun entry => entry.1 = kind).map (·.2)

def describe (h : CallbackHandler C) : String :=
  let names := (h.callbacks.map fun entry => entry.1.name).mergeSort fun a b => decide (a ≤ b)
  Text.record "CallbackHandler"
    [("events", Text.listing (names.map Text.quoted)), ("exception", Text.flag h.exception.isSome)]

@[simp] theorem callback?_on (h : CallbackHandler C) (kind : EventKind) (callback : C) :
    (h.on kind callback).callback? kind = some callback := by
  simp [on, callback?]

end CallbackHandler

end Reactor
