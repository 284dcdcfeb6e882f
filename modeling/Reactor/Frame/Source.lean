import Reactor.Error.Basic
import Reactor.Frame.Basic
import Reactor.Step

/-! Where the bytes of a stream come from, chunk by chunk. -/

namespace Reactor

/-- One pull from a source. -/
inductive Chunk where
  /-- Bytes that were received, and the address they came from. -/
  | data (bytes : Bytes) (address : String)
  /-- Nothing is there right now. -/
  | wouldBlock
  /-- Nothing will come any more. -/
  | endOfStream
  deriving DecidableEq, Repr

/-- A source of chunks. What it can hand out without waiting is finite: each pull that yields
bytes lowers `remaining`. -/
class ChunkSource (σ : Type) where
  pull : σ → Ending SocketError Chunk × σ
  remaining : σ → Nat
  remaining_lt (s : σ) (bytes : Bytes) (address : String) :
    (pull s).1 = .done (.data bytes address) → bytes ≠ [] → remaining (pull s).2 < remaining s

/-- A source that answers from a list, and would block once the list is used up. It counts how
often it was asked. -/
structure ChunkScript where
  answers : List (Except SocketError Chunk)
  pulls : Nat

namespace ChunkScript

def pull (s : ChunkScript) : Ending SocketError Chunk × ChunkScript :=
  match s.answers with
  | [] => (.done .wouldBlock, { s with pulls := s.pulls + 1 })
  | answer :: answers => (.ofExcept answer, ⟨answers, s.pulls + 1⟩)

instance : ChunkSource ChunkScript where
  pull := pull
  remaining s := s.answers.length
  remaining_lt s bytes address := by
    unfold pull
    split
    · intro h
      cases h
    · rename_i h
      intro _ _
      simp [h]

end ChunkScript

end Reactor
