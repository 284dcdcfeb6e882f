import Reactor.Socket

/-! Sockets that live in memory: whatever their surroundings are, they do in finitely many calls
what they are there for. -/

namespace Reactor

variable {W S : Type}

/-- What a socket in memory is there for. -/
inductive Purpose where
  | reading | writing
  deriving DecidableEq

/-- Some of the sockets live in memory. They are open, there is nothing to poll, and no call of them
fails, requests a stop or depends on the surroundings. The connection is there after finitely many
questions; those that are read from feed an assembler from a source of chunks, and those that are
written to take at least one byte of whatever they are offered. -/
structure SocketRules.InMemory (rules : SocketRules W S) (σ : Type) [ChunkSource σ] where
  Is : Purpose → S → Prop
  /-- How often the connection is asked about at most before it is there. -/
  delay : S → Nat
  assembler : S → FrameAssembler
  source : S → σ
  isOpen {purpose : Purpose} {socket : S} (h : Is purpose socket) (world : W) :
    rules.isOpen world socket = true
  rawFd {purpose : Purpose} {socket : S} (h : Is purpose socket) (world : W) :
    rules.rawFd world socket = none
  pollConnect {purpose : Purpose} {socket : S} (h : Is purpose socket) (world : W) :
    ∃ connected after world',
      rules.pollConnect world socket = ⟨.done connected, after, world', false⟩ ∧
        Is purpose after ∧ (connected = false → delay after < delay socket) ∧
        assembler after = assembler socket ∧ source after = source socket
  read {socket : S} (h : Is .reading socket) (world : W) (picker : Picker)
    (previous : Option PartialFrame) (outOfBand : Bool) :
    ∃ after world', rules.read world socket picker previous outOfBand =
        (⟨((assembler socket).assemble picker (source socket)).ending.map .ofReading, after, world',
          false⟩, ((assembler socket).assemble picker (source socket)).picker) ∧
      Is .reading after ∧
      assembler after = ((assembler socket).assemble picker (source socket)).assembler ∧
      source after = ((assembler socket).assemble picker (source socket)).source
  write {socket : S} (h : Is .writing socket) (world : W) {data : Bytes} (hd : data ≠ [])
    (outOfBand : Bool) : ∃ n after world',
      rules.write world socket data outOfBand = ⟨.done n, after, world', false⟩ ∧ 0 < n ∧
        Is .writing after

end Reactor
