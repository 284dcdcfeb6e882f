import Reactor.Frame.Picker
import Reactor.Frame.Source

/-!
The assembler of frames. It drives a picker from a source of chunks and keeps the bytes that a
finished picker handed back, so that the next frame begins with them.
-/

namespace Reactor

/-- What reading has come to: a message in the making, or a complete one. -/
inductive Reading where
  | pending (snapshot : PartialFrame)
  | frame (frame : Frame)
  deriving DecidableEq, Repr

/-- The bytes that wait for the next picker, with the address they came from. -/
structure FrameAssembler where
  unhandled : Bytes
  address : String
  deriving DecidableEq, Repr

/-- The outcome of a call of the assembler, and what the call leaves behind. -/
structure Assembled (π σ : Type) where
  ending : Ending SocketError Reading
  assembler : FrameAssembler
  picker : π
  source : σ

namespace FrameAssembler

variable {π σ : Type} [FramePicker π]

/-- The assembler without bytes; also what is left of one when its socket is closed. -/
def empty : FrameAssembler := ⟨[], ""⟩

def hasUnhandled (a : FrameAssembler) : Bool := !a.unhandled.isEmpty

/-- Adds bytes that a picker left over. -/
def stash (a : FrameAssembler) (rest : Bytes) (address : String) : FrameAssembler :=
  if rest.isEmpty then a else ⟨a.unhandled ++ rest, address⟩

/-- The frame that a finished picker has collected. -/
def deliver (a : FrameAssembler) (p : π) (s : σ) : Assembled π σ :=
  ⟨.done (.frame (FramePicker.buildFrame p).1), a, (FramePicker.buildFrame p).2, s⟩

/-- Pulls chunks and feeds them to the picker until it is finished, nothing more is there, the
stream ends or the source fails. -/
def pullAll [ChunkSource σ] (a : FrameAssembler) (p : π) (s : σ) : Assembled π σ :=
  match _h : (ChunkSource.pull s).1 with
  | .done (.data bytes address) =>
      if _hb : bytes = [] then
        ⟨.done (.pending (FramePicker.partialFrame p)), a, p, (ChunkSource.pull s).2⟩
      else
        let fed := FramePicker.append p bytes address
        let a := a.stash fed.rest address
        if fed.finished then a.deliver fed.picker (ChunkSource.pull s).2
        else a.pullAll fed.picker (ChunkSource.pull s).2
  | .done .wouldBlock =>
      ⟨.done (.pending (FramePicker.partialFrame p)), a, p, (ChunkSource.pull s).2⟩
  | .done .endOfStream => ⟨.cut .unreachedFrame, a, p, (ChunkSource.pull s).2⟩
  | .cut e => ⟨.cut e, a, p, (ChunkSource.pull s).2⟩
  | .crashed => ⟨.crashed, a, p, (ChunkSource.pull s).2⟩
termination_by ChunkSource.remaining s
decreasing_by exact ChunkSource.remaining_lt s bytes address _h _hb

/-- Runs a picker. A finished one delivers at once. Otherwise it is first fed the bytes that are
left over, and then what the source has. -/
def assemble [ChunkSource σ] (a : FrameAssembler) (p : π) (s : σ) : Assembled π σ :=
  if FramePicker.isFinished p then a.deliver p s
  else if a.hasUnhandled then
    let fed := FramePicker.append p a.unhandled a.address
    let kept := empty.stash fed.rest a.address
    if fed.finished then kept.deliver fed.picker s else kept.pullAll fed.picker s
  else a.pullAll p s

end FrameAssembler

end Reactor
