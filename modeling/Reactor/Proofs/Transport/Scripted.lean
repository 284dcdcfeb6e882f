import Reactor.Proofs.Frame.Supply
import Reactor.Proofs.Transport.Memory
import Reactor.Scenario.Socket

/-! Scripted sockets live in memory, as long as their scripts only deliver bytes, or make one wait,
and their writes are accepted at least in part. -/

namespace Reactor

/-! ## What pulls keep -/

namespace FrameAssembler

variable {σ π : Type} [ChunkSource σ] [FramePicker π]

/-- What every pull keeps of the source, a call of the assembler keeps. -/
theorem pullAll_keeps {I : σ → Prop} (hI : ∀ s, I s → I (ChunkSource.pull s).2)
    (a : FrameAssembler) (p : π) {s : σ} (hs : I s) : I (a.pullAll p s).source := by
  induction s using ChunkSource.pulls_induction generalizing a p with
  | none s hnone =>
      rw [pullAll_of_none hnone]
      exact hI s hs
  | some s bytes address hpull hb ih =>
      rw [pullAll_of_bytes hpull hb]
      split
      · exact hI s hs
      · exact ih _ _ (hI s hs)

theorem assemble_keeps {I : σ → Prop} (hI : ∀ s, I s → I (ChunkSource.pull s).2)
    (a : FrameAssembler) (p : π) {s : σ} (hs : I s) : I (a.assemble p s).source := by
  rw [assemble_eq_resume]
  split
  · exact hs
  · exact pullAll_keeps hI _ _ hs

end FrameAssembler

namespace Scenario

/-! ## Scripts that only deliver -/

/-- Bytes arrive, or nothing does for now. -/
def Arrival.IsDelivery : Arrival → Prop
  | .pause | .data _ _ => True
  | _ => False

def Arrival.bytes : Arrival → Bytes
  | .data bytes _ => bytes
  | _ => []

namespace Arrivals

/-- Whatever arrives is a delivery, and no stop of the run is requested. -/
structure Delivers (s : Arrivals) : Prop where
  script : ∀ arrival ∈ s.script, arrival.IsDelivery
  stop : s.stop = false

theorem Delivers.pull {s : Arrivals} (hs : s.Delivers) : (ChunkSource.pull s).2.Delivers := by
  rcases s with ⟨_ | ⟨arrival, rest⟩, stop⟩
  · exact hs
  have hrest : ∀ arrival ∈ rest, arrival.IsDelivery := fun a ha =>
    hs.script a (List.mem_cons_of_mem _ ha)
  have hfirst := hs.script arrival List.mem_cons_self
  cases arrival with
  | pause | data => exact ⟨hrest, hs.stop⟩
  | _ => exact hfirst.elim

/-- A script of deliveries supplies its bytes. -/
theorem supplies {script : List Arrival} (hs : ∀ arrival ∈ script, arrival.IsDelivery) :
    ChunkSource.Supplies (⟨script, false⟩ : Arrivals) (script.flatMap Arrival.bytes)
      script.length := by
  induction script with
  | nil => exact .nothing _
  | cons arrival rest ih =>
      have hrest := ih fun a ha => hs a (List.mem_cons_of_mem _ ha)
      have hfirst := hs arrival List.mem_cons_self
      cases arrival with
      | pause => exact .wait rfl hrest
      | data => exact .chunk rfl hrest
      | _ => exact hfirst.elim

end Arrivals

/-! ## Scripted sockets -/

namespace ScriptedSocket

/-- The scripted sockets for themselves, without a world in which they are kept and logged. -/
def rules (W : Type) : SocketRules W ScriptedSocket where
  isOpen _ s := s.isOpen
  isConnected _ s := s.isConnected
  isServer _ s := s.settings.isServer
  rawFd _ s := s.settings.fd
  connect world s address :=
    ⟨.ofExcept (s.connect address).1, (s.connect address).2, world, s.settings.stopOnOpen⟩
  pollConnect world s := ⟨.ofExcept s.pollConnect.1, s.pollConnect.2, world, false⟩
  read world s picker _ _ :=
    let answer := s.read picker
    let outcome : ReadOutcome (SocketPlan Arrival) → ReadOutcome ScriptedSocket
      | .pending snapshot => .pending snapshot
      | .frame frame => .frame frame
      | .accepted plan address => .accepted (.ofPlan plan) address
    (⟨answer.ending.map outcome, answer.socket, world, answer.stop⟩, answer.picker)
  write world s data _ := ⟨.ofExcept (s.write data).1, (s.write data).2, world, false⟩
  close world s := (s.close, world)

/-- The socket is open, has no descriptor, and fails in nothing that it is there for. -/
structure Performs (s : ScriptedSocket) (purpose : Purpose) : Prop where
  isOpen : s.isOpen = true
  fd : s.settings.fd = none
  connectError : s.settings.connectError = none
  script : purpose = .reading → ∀ arrival ∈ s.script, arrival.IsDelivery
  writes : purpose = .writing → ∀ answer ∈ s.writes, ∃ n, answer = .ok n ∧ 0 < n

variable {W : Type} {s : ScriptedSocket} {purpose : Purpose}

theorem Performs.pollConnect (hs : s.Performs purpose) :
    ∃ connected, s.pollConnect.1 = .ok connected ∧ s.pollConnect.2.Performs purpose ∧
      (connected = false → s.pollConnect.2.connectDelay < s.connectDelay) ∧
      s.pollConnect.2.assembler = s.assembler ∧ s.pollConnect.2.script = s.script := by
  unfold ScriptedSocket.pollConnect
  rw [if_neg (by simp [hs.isOpen])]
  split
  · rename_i hdelay
    exact ⟨false, rfl, ⟨hs.isOpen, hs.fd, hs.connectError, hs.script, hs.writes⟩,
      fun _ => Nat.sub_lt hdelay Nat.one_pos, rfl, rfl⟩
  · simp only [hs.connectError]
    exact ⟨true, rfl, ⟨hs.isOpen, hs.fd, hs.connectError, hs.script, hs.writes⟩, nofun, trivial,
      trivial⟩

theorem Performs.write (hs : s.Performs .writing) {data : Bytes} (hd : data ≠ []) :
    ∃ n, (s.write data).1 = .ok n ∧ 0 < n ∧ (s.write data).2.Performs .writing := by
  have hplan : ∃ n, s.writes.head?.getD (.ok data.length) = .ok n ∧ 0 < n := by
    rcases hw : s.writes with _ | ⟨answer, rest⟩
    · exact ⟨data.length, rfl, List.length_pos_iff.2 hd⟩
    · exact hs.writes rfl answer (by simp [hw])
  obtain ⟨n, hplan, hn⟩ := hplan
  have hrest : ∀ answer ∈ s.writes.tail, ∃ n, answer = .ok n ∧ 0 < n := fun answer ha =>
    hs.writes rfl answer (List.mem_of_mem_tail ha)
  unfold ScriptedSocket.write
  simp only [hs.isOpen, hplan, Bool.not_true, Bool.false_eq_true, if_false]
  exact ⟨n, rfl, hn, rfl, hs.fd, hs.connectError, nofun, fun _ => hrest⟩

theorem Performs.read (hs : s.Performs .reading) (picker : Picker) :
    let x := s.assembler.assemble picker (Arrivals.mk s.script false)
    s.read picker = ⟨x.ending.map .ofReading,
        { s with script := x.source.script, assembler := x.assembler }, x.picker, false⟩ ∧
      x.source.Delivers := by
  have hsource : (s.assembler.assemble picker (Arrivals.mk s.script false)).source.Delivers :=
    FrameAssembler.assemble_keeps (fun _ h => h.pull) _ _ ⟨hs.script rfl, rfl⟩
  refine ⟨?_, hsource⟩
  unfold ScriptedSocket.read
  rw [if_neg (by simp [hs.isOpen])]
  split
  · rename_i plan address rest hscript
    have hfirst : (Arrival.client plan address).IsDelivery :=
      hs.script rfl _ (by rw [hscript]; exact .head _)
    exact hfirst.elim
  · rename_i cause rest hscript
    have hfirst : (Arrival.acceptFailure cause).IsDelivery :=
      hs.script rfl _ (by rw [hscript]; exact .head _)
    exact hfirst.elim
  · dsimp only
    rw [hsource.stop]

/-- Scripted sockets that perform live in memory. -/
def inMemory (W : Type) : (rules W).InMemory Arrivals where
  Is purpose s := s.Performs purpose
  delay s := s.connectDelay
  assembler s := s.assembler
  source s := ⟨s.script, false⟩
  isOpen hs _ := hs.isOpen
  rawFd hs _ := hs.fd
  pollConnect hs world := by
    obtain ⟨connected, hx, hs', hdelay, ha, hscript⟩ := hs.pollConnect
    refine ⟨connected, _, world, ?_, hs', hdelay, ha, ?_⟩
    · simp only [rules, hx]
      rfl
    · rw [hscript]
  read {s} hs world picker previous outOfBand := by
    obtain ⟨hx, hsource⟩ := hs.read picker
    let x := s.assembler.assemble picker (Arrivals.mk s.script false)
    have hs' : ({ s with script := x.source.script, assembler := x.assembler } :
        ScriptedSocket).Performs .reading :=
      ⟨hs.isOpen, hs.fd, hs.connectError, fun _ => hsource.script, nofun⟩
    refine ⟨_, world, ?_, hs', rfl, ?_⟩
    · simp only [rules, hx]
      rcases x.ending with (_ | _) | _ | _ <;> rfl
    · show (⟨x.source.script, false⟩ : Arrivals) = x.source
      rw [← hsource.stop]
  write hs world data hd outOfBand := by
    obtain ⟨n, hx, hn, hs'⟩ := hs.write hd
    refine ⟨n, _, world, ?_, hn, hs'⟩
    simp only [rules, hx]
    rfl

end ScriptedSocket

end Scenario

end Reactor
