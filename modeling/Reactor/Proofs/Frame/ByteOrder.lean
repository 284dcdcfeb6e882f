import Reactor.Proofs.Frame.Framing
import Reactor.Proofs.Frame.Assembler

/-! The order of the bytes between a source and the pickers. Bytes that a picker hands back wait in
the assembler, and the next call begins with them. Within a call they wait while more is pulled, so
that they are overtaken if their picker is not finished yet. No byte is lost or made up in any case,
and none is overtaken by a picker that hands back bytes only when it is finished. -/

namespace Reactor

/-! ## What a picker consumes -/

/-- The bytes that a picker has consumed of those it was fed. -/
def Appended.taken {π : Type} (fed : Appended π) (bytes : Bytes) : Bytes :=
  bytes.take (bytes.length - fed.rest.length)

theorem LawfulFramePicker.taken_append_rest {π : Type} [FramePicker π] [LawfulFramePicker π] (p : π)
    (bytes : Bytes) (address : String) :
    (FramePicker.append p bytes address).taken bytes ++ (FramePicker.append p bytes address).rest =
      bytes := by
  have hrest : (FramePicker.append p bytes address).rest =
      bytes.drop (bytes.length - (FramePicker.append p bytes address).rest.length) :=
    List.suffix_iff_eq_drop.1 (rest_suffix p bytes address)
  calc
    _ = (FramePicker.append p bytes address).taken bytes ++
        bytes.drop (bytes.length - (FramePicker.append p bytes address).rest.length) := by
      rw [← hrest]
    _ = bytes := List.take_append_drop _ bytes

/-- Admissible pickers hand back bytes only when they are finished, and stay admissible. -/
def HandsBackLast {π : Type} [FramePicker π] (I : π → Prop) : Prop :=
  ∀ p bytes address, I p → (FramePicker.append p bytes address).finished = false →
    (FramePicker.append p bytes address).rest = [] ∧ I (FramePicker.append p bytes address).picker

theorem FixedLengthFramePicker.append_of_unfinished {p : FixedLengthFramePicker} {bytes : Bytes}
    {address : String} (hp : p.buffer.data.length ≤ p.length)
    (hf : (p.append bytes address).finished = false) :
    (p.append bytes address).rest = [] ∧
      (p.append bytes address).picker.buffer.data.length ≤ p.length := by
  unfold append at hf ⊢
  by_cases hp' : p.buffer.finished = true
  · simp [hp'] at hf
  · simp only [if_neg hp', beq_eq_false_iff_ne, List.length_append, List.length_take] at hf ⊢
    have hlt : bytes.length < p.length - p.buffer.data.length := by omega
    exact ⟨List.drop_eq_nil_of_le (Nat.le_of_lt hlt), by omega⟩

theorem MarkerFramePicker.rest_of_unfinished {p : MarkerFramePicker} {bytes : Bytes}
    {address : String} (hf : (p.append bytes address).finished = false) :
    (p.append bytes address).rest = [] := by
  unfold append cutFrame at hf ⊢
  grind

/-- The picker is of the library, and has not collected more than it has to. -/
def Picker.BuiltIn : Picker → Prop
  | raw _ | marker _ => True
  | fixedLength p => p.buffer.data.length ≤ p.length
  | counting _ => False

theorem Picker.handsBackLast : HandsBackLast Picker.BuiltIn := by
  intro p bytes address hp hf
  cases p with
  | raw p =>
      change (p.append bytes address).finished = false at hf
      unfold RawFramePicker.append at hf
      split at hf <;> cases hf
  | counting p => exact hp.elim
  | marker p => exact ⟨p.rest_of_unfinished hf, trivial⟩
  | fixedLength p =>
      obtain ⟨hrest, hlength⟩ := p.append_of_unfinished hp hf
      refine ⟨hrest, ?_⟩
      rw [← p.length_append bytes address] at hlength
      exact hlength

/-! ## The moments of an assembler -/

/-- An assembler at work: the picker of the call that is going on and its source, the bytes that
pickers have consumed so far, the number of pulls, and whether bytes have been consumed while
earlier ones were waiting. -/
structure Moment (π σ : Type) where
  assembler : FrameAssembler
  picker? : Option π
  source : σ
  consumed : Bytes
  pulls : Nat
  overtaken : Bool

namespace Moment

section Feed

variable {π σ : Type} [FramePicker π]

/-- Feeds bytes to the picker. The call is over when the picker is finished. -/
def feed (m : Moment π σ) (p : π) (bytes : Bytes) (address : String) : Moment π σ :=
  let fed := FramePicker.append p bytes address
  { m with
    assembler := m.assembler.stash fed.rest address
    picker? := if fed.finished then none else some fed.picker
    consumed := m.consumed ++ fed.taken bytes
    overtaken := m.overtaken || m.assembler.hasUnhandled && !(fed.taken bytes).isEmpty }

variable {I : π → Prop} {m : Moment π σ} {p : π} {bytes : Bytes} {address : String}

theorem overtaken_of_feed (h : (m.feed p bytes address).overtaken = false) :
    m.overtaken = false := by
  simp only [feed, Bool.or_eq_false_iff] at h
  exact h.1

/-- No byte has been overtaken, and none waits while a call is going on. -/
structure Undisturbed (I : π → Prop) (m : Moment π σ) : Prop where
  order : m.overtaken = false
  picker : ∀ p, m.picker? = some p → I p ∧ m.assembler.unhandled = []

theorem undisturbed_feed (h : HandsBackLast I) (hp : I p) (hm : m.overtaken = false)
    (hu : m.assembler.unhandled = []) : (m.feed p bytes address).Undisturbed I := by
  constructor
  case order => simp [feed, hm, FrameAssembler.hasUnhandled, hu]
  case picker =>
    intro q hq
    by_cases hf : (FramePicker.append p bytes address).finished = true
    · simp [feed, hf] at hq
    · obtain ⟨hrest, hI⟩ := h p bytes address hp (by simpa using hf)
      obtain rfl : (FramePicker.append p bytes address).picker = q := by simpa [feed, hf] using hq
      exact ⟨hI, by simp [feed, FrameAssembler.unhandled_stash, hu, hrest]⟩

variable [LawfulFramePicker π]

/-- Bytes that are fed are consumed, or they wait behind those that have been waiting. -/
theorem feed_perm (m : Moment π σ) (p : π) (bytes : Bytes) (address : String) :
    ((m.feed p bytes address).consumed ++ (m.feed p bytes address).assembler.unhandled).Perm
      (m.consumed ++ m.assembler.unhandled ++ bytes) := by
  have hall := LawfulFramePicker.taken_append_rest p bytes address
  simp only [feed, FrameAssembler.unhandled_stash]
  generalize FramePicker.append p bytes address = fed at hall ⊢
  have hswap : (fed.taken bytes ++ m.assembler.unhandled).Perm
      (m.assembler.unhandled ++ fed.taken bytes) := List.perm_append_comm
  have hperm := (hswap.append_left m.consumed).append_right fed.rest
  simp only [List.append_assoc, hall] at hperm ⊢
  exact hperm

/-- They are in order, unless the picker consumes some of them while others wait. -/
theorem feed_eq (h : (m.feed p bytes address).overtaken = false) :
    (m.feed p bytes address).consumed ++ (m.feed p bytes address).assembler.unhandled =
      m.consumed ++ m.assembler.unhandled ++ bytes := by
  have hall := LawfulFramePicker.taken_append_rest p bytes address
  simp only [feed, FrameAssembler.unhandled_stash] at h ⊢
  generalize FramePicker.append p bytes address = fed at h hall ⊢
  by_cases hu : m.assembler.unhandled = []
  · rw [hu, List.nil_append, List.append_nil, List.append_assoc, hall]
  · have ht : fed.taken bytes = [] := by
      simp only [FrameAssembler.hasUnhandled, Bool.or_eq_false_iff] at h
      simpa [hu] using h.2
    rw [ht, List.nil_append] at hall
    rw [ht, hall, List.append_nil, List.append_assoc]

end Feed

/-! ## The steps of an assembler -/

section Steps

variable {π σ : Type} [FramePicker π]

def start (a : FrameAssembler) (s : σ) : Moment π σ := ⟨a, none, s, [], 0, false⟩

/-- A call begins. A finished picker delivers at once, any other one is fed what is waiting. -/
def call (m : Moment π σ) (p : π) : Moment π σ :=
  if FramePicker.isFinished p then m
  else if m.assembler.hasUnhandled then
    { m with assembler := .empty }.feed p m.assembler.unhandled m.assembler.address
  else { m with picker? := some p }

variable (next : σ → Ending SocketError Chunk × σ)

def asked (m : Moment π σ) : Moment π σ :=
  { m with source := (next m.source).2, pulls := m.pulls + 1 }

/-- The call pulls once, and feeds what it gets. The call is over when it gets no bytes. -/
def pull (m : Moment π σ) (p : π) : Moment π σ :=
  match (next m.source).1 with
  | .done (.data bytes address) =>
      if bytes = [] then { m.asked next with picker? := none }
      else (m.asked next).feed p bytes address
  | _ => { m.asked next with picker? := none }

/-- A moment leads to another by calls with admissible pickers, pull by pull. -/
inductive Leads (I : π → Prop) (m : Moment π σ) : Moment π σ → Prop where
  | refl : Leads I m m
  | call {x : Moment π σ} (p : π) (h : Leads I m x) (hx : x.picker? = none) (hp : I p) :
      Leads I m (x.call p)
  | pull {x : Moment π σ} (p : π) (h : Leads I m x) (hx : x.picker? = some p) :
      Leads I m (x.pull next p)

variable {next} {I : π → Prop} {m x : Moment π σ} {p : π} {bytes : Bytes} {address : String}

theorem pull_of_bytes (h : (next m.source).1 = .done (.data bytes address)) (hb : bytes ≠ []) :
    m.pull next p = (m.asked next).feed p bytes address := by
  simp only [pull, h, if_neg hb]

theorem pull_of_none (h : Chunk.bytes (next m.source).1 = []) :
    m.pull next p = { m.asked next with picker? := none } := by
  unfold pull
  split
  · rename_i bytes address hpull
    rw [hpull] at h
    exact if_pos h
  · rfl

/-- A pull brings bytes, or it ends the call. -/
theorem pull_cases (m : Moment π σ) (p : π) :
    (∃ bytes address, (next m.source).1 = .done (.data bytes address) ∧
      m.pull next p = (m.asked next).feed p bytes address) ∨
    Chunk.bytes (next m.source).1 = [] ∧
      m.pull next p = { m.asked next with picker? := none } := by
  by_cases hb : Chunk.bytes (next m.source).1 = []
  · exact .inr ⟨hb, pull_of_none hb⟩
  · rcases hpull : (next m.source).1 with (⟨bytes, address⟩ | _ | _) | e | _
    · rw [hpull] at hb
      exact .inl ⟨bytes, address, rfl, pull_of_bytes hpull hb⟩
    all_goals simp [hpull, Chunk.bytes] at hb

/-- A call begins with the bytes that are left over. -/
theorem call_resume (hm : m.picker? = none) (p : π) :
    (m.call p).assembler = (m.assembler.resume p).assembler ∧ (m.call p).source = m.source ∧
      (m.call p).picker? =
        if (m.assembler.resume p).finished then none
        else some (m.assembler.resume p).picker := by
  unfold call FrameAssembler.resume
  by_cases hf : FramePicker.isFinished p = true
  · simp [hf, hm]
  · by_cases hu : m.assembler.hasUnhandled = true
    · simp [hf, hu, feed]
    · simp [hf, hu]

theorem Leads.trans {y : Moment π σ} (h : m.Leads next I x) (hy : x.Leads next I y) :
    m.Leads next I y := by
  induction hy with
  | refl => exact h
  | call p _ hx hp ih => exact ih.call p hx hp
  | pull p _ hx ih => exact ih.pull p hx

/-- Nothing is overtaken on the way, if bytes are handed back only at the end of a message. -/
theorem Leads.undisturbed (hx : m.Leads next I x) (h : HandsBackLast I) (hm : m.Undisturbed I) :
    x.Undisturbed I := by
  induction hx with
  | refl => exact hm
  | @call x p _ hx hp ih =>
      unfold Moment.call
      by_cases hf : FramePicker.isFinished p = true
      · rw [if_pos hf]
        exact ih
      · rw [if_neg hf]
        by_cases hu : x.assembler.hasUnhandled = true
        · rw [if_pos hu]
          exact undisturbed_feed h hp ih.order rfl
        · rw [if_neg hu]
          refine ⟨ih.order, fun q hq => ?_⟩
          obtain rfl : p = q := by simpa using hq
          exact ⟨hp, by simpa [FrameAssembler.hasUnhandled] using hu⟩
  | @pull x p _ hx ih =>
      obtain ⟨hp, hu⟩ := ih.picker p hx
      rcases pull_cases x p with ⟨bytes, address, -, hpull⟩ | ⟨-, hpull⟩
      · rw [hpull]
        exact undisturbed_feed h hp ih.order hu
      · rw [hpull]
        exact ⟨ih.order, by simp⟩

end Steps

/-! ## The moments of a call -/

section Call

variable {π σ : Type} [FramePicker π] [ChunkSource σ] {I : π → Prop} {m : Moment π σ} {p : π}

structure Ends (m : Moment π σ) (x : Assembled π σ) : Prop where
  picker? : m.picker? = none
  assembler : m.assembler = x.assembler
  source : m.source = x.source

/-- The pulls of a call lead to its outcome. -/
theorem exists_ends_pullAll (hm : m.picker? = some p) :
    ∃ x, m.Leads ChunkSource.pull I x ∧ x.Ends (m.assembler.pullAll p m.source) := by
  obtain ⟨s, hs⟩ : ∃ s, m.source = s := ⟨_, rfl⟩
  induction s using ChunkSource.pulls_induction generalizing m p with
  | none s h =>
      subst hs
      refine ⟨m.pull ChunkSource.pull p, Leads.refl.pull p hm, ?_⟩
      rw [pull_of_none h, FrameAssembler.pullAll_of_none h]
      exact ⟨rfl, rfl, rfl⟩
  | some s bytes address h hb ih =>
      subst hs
      have hpull := pull_of_bytes (p := p) h hb
      have hleads : m.Leads ChunkSource.pull I
          ((m.asked ChunkSource.pull).feed p bytes address) := hpull ▸ Leads.refl.pull p hm
      rw [FrameAssembler.pullAll_of_bytes h hb]
      by_cases hf : (FramePicker.append p bytes address).finished = true
      · rw [if_pos hf]
        exact ⟨_, hleads, if_pos hf, rfl, rfl⟩
      · rw [if_neg hf]
        obtain ⟨x, hx, hends⟩ :=
          ih (m := (m.asked ChunkSource.pull).feed p bytes address) (if_neg hf) rfl
        exact ⟨x, hleads.trans hx, hends⟩

/-- A call of the assembler goes through these moments, up to its outcome. -/
theorem exists_ends_assemble (hm : m.picker? = none) (hp : I p) :
    ∃ x, m.Leads ChunkSource.pull I x ∧ x.Ends (m.assembler.assemble p m.source) := by
  have hcall : m.Leads ChunkSource.pull I (m.call p) := Leads.refl.call p hm hp
  obtain ⟨hassembler, hsource, hpicker⟩ := call_resume hm p
  rw [FrameAssembler.assemble_eq_resume, ← hassembler, ← hsource]
  by_cases hf : (m.assembler.resume p).finished = true
  · rw [if_pos hf] at hpicker ⊢
    exact ⟨m.call p, hcall, hpicker, rfl, rfl⟩
  · rw [if_neg hf] at hpicker ⊢
    obtain ⟨x, hx, hends⟩ := exists_ends_pullAll hpicker
    exact ⟨x, hcall.trans hx, hends⟩

end Call

/-! ## What a step keeps -/

section Order

/-- The bytes that the next pulls yield. -/
def upcoming {σ : Type} (next : σ → Ending SocketError Chunk × σ) (s : σ) : Nat → Bytes
  | 0 => []
  | n + 1 => Chunk.bytes (next s).1 ++ upcoming next (next s).2 n

variable {π σ : Type} (next : σ → Ending SocketError Chunk × σ)

/-- The bytes that have been consumed, those that wait, and those of the next pulls, in this
order. -/
def stream (m : Moment π σ) (n : Nat) : Bytes :=
  m.consumed ++ m.assembler.unhandled ++ upcoming next m.source n

/-- A step that pulls `k` times takes the bytes of these pulls in, up to the order; and in order,
unless bytes are overtaken. -/
structure Brings (m x : Moment π σ) (k : Nat) : Prop where
  pulls : x.pulls = m.pulls + k
  perm : ∀ n, (x.stream next n).Perm (m.stream next (k + n))
  order : x.overtaken = false →
    m.overtaken = false ∧ ∀ n, x.stream next n = m.stream next (k + n)

variable {next} {m x : Moment π σ} {k : Nat}

theorem Brings.trans {y : Moment π σ} {l : Nat} (h : m.Brings next x k) (hy : x.Brings next y l) :
    m.Brings next y (k + l) := by
  constructor
  case pulls => rw [hy.pulls, h.pulls, Nat.add_assoc]
  case perm =>
    intro n
    rw [Nat.add_assoc]
    exact (hy.perm n).trans (h.perm (l + n))
  case order =>
    intro ho
    obtain ⟨hx, heq⟩ := hy.order ho
    refine ⟨(h.order hx).1, fun n => ?_⟩
    rw [Nat.add_assoc, heq n]
    exact (h.order hx).2 (l + n)

variable [FramePicker π] [LawfulFramePicker π] {I : π → Prop} {p : π} {bytes : Bytes}
  {address : String}

theorem brings_feed (hpulls : x.pulls = m.pulls + k) (hover : x.overtaken = m.overtaken)
    (hstream : ∀ n, x.consumed ++ x.assembler.unhandled ++ bytes ++ upcoming next x.source n =
      m.stream next (k + n)) :
    m.Brings next (x.feed p bytes address) k := by
  constructor
  case pulls => exact hpulls
  case perm =>
    intro n
    rw [← hstream]
    exact (feed_perm x p bytes address).append_right _
  case order =>
    intro ho
    refine ⟨hover ▸ overtaken_of_feed ho, fun n => ?_⟩
    rw [← hstream, ← feed_eq ho]
    rfl

theorem brings_call (m : Moment π σ) (p : π) : m.Brings next (m.call p) 0 := by
  unfold call
  by_cases hf : FramePicker.isFinished p = true
  · rw [if_pos hf]
    exact ⟨rfl, by simp, by simp⟩
  · rw [if_neg hf]
    by_cases hu : m.assembler.hasUnhandled = true
    · rw [if_pos hu]
      exact brings_feed rfl rfl (by simp [stream, FrameAssembler.empty])
    · rw [if_neg hu]
      exact ⟨rfl, by simp [stream], by simp [stream]⟩

theorem brings_pull (m : Moment π σ) (p : π) : m.Brings next (m.pull next p) 1 := by
  have hnext : ∀ n, m.stream next (1 + n) = m.consumed ++ m.assembler.unhandled ++
      Chunk.bytes (next m.source).1 ++ upcoming next (next m.source).2 n := by
    intro n
    simp [Nat.add_comm 1 n, stream, upcoming]
  rcases pull_cases m p with ⟨bytes, address, h, hpull⟩ | ⟨h, hpull⟩
  · rw [hpull]
    refine brings_feed rfl rfl fun n => ?_
    rw [hnext, h]
    rfl
  · have hstream : ∀ n, (m.pull next p).stream next n = m.stream next (1 + n) := by
      intro n
      rw [hpull, hnext, h, List.append_nil]
      rfl
    rw [hpull] at hstream ⊢
    exact ⟨rfl, fun n => .of_eq (hstream n), fun h => ⟨h, hstream⟩⟩

theorem Leads.brings (h : m.Leads next I x) : ∃ k, m.Brings next x k := by
  induction h with
  | refl => exact ⟨0, rfl, by simp, by simp⟩
  | call p _ hx hp ih =>
      obtain ⟨k, hk⟩ := ih
      exact ⟨k, hk.trans (brings_call _ p)⟩
  | pull p _ hx ih =>
      obtain ⟨k, hk⟩ := ih
      exact ⟨k + 1, hk.trans (brings_pull _ p)⟩

/-! ## All moments -/

/-- At every moment, whatever the pickers and the source, the bytes that have been consumed and
those that wait are, up to the order, those that waited at first and those that were pulled. They
are in order, as long as no picker has consumed bytes while others were waiting; and this cannot
happen with pickers that hand back bytes only when they are finished. If the calls of the assembler
come to an end, they go through these moments. -/
theorem stream_kept {a : FrameAssembler} {s : σ} (h : (start a s).Leads next I m) :
    (∀ n, (m.stream next n).Perm (a.unhandled ++ upcoming next s (m.pulls + n))) ∧
    (m.overtaken = false →
      ∀ n, m.stream next n = a.unhandled ++ upcoming next s (m.pulls + n)) ∧
    (HandsBackLast I → m.overtaken = false) ∧
    (∀ [ChunkSource σ], next = ChunkSource.pull → m.picker? = none → ∀ p, I p →
      ∃ x, m.Leads next I x ∧ x.Ends (m.assembler.assemble p m.source)) := by
  obtain ⟨k, hk⟩ := h.brings
  obtain rfl : k = m.pulls := by simpa [start] using hk.pulls.symm
  refine ⟨hk.perm, fun ho => (hk.order ho).2, fun hlast => ?_, ?_⟩
  · have hnew : Undisturbed I (start a s : Moment π σ) := ⟨rfl, by simp [start]⟩
    exact (h.undisturbed hlast hnew).order
  · rintro _ rfl hm p hp
    exact exists_ends_assemble hm hp

end Order

/-- A byte that waits and two that come in: a picker of two bytes hands back the last one when it is
finished. -/
theorem stream_kept_fixedLength :
    let a : FrameAssembler := ⟨[0x61], "a"⟩
    let s : ChunkScript := ⟨[.ok (.data [0x62, 0x63] "b")], 0⟩
    let p := Picker.fixedLength (.new 2)
    let m := ((start a s).call p).pull ChunkSource.pull (FramePicker.append p [0x61] "a").picker
    (start a s).Leads ChunkSource.pull Picker.BuiltIn m ∧ m.overtaken = false ∧
      (∀ n, m.stream ChunkSource.pull n =
        a.unhandled ++ upcoming ChunkSource.pull s (m.pulls + n)) ∧
      m.consumed = [0x61, 0x62] ∧ m.assembler.unhandled = [0x63] := by
  intro a s p m
  have hleads : (start a s).Leads ChunkSource.pull Picker.BuiltIn m :=
    (Leads.refl.call p rfl (Nat.zero_le 2)).pull _ rfl
  obtain ⟨-, horder, hlast, -⟩ := stream_kept hleads
  have hover := hlast Picker.handsBackLast
  exact ⟨hleads, hover, horder hover, rfl, rfl⟩

/-- A picker that takes one byte of each of two chunks hands back the second byte of the first chunk
and is then fed the second chunk: it consumes the third byte, and the second one waits. -/
theorem stream_disordered :
    let s : ChunkScript := ⟨[.ok (.data [0x61, 0x62] ""), .ok (.data [0x63, 0x64] "")], 0⟩
    let p := CountingFramePicker.new 1 2
    let m := ((start .empty s).call p |>.pull ChunkSource.pull p).pull ChunkSource.pull
      (FramePicker.append p [0x61, 0x62] "").picker
    (start .empty s).Leads ChunkSource.pull (fun _ => True) m ∧
      m.Ends (FrameAssembler.empty.assemble p s) ∧
      m.consumed = [0x61, 0x63] ∧ m.assembler.unhandled = [0x62, 0x64] ∧
      ¬ ∀ x : Moment CountingFramePicker ChunkScript,
        (start .empty s).Leads ChunkSource.pull (fun _ => True) x →
        ∀ n, x.stream ChunkSource.pull n = upcoming ChunkSource.pull s (x.pulls + n) := by
  intro s p m
  have hleads : (start .empty s).Leads ChunkSource.pull (fun _ => True) m :=
    ((Leads.refl.call p rfl trivial).pull p rfl).pull _ rfl
  refine ⟨hleads, ?_, rfl, rfl, fun h => ?_⟩
  · change m.Ends (FrameAssembler.empty.pullAll p s)
    have hfirst : (ChunkSource.pull s).1 = .done (.data [0x61, 0x62] "") := rfl
    have hsecond : (ChunkSource.pull (ChunkSource.pull s).2).1 = .done (.data [0x63, 0x64] "") := rfl
    rw [FrameAssembler.pullAll_of_bytes hfirst (by decide), if_neg (by decide),
      FrameAssembler.pullAll_of_bytes hsecond (by decide)]
    exact ⟨rfl, rfl, rfl⟩
  · have hstream := h m hleads 0
    revert hstream
    decide

end Moment

end Reactor
