import Reactor.Proofs.Run.Services

/-! How a stop that a hook asks for, and a failure with which a hook ends the run, are heeded: work
that goes on has met neither, so nobody is served after it. -/

namespace Reactor

variable {W S H P : Type} {host : Host W S H P}

/-! ## What hooks ask for -/

def Request.isStop : Request S → Bool
  | .stop => true
  | _ => false

def Deed.asksStop (deed : Deed S H) : Bool := deed.requests.any Request.isStop

def Deed.fatal? : Deed S H → Option String
  | .heard _ _ _ (.cut (.fatal text)) => some text
  | _ => none

/-- The failures of the run that hooks raised, in order. -/
def fatals (deeds : List (Deed S H)) : List String := deeds.filterMap Deed.fatal?

@[simp] theorem fatals_append (deeds more : List (Deed S H)) :
    fatals (deeds ++ more) = fatals deeds ++ fatals more := by
  simp [fatals]

theorem fatals_eq_nil {deeds : List (Deed S H)} :
    fatals deeds = [] ↔ ∀ deed ∈ deeds, deed.fatal? = none := by
  simp [fatals]

/-- A hook asked for a stop of the run, or failed it. -/
def Deed.callsOff (deed : Deed S H) : Bool := deed.asksStop || deed.fatal?.isSome

theorem Deed.callsOff_eq_false {deed : Deed S H} :
    deed.callsOff = false ↔ deed.asksStop = false ∧ deed.fatal? = none := by
  simp [callsOff]

/-- Nobody is served after a hook has called the run off. -/
def Heeded (deeds : List (Deed S H)) : Prop :=
  deeds.Pairwise fun deed later => deed.callsOff = true → later.service? = none

theorem heeded_of_calm {deeds : List (Deed S H)} (h : ∀ deed ∈ deeds, deed.callsOff = false) :
    Heeded deeds :=
  List.pairwise_of_forall_mem_list fun deed hd _ _ hc => by simp [h deed hd] at hc

theorem heeded_of_idle {deeds : List (Deed S H)} (h : ∀ deed ∈ deeds, deed.service? = none) :
    Heeded deeds :=
  List.pairwise_of_forall_mem_list fun _ _ later hl _ => h later hl

theorem Heeded.append {deeds more : List (Deed S H)} (h : Heeded deeds) (h' : Heeded more)
    (hcross : (∀ deed ∈ deeds, deed.callsOff = false) ∨ ∀ deed ∈ more, deed.service? = none) :
    Heeded (deeds ++ more) := by
  refine List.pairwise_append.2 ⟨h, h', fun deed hd later hl hc => ?_⟩
  rcases hcross with hcalm | hidle
  · simp [hcalm deed hd] at hc
  · exact hidle later hl

/-! ## Failures of the run -/

/-- The causes of an early end, some of which make the whole run leave off. -/
class Failure (ε : Type) where
  halt? : ε → Option Halt

instance : Failure SocketError := ⟨fun _ => none⟩

instance : Failure HandlerError where
  halt?
    | .fatal text => some (.fatal text)
    | .socket _ => none

instance : Failure Halt := ⟨some⟩

instance : Failure Interrupt where
  halt?
    | .halt halt => some halt
    | .fault _ _ => none

instance : Failure RunFailure where
  halt?
    | .fatal text => some (.fatal text)
    | .unfinished => none

def Halt.fatal? : Halt → Option String
  | .fatal text => some text
  | .stop => none

def Failure.fatal? {ε : Type} [Failure ε] (e : ε) : Option String := (halt? e).bind Halt.fatal?

/-- Why a computation has ended early, if the whole run has to leave off. -/
def Ending.halt? {ε α : Type} [Failure ε] : Ending ε α → Option Halt
  | .cut e => Failure.halt? e
  | _ => none

def Ending.fatal? {ε α : Type} [Failure ε] : Ending ε α → Option String
  | .cut e => Failure.fatal? e
  | _ => none

@[simp] theorem Ending.fatal?_done {ε α : Type} [Failure ε] (a : α) :
    (.done a : Ending ε α).fatal? = none := rfl

@[simp] theorem Ending.fatal?_cut {ε α : Type} [Failure ε] (e : ε) :
    (.cut e : Ending ε α).fatal? = Failure.fatal? e := rfl

theorem Ending.fatal?_of_halt? {ε α : Type} [Failure ε] {ending : Ending ε α}
    (h : ending.halt? = none) : ending.fatal? = none := by
  rcases ending with _ | e | _
  · rfl
  · exact congrArg (Option.bind · Halt.fatal?) h
  · rfl

theorem Failure.fatal?_eq {ε ε' : Type} [Failure ε] [Failure ε'] {e : ε} {e' : ε'}
    (h : halt? e = halt? e') : fatal? e = fatal? e' := congrArg (Option.bind · Halt.fatal?) h

/-- The failure in which a computation has ended is the first one that a hook has raised meanwhile.
A crash hides what came before it. -/
def Surfaces {ε α : Type} [Failure ε] (deeds : List (Deed S H)) (ending : Ending ε α) : Prop :=
  ending ≠ .crashed → (fatals deeds).head? = ending.fatal?

/-- The first failure of all is the first of the former, or else of the latter. -/
theorem head?_append_of_head? {texts : List String} {first : Option String}
    (h : texts.head? = first) (more : List String) :
    (texts ++ more).head? = (first.toList ++ more).head? := by
  subst h
  cases texts <;> rfl

theorem Surfaces.nil_of_done {ε α : Type} [Failure ε] {deeds : List (Deed S H)} {a : α}
    (h : Surfaces deeds (.done a : Ending ε α)) : fatals deeds = [] :=
  List.head?_eq_none_iff.1 (h (by simp))

theorem Surfaces.nil_of_halt? {ε α : Type} [Failure ε] {deeds : List (Deed S H)} {e : ε}
    (h : Surfaces deeds (.cut e : Ending ε α)) (he : Failure.halt? e = none) : fatals deeds = [] := by
  have hfatal : (.cut e : Ending ε α).fatal? = none := Ending.fatal?_of_halt? he
  exact List.head?_eq_none_iff.1 ((h (by simp)).trans hfatal)

/-- What the deeds before an early end say of its cause: a failure of the run has just been raised by
the hook of the last deed, and by none before; a stop has been asked for. -/
def Explains (deeds : List (Deed S H)) (s : Session W S H P) : Option Halt → Prop
  | some (.fatal _) => ∃ earlier deed, deeds = earlier ++ [deed] ∧ fatals earlier = []
  | some .stop => s.context.control.stopRequested = true
  | none => True

theorem Explains.after {deeds more : List (Deed S H)} {s : Session W S H P} {halt : Option Halt}
    (h : Explains more s halt) (hd : fatals deeds = []) : Explains (deeds ++ more) s halt := by
  rcases halt with _ | (_ | text)
  · trivial
  · exact h
  · obtain ⟨earlier, deed, rfl, hnone⟩ := h
    refine ⟨deeds ++ earlier, deed, (List.append_assoc _ _ _).symm, ?_⟩
    rw [fatals_append, hd, hnone]
    rfl

/-! ## The flag -/

/-- The session has gone on by the deeds. A stop that was asked for, before or by them, is still to
be observed. -/
structure Session.Proceeds (deeds : List (Deed S H)) (s s' : Session W S H P) : Prop where
  journal : s'.journal = s.journal ++ deeds
  executing : s'.context.control.executing = s.context.control.executing
  stopping : s'.stopping = s.stopping
  stop : s.context.control.executing = true →
    s.context.control.stopRequested = true ∨ deeds.any Deed.asksStop = true →
      s'.context.control.stopRequested = true

namespace Session.Proceeds

variable {deeds more : List (Deed S H)} {s s' s'' : Session W S H P}

theorem refl (s : Session W S H P) : s.Proceeds [] s where
  journal := (List.append_nil _).symm
  executing := rfl
  stopping := rfl
  stop _ h := by simpa using h

theorem trans (h : s.Proceeds deeds s') (h' : s'.Proceeds more s'') :
    s.Proceeds (deeds ++ more) s'' where
  journal := by rw [h'.journal, h.journal, List.append_assoc]
  executing := h'.executing.trans h.executing
  stopping := h'.stopping.trans h.stopping
  stop he hs := by
    refine h'.stop (h.executing.trans he) ?_
    rw [List.any_append, Bool.or_eq_true, ← or_assoc] at hs
    exact hs.imp (h.stop he) id

/-- The deeds by which a session has gone on are told by its journal. -/
theorem unique (h : s.Proceeds deeds s') (h' : s.Proceeds more s') : more = deeds :=
  List.append_cancel_left (h'.journal.symm.trans h.journal)

/-- If no stop has been asked for in the end, none of the deeds did. -/
theorem calm (h : s.Proceeds deeds s') (he : s.context.control.executing = true)
    (hs : s'.context.control.stopRequested = false) (hf : fatals deeds = []) :
    ∀ deed ∈ deeds, deed.callsOff = false := by
  intro deed hd
  refine Deed.callsOff_eq_false.2 ⟨?_, fatals_eq_nil.1 hf deed hd⟩
  by_contra hasks
  have hany : deeds.any Deed.asksStop = true :=
    List.any_eq_true.2 ⟨deed, hd, by simpa using hasks⟩
  simp [h.stop he (.inr hany)] at hs

end Session.Proceeds

theorem RunContext.grant_control (c : RunContext S) (request : Request S) :
    (c.grant request).control.executing = c.control.executing ∧
      (c.control.executing = true → c.control.stopRequested = true ∨ request.isStop = true →
        (c.grant request).control.stopRequested = true) := by
  cases request with
  | stop =>
      simp only [grant, RunControl.requestStop]
      split <;> simp_all
  | _ => exact ⟨rfl, fun _ h => by simpa [grant, push, Request.isStop] using h⟩

theorem RunContext.foldl_grant_control (requests : List (Request S)) :
    ∀ c : RunContext S,
      (requests.foldl RunContext.grant c).control.executing = c.control.executing ∧
        (c.control.executing = true →
          c.control.stopRequested = true ∨ requests.any Request.isStop = true →
            (requests.foldl RunContext.grant c).control.stopRequested = true) := by
  induction requests with
  | nil => exact fun c => ⟨rfl, fun _ h => by simpa using h⟩
  | cons request rest ih =>
      intro c
      obtain ⟨hexec, hstop⟩ := c.grant_control request
      obtain ⟨hexec', hstop'⟩ := ih (c.grant request)
      refine ⟨hexec'.trans hexec, fun he h => hstop' (hexec.trans he) ?_⟩
      rw [List.any_cons, Bool.or_eq_true, ← or_assoc] at h
      exact h.imp (hstop he) id

namespace Session

variable (s : Session W S H P)

/-- A deed that is not one of a hook, also if a stop came with it. -/
theorem proceeds_note (world : W) (stop : Bool) (deed : Deed S H) (hd : deed.requests = []) :
    s.Proceeds [deed] (({ s with world := world }.stopIf stop).note deed) := by
  have hasks : deed.asksStop = false := by simp [Deed.asksStop, hd]
  cases stop with
  | false =>
      refine ⟨rfl, rfl, rfl, fun _ h => ?_⟩
      have hbefore : s.context.control.stopRequested = true := by simpa [hasks] using h
      exact hbefore
  | true =>
      obtain ⟨hexec, hstop⟩ := s.context.grant_control .stop
      exact ⟨rfl, hexec, rfl, fun he _ => hstop he (.inr rfl)⟩

/-- The deed of a hook. -/
theorem proceeds_absorb (handle : SocketHandle) (link : Link H) (policy : P) (r : Reaction W S) :
    s.Proceeds [.heard handle link r.requests r.verdict] (s.absorb handle link policy r) := by
  obtain ⟨hexec, hstop⟩ :=
    RunContext.foldl_grant_control r.requests { s.context with context := r.context }
  refine ⟨rfl, hexec, rfl, fun he h => hstop he ?_⟩
  simpa [Deed.asksStop, Deed.requests] using h

end Session

/-! ## Computations -/

class HasSession (σ : Type) (W S H P : outParam Type) where
  session : σ → Session W S H P

instance : HasSession (Visit W S H P) W S H P := ⟨Visit.session⟩

instance : HasSession (Run W S H P) W S H P := ⟨Run.session⟩

/-- The run is executing and not yet being wound down. -/
def Session.Active (s : Session W S H P) : Prop :=
  s.context.control.executing = true ∧ s.stopping = false

theorem Session.Active.proceeds {s s' : Session W S H P} {deeds : List (Deed S H)}
    (h : s.Active) (hp : s.Proceeds deeds s') : s'.Active :=
  ⟨hp.executing.trans h.1, hp.stopping.trans h.2⟩

namespace Step

variable {σ ε ε' α β : Type} [HasSession σ W S H P] [Failure ε] [Failure ε']

open HasSession

/-- Nobody is served after a hook has called the run off, and if there is a value, none has. If the
work leaves off, it does so at once. -/
def Heeds (x : Step σ ε α) : Prop :=
  ∀ s, (session s).Active → ∃ deeds, (session s).Proceeds deeds (session (x s).2) ∧
    Heeded deeds ∧ Surfaces deeds (x s).1 ∧
    (∀ a, (x s).1 = .done a → ∀ deed ∈ deeds, deed.callsOff = false) ∧
    Explains deeds (session (x s).2) (x s).1.halt?

/-- Nobody is served, and what surfaces is the failure that there was before, or else the first one
that is raised meanwhile. -/
def IdlesAfter (prior : Option String) (x : Step σ ε α) : Prop :=
  ∀ s, (session s).context.control.executing = true →
    ∃ deeds, (session s).Proceeds deeds (session (x s).2) ∧
      (∀ deed ∈ deeds, deed.service? = none) ∧
      ((x s).1 ≠ .crashed → (prior.toList ++ fatals deeds).head? = (x s).1.fatal?)

/-- Nobody is served. -/
abbrev Idles (x : Step σ ε α) : Prop := IdlesAfter none x

/-- There is a value only if no stop has been asked for. -/
def ChecksStop (x : Step σ ε α) : Prop :=
  ∀ s, (session s).Active → ∀ a, (x s).1 = .done a →
    (session (x s).2).context.control.stopRequested = false

/-- If the work leaves off, it does so at once. -/
def Prompt (x : Step σ ε α) : Prop :=
  ∀ s, (session s).context.control.executing = true →
    ∃ deeds, (session s).Proceeds deeds (session (x s).2) ∧
      Explains deeds (session (x s).2) (x s).1.halt?

/-- What the work makes of an early end of other work: it leaves off too, or else goes on with work
that leaves off at once if it does. -/
structure Relays (e : ε) (x : Step σ ε' α) : Prop where
  halts : ∀ halt, Failure.halt? e = some halt →
    ∀ s, session (x s).2 = session s ∧ (x s).1.halt? = some halt
  prompt : Failure.halt? e = none → Prompt x

/-- What the work does about an early end of other work: it leaves off, if it has to. -/
structure Yields (e : ε) (x : Step σ ε' α) : Prop where
  idles : IdlesAfter (Failure.fatal? e) x
  checks : ChecksStop x
  relays : Relays e x

/-- Whatever comes of the early end of other work is explained by all the deeds together. -/
theorem Relays.explains {e : ε} {x : Step σ ε' α} (h : Relays e x) {s : σ}
    (hs : (session s).context.control.executing = true) {deeds : List (Deed S H)}
    (hd : Explains deeds (session s) (Failure.halt? e))
    (hf : Failure.halt? e = none → fatals deeds = []) :
    ∃ more, (session s).Proceeds more (session (x s).2) ∧
      Explains (deeds ++ more) (session (x s).2) (x s).1.halt? := by
  rcases he : Failure.halt? e with _ | halt
  · obtain ⟨more, hp, hx⟩ := h.prompt he s hs
    exact ⟨more, hp, hx.after (hf he)⟩
  · obtain ⟨hsame, hend⟩ := h.halts halt he s
    rw [hsame, hend, ← he]
    exact ⟨[], .refl _, by rwa [List.append_nil]⟩

theorem Idles.heeds {x : Step σ ε α} (h : Idles x) (hc : ChecksStop x) (he : Prompt x) :
    Heeds x := by
  intro s hs
  obtain ⟨deeds, hp, hidle, hf⟩ := h s hs.1
  obtain ⟨deeds', hp', hx⟩ := he s hs.1
  rw [hp.unique hp'] at hx
  refine ⟨deeds, hp, heeded_of_idle hidle, hf, fun a ha => hp.calm hs.1 (hc s hs a ha) ?_, hx⟩
  have hsurf : Surfaces deeds (x s).1 := hf
  rw [ha] at hsurf
  exact hsurf.nil_of_done

/-- Work that does no more than note deeds of its own. -/
theorem heeds_of_calm {x : Step σ ε α} (h : ∀ s, ∃ deeds,
    (session s).Proceeds deeds (session (x s).2) ∧ (∀ deed ∈ deeds, deed.callsOff = false) ∧
      (x s).1.halt? = none) : Heeds x := by
  intro s _
  obtain ⟨deeds, hp, hcalm, hnone⟩ := h s
  have hf : fatals deeds = [] :=
    fatals_eq_nil.2 fun deed hd => (Deed.callsOff_eq_false.1 (hcalm deed hd)).2
  refine ⟨deeds, hp, heeded_of_calm hcalm, fun _ => ?_, fun _ _ => hcalm, ?_⟩
  · rw [hf, Ending.fatal?_of_halt? hnone]
    rfl
  · rw [hnone]
    trivial

/-- Such work is safe to attempt. -/
theorem heeds_attempt_of_calm {ε₀ : Type} {x : Step σ ε₀ α} (h : ∀ s, ∃ deeds,
    (session s).Proceeds deeds (session (x s).2) ∧ ∀ deed ∈ deeds, deed.callsOff = false) :
    Heeds (x.attempt : Step σ ε (Except ε₀ α)) := by
  refine heeds_of_calm fun s => ?_
  obtain ⟨deeds, hp, hcalm⟩ := h s
  rcases hx : x s with ⟨a | e | _, t⟩
  all_goals rw [hx] at hp
  · rw [attempt_of_done hx]
    exact ⟨deeds, hp, hcalm, rfl⟩
  · rw [attempt_of_cut hx]
    exact ⟨deeds, hp, hcalm, rfl⟩
  · rw [attempt_of_crashed hx]
    exact ⟨deeds, hp, hcalm, rfl⟩

/-- Work that leaves the session alone. -/
theorem heeds_of_same {x : Step σ ε α} (h : ∀ s, session (x s).2 = session s)
    (hf : ∀ s, (x s).1.halt? = none) : Heeds x :=
  heeds_of_calm fun s => ⟨[], by rw [h s]; exact .refl _, by simp, hf s⟩

theorem heeds_pure (a : α) : Heeds (pure a : Step σ ε α) :=
  heeds_of_same (fun _ => rfl) fun _ => rfl

theorem heeds_get : Heeds (Step.get : Step σ ε σ) :=
  heeds_of_same (fun _ => rfl) fun _ => rfl

theorem heeds_cut {e : ε} (he : Failure.halt? e = none) : Heeds (Step.cut e : Step σ ε α) :=
  heeds_of_same (fun _ => rfl) fun _ => he

/-- An early end is caught by work that leaves off if it has to. -/
theorem Heeds.attempt_bind {x : Step σ ε α} {f : Except ε α → Step σ ε' β} (hx : Heeds x)
    (hok : ∀ a, Heeds (f (.ok a))) (herror : ∀ e, Yields e (f (.error e))) :
    Heeds (x.attempt >>= f) := by
  intro s hs
  obtain ⟨deeds, hp, hheeded, hsurf, hdone, hexplains⟩ := hx s hs
  rcases h : x s with ⟨a | e | _, t⟩
  all_goals rw [h] at hp hsurf hdone hexplains
  · rw [bind_of_done (attempt_of_done h)]
    obtain ⟨more, hp', hheeded', hsurf', hdone', hexplains'⟩ := hok a t (hs.proceeds hp)
    have hcalm := hdone a rfl
    refine ⟨deeds ++ more, hp.trans hp', hheeded.append hheeded' (.inl hcalm), ?_, ?_,
      hexplains'.after hsurf.nil_of_done⟩
    · intro hne
      rw [fatals_append, hsurf.nil_of_done, List.nil_append]
      exact hsurf' hne
    · intro b hb deed hd
      rcases List.mem_append.1 hd with hd | hd
      · exact hcalm deed hd
      · exact hdone' b hb deed hd
  · rw [bind_of_done (attempt_of_cut h)]
    have ht := hs.proceeds hp
    obtain ⟨more, hp', hidle, hsurf'⟩ := (herror e).idles t ht.1
    have hsurfaces : Surfaces (deeds ++ more) (f (.error e) t).1 := by
      intro hne
      rw [← hsurf' hne, fatals_append]
      exact head?_append_of_head? (hsurf (by simp)) _
    obtain ⟨more', hpm, hexplains'⟩ :=
      (herror e).relays.explains ht.1 hexplains hsurf.nil_of_halt?
    rw [hp'.unique hpm] at hexplains'
    refine ⟨deeds ++ more, hp.trans hp', hheeded.append (heeded_of_idle hidle) (.inr hidle),
      hsurfaces, fun b hb => (hp.trans hp').calm hs.1 ((herror e).checks t ht b hb) ?_,
      hexplains'⟩
    rw [hb] at hsurfaces
    exact hsurfaces.nil_of_done
  · rw [bind_of_crashed (attempt_of_crashed h)]
    exact ⟨deeds, hp, hheeded, fun hne => absurd rfl hne, (fun b hb => by cases hb), trivial⟩

/-- Work that leaves off at once, for the same cause or one that is told from it. -/
theorem yields_of_cut {e : ε} {x : Step σ ε' α} (cause : ε')
    (hx : ∀ s, session (x s).2 = session s ∧ (x s).1 = .cut cause)
    (hc : Failure.halt? cause = Failure.halt? e) : Yields e x where
  idles s _ := by
    refine ⟨[], by rw [(hx s).1]; exact .refl _, by simp, fun _ => ?_⟩
    rw [(hx s).2, Ending.fatal?_cut, Failure.fatal?_eq hc]
    rcases Failure.fatal? e with _ | text <;> rfl
  checks s _ a ha := by
    rw [(hx s).2] at ha
    cases ha
  relays := by
    have hend : ∀ s, (x s).1.halt? = Failure.halt? e := fun s => by
      rw [(hx s).2]
      exact hc
    refine ⟨fun halt he s => ⟨(hx s).1, (hend s).trans he⟩, fun he s _ => ⟨[], ?_, ?_⟩⟩
    · rw [(hx s).1]
      exact .refl _
    · rw [hend s, he]
      trivial

theorem yields_cut {e : ε} (cause : ε') (hc : Failure.halt? cause = Failure.halt? e) :
    Yields e (Step.cut cause : Step σ ε' α) :=
  yields_of_cut cause (fun _ => ⟨rfl, rfl⟩) hc

theorem ChecksStop.attempt_bind {ε₀ ε₁ : Type} {x : Step σ ε₀ α} {f : Except ε₀ α → Step σ ε₁ β}
    (hx : ChecksStop x) (hok : ∀ a s, session (f (.ok a) s).2 = session s)
    (herror : ∀ e s b, (f (.error e) s).1 ≠ .done b) : ChecksStop (x.attempt >>= f) := by
  intro s hs b hb
  obtain ⟨r, t, hr, hf⟩ := done_of_bind (t := ((x.attempt >>= f) s).2) (Prod.ext hb rfl)
  rcases done_of_attempt hr with ⟨a, rfl, ha⟩ | ⟨e, rfl, -⟩
  · have hsame := hok a t
    rw [hf] at hsame
    have hstop := hx s hs a (by rw [ha])
    rw [ha] at hstop
    rw [hsame]
    exact hstop
  · exact absurd (congrArg Prod.fst hf) (herror e t b)

section Idle

theorem idles_of_calm {x : Step σ ε α} (h : ∀ s, ∃ deeds,
    (session s).Proceeds deeds (session (x s).2) ∧ (∀ deed ∈ deeds, deed.service? = none) ∧
      Surfaces deeds (x s).1) : Idles x := fun s _ => h s

theorem idles_of_same {x : Step σ ε α} (h : ∀ s, session (x s).2 = session s)
    (hf : ∀ s, (x s).1.fatal? = none) : Idles x :=
  idles_of_calm fun s => ⟨[], by rw [h s]; exact .refl _, by simp, fun _ => (hf s).symm⟩

theorem idles_pure (a : α) : Idles (pure a : Step σ ε α) :=
  idles_of_same (fun _ => rfl) fun _ => rfl

/-- An early end is caught by work that passes on what has to be. -/
theorem IdlesAfter.attempt_bind {x : Step σ ε α} {f : Except ε α → Step σ ε' β} (hx : Idles x)
    (hok : ∀ a, Idles (f (.ok a)))
    (herror : ∀ e, IdlesAfter (Failure.fatal? e) (f (.error e))) : Idles (x.attempt >>= f) := by
  intro s hs
  obtain ⟨deeds, hp, hidle, hsurf⟩ := hx s hs
  have hmem : ∀ {more : List (Deed S H)}, (∀ deed ∈ more, deed.service? = none) →
      ∀ deed ∈ deeds ++ more, deed.service? = none := by
    intro more hmore deed hd
    exact (List.mem_append.1 hd).elim (hidle deed) (hmore deed)
  rcases h : x s with ⟨a | e | _, t⟩
  all_goals rw [h] at hp hsurf
  · rw [bind_of_done (attempt_of_done h)]
    obtain ⟨more, hp', hidle', hsurf'⟩ := hok a t (hp.executing.trans hs)
    have hcalm : fatals deeds = [] := Surfaces.nil_of_done hsurf
    refine ⟨deeds ++ more, hp.trans hp', hmem hidle', fun hne => ?_⟩
    rw [fatals_append, hcalm, List.nil_append]
    exact hsurf' hne
  · rw [bind_of_done (attempt_of_cut h)]
    obtain ⟨more, hp', hidle', hsurf'⟩ := herror e t (hp.executing.trans hs)
    refine ⟨deeds ++ more, hp.trans hp', hmem hidle', fun hne => ?_⟩
    rw [← hsurf' hne, fatals_append]
    exact head?_append_of_head? (hsurf (by simp)) _
  · rw [bind_of_crashed (attempt_of_crashed h)]
    exact ⟨deeds, hp, hidle, fun hne => absurd rfl hne⟩

theorem IdlesAfter.bind {x : Step σ ε α} {f : α → Step σ ε β} (hx : Idles x)
    (hf : ∀ a, Idles (f a)) : Idles (x >>= f) := by
  rw [bind_eq_attempt]
  exact IdlesAfter.attempt_bind hx hf fun e => (yields_cut e rfl).idles

end Idle

section Prompt

theorem prompt_of_same {x : Step σ ε α} (h : ∀ s, session (x s).2 = session s)
    (hf : ∀ s, (x s).1.halt? = none) : Prompt x := by
  intro s _
  refine ⟨[], by rw [h s]; exact .refl _, ?_⟩
  rw [hf s]
  trivial

/-- An early end is caught by work that leaves off at once, if it has to. -/
theorem Prompt.attempt_bind {x : Step σ ε α} {f : Except ε α → Step σ ε' β} (hx : Prompt x)
    (hidle : Idles x) (hok : ∀ a, Prompt (f (.ok a))) (herror : ∀ e, Relays e (f (.error e))) :
    Prompt (x.attempt >>= f) := by
  intro s hs
  obtain ⟨deeds, hp, hexplains⟩ := hx s hs
  obtain ⟨deeds', hp', -, hsurf⟩ := hidle s hs
  replace hsurf : Surfaces deeds (x s).1 := hp.unique hp' ▸ hsurf
  rcases h : x s with ⟨a | e | _, t⟩
  all_goals rw [h] at hp hexplains hsurf
  · rw [bind_of_done (attempt_of_done h)]
    obtain ⟨more, hpm, hx'⟩ := hok a t (hp.executing.trans hs)
    exact ⟨deeds ++ more, hp.trans hpm, hx'.after hsurf.nil_of_done⟩
  · rw [bind_of_done (attempt_of_cut h)]
    obtain ⟨more, hpm, hx'⟩ :=
      (herror e).explains (hp.executing.trans hs) hexplains hsurf.nil_of_halt?
    exact ⟨deeds ++ more, hp.trans hpm, hx'⟩
  · rw [bind_of_crashed (attempt_of_crashed h)]
    exact ⟨deeds, hp, trivial⟩

theorem Prompt.bind {x : Step σ ε α} {f : α → Step σ ε β} (hx : Prompt x) (hidle : Idles x)
    (hf : ∀ a, Prompt (f a)) : Prompt (x >>= f) := by
  rw [bind_eq_attempt]
  exact hx.attempt_bind hidle hf fun e => (yields_cut e rfl).relays

end Prompt

theorem Heeds.bind {x : Step σ ε α} {f : α → Step σ ε β} (hx : Heeds x)
    (hf : ∀ a, Heeds (f a)) : Heeds (x >>= f) := by
  rw [bind_eq_attempt]
  exact hx.attempt_bind hf fun e => yields_cut e rfl

theorem Heeds.mapCut {x : Step σ ε α} {f : ε → ε'} (hx : Heeds x)
    (hf : ∀ e, Failure.halt? (f e) = Failure.halt? e) : Heeds (x.mapCut f) := by
  rw [mapCut_eq_attempt]
  exact hx.attempt_bind heeds_pure fun e => yields_cut (f e) (hf e)

/-- Nobody is served after a hook has called the run off, and the first failure of the run surfaces.
A value may be delivered all the same. -/
def Orders (x : Step σ ε α) : Prop :=
  ∀ s, (session s).Active → ∃ deeds, (session s).Proceeds deeds (session (x s).2) ∧
    Heeded deeds ∧ Surfaces deeds (x s).1

theorem Heeds.orders {x : Step σ ε α} (h : Heeds x) : Orders x := by
  intro s hs
  obtain ⟨deeds, hp, hheeded, hsurf, -⟩ := h s hs
  exact ⟨deeds, hp, hheeded, hsurf⟩

theorem Idles.orders {x : Step σ ε α} (h : Idles x) : Orders x := by
  intro s hs
  obtain ⟨deeds, hp, hidle, hsurf⟩ := h s hs.1
  exact ⟨deeds, hp, heeded_of_idle hidle, hsurf⟩

/-- Only the last of several parts may deliver a value after the run has been called off. -/
theorem Heeds.bind_orders {x : Step σ ε α} {f : α → Step σ ε β} (hx : Heeds x)
    (hf : ∀ a, Orders (f a)) : Orders (x >>= f) := by
  intro s hs
  obtain ⟨deeds, hp, hheeded, hsurf, hdone, -⟩ := hx s hs
  rcases h : x s with ⟨a | e | _, t⟩
  all_goals rw [h] at hp hsurf hdone
  · rw [bind_of_done h]
    obtain ⟨more, hp', hheeded', hsurf'⟩ := hf a t (hs.proceeds hp)
    refine ⟨deeds ++ more, hp.trans hp', hheeded.append hheeded' (.inl (hdone a rfl)), ?_⟩
    intro hne
    rw [fatals_append, hsurf.nil_of_done, List.nil_append]
    exact hsurf' hne
  · rw [bind_of_cut h]
    exact ⟨deeds, hp, hheeded, fun _ => hsurf (by simp)⟩
  · rw [bind_of_crashed h]
    exact ⟨deeds, hp, hheeded, fun hne => absurd rfl hne⟩

end Step

end Reactor
