import Reactor.Proofs.Run.Changes
import Reactor.Proofs.Run.Deeds

/-! The moves of a run. Whatever holds along every move holds in every state that a run passes
through. -/

namespace Reactor

variable {W S H P : Type} {host : Host W S H P}

/-- The selector answers with sockets that it was asked about. -/
def Host.SelectsAmong (host : Host W S H P) : Prop :=
  ∀ world interests timeout readiness,
    (host.select world interests timeout).result = .ok readiness →
      ∀ h ∈ readiness.read ++ readiness.write, ∃ i ∈ interests, i.handle = h

/-- What a tick can do for a socket that takes part in it. -/
inductive Duty where
  | opening | reading | writing

def Duty.work (host : Host W S H P) : Duty → Step (Visit W S H P) Halt Unit
  | opening => Visit.connectOrFail host
  | reading => Visit.settle host (Visit.serveRead host)
  | writing => Visit.settle host (Visit.serveWrite host)

theorem Duty.work_works (duty : Duty) : Step.Works host (duty.work host) := by
  cases duty with
  | opening => exact Visit.connectOrFail_works
  | reading => exact Visit.settle_works Visit.serveRead_works
  | writing => exact Visit.settle_works Visit.serveWrite_works

/-- Tells the visited socket that the selection failed. -/
def Visit.reportFailure (host : Host W S H P) (error : IoError) :
    Step (Visit W S H P) RunFailure Unit := do
  match ← (dispatchFault host (.io error) none).attempt with
  | .error (.fatal text) => Step.cut (.fatal text)
  | _ => modifyDescriptor Descriptor.markComplete

theorem Visit.reportFailure_works (error : IoError) :
    Step.Works host (reportFailure host error) := by
  refine .seq (report_works _ none).attempt fun result => ?_
  split
  · exact .cut
  · exact modifyDescriptor_works lasting_true Descriptor.reworked_markComplete

/-- A report changes nothing of the session but what the hooks do about the fault. -/
theorem Visit.session_reportFailure (error : IoError) (v : Visit W S H P) :
    (reportFailure host error v).2.session =
      (dispatchFault host (.io error) none v).2.session := by
  rw [reportFailure]
  rcases hf : dispatchFault host (.io error) none v with ⟨_ | (_ | text) | _, t⟩
  · rw [Step.bind_of_done (Step.attempt_of_done hf)]; rfl
  · rw [Step.bind_of_done (Step.attempt_of_cut hf)]; rfl
  · rw [Step.bind_of_done (Step.attempt_of_cut hf)]; rfl
  · rw [Step.bind_of_crashed (Step.attempt_of_crashed hf)]

namespace Run

section Parts

variable {ε : Type} {r : Run W S H P} {h : SocketHandle} {d : Descriptor S H}

theorem visit_of_none (x : Step (Visit W S H P) ε Unit) (hd : r.registry.get? h = none) :
    visit h x r = (.done (), r) := by
  simp only [visit, hd]

theorem visit_of_some (x : Step (Visit W S H P) ε Unit) (hd : r.registry.get? h = some d) :
    visit h x r = ((x ⟨d, r.session⟩).1,
      ⟨HandleMap.modify r.registry h fun _ => (x ⟨d, r.session⟩).2.descriptor,
        (x ⟨d, r.session⟩).2.session⟩) := by
  simp only [visit, hd]

theorem unlessComplete_apply (x : Step (Visit W S H P) ε Unit) (v : Visit W S H P) :
    Visit.unlessComplete x v = if v.descriptor.isComplete then (.done (), v) else x v := by
  have hget : (Visit.getDescriptor : Step (Visit W S H P) ε _) v = (.done v.descriptor, v) := rfl
  rw [Visit.unlessComplete, Step.bind_of_done hget]
  split <;> rfl

theorem checkStop_apply (r : Run W S H P) : onSession Session.checkStop r =
    (if r.session.stopDue then .cut .stop else .done (), r) := by
  simp only [onSession, Step.within, Session.checkStop]
  split <;> rfl

theorem done_of_checkStop {α : Type} {x : Unit → Step (Run W S H P) Halt α} {a : α}
    {t : Run W S H P}
    (hx : (onSession Session.checkStop >>= x) r = (.done a, t)) : x () r = (.done a, t) := by
  obtain ⟨_, m, hstop, hx⟩ := Step.done_of_bind hx
  rw [checkStop_apply] at hstop
  split at hstop <;> cases hstop
  exact hx

/-- One turn, and then the others. -/
theorem forEachActive_cons (h : SocketHandle) (rest : List SocketHandle)
    (work : Step (Visit W S H P) Halt Unit) :
    forEachActive (h :: rest) work = (onSession Session.checkStop >>= fun _ =>
      visit h (Visit.unlessComplete work)) >>= fun _ => forEachActive rest work := rfl

theorem visit_of_complete (x : Step (Visit W S H P) ε Unit) (hd : r.registry.get? h = some d)
    (hc : d.isComplete = true) : visit h (Visit.unlessComplete x) r = (.done (), r) := by
  have hx : Visit.unlessComplete x ⟨d, r.session⟩ = (.done (), ⟨d, r.session⟩) := by
    rw [unlessComplete_apply, if_pos hc]
  rw [visit_of_some _ hd, hx, HandleMap.modify_self hd]

theorem visit_of_active (x : Step (Visit W S H P) ε Unit) (hd : r.registry.get? h = some d)
    (hc : d.isComplete = false) : visit h (Visit.unlessComplete x) r = visit h x r := by
  have hx : Visit.unlessComplete x ⟨d, r.session⟩ = x ⟨d, r.session⟩ := by
    rw [unlessComplete_apply, if_neg (by simp [hc])]
  rw [visit_of_some _ hd, visit_of_some _ hd, hx]

theorem disconnect_of_none (hd : r.registry.get? h = none) :
    disconnect host h r = (.done (), r) := by
  simp only [disconnect, hd]

theorem disconnect_of_some (hd : r.registry.get? h = some d) :
    disconnect host h r = ((Visit.takeLeave host ⟨d, r.session⟩).1,
      ⟨HandleMap.erase r.registry h, (Visit.takeLeave host ⟨d, r.session⟩).2.session⟩) := by
  simp only [disconnect, hd]

end Parts

/-- The run once it is being wound down. -/
def leavingOff (r : Run W S H P) : Run W S H P :=
  { r with session := { r.session with stopping := true } }

/-- The run once no socket has anything left to do. -/
def dismissed (r : Run W S H P) : Run W S H P :=
  { r with registry := HandleMap.map r.registry fun _ d => d.markComplete }

/-- A move of the service within a tick. -/
inductive Serves (host : Host W S H P) (r : Run W S H P) : Run W S H P → Prop where
  | visited {h : SocketHandle} {d : Descriptor S H} (duty : Duty)
      (hd : r.registry.get? h = some d) (hc : d.isComplete = false)
      (hr : host.SelectsAmong → d.running = true) : Serves host r (visit h (duty.work host) r).2
  | selected (timeout : Duration) (admitted : List SocketHandle) :
      Serves host r (selectStage host timeout admitted r).2
  | left {h : SocketHandle} {d : Descriptor S H} (hd : r.registry.get? h = some d)
      (hc : d.isComplete = true) (hl : (disconnect host h r).1 ≠ .crashed) :
      Serves host r (disconnect host h r).2

/-- A crash while leave is taken of a socket. -/
inductive Abandons (host : Host W S H P) (r : Run W S H P) : Run W S H P → Prop where
  | lost {h : SocketHandle} {d : Descriptor S H} (hd : r.registry.get? h = some d)
      (hl : (disconnect host h r).1 = .crashed) : Abandons host r (disconnect host h r).2

/-- The report of a failed selection to one socket. -/
inductive Reports (host : Host W S H P) (r : Run W S H P) : Run W S H P → Prop where
  | reported {h : SocketHandle} {d : Descriptor S H} (error : IoError)
      (hd : r.registry.get? h = some d) :
      Reports host r (visit h (Visit.reportFailure host error) r).2

inductive Move (host : Host W S H P) (r : Run W S H P) : Run W S H P → Prop where
  | applied : Move host r r.applied
  | admitted : Move host r (r.admitted host)
  | served {r' : Run W S H P} (h : r.Serves host r') : Move host r r'
  | leavingOff : Move host r r.leavingOff
  | dismissed : Move host r r.dismissed
  | reported {r' : Run W S H P} (h : r.Reports host r') : Move host r r'

abbrev Moves (host : Host W S H P) : Run W S H P → Run W S H P → Prop :=
  Relation.ReflTransGen (Move host)

/-! ## What every move keeps -/

/-- The descriptors of these handles take part, at least if the selector can be relied on. -/
def Serving (host : Host W S H P) (handles : List SocketHandle) (r : Run W S H P) : Prop :=
  ∀ h ∈ handles, ∀ d, r.registry.get? h = some d → host.SelectsAmong → d.running = true

/-- The descriptors of these handles have nothing left to do. -/
def Finished (handles : List SocketHandle) (r : Run W S H P) : Prop :=
  ∀ h ∈ handles, ∀ d, r.registry.get? h = some d → d.isComplete = true

section Visited

variable {ε : Type} {x : Step (Visit W S H P) ε Unit} {r : Run W S H P} {h : SocketHandle}
  {d : Descriptor S H}

/-- A visit changes the visited descriptor only, which keeps its handle and its part. -/
theorem visit_get? (hx : Step.Works host x) (hd : r.registry.get? h = some d) {k : SocketHandle}
    {d' : Descriptor S H} (hk : (visit h x r).2.registry.get? k = some d') :
    (k = h ∧ d'.handle = d.handle ∧ d'.running = d.running) ∨
      (k ≠ h ∧ r.registry.get? k = some d') := by
  obtain ⟨deeds, hw⟩ := (hx.moves ⟨d, r.session⟩).worked
  rw [visit_of_some x hd] at hk
  simp only [HandleMap.get?_modify] at hk
  split at hk
  · rename_i heq
    rw [heq, hd] at hk
    obtain rfl := Option.some.inj hk
    exact .inl ⟨heq, hw.handle, hw.running⟩
  · rename_i hne
    exact .inr ⟨hne, hk⟩

theorem disconnect_get? (hd : r.registry.get? h = some d) {k : SocketHandle}
    {d' : Descriptor S H} (hk : (disconnect host h r).2.registry.get? k = some d') :
    k ≠ h ∧ r.registry.get? k = some d' := by
  rw [disconnect_of_some hd] at hk
  simp only [HandleMap.get?_erase] at hk
  split at hk
  · cases hk
  · rename_i hne
    exact ⟨hne, hk⟩

end Visited

theorem keys_visit {ε : Type} (x : Step (Visit W S H P) ε Unit) {r : Run W S H P}
    {h : SocketHandle} {d : Descriptor S H} (hd : r.registry.get? h = some d) :
    (visit h x r).2.registry.keys = r.registry.keys := by
  rw [visit_of_some x hd]
  exact HandleMap.keys_modify _ _ _

/-- A visit is recorded by the deeds of the work that it does. -/
theorem visit_advances {ε : Type} {x : Step (Visit W S H P) ε Unit} (hx : Step.Works host x)
    {r : Run W S H P} {h : SocketHandle} {d : Descriptor S H} (hd : r.registry.get? h = some d) :
    ∃ deeds, r.session.Advances deeds (visit h x r).2.session ∧
      ∀ deed ∈ deeds, deed.IsWork host d.handle d.running := by
  obtain ⟨deeds, hw⟩ := (hx.moves ⟨d, r.session⟩).worked
  rw [visit_of_some x hd]
  exact ⟨deeds, hw.advances, hw.work⟩

/-- The leave taken of a socket is recorded in full, unless it ends in a crash. -/
theorem disconnect_advances (host : Host W S H P) {r : Run W S H P} {h : SocketHandle}
    {d : Descriptor S H} (hd : r.registry.get? h = some d) :
    ∃ deeds, r.session.Advances deeds (disconnect host h r).2.session ∧
      (Leavetaking host d deeds ∨ (disconnect host h r).1 = .crashed ∧
        LastWord host d.handle d.running .disconnected deeds) := by
  rw [disconnect_of_some hd]
  exact Visit.takeLeave_deeds host ⟨d, r.session⟩

theorem selectStage_advances (host : Host W S H P) (timeout : Duration)
    (admitted : List SocketHandle) (r : Run W S H P) : ∃ deeds, (∀ deed ∈ deeds, deed.IsAside) ∧
      r.session.Advances deeds (selectStage host timeout admitted r).2.session := by
  unfold selectStage
  dsimp only
  split
  · exact ⟨[], by simp, .refl _⟩
  · refine ⟨_, ?_, r.session.advances_note _ _ _ rfl⟩
    intro deed hd
    obtain rfl := List.mem_singleton.1 hd
    trivial

theorem selectStage_registry (timeout : Duration) (admitted : List SocketHandle)
    (r : Run W S H P) : (selectStage host timeout admitted r).2.registry = r.registry := by
  unfold selectStage
  dsimp only
  split <;> rfl

theorem Serves.keyed {r r' : Run W S H P} (hk : r.registry.Keyed) (h : r.Serves host r') :
    r'.registry.Keyed := by
  cases h with
  | visited duty hd =>
      intro k d' hk'
      rcases visit_get? duty.work_works hd hk' with ⟨rfl, hh, -⟩ | ⟨-, hd'⟩
      · exact hh.trans (hk _ _ hd)
      · exact hk k d' hd'
  | selected timeout admitted =>
      rw [selectStage_registry]
      exact hk
  | left hd => exact fun k d' hk' => hk k d' (disconnect_get? hd hk').2

theorem Serves.serving {r r' : Run W S H P} {handles : List SocketHandle}
    (hs : r.Serving host handles) (h : r.Serves host r') : r'.Serving host handles := by
  cases h with
  | visited duty hd hc hr =>
      intro k hmem d' hk' hsel
      rcases visit_get? duty.work_works hd hk' with ⟨rfl, -, hrun⟩ | ⟨-, hd'⟩
      · exact hrun.trans (hr hsel)
      · exact hs k hmem d' hd' hsel
  | selected timeout admitted =>
      intro k hmem d' hk'
      rw [selectStage_registry] at hk'
      exact hs k hmem d' hk'
  | left hd => exact fun k hmem d' hk' => hs k hmem d' (disconnect_get? hd hk').2

theorem Serves.finished {r r' : Run W S H P} {handles : List SocketHandle}
    (hs : r.Finished handles) (h : r.Serves host r') : r'.Finished handles := by
  cases h with
  | visited duty hd hc =>
      intro k hmem d' hk'
      rcases visit_get? duty.work_works hd hk' with ⟨rfl, -, -⟩ | ⟨-, hd'⟩
      · rw [hs k hmem _ hd] at hc
        cases hc
      · exact hs k hmem d' hd'
  | selected timeout admitted =>
      intro k hmem d' hk'
      rw [selectStage_registry] at hk'
      exact hs k hmem d' hk'
  | left hd => exact fun k hmem d' hk' => hs k hmem d' (disconnect_get? hd hk').2

theorem Reports.keyed {r r' : Run W S H P} (hk : r.registry.Keyed) (h : r.Reports host r') :
    r'.registry.Keyed := by
  obtain ⟨error, hd⟩ := h
  intro k d' hd'
  rcases visit_get? (Visit.reportFailure_works error) hd hd' with ⟨rfl, hh, -⟩ | ⟨-, hd'⟩
  · exact hh.trans (hk _ _ hd)
  · exact hk k d' hd'

/-- A report is recorded by the fault and the hooks that heard of it. -/
theorem Reports.advances {r r' : Run W S H P} (h : r.Reports host r') :
    ∃ (k : SocketHandle) (d : Descriptor S H) (error : IoError) (hearings : List (Deed S H)),
      r.registry.get? k = some d ∧ (∀ deed ∈ hearings, deed.IsHearing host d.handle) ∧
      r.session.Advances (.reported d.handle d.standing (.io error) none :: hearings) r'.session := by
  obtain @⟨k, d, error, hd⟩ := h
  obtain ⟨hearings, hh, hadv, -⟩ :=
    Visit.dispatchFault_advances host (.io error) none ⟨d, r.session⟩
  refine ⟨k, d, error, hearings, hd, hh, ?_⟩
  rw [visit_of_some _ hd]
  rw [Visit.session_reportFailure]
  exact hadv

theorem Reports.keys {r r' : Run W S H P} (h : r.Reports host r') :
    r'.registry.keys = r.registry.keys := by
  obtain ⟨error, hd⟩ := h
  exact keys_visit _ hd

/-- The registry stays keyed by the handles of its descriptors. -/
theorem Move.keyed {r r' : Run W S H P} (hk : r.registry.Keyed) (h : r.Move host r') :
    r'.registry.Keyed := by
  cases h with
  | applied => exact keyed_applied hk
  | admitted =>
      intro k d' hd'
      obtain ⟨d, hd, running, postponed, rfl, -⟩ := admitted_considered r hd'
      exact hk k d hd
  | served h => exact h.keyed hk
  | leavingOff => exact hk
  | dismissed =>
      intro k d' hd'
      simp only [Run.dismissed, HandleMap.get?_map] at hd'
      obtain ⟨d, hd, rfl⟩ := Option.map_eq_some_iff.1 hd'
      exact hk k d hd
  | reported h => exact h.keyed hk

/-- Whatever is done in a tick is recorded, with what the hooks have asked for. -/
theorem Serves.advances {r r' : Run W S H P} (h : r.Serves host r') :
    ∃ deeds, r.session.Advances deeds r'.session := by
  cases h with
  | visited duty hd =>
      obtain ⟨deeds, hadv, -⟩ := visit_advances duty.work_works hd
      exact ⟨deeds, hadv⟩
  | selected timeout admitted =>
      obtain ⟨deeds, -, hadv⟩ := selectStage_advances host timeout admitted r
      exact ⟨deeds, hadv⟩
  | left hd =>
      obtain ⟨deeds, hadv, -⟩ := disconnect_advances host hd
      exact ⟨deeds, hadv⟩

theorem advances_of_serves {r r' : Run W S H P}
    (h : Relation.ReflTransGen (Serves host) r r') :
    ∃ deeds, r.session.Advances deeds r'.session := by
  induction h with
  | refl => exact ⟨[], .refl _⟩
  | tail _ hserves ih =>
      obtain ⟨deeds, hadv⟩ := ih
      obtain ⟨more, hadv'⟩ := hserves.advances
      exact ⟨deeds ++ more, hadv.trans hadv'⟩

theorem Abandons.advances {r r' : Run W S H P} (h : r.Abandons host r') :
    ∃ deeds, r.session.Advances deeds r'.session := by
  obtain ⟨hd, -⟩ := h
  obtain ⟨deeds, hadv, -⟩ := disconnect_advances host hd
  exact ⟨deeds, hadv⟩

/-- What has been recorded stays recorded. -/
theorem Move.journal {r r' : Run W S H P} (h : r.Move host r') :
    ∃ deeds, r'.session.journal = r.session.journal ++ deeds := by
  cases h with
  | applied | leavingOff | dismissed => exact ⟨[], (List.append_nil _).symm⟩
  | admitted =>
      obtain ⟨deeds, -, hadv⟩ := r.admitted_advances host
      exact ⟨deeds, hadv.journal⟩
  | served h =>
      obtain ⟨deeds, hadv⟩ := h.advances
      exact ⟨deeds, hadv.journal⟩
  | reported h =>
      obtain ⟨k, d, error, hearings, -, -, hadv⟩ := h.advances
      exact ⟨_, hadv.journal⟩

theorem keyed_of_moves {r r' : Run W S H P} (hk : r.registry.Keyed) (h : r.Moves host r') :
    r'.registry.Keyed := by
  induction h with
  | refl => exact hk
  | tail _ hmove ih => exact hmove.keyed ih

end Run

end Reactor
