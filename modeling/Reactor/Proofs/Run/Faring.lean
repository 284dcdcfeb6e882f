import Reactor.Proofs.Run.Course
import Reactor.Proofs.Run.Errands
import Reactor.Proofs.Run.Readiness

/-! How the errands of a run fare. Sockets that live in memory are ready all the time, so whoever
takes part in a tick gets a turn that brings its errand nearer to its end, and is taken leave of
once it is done. -/

namespace Reactor

variable {W S H P σ : Type} [ChunkSource σ] {host : Host W S H P}

def Readiness.due (ready : Readiness) : Duty → List SocketHandle
  | .opening => []
  | .reading => ready.read
  | .writing => ready.write

/-! ## Readiness without descriptors to poll -/

namespace PollSelector

variable {interests : List Interest} {i : Interest}

theorem mem_write_readiness {flags : List (Option PollFlags)}
    (hi : (i, some (PollFlags.wanted i)) ∈ conditions interests flags) (hwrite : i.write = true) :
    i.handle ∈ (readiness (conditions interests flags)).write := by
  simp only [readiness, List.mem_filterMap]
  exact ⟨_, hi, by simp [hwrite, PollFlags.allowsWrite, PollFlags.wanted]⟩

/-- If there is nothing to poll, nobody is asked, and all interests are met. -/
theorem pollingSelector_of_none {poll : W → List (Nat × PollFlags) → Nat → PollAnswer × W}
    {world : W} {timeout : Duration} (hfd : ∀ i ∈ interests, i.fd = none) :
    pollingSelector poll world interests timeout =
      ⟨.ok (readiness (conditions interests [])), world, false⟩ := by
  have hnone : polled interests = [] := by
    refine List.filterMap_eq_nil_iff.2 fun i hi => ?_
    rw [hfd i hi, Option.map_none]
  simp only [pollingSelector, hnone]
  rfl

theorem due_of_none (hi : i ∈ interests) (hfd : i.fd = none) {duty : Duty}
    (hduty : duty = .reading ∧ i.read = true ∨ duty = .writing ∧ i.write = true) :
    i.handle ∈ (readiness (conditions interests [])).due duty := by
  have hmet : (i, some (.wanted i)) ∈ conditions interests [] := mem_conditions_of_none hfd hi
  rcases hduty with ⟨rfl, hread⟩ | ⟨rfl, hwrite⟩
  · refine mem_read_readiness.2 ⟨i, _, hmet, hread, ?_, rfl⟩
    simp [PollFlags.allowsRead, PollFlags.wanted, hread]
  · exact mem_write_readiness hmet hwrite

end PollSelector

/-- A socket in memory waits for turns of the kind of its errand, and there is nothing to poll. -/
theorem Descriptor.Pending.interest {A : host.sockets.InMemory σ} {d : Descriptor S H}
    {errand : Errand} {events : List (Payload S)} {bytes : Bytes} {n : Nat}
    (h : d.Pending A errand events bytes n) (hc : d.isComplete = false) (world : W) :
    ∃ i, d.interest? host.sockets world = some i ∧ i.fd = none ∧
      (errand.duty = .reading ∧ i.read = true ∨ errand.duty = .writing ∧ i.write = true) := by
  have hopen := h.isOpen world
  obtain ⟨purpose, hs⟩ := h.is
  have hfd := A.rawFd hs world
  let fd := host.sockets.rawFd world d.socket
  cases h with
  | writing hs ho hb =>
      exact ⟨⟨d.handle, fd, false, true⟩, by simp [interest?, hc, hopen, ho, hb, fd], hfd,
        .inr ⟨rfl, rfl⟩⟩
  | flushing hs hf ho hb =>
      exact ⟨⟨d.handle, fd, false, true⟩, by simp [interest?, hc, hopen, hb, fd], hfd,
        .inr ⟨rfl, rfl⟩⟩
  | reading hs ho hb =>
      exact ⟨⟨d.handle, fd, true, !d.metadata.connectFinish⟩,
        by simp [interest?, hc, hopen, ho, hb, fd], hfd, .inl ⟨rfl, rfl⟩⟩

/-! ## How the errands of a run fare -/

namespace Run

/-- How the errand of a handle fares: the socket is held and takes fewer than so many turns, or the
errand is done. -/
inductive FaresAt (A : host.sockets.InMemory σ) (errand : Errand) (n : Nat) (h : SocketHandle)
    (r : Run W S H P) : Prop where
  | held {d : Descriptor S H} (hd : r.registry.get? h = some d)
      (hf : d.Fares A errand (eventsOf h r.session.journal) (bytesSent h r.session.journal) n)
  | gone (hd : r.registry.get? h = none)
      (hf : errand.Fulfilled (eventsOf h r.session.journal) (bytesSent h r.session.journal))

/-- The run is calm, and so the errands fare; no socket is held but those of these handles. -/
structure Faring (A : host.sockets.InMemory σ) (handles : List SocketHandle)
    (errands : SocketHandle → Errand) (work : SocketHandle → Nat) (r : Run W S H P) : Prop where
  calm : r.session.Calm
  keyed : r.registry.Keyed
  known : ∀ h d, r.registry.get? h = some d → h ∈ handles
  fares : ∀ h ∈ handles, r.FaresAt A (errands h) (work h) h

/-- What is left to do once the errand of a handle has been brought nearer to its end. -/
def spend (work : SocketHandle → Nat) (h : SocketHandle) : SocketHandle → Nat :=
  Function.update work h (work h - 1)

variable {A : host.sockets.InMemory σ} {handles : List SocketHandle}
  {errands : SocketHandle → Errand} {work : SocketHandle → Nat} {r r' : Run W S H P}
  {h : SocketHandle} {d : Descriptor S H} {errand : Errand} {n m : Nat}

theorem FaresAt.of_eq (hf : r.FaresAt A errand n h)
    (hd : r'.registry.get? h = r.registry.get? h)
    (he : eventsOf h r'.session.journal = eventsOf h r.session.journal)
    (hb : bytesSent h r'.session.journal = bytesSent h r.session.journal) :
    r'.FaresAt A errand n h := by
  cases hf with
  | held hd' hf =>
      rw [← he, ← hb] at hf
      exact .held (hd.trans hd') hf
  | gone hd' hf =>
      rw [← he, ← hb] at hf
      exact .gone (hd.trans hd') hf

theorem Faring.held (hf : r.Faring A handles errands work) (hd : r.registry.get? h = some d) :
    d.Fares A (errands h) (eventsOf h r.session.journal) (bytesSent h r.session.journal)
      (work h) := by
  rcases hf.fares h (hf.known h d hd) with ⟨hd', hfares⟩ | ⟨hd', -⟩
  · obtain rfl := Option.some.inj (hd.symm.trans hd')
    exact hfares
  · cases hd.symm.trans hd'

/-- A socket that has something left to do is under way. -/
theorem Faring.pending (hf : r.Faring A handles errands work) (hd : r.registry.get? h = some d)
    (hc : d.isComplete = false) : d.Pending A (errands h) (eventsOf h r.session.journal)
      (bytesSent h r.session.journal) (work h) := by
  generalize hevents : eventsOf h r.session.journal = events,
    hbytes : bytesSent h r.session.journal = bytes
  have hheld := hf.held hd
  rw [hevents, hbytes] at hheld
  cases hheld with
  | pending _ hp => exact hp
  | done hc' => cases hc.symm.trans hc'

/-- Where a socket has nothing left to do, any number of turns is enough. -/
theorem Faring.idle (hf : r.Faring A handles errands work)
    (hidle : ∀ d, r.registry.get? h = some d → d.isComplete = true) (n : Nat) :
    r.Faring A handles errands (Function.update work h n) := by
  refine ⟨hf.calm, hf.keyed, hf.known, fun k hk => ?_⟩
  by_cases heq : k = h
  · subst heq
    rw [Function.update_self]
    rcases hf.fares k hk with ⟨hd, hfares⟩ | ⟨hd, hdone⟩
    · refine .held hd ?_
      generalize eventsOf k r.session.journal = events, bytesSent k r.session.journal = bytes
        at hfares ⊢
      cases hfares with
      | pending hc => cases hc.symm.trans (hidle _ hd)
      | done hc hconn hm => exact .done hc hconn hm
    · exact .gone hd hdone
  · rw [Function.update_of_ne heq]
    exact hf.fares k hk

/-- Something has been done about one socket only. -/
theorem Faring.step (hf : r.Faring A handles errands work) (hd : r.registry.get? h = some d)
    {events : List (Payload S)} {bytes : Bytes} (ht : r.session.Tells h events bytes r'.session)
    (hkeyed : r'.registry.Keyed)
    (hothers : ∀ k, k ≠ h → r'.registry.get? k = r.registry.get? k)
    (hat : r'.FaresAt A (errands h) n h) :
    r'.Faring A handles errands (Function.update work h n) := by
  refine ⟨ht.calm, hkeyed, fun k d' hd' => ?_, fun k hk => ?_⟩
  · by_cases heq : k = h
    · rw [heq]
      exact hf.known h d hd
    · rw [hothers k heq] at hd'
      exact hf.known k d' hd'
  · by_cases heq : k = h
    · subst heq
      rwa [Function.update_self]
    · rw [Function.update_of_ne heq]
      obtain ⟨hevents, hbytes⟩ := ht.others heq
      exact (hf.fares k hk).of_eq (hothers k heq) hevents hbytes

/-- Nothing has been done about the sockets. -/
theorem Faring.quiet (hf : r.Faring A handles errands work) (hcalm : r'.session.Calm)
    (hregistry : r'.registry = r.registry)
    (hj : ∀ k, eventsOf k r'.session.journal = eventsOf k r.session.journal ∧
      bytesSent k r'.session.journal = bytesSent k r.session.journal) :
    r'.Faring A handles errands work := by
  refine ⟨hcalm, ?_, ?_, fun k hk => (hf.fares k hk).of_eq ?_ (hj k).1 (hj k).2⟩
  all_goals rw [hregistry]
  · exact hf.keyed
  · exact hf.known

/-! ## Turns -/

theorem checkStop_of_calm (hc : r.session.Calm) :
    (onSession Session.checkStop : Step (Run W S H P) Halt Unit) r = (.done (), r) := by
  rw [checkStop_apply, if_neg (by simp [hc.stopDue])]

def visited (r : Run W S H P) (h : SocketHandle) (t : Visit W S H P) : Run W S H P :=
  ⟨HandleMap.modify r.registry h fun _ => t.descriptor, t.session⟩

/-- What a visit does for the errand of its socket, it does for the run. -/
theorem Faring.visited (hf : r.Faring A handles errands work) (hd : r.registry.get? h = some d)
    {t : Visit W S H P}
    (ht : Visit.Furthers A (errands h) (eventsOf h r.session.journal)
      (bytesSent h r.session.journal) n ⟨d, r.session⟩ t) :
    (r.visited h t).Faring A handles errands (Function.update work h n) := by
  obtain ⟨more, rest, ht, hfares⟩ := ht
  have hhandle : d.handle = h := hf.keyed h d hd
  have hsession : r.session.Tells h more rest (r.visited h t).session := hhandle ▸ ht.session
  have hothers : ∀ k, k ≠ h → (r.visited h t).registry.get? k = r.registry.get? k := by
    intro k hk
    simp only [Run.visited, HandleMap.get?_modify, if_neg hk]
  have hget : (r.visited h t).registry.get? h = some t.descriptor := by
    simp only [Run.visited, HandleMap.get?_modify, if_pos, hd, Option.map_some]
  have hkeyed : (r.visited h t).registry.Keyed := by
    intro k d' hd'
    by_cases heq : k = h
    · rw [heq, hget] at hd'
      obtain rfl := Option.some.inj hd'
      rw [ht.handle, heq, hhandle]
    · rw [hothers k heq] at hd'
      exact hf.keyed k d' hd'
  refine hf.step hd hsession hkeyed hothers (.held hget ?_)
  rw [hsession.eventsOf, hsession.bytesSent]
  exact hfares

/-- A turn does no harm, and one of the kind of the errand brings it nearer to its end. -/
theorem visit_faring (hobs : host.Observed) (hf : r.Faring A handles errands work) (duty : Duty)
    (h : SocketHandle) :
    ∃ r', visit h (Visit.unlessComplete (duty.work host)) r = (.done (), r') ∧
      r'.Faring A handles errands work ∧
      ((errands h).duty = duty → r'.Faring A handles errands (spend work h)) := by
  rcases hd : r.registry.get? h with _ | d
  · have hidle : ∀ d, r.registry.get? h = some d → d.isComplete = true := by simp [hd]
    exact ⟨r, visit_of_none _ hd, hf, fun _ => hf.idle hidle _⟩
  cases hc : d.isComplete with
  | true =>
      have hidle : ∀ d, r.registry.get? h = some d → d.isComplete = true := by simp [hd, hc]
      exact ⟨r, visit_of_complete _ hd hc, hf, fun _ => hf.idle hidle _⟩
  | false =>
      obtain ⟨t, hx, hharmless, hnearer⟩ := Duty.work_helps (v := ⟨d, r.session⟩) duty hobs
        hf.calm hc (hf.pending hd hc)
      refine ⟨r.visited h t, ?_, ?_, fun hduty => hf.visited hd (hnearer hduty)⟩
      · rw [visit_of_active _ hd hc, visit_of_some _ hd, hx]
        rfl
      · rw [← Function.update_eq_self h work]
        exact hf.visited hd hharmless

/-- So is it with a turn of each of several sockets. -/
theorem forEachActive_faring (hobs : host.Observed) (duty : Duty) (hs : List SocketHandle) :
    ∀ {r : Run W S H P} {work : SocketHandle → Nat}, r.Faring A handles errands work →
      ∃ r', forEachActive hs (duty.work host) r = (.done (), r') ∧
        r'.Faring A handles errands work ∧
        ∀ h ∈ hs, (errands h).duty = duty → r'.Faring A handles errands (spend work h) := by
  induction hs with
  | nil => exact fun {r} _ hf => ⟨r, rfl, hf, by simp⟩
  | cons h rest ih =>
      intro r work hf
      obtain ⟨m, hvisit, hm, hnearer⟩ := visit_faring hobs hf duty h
      have hturn : (onSession Session.checkStop >>= fun _ =>
          visit h (Visit.unlessComplete (duty.work host))) r = (.done (), m) := by
        rw [Step.bind_of_done (checkStop_of_calm hf.calm), hvisit]
      obtain ⟨r', hrest, hr', hothers⟩ := ih hm
      refine ⟨r', ?_, hr', fun k hk hduty => ?_⟩
      · rw [forEachActive_cons, Step.bind_of_done hturn, hrest]
      rcases List.mem_cons.1 hk with rfl | hk
      · obtain ⟨r'', hrest', hr'', -⟩ := ih (hnearer hduty)
        cases hrest.symm.trans hrest'
        exact hr''
      · exact hothers k hk hduty

/-! ## The stages of a tick -/

/-- Every socket that is ready for its errand is served. -/
theorem ioStage_faring (hobs : host.Observed) (ready : Readiness)
    (hf : r.Faring A handles errands work) :
    ∃ r', ioStage host ready r = (.done (), r') ∧ r'.Faring A handles errands work ∧
      ∀ h ∈ ready.due (errands h).duty, r'.Faring A handles errands (spend work h) := by
  obtain ⟨m, hread, hm, hreaders⟩ := forEachActive_faring hobs .reading ready.read hf
  obtain ⟨r', hwrite, hr', hwriters⟩ := forEachActive_faring hobs .writing ready.write hm
  refine ⟨r', ?_, hr', fun h hh => ?_⟩
  · have hx : ioStage host ready r = (forEachActive ready.read (Duty.reading.work host) >>= fun _ =>
        forEachActive ready.write (Duty.writing.work host)) r := rfl
    rw [hx, Step.bind_of_done hread, hwrite]
  cases he : (errands h).duty with
  | opening =>
      rw [he] at hh
      cases hh
  | reading =>
      rw [he] at hh
      obtain ⟨r'', hwrite', hr'', -⟩ :=
        forEachActive_faring hobs .writing ready.write (hreaders h hh he)
      cases hwrite.symm.trans hwrite'
      exact hr''
  | writing =>
      rw [he] at hh
      exact hwriters h hh he

/-- Whoever takes part and has something left to do is ready for its errand. -/
theorem selectStage_faring {poll : W → List (Nat × PollFlags) → Nat → PollAnswer × W}
    (hs : host.select = pollingSelector poll) (timeout : Duration) (admitted : List SocketHandle)
    (hf : r.Faring A handles errands work) :
    ∃ ready r', selectStage host timeout admitted r = (.done ready, r') ∧
      r'.Faring A handles errands work ∧
      ∀ h ∈ admitted, ∀ d, r.registry.get? h = some d → d.isComplete = false →
        h ∈ ready.due (errands h).duty := by
  have hinterest : ∀ h ∈ admitted, ∀ d, r.registry.get? h = some d → d.isComplete = false →
      ∃ i ∈ r.interests host admitted, i.handle = h ∧ i.fd = none ∧
        ((errands h).duty = .reading ∧ i.read = true ∨
          (errands h).duty = .writing ∧ i.write = true) := by
    intro h hh d hd hc
    obtain ⟨i, hi, hfd, hduty⟩ := (hf.pending hd hc).interest hc r.session.world
    refine ⟨i, ?_, ?_, hfd, hduty⟩
    · simp only [interests, List.mem_filterMap]
      exact ⟨d, ⟨h, hh, hd⟩, hi⟩
    · rw [Descriptor.interest?_handle hi, hf.keyed h d hd]
  have hfd : ∀ i ∈ r.interests host admitted, i.fd = none := by
    intro i hi
    simp only [interests, List.mem_filterMap] at hi
    obtain ⟨d, ⟨h, hh, hd⟩, hi⟩ := hi
    have hc : d.isComplete = false := by
      by_contra hc
      simp [Descriptor.interest?, hc] at hi
    obtain ⟨j, hj, hfd, -⟩ := (hf.pending hd hc).interest hc r.session.world
    obtain rfl := Option.some.inj (hi.symm.trans hj)
    exact hfd
  by_cases hempty : r.interests host admitted = []
  · refine ⟨.none, r, ?_, hf, fun h hh d hd hc => ?_⟩
    · simp [selectStage, hempty]
    · obtain ⟨i, hi, -⟩ := hinterest h hh d hd hc
      rw [hempty] at hi
      cases hi
  let ready := PollSelector.readiness (PollSelector.conditions (r.interests host admitted) [])
  let r' : Run W S H P :=
    ⟨r.registry, r.session.note (.selected (r.interests host admitted) (.ok ready))⟩
  have hx : selectStage host timeout admitted r = (.done ready, r') := by
    simp only [selectStage, List.isEmpty_eq_false_iff.2 hempty, hs,
      PollSelector.pollingSelector_of_none hfd]
    rfl
  have hcalm : r'.session.Calm := hf.calm.note r.session.world rfl
  refine ⟨ready, r', hx, hf.quiet hcalm rfl fun k => ?_, fun h hh d hd hc => ?_⟩
  · simp [r', Session.note, eventsOf, bytesSent, Deed.event?, Deed.bytesSent]
  · obtain ⟨i, hi, rfl, hfd, hduty⟩ := hinterest h hh d hd hc
    exact PollSelector.due_of_none hi hfd hduty

theorem serviceOf_done {config : ExecutorConfig} {admitted : List SocketHandle} {ready : Readiness}
    {m s : Run W S H P} (hconnect : connectStage host admitted r = (.done (), m))
    (hc : m.session.Calm)
    (hselect : selectStage host config.pollTimeout admitted m = (.done ready, s))
    (hio : ioStage host ready s = (.done (), r')) :
    serviceOf host config admitted r = (.done none, r') := by
  rw [serviceOf, Step.bind_of_done hconnect, Step.bind_of_done (checkStop_of_calm hc),
    Step.bind_of_done (Step.attempt_of_done hselect)]
  show (ioStage host ready >>= fun _ => pure none) s = _
  rw [Step.bind_of_done hio]
  rfl

/-- Whoever takes part in a tick gets a turn that brings its errand nearer to its end. -/
theorem serviceOf_faring (hobs : host.Observed)
    {poll : W → List (Nat × PollFlags) → Nat → PollAnswer × W}
    (hs : host.select = pollingSelector poll) (config : ExecutorConfig)
    {admitted : List SocketHandle} (hh : h ∈ admitted) (hf : r.Faring A handles errands work) :
    ∃ r', serviceOf host config admitted r = (.done none, r') ∧
      r'.Faring A handles errands (spend work h) := by
  obtain ⟨m, hconnect, hm, -⟩ := forEachActive_faring hobs .opening admitted hf
  by_cases hidle : ∀ d, m.registry.get? h = some d → d.isComplete = true
  · obtain ⟨ready, s, hselect, hs', -⟩ :=
      selectStage_faring hs config.pollTimeout admitted (hm.idle hidle (work h - 1))
    obtain ⟨r', hio, hr', -⟩ := ioStage_faring hobs ready hs'
    exact ⟨r', serviceOf_done hconnect hm.calm hselect hio, hr'⟩
  · simp only [not_forall, Bool.not_eq_true] at hidle
    obtain ⟨d, hd, hc⟩ := hidle
    obtain ⟨ready, s, hselect, hs', hdue⟩ :=
      selectStage_faring hs config.pollTimeout admitted hm
    obtain ⟨r', hio, -, hserved⟩ := ioStage_faring hobs ready hs'
    exact ⟨r', serviceOf_done hconnect hm.calm hselect hio, hserved h (hdue h hh d hd hc)⟩

/-! ## Leave -/

/-- Leave is taken of a socket that has done its errand. -/
theorem disconnect_faring (hobs : host.Observed) (hf : r.Faring A handles errands work)
    (hidle : ∀ d, r.registry.get? h = some d → d.isComplete = true) :
    ∃ r', disconnect host h r = (.done (), r') ∧ r'.Faring A handles errands work := by
  rcases hd : r.registry.get? h with _ | d
  · exact ⟨r, disconnect_of_none hd, hf⟩
  have hhandle : d.handle = h := hf.keyed h d hd
  have hheld := hf.held hd
  generalize hevents : eventsOf h r.session.journal = events,
    hbytes : bytesSent h r.session.journal = bytes at hheld
  cases hheld with
  | pending hc => cases hc.symm.trans (hidle d hd)
  | done hc hconn hm =>
      have htold : (⟨d, r.session⟩ : Visit W S H P).toldOff host = true := by
        simp [Visit.toldOff, hconn]
      obtain ⟨t, hleave, ht⟩ := Visit.takeLeave_observed hobs (v := ⟨d, r.session⟩) hf.calm htold
      rw [hhandle] at ht
      let r' : Run W S H P := ⟨HandleMap.erase r.registry h, t.session⟩
      have hx : disconnect host h r = (.done (), r') := by
        rw [disconnect_of_some hd, hleave]
      have hget : ∀ k, r'.registry.get? k = if k = h then none else r.registry.get? k := by
        intro k
        exact HandleMap.get?_erase
      have hkeyed : r'.registry.Keyed := by
        intro k d' hd'
        rw [hget] at hd'
        split at hd'
        · cases hd'
        · exact hf.keyed k d' hd'
      have hgone : r'.FaresAt A (errands h) (work h) h := by
        have he := ht.eventsOf
        have hb := ht.bytesSent
        rw [show eventsOf h (⟨d, r.session⟩ : Visit W S H P).session.journal = _ from hevents] at he
        rw [show bytesSent h (⟨d, r.session⟩ : Visit W S H P).session.journal = _ from hbytes,
          List.append_nil] at hb
        refine .gone ((hget h).trans (if_pos rfl)) ?_
        rw [show eventsOf h r'.session.journal = _ from he,
          show bytesSent h r'.session.journal = _ from hb]
        exact .mk hm
      refine ⟨r', hx, ?_⟩
      rw [← Function.update_eq_self h work]
      exact hf.step hd ht hkeyed (fun k hk => (hget k).trans (if_neg hk)) hgone

/-- So is it with several sockets. -/
theorem disconnectAll_faring (hobs : host.Observed) {hs : List SocketHandle} :
    ∀ {r : Run W S H P}, r.Faring A handles errands work → r.Finished hs →
      ∃ r', disconnectAll host hs r = (.done (), r') ∧ r'.Faring A handles errands work := by
  induction hs with
  | nil => exact fun {r} hf _ => ⟨r, rfl, hf⟩
  | cons h rest ih =>
      intro r hf hfinished
      obtain ⟨m, hx, hm⟩ := disconnect_faring hobs hf (hfinished h List.mem_cons_self)
      have hsub : ∀ k d', m.registry.get? k = some d' → r.registry.get? k = some d' := by
        rcases hd : r.registry.get? h with _ | d
        · rw [disconnect_of_none hd] at hx
          cases hx
          exact fun _ _ hd' => hd'
        · intro k d' hd'
          have hleft : (disconnect host h r).2.registry.get? k = some d' := by rw [hx, hd']
          exact (disconnect_get? hd hleft).2
      have hrest : m.Finished rest := fun k hk d' hd' =>
        hfinished k (List.mem_cons_of_mem h hk) d' (hsub k d' hd')
      obtain ⟨r', hx', hr'⟩ := ih hm hrest
      refine ⟨r', ?_, hr'⟩
      rw [disconnectAll_cons rest hx (by simp), hx']
      rfl

/-- No socket that is held has nothing left to do. -/
def Busy (r : Run W S H P) : Prop := ∀ h d, r.registry.get? h = some d → d.isComplete = false

theorem disconnectStage_faring (hobs : host.Observed) (hf : r.Faring A handles errands work) :
    ∃ r', disconnectStage host r = (.done (), r') ∧ r'.Faring A handles errands work ∧
      r'.Busy := by
  obtain ⟨r', hx, hr'⟩ := disconnectAll_faring hobs hf (finished_completed hf.keyed)
  refine ⟨r', hx, hr', fun h d hd => ?_⟩
  have hleft : (disconnectAll host (Registry.completed r.registry) r).2.registry.get? h =
      some d := by rw [hx, hd]
  obtain ⟨hnot, hheld⟩ := disconnectAll_get? host (by rw [hx]; simp) hleft
  by_contra hc
  refine hnot ?_
  simp only [Registry.completed, List.mem_map, List.mem_filter, HandleMap.mem_values]
  exact ⟨d, ⟨⟨h, hheld⟩, by simpa using hc⟩, hf.keyed h d hheld⟩

end Run

end Reactor
