import Reactor.Policy.Rules
import Reactor.Proofs.Run.Moves
import Reactor.Proofs.Run.Seclusion

/-! The service of the sockets that are ready, seen from one of them: what it does for that socket
does not depend on the others, on what becomes of them, or on the order. -/

namespace Reactor

variable {W S H P V : Type} {host : Host W S H P} {view : W → V} {Own : S → Prop}
  {h : SocketHandle}

def concerning (h : SocketHandle) (deeds : List (Deed S H)) : List (Deed S H) :=
  deeds.filter fun deed => deed.handle? = some h

@[simp] theorem concerning_append (h : SocketHandle) (deeds more : List (Deed S H)) :
    concerning h (deeds ++ more) = concerning h deeds ++ concerning h more := by
  simp [concerning]

theorem concerning_eq_nil {deeds : List (Deed S H)}
    (hd : ∀ deed ∈ deeds, deed.handle? ≠ some h) : concerning h deeds = [] := by
  simpa [concerning] using hd

namespace Run

/-- No stop is due, and the sockets `Own` are that of the handle alone. -/
structure Isolates (Own : S → Prop) (h : SocketHandle) (r : Run W S H P) : Prop where
  keyed : r.registry.Keyed
  calm : r.session.stopDue = false
  own : ∀ d, r.registry.get? h = some d → Own d.socket
  apart : ∀ k d, k ≠ h → r.registry.get? k = some d → ¬ Own d.socket

/-- The isolation can be read off the entries of the registry. -/
theorem isolates_of_entries {r : Run W S H P} (hc : r.session.stopDue = false)
    (he : ∀ e ∈ r.registry.entries, e.2.handle = e.1 ∧ (Own e.2.socket ↔ e.1 = h)) :
    r.Isolates Own h where
  keyed _ _ hd := (he _ (HandleMap.mem_entries.2 hd)).1
  calm := hc
  own _ hd := (he _ (HandleMap.mem_entries.2 hd)).2.2 rfl
  apart _ _ hne hd hown := hne ((he _ (HandleMap.mem_entries.2 hd)).2.1 hown)

/-- The run has gone on without the socket of the handle. -/
structure Omits (view : W → V) (Own : S → Prop) (h : SocketHandle) (r t : Run W S H P) :
    Prop where
  isolates : t.Isolates Own h
  get : t.registry.get? h = r.registry.get? h
  handlers : t.session.handlers = r.session.handlers
  observing : t.session.observing = r.session.observing
  view : view t.session.world = view r.session.world
  journal : ∃ deeds, t.session.journal = r.session.journal ++ deeds ∧ concerning h deeds = []

theorem Omits.refl {r : Run W S H P} (hr : r.Isolates Own h) : r.Omits view Own h r :=
  ⟨hr, rfl, rfl, rfl, rfl, [], (List.append_nil _).symm, rfl⟩

theorem Omits.trans {r s t : Run W S H P} (hs : r.Omits view Own h s)
    (ht : s.Omits view Own h t) : r.Omits view Own h t where
  isolates := ht.isolates
  get := ht.get.trans hs.get
  handlers := ht.handlers.trans hs.handlers
  observing := ht.observing.trans hs.observing
  view := ht.view.trans hs.view
  journal := by
    obtain ⟨deeds, hj, hd⟩ := hs.journal
    obtain ⟨more, hj', hm⟩ := ht.journal
    refine ⟨deeds ++ more, ?_, ?_⟩
    · rw [hj', hj, List.append_assoc]
    · rw [concerning_append, hd, hm]
      rfl

/-- Two runs in which the socket of the handle has the same before it. Since the journals were `j`
and `j'`, the same has been done for it. -/
structure Twins (view : W → V) (Own : S → Prop) (h : SocketHandle) (j j' : List (Deed S H))
    (r r' : Run W S H P) : Prop where
  left : r.Isolates Own h
  right : r'.Isolates Own h
  get : r.registry.get? h = r'.registry.get? h
  handlers : r.session.handlers = r'.session.handlers
  observing : r.session.observing = r'.session.observing
  view : view r.session.world = view r'.session.world
  journal : ∃ deeds deeds', r.session.journal = j ++ deeds ∧ r'.session.journal = j' ++ deeds' ∧
    concerning h deeds = concerning h deeds'

section Twins

variable {j j' : List (Deed S H)} {r r' t t' : Run W S H P}

theorem Twins.symm (hr : Twins view Own h j j' r r') : Twins view Own h j' j r' r where
  left := hr.right
  right := hr.left
  get := hr.get.symm
  handlers := hr.handlers.symm
  observing := hr.observing.symm
  view := hr.view.symm
  journal := by
    obtain ⟨deeds, deeds', hj, hj', hd⟩ := hr.journal
    exact ⟨deeds', deeds, hj', hj, hd.symm⟩

/-- One of the runs goes on without the socket. -/
theorem Twins.omitted (hr : Twins view Own h j j' r r') (ht : r.Omits view Own h t) :
    Twins view Own h j j' t r' where
  left := ht.isolates
  right := hr.right
  get := ht.get.trans hr.get
  handlers := ht.handlers.trans hr.handlers
  observing := ht.observing.trans hr.observing
  view := ht.view.trans hr.view
  journal := by
    obtain ⟨deeds, deeds', hj, hj', hd⟩ := hr.journal
    obtain ⟨more, hmore, hnone⟩ := ht.journal
    refine ⟨deeds ++ more, deeds', ?_, hj', ?_⟩
    · rw [hmore, hj, List.append_assoc]
    · rw [concerning_append, hnone, List.append_nil, hd]

/-! ## One visit -/

/-- What a visit does to the isolation, if the socket stays the one of its handle. -/
theorem Isolates.visit (hr : r.Isolates Own h) {k : SocketHandle} {d : Descriptor S H}
    {v : Visit W S H P} (hd : r.registry.get? k = some d) (hh : v.descriptor.handle = k)
    (hc : v.session.stopDue = false) (ho : Own v.descriptor.socket ↔ k = h) :
    Isolates Own h ⟨HandleMap.modify r.registry k fun _ => v.descriptor, v.session⟩ := by
  have hget : ∀ {m d'}, HandleMap.get? (HandleMap.modify r.registry k fun _ => v.descriptor) m =
      some d' → (m = k ∧ d' = v.descriptor) ∨ (m ≠ k ∧ r.registry.get? m = some d') := by
    intro m d' hm
    rw [HandleMap.get?_modify] at hm
    split at hm
    · rename_i heq
      rw [heq, hd] at hm
      exact .inl ⟨heq, (Option.some.inj hm).symm⟩
    · rename_i hne
      exact .inr ⟨hne, hm⟩
  refine ⟨fun m d' hm => ?_, hc, fun d' hm => ?_, fun m d' hne hm => ?_⟩
  · rcases hget hm with ⟨rfl, rfl⟩ | ⟨-, hm⟩
    · exact hh
    · exact hr.keyed m d' hm
  · rcases hget hm with ⟨rfl, rfl⟩ | ⟨-, hm⟩
    · exact ho.2 rfl
    · exact hr.own d' hm
  · rcases hget hm with ⟨rfl, rfl⟩ | ⟨-, hm⟩
    · exact fun hown => hne (ho.1 hown)
    · exact hr.apart m d' hne hm

/-- A visit of another socket. -/
theorem visit_omits (hr : r.Isolates Own h) {k : SocketHandle} (hne : k ≠ h)
    {work : Step (Visit W S H P) Halt Unit}
    (hw : ∀ s, Step.Respects (fun v v' => v = v' ∧ Visit.Away view Own h k s v) work
      fun _ => True) :
    ∃ t, visit k work r = (.done (), t) ∧ r.Omits view Own h t := by
  rcases hd : r.registry.get? k with _ | d
  · exact ⟨r, visit_of_none work hd, .refl hr⟩
  have haway : Visit.Away view Own h k r.session ⟨d, r.session⟩ :=
    ⟨hr.keyed k d hd, hr.apart k d hne hd, rfl, rfl, hr.calm, rfl, [], (List.append_nil _).symm,
      by simp⟩
  obtain ⟨-, hmild, -, hafter⟩ := hw r.session _ _ ⟨rfl, haway⟩
  refine ⟨_, by rw [visit_of_some work hd, hmild.done], ?_⟩
  obtain ⟨deeds, hj, hdeeds⟩ := hafter.journal
  refine ⟨hr.visit hd hafter.handle hafter.calm ?_, ?_, hafter.handlers, hafter.observing,
    hafter.view, deeds, hj, concerning_eq_nil hdeeds⟩
  · exact ⟨fun hown => absurd hown hafter.apart, fun heq => absurd heq hne⟩
  · show HandleMap.get? (HandleMap.modify r.registry k _) h = _
    rw [HandleMap.get?_modify, if_neg (Ne.symm hne)]

/-- A visit of the socket of the handle, in both runs. -/
theorem visit_twins (hr : Twins view Own h j j' r r') {work : Step (Visit W S H P) Halt Unit}
    (hw : ∀ j j', Step.Respects (Visit.Twins view Own h j j') work fun _ => True) :
    ∃ t t', visit h work r = (.done (), t) ∧ visit h work r' = (.done (), t') ∧
      Twins view Own h j j' t t' := by
  rcases hd : r.registry.get? h with _ | d
  · exact ⟨r, r', visit_of_none work hd, visit_of_none work (hr.get ▸ hd), hr⟩
  have hd' : r'.registry.get? h = some d := hr.get ▸ hd
  have htwins : Visit.Twins view Own h r.session.journal r'.session.journal
      ⟨d, r.session⟩ ⟨d, r'.session⟩ :=
    ⟨rfl, hr.left.keyed h d hd, hr.left.own d hd, hr.handlers, hr.observing,
      ⟨hr.left.calm, hr.right.calm⟩, hr.view, [], (List.append_nil _).symm,
      (List.append_nil _).symm⟩
  obtain ⟨heq, hmild, hafter⟩ := hw _ _ _ _ htwins
  refine ⟨_, _, by rw [visit_of_some work hd, hmild.done],
    by rw [visit_of_some work hd', ← heq, hmild.done], ?_⟩
  have hown' := hafter.own
  rw [hafter.descriptor] at hown'
  refine ⟨?_, ?_, ?_, hafter.handlers, hafter.observing, hafter.view, ?_⟩
  · exact hr.left.visit hd hafter.handle hafter.calm.1 ⟨fun _ => rfl, fun _ => hafter.own⟩
  · exact hr.right.visit hd' (hafter.descriptor ▸ hafter.handle) hafter.calm.2
      ⟨fun _ => rfl, fun _ => hown'⟩
  · show HandleMap.get? (HandleMap.modify r.registry h _) h =
      HandleMap.get? (HandleMap.modify r'.registry h _) h
    have hg : HandleMap.get? r.registry h = some d := hd
    have hg' : HandleMap.get? r'.registry h = some d := hd'
    rw [HandleMap.get?_modify, if_pos rfl, HandleMap.get?_modify, if_pos rfl, hg, hg',
      hafter.descriptor]
  · obtain ⟨deeds, deeds', hj, hj', hdeeds⟩ := hr.journal
    obtain ⟨more, hm, hm'⟩ := hafter.journal
    refine ⟨deeds ++ more, deeds' ++ more, ?_, ?_, ?_⟩
    · show (work ⟨d, r.session⟩).2.session.journal = _
      rw [hm, hj, List.append_assoc]
    · show (work ⟨d, r'.session⟩).2.session.journal = _
      rw [hm', hj', List.append_assoc]
    · rw [concerning_append, concerning_append, hdeeds]

end Twins

/-! ## The stage -/

/-- Where no stop is due, each of the sockets has its turn. -/
theorem forEachActive_of_calm {r t : Run W S H P} {k : SocketHandle} (rest : List SocketHandle)
    {work : Step (Visit W S H P) Halt Unit} (hc : r.session.stopDue = false)
    (hx : visit k (Visit.unlessComplete work) r = (.done (), t)) :
    forEachActive (k :: rest) work r = forEachActive rest work t := by
  have hcheck : onSession Session.checkStop r = (.done (), r) := by
    rw [checkStop_apply, hc]
    rfl
  have hfirst : (onSession Session.checkStop >>= fun _ => visit k (Visit.unlessComplete work)) r =
      (.done (), t) := (Step.bind_of_done hcheck).trans hx
  rw [forEachActive_cons, Step.bind_of_done hfirst]

theorem forEachActive_append {r t : Run W S H P} (handles rest : List SocketHandle)
    {work : Step (Visit W S H P) Halt Unit} (hx : forEachActive handles work r = (.done (), t)) :
    forEachActive (handles ++ rest) work r = forEachActive rest work t := by
  have happend : forEachActive (handles ++ rest) work =
      forEachActive handles work >>= fun _ => forEachActive rest work := List.forM_append
  rw [happend, Step.bind_of_done hx]

section Stage

variable {work : Step (Visit W S H P) Halt Unit} {r r' : Run W S H P} {j j' : List (Deed S H)}

/-- Work that passes by the socket of the handle wherever it is done for another one. -/
def PassesBy (view : W → V) (Own : S → Prop) (h : SocketHandle)
    (work : Step (Visit W S H P) Halt Unit) : Prop :=
  ∀ k, k ≠ h → ∀ s, Step.Respects (fun v v' => v = v' ∧ Visit.Away view Own h k s v) work
    fun _ => True

/-- Work that is the same for the socket of the handle in two runs. -/
def SameFor (view : W → V) (Own : S → Prop) (h : SocketHandle)
    (work : Step (Visit W S H P) Halt Unit) : Prop :=
  ∀ j j', Step.Respects (Visit.Twins view Own h j j') work fun _ => True

theorem forEachActive_omits
    (hw : PassesBy view Own h (Visit.unlessComplete work)) {handles : List SocketHandle} :
    ∀ {r : Run W S H P}, r.Isolates Own h → h ∉ handles →
      ∃ t, forEachActive handles work r = (.done (), t) ∧ r.Omits view Own h t := by
  induction handles with
  | nil => exact fun hr _ => ⟨_, rfl, .refl hr⟩
  | cons k rest ih =>
      intro r hr hh
      rw [List.mem_cons, not_or] at hh
      obtain ⟨m, hx, hm⟩ := visit_omits hr (Ne.symm hh.1) (hw k (Ne.symm hh.1))
      obtain ⟨t, ht, homits⟩ := ih hm.isolates hh.2
      exact ⟨t, by rw [forEachActive_of_calm rest hr.calm hx, ht], hm.trans homits⟩

/-- The turn of the socket comes, or does not come, whoever else has one. -/
theorem forEachActive_twins (hother : PassesBy view Own h (Visit.unlessComplete work))
    (hown : SameFor view Own h (Visit.unlessComplete work)) {handles handles' : List SocketHandle}
    (hn : handles.Nodup) (hn' : handles'.Nodup) (hh : h ∈ handles ↔ h ∈ handles')
    (hr : Twins view Own h j j' r r') :
    ∃ t t', forEachActive handles work r = (.done (), t) ∧
      forEachActive handles' work r' = (.done (), t') ∧ Twins view Own h j j' t t' := by
  by_cases hmem : h ∈ handles
  · obtain ⟨before, after, rfl⟩ := List.append_of_mem hmem
    obtain ⟨before', after', rfl⟩ := List.append_of_mem (hh.1 hmem)
    have hnot := List.nodup_middle.1 hn
    have hnot' := List.nodup_middle.1 hn'
    rw [List.nodup_cons, List.mem_append, not_or] at hnot hnot'
    obtain ⟨m, hx, hm⟩ := forEachActive_omits hother hr.left hnot.1.1
    obtain ⟨m', hx', hm'⟩ := forEachActive_omits hother hr.right hnot'.1.1
    obtain ⟨n, n', hv, hv', hafter⟩ :=
      visit_twins ((hr.omitted hm).symm.omitted hm').symm hown
    obtain ⟨t, ht, homits⟩ := forEachActive_omits hother hafter.left hnot.1.2
    obtain ⟨t', ht', homits'⟩ := forEachActive_omits hother hafter.right hnot'.1.2
    refine ⟨t, t', ?_, ?_, ((hafter.omitted homits).symm.omitted homits').symm⟩
    · rw [forEachActive_append before _ hx, forEachActive_of_calm after hm.isolates.calm hv, ht]
    · rw [forEachActive_append before' _ hx', forEachActive_of_calm after' hm'.isolates.calm hv',
        ht']
  · obtain ⟨t, ht, homits⟩ := forEachActive_omits hother hr.left hmem
    obtain ⟨t', ht', homits'⟩ := forEachActive_omits hother hr.right fun h => hmem (hh.2 h)
    exact ⟨t, t', ht, ht', ((hr.omitted homits).symm.omitted homits').symm⟩

end Stage

section Service

variable (hs : host.sockets.Secludes view Own) (hh : host.Impartial view Own h)

include hs hh

theorem serve_passesBy : PassesBy view Own h
      (Visit.unlessComplete (Visit.settle host (Visit.serveRead host))) ∧
    PassesBy view Own h (Visit.unlessComplete (Visit.settle host (Visit.serveWrite host))) := by
  refine ⟨fun k hne s => ?_, fun k hne s => ?_⟩
  · have hb := Visit.away_bonds (s := s) hs hh hne
    exact hb.unlessComplete (hb.settle hb.serveRead)
  · have hb := Visit.away_bonds (s := s) hs hh hne
    exact hb.unlessComplete (hb.settle hb.serveWrite)

theorem serve_sameFor : SameFor view Own h
      (Visit.unlessComplete (Visit.settle host (Visit.serveRead host))) ∧
    SameFor view Own h (Visit.unlessComplete (Visit.settle host (Visit.serveWrite host))) := by
  refine ⟨fun j j' => ?_, fun j j' => ?_⟩
  · have hb : Visit.Bonds host _ (Visit.Twins view Own h j j') := Visit.twins_bonds hs hh
    exact hb.unlessComplete (hb.settle hb.serveRead)
  · have hb : Visit.Bonds host _ (Visit.Twins view Own h j j') := Visit.twins_bonds hs hh
    exact hb.unlessComplete (hb.settle hb.serveWrite)

end Service

end Run

end Reactor

/-! ## A host whose sockets fail, except for one -/

namespace Reactor.Neighbours

/-- What is still to come in for the one socket, and how often the others have failed. -/
abbrev Surroundings := Bytes × Nat

/-- One socket reads what has come in, the others fail. -/
def sockets : SocketRules Surroundings Bool where
  isOpen _ _ := true
  isConnected _ _ := true
  isServer _ _ := false
  rawFd _ _ := none
  connect world socket _ := ⟨.done (), socket, world, false⟩
  pollConnect world socket := ⟨.done true, socket, world, false⟩
  read world socket picker _ _ :=
    if socket then (⟨.done (.frame ⟨world.1, ""⟩), socket, ([], world.2), false⟩, picker)
    else (⟨.cut .unreachedFrame, socket, (world.1, world.2 + 1), false⟩, picker)
  write world socket _ _ := ⟨.cut .notOpen, socket, (world.1, world.2 + 1), false⟩
  close world socket := (socket, world)

/-- The host whose hooks do nothing. -/
def host : Host Surroundings Bool Unit Unit where
  sockets := sockets
  handlers :=
    { onEvent := fun world _ event context => .nothing world event context
      onFault := fun world _ _ context => .nothing world context }
  policy := .noLimit
  select world _ _ := ⟨.ok ⟨[], []⟩, world, false⟩

theorem secludes : host.sockets.Secludes Prod.fst (· = true) where
  pollConnect := by
    refine ⟨?_, ?_, ?_, ?_, ?_⟩ <;> simp [host, sockets]
  read picker previous outOfBand := by
    refine ⟨fun _ s => ?_, fun _ s => ?_, fun _ s => ?_, fun _ _ s => ?_, fun {_ s} => ?_⟩ <;>
      cases s <;> simp [host, sockets]
  picker _ _ s _ _ _ := by cases s <;> simp [host, sockets]
  client {_ s _ _ _ _ _} := by cases s <;> simp [host, sockets]
  write data outOfBand := by
    refine ⟨?_, ?_, ?_, ?_, ?_⟩ <;> simp [host, sockets]
  close _ := rfl

theorem impartial (h : SocketHandle) : host.Impartial Prod.fst (· = true) h where
  event _ _ _ link hd := by
    rcases link with _ | _ | _ <;> exact ⟨⟨rfl, rfl⟩, congrArg (·.metadata) hd, rfl⟩
  fault _ _ _ link _ := by rcases link with _ | _ | _ <;> exact ⟨rfl, rfl⟩
  eventTame _ _ link := by rcases link with _ | _ | _ <;> exact ⟨rfl, .inl rfl⟩
  faultTame _ _ link := by rcases link with _ | _ | _ <;> exact ⟨rfl, .inl rfl⟩
  client _ _ link hp := by rcases link with _ | _ | _ <;> exact hp
  eventView _ _ _ link _ hv := by rcases link with _ | _ | _ <;> exact hv
  faultView _ _ _ link _ hv := by rcases link with _ | _ | _ <;> exact hv
  eventApart _ _ link _ := by rcases link with _ | _ | _ <;> rfl
  faultApart _ _ link _ := by rcases link with _ | _ | _ <;> rfl

def reader : SocketHandle × Descriptor Bool Unit :=
  (⟨2⟩, .new ⟨2⟩ true (.read ⟨.raw .new, false⟩) .empty)

/-- A socket that fails when it is read. -/
def failing : SocketHandle × Descriptor Bool Unit :=
  (⟨1⟩, .new ⟨1⟩ false (.read ⟨.raw .new, false⟩) .empty)

def refusing : SocketHandle × Descriptor Bool Unit :=
  (⟨3⟩, .new ⟨3⟩ false (.write ⟨[0], false⟩) .empty)

/-- A run with one hook, in which two bytes are still to come in. -/
def run (registry : Registry Bool Unit) : Run Surroundings Bool Unit Unit where
  registry := registry
  session :=
    { context := ⟨.empty, ⟨true, false⟩, [], ⟨4⟩⟩
      handlers := [()]
      policy := ()
      observing := false
      world := ([1, 2], 0)
      stopping := false
      dispatched := 0
      journal := [] }

def served (registry : Registry Bool Unit) (ready : Readiness) : List (Deed Bool Unit) :=
  (Run.ioStage host ready (run registry)).2.session.journal

theorem served_eq {registry : Registry Bool Unit} {ready : Readiness} {ending : Ending Halt Unit}
    {t : Run Surroundings Bool Unit Unit} {deeds : List (Deed Bool Unit)}
    (ht : Run.ioStage host ready (run registry) = (ending, t))
    (hj : t.session.journal = (run registry).session.journal ++ deeds) :
    served registry ready = deeds := by
  rw [served, ht]
  exact hj

def alone : Registry Bool Unit := ⟨[reader], by decide⟩

def crowded : Registry Bool Unit := ⟨[failing, reader, refusing], by decide⟩

def readerReady : Readiness := ⟨[⟨2⟩], []⟩

def allReady : Readiness := ⟨[⟨1⟩, ⟨2⟩], [⟨3⟩]⟩

def failures (deeds : List (Deed Bool Unit)) : List SocketHandle :=
  deeds.filterMap fun
    | .reported h _ _ _ => some h
    | _ => none

def messages (deeds : List (Deed Bool Unit)) : List (SocketHandle × Bytes) :=
  deeds.filterMap fun
    | .raised h _ (.read frame _) => some (h, frame.data)
    | _ => none

end Reactor.Neighbours

namespace Reactor.Run

variable {W S H P V : Type} {host : Host W S H P} {view : W → V} {Own : S → Prop}
  {h : SocketHandle}

/-- The stage ends, and it does for the socket of the handle what it does in any other run in which
that socket has the same before it and is ready for the same: whichever other sockets are ready, in
whatever order, and however they fail. If the socket is not ready, nothing is done for it. -/
theorem ioStage_undisturbed (hs : host.sockets.Secludes view Own)
    (hh : host.Impartial view Own h) {r r' : Run W S H P} (hr : r.Isolates Own h)
    (hr' : r'.Isolates Own h) (hget : r.registry.get? h = r'.registry.get? h)
    (hhandlers : r.session.handlers = r'.session.handlers)
    (hobserving : r.session.observing = r'.session.observing)
    (hview : view r.session.world = view r'.session.world) {ready ready' : Readiness}
    (hn : ready.read.Nodup ∧ ready.write.Nodup) (hn' : ready'.read.Nodup ∧ ready'.write.Nodup)
    (hread : h ∈ ready.read ↔ h ∈ ready'.read) (hwrite : h ∈ ready.write ↔ h ∈ ready'.write) :
    ∃ t t', ioStage host ready r = (.done (), t) ∧ ioStage host ready' r' = (.done (), t') ∧
      t.registry.get? h = t'.registry.get? h ∧ view t.session.world = view t'.session.world ∧
      ∃ deeds deeds', t.session.journal = r.session.journal ++ deeds ∧
        t'.session.journal = r'.session.journal ++ deeds' ∧
        concerning h deeds = concerning h deeds' ∧
        (h ∉ ready.read → h ∉ ready.write → t.registry.get? h = r.registry.get? h ∧
          view t.session.world = view r.session.world ∧ concerning h deeds = []) := by
  have htwins : Twins view Own h r.session.journal r'.session.journal r r' :=
    ⟨hr, hr', hget, hhandlers, hobserving, hview, [], [], (List.append_nil _).symm,
      (List.append_nil _).symm, rfl⟩
  obtain ⟨hother, hother'⟩ := serve_passesBy hs hh
  obtain ⟨hown, hown'⟩ := serve_sameFor hs hh
  obtain ⟨m, m', hm, hm', hmiddle⟩ := forEachActive_twins hother hown hn.1 hn'.1 hread htwins
  obtain ⟨t, t', ht, ht', hafter⟩ := forEachActive_twins hother' hown' hn.2 hn'.2 hwrite hmiddle
  obtain ⟨deeds, deeds', hj, hj', hdeeds⟩ := hafter.journal
  refine ⟨t, t', (Step.bind_of_done hm).trans ht, (Step.bind_of_done hm').trans ht', hafter.get,
    hafter.view, deeds, deeds', hj, hj', hdeeds, fun hnot hnot' => ?_⟩
  obtain ⟨n, hn, homits⟩ := forEachActive_omits hother hr hnot
  obtain rfl : n = m := congrArg Prod.snd (hn.symm.trans hm)
  obtain ⟨u, hu, homits'⟩ := forEachActive_omits hother' homits.isolates hnot'
  obtain rfl : u = t := congrArg Prod.snd (hu.symm.trans ht)
  have hskipped : r.Omits view Own h u := homits.trans homits'
  obtain ⟨more, hmore, hnone⟩ := hskipped.journal
  obtain rfl : more = deeds := List.append_cancel_left (hmore.symm.trans hj)
  exact ⟨hskipped.get, hskipped.view, hnone⟩

/-- The message that comes in for one socket is announced although others fail. -/
theorem ioStage_undisturbed_failing :
    concerning ⟨2⟩ (Neighbours.served Neighbours.crowded Neighbours.allReady) =
        concerning ⟨2⟩ (Neighbours.served Neighbours.alone Neighbours.readerReady) ∧
      Neighbours.messages (Neighbours.served Neighbours.crowded Neighbours.allReady) =
        [(⟨2⟩, [1, 2])] ∧
      Neighbours.failures (Neighbours.served Neighbours.crowded Neighbours.allReady) =
        [⟨1⟩, ⟨3⟩] := by
  have hcrowded : (Neighbours.run Neighbours.crowded).Isolates (· = true) ⟨2⟩ :=
    isolates_of_entries rfl (by decide)
  have halone : (Neighbours.run Neighbours.alone).Isolates (· = true) ⟨2⟩ :=
    isolates_of_entries rfl (by decide)
  have hall : Neighbours.allReady.read.Nodup ∧ Neighbours.allReady.write.Nodup := by decide
  have hreader : Neighbours.readerReady.read.Nodup ∧ Neighbours.readerReady.write.Nodup := by
    decide
  obtain ⟨t, t', ht, ht', -, -, deeds, deeds', hj, hj', hdeeds, -⟩ :=
    ioStage_undisturbed Neighbours.secludes (Neighbours.impartial ⟨2⟩) hcrowded halone rfl rfl rfl
      rfl hall hreader (by decide) (by decide)
  refine ⟨?_, by decide +kernel, by decide +kernel⟩
  rw [Neighbours.served_eq ht hj, Neighbours.served_eq ht' hj', hdeeds]

end Reactor.Run
