import Reactor.Proofs.Run.Ownership

/-! The journal of a run tells the truth. Whatever it records was asked of the surroundings, of the
sockets that the run held at that moment, and nothing else was. -/

namespace Reactor

variable {W S H P : Type} {host : Host W S H P}

namespace Visit

variable {v v' v'' : Visit W S H P}

/-- The scene of a visit, given the other sockets that are registered. -/
def scene (v : Visit W S H P) (others : SocketHandle → Option S) : Scene W S :=
  v.session.scene (Function.update others v.descriptor.handle (some v.descriptor.socket))

/-- The visit goes on as the journal tells, whatever else is registered. -/
structure Plays (host : Host W S H P) (v v' : Visit W S H P) : Prop where
  handle : v'.descriptor.handle = v.descriptor.handle
  enacted : ∃ deeds, v'.session.journal = v.session.journal ++ deeds ∧
    ∀ others, (v.scene others).Enacted host deeds (v'.scene others)

theorem Plays.refl (v : Visit W S H P) : v.Plays host v :=
  ⟨rfl, [], (List.append_nil _).symm, fun _ => .nil _⟩

theorem Plays.trans (h : v.Plays host v') (h' : v'.Plays host v'') : v.Plays host v'' := by
  obtain ⟨deeds, hj, he⟩ := h.enacted
  obtain ⟨more, hj', he'⟩ := h'.enacted
  exact ⟨h'.handle.trans h.handle, deeds ++ more, by rw [hj', hj, List.append_assoc],
    fun others => (he others).append (he' others)⟩

/-- What is done to the session alone leaves the visited socket as it is. -/
theorem Plays.of_session (h : v.session.Plays host v'.session)
    (hhandle : v'.descriptor.handle = v.descriptor.handle)
    (hsocket : v'.descriptor.socket = v.descriptor.socket) : v.Plays host v' := by
  obtain ⟨deeds, hj, he⟩ := h
  refine ⟨hhandle, deeds, hj, fun others => ?_⟩
  rw [scene, scene, hhandle, hsocket]
  exact he _

end Visit

/-- A registered socket goes on as another one. -/
theorem Session.update_held (s : Session W S H P) (registered : SocketHandle → Option S)
    (h : SocketHandle) (socket : S) :
    Function.update (s.scene registered).held h (some socket) =
      (s.scene (Function.update registered h (some socket))).held := by
  funext k
  by_cases hk : k = h
  · subst hk
    simp [scene]
  · simp [scene, hk]

/-- A registered socket is not held any more once it is taken out, unless it is queued, too. -/
theorem Session.release_held (s : Session W S H P) (registered : SocketHandle → Option S)
    {h : SocketHandle} (hq : awaiting s.context.changes h = none) :
    Function.update (s.scene registered).held h none =
      (s.scene (Function.update registered h none)).held := by
  funext k
  by_cases hk : k = h
  · subst hk
    simp [scene, hq]
  · simp [scene, hk]

namespace Visit

variable {v v' v'' : Visit W S H P}

theorem scene_held (v : Visit W S H P) (others : SocketHandle → Option S) :
    (v.scene others).held v.descriptor.handle = some v.descriptor.socket := by
  simp [scene, Session.scene]

theorem Quiet.plays (h : v.Quiet host v') : v.Plays host v' := by
  cases h with
  | rework h => exact .of_session (.refl _) h.handle h.socket
  | @call _ call answer operation ha =>
      refine ⟨rfl, [.called v.descriptor.handle v.descriptor.standing call], ?_, fun others => ?_⟩
      · simp [Session.note]
      · have he : (v.scene others).Enacts host
            (.called v.descriptor.handle v.descriptor.standing call) _ :=
          .called (v.scene_held others) ha
        rw [scene, Session.update_held, Function.update_idem] at he
        rw [scene, scene, Session.scene_note]
        exact he.enacted
  | dismiss client => exact .of_session (.of_world false fun _ => .dismissed _ client) rfl rfl

theorem Move.plays (h : v.Move host v') : v.Plays host v' := by
  have hdispatch : ∀ (w : Visit W S H P) payload, w.Plays host (dispatch host payload w).2 := by
    intro w payload
    obtain ⟨-, -, -, m, own, hd⟩ := dispatch_advances host payload w
    exact .of_session (dispatch_plays host payload w) (by rw [hd]) (by rw [hd])
  cases h with
  | quiet h => exact h.plays
  | announce _ =>
      have hset : v.Plays host { v with
          descriptor := v.descriptor.mapMetadata fun m => { m with connectFinish := true } } :=
        .of_session (.refl _) rfl rfl
      exact hset.trans (hdispatch _ _)
  | raise payload _ _ => exact hdispatch v payload
  | report error event =>
      obtain ⟨-, -, -, own, hd⟩ := dispatchFault_advances host error event v
      exact .of_session (dispatchFault_plays host error event v) (by rw [hd]) (by rw [hd])

theorem Moves.plays (h : v.Moves host v') : v.Plays host v' := by
  induction h with
  | refl => exact .refl v
  | tail _ hmove ih => exact ih.trans hmove.plays

/-! ## Taking leave -/

theorem notify_plays (host : Host W S H P) (payload : Payload S) (v : Visit W S H P) :
    v.session.Plays host (notify host payload v).2.session := by
  have hdispatch := dispatch_plays host payload v
  rcases notify_apply host payload v with ⟨error, -, heq⟩ | ⟨ending, -, heq⟩
  · rw [heq]
    dsimp only
    exact hdispatch.trans (dispatchFault_plays host error _ _)
  · rw [heq]
    exact hdispatch

theorem farewell_plays (host : Host W S H P) (v : Visit W S H P) :
    v.Plays host (v.farewell host).2 := by
  unfold farewell
  split
  · obtain ⟨-, -, -, m, own, hd⟩ := notify_deeds host .disconnected v
    exact .of_session (notify_plays host _ v) (by rw [hd]) (by rw [hd])
  · exact .refl v

/-- A handle that was given out before does not come to be queued while it is told. -/
theorem farewell_queue (host : Host W S H P) {v : Visit W S H P} {h : SocketHandle}
    (hq : h ∉ enrolling v.session.context.changes)
    (hn : h.number < v.session.context.nextHandle.number) :
    h ∉ enrolling (v.farewell host).2.session.context.changes := by
  unfold farewell
  split
  · obtain ⟨deeds, -, hadv, -⟩ := notify_deeds host .disconnected v
    rw [hadv.changes, enrolling_append, List.mem_append]
    rintro (hh | hh)
    · exact hq hh
    · exact absurd (le_of_mem_enrolling_queueOf hh) (Nat.not_le.2 hn)
  · exact hq

/-- The closing of the visited socket is the closing of the socket that is held. -/
theorem closed_enacts (host : Host W S H P) {v : Visit W S H P}
    (hq : v.descriptor.handle ∉ enrolling v.session.context.changes)
    (others : SocketHandle → Option S) :
    (v.scene others).Enacts host (.closed v.descriptor.handle)
      ((v.closed host).session.scene (Function.update others v.descriptor.handle none)) := by
  have he : (v.scene others).Enacts host (.closed v.descriptor.handle) _ :=
    .closed (v.scene_held others)
  have hclosed : (v.closed host).session = ({ v.session with
      world := (host.sockets.close v.session.world v.descriptor.socket).2 }.stopIf false).note
        (.closed v.descriptor.handle) := rfl
  rw [Scene.without, scene, Session.release_held _ _ (awaiting_of_not_enrolling hq),
    Function.update_idem] at he
  rw [hclosed, Session.scene_note]
  exact he

/-- The socket is held until it is closed, and not any more when it has its last event. -/
theorem takeLeave_enacted (host : Host W S H P) {v : Visit W S H P}
    (hq : v.descriptor.handle ∉ enrolling v.session.context.changes)
    (hn : v.descriptor.handle.number < v.session.context.nextHandle.number)
    (hc : (takeLeave host v).1 ≠ .crashed) : ∃ deeds,
      (takeLeave host v).2.session.journal = v.session.journal ++ deeds ∧
      ∀ others, (v.scene others).Enacted host deeds ((takeLeave host v).2.session.scene
        (Function.update others v.descriptor.handle none)) := by
  have hfarewell : (v.farewell host).1 ≠ .crashed := fun hcrash =>
    hc (by rw [takeLeave_of_crashed hcrash, hcrash])
  rw [takeLeave_apply hfarewell, finale]
  have hplays := farewell_plays host v
  have hqueue := farewell_queue host hq hn
  obtain ⟨deeds, hj, he⟩ := hplays.enacted
  obtain ⟨more, hj', he'⟩ := notify_plays host .finalize ((v.farewell host).2.closed host)
  rw [← hplays.handle] at hqueue
  refine ⟨deeds ++ .closed (v.farewell host).2.descriptor.handle :: more, ?_, fun others => ?_⟩
  · rw [hj', (advances_closed host _).journal, hj]
    simp
  · refine (he others).append (.cons (closed_enacts host hqueue others) ?_)
    rw [hplays.handle]
    exact he' _

end Visit

/-! ## The moves of a run -/

namespace Registry

variable {r : Registry S H} {h : SocketHandle} {d : Descriptor S H}

theorem sockets_of_some (hd : HandleMap.get? r h = some d) : r.sockets h = some d.socket := by
  rw [sockets, hd]
  rfl

/-- The descriptor of a handle has been replaced. -/
theorem sockets_modify (hd : HandleMap.get? r h = some d) (d' : Descriptor S H) :
    Registry.sockets (HandleMap.modify r h fun _ => d') =
      Function.update r.sockets h (some d'.socket) := by
  funext k
  by_cases hk : k = h
  · subst hk
    simp [sockets, hd]
  · simp [sockets, hk]

theorem sockets_erase (r : Registry S H) (h : SocketHandle) :
    Registry.sockets (HandleMap.erase r h) = Function.update r.sockets h none := by
  funext k
  by_cases hk : k = h
  · subst hk
    simp [sockets, HandleMap.get?_erase]
  · simp [sockets, HandleMap.get?_erase, hk]

theorem sockets_map {f : SocketHandle → Descriptor S H → Descriptor S H}
    (hf : ∀ h d, (f h d).socket = d.socket) : Registry.sockets (HandleMap.map r f) = r.sockets := by
  funext k
  rw [sockets, HandleMap.get?_map, Option.map_map]
  exact congrFun (congrArg Option.map (funext fun d => hf k d)) _

theorem sockets_rework {f : Descriptor S H → Descriptor S H}
    (hf : ∀ d : Descriptor S H, d.Reworked (f d)) :
    Registry.sockets (HandleMap.modify r h f) = r.sockets := by
  refine sockets_map fun k d => ?_
  split
  · exact (hf d).socket
  · rfl

/-- A change leaves the registered sockets as they are, and may add one. -/
theorem sockets_apply (r : Registry S H) (c : Change S) (k : SocketHandle) :
    (r.apply c).sockets k = (r.sockets k).or (awaiting [c] k) := by
  cases c with
  | register g =>
      rw [awaiting_register]
      rcases hg : HandleMap.get? r g.handle with _ | d
      · rw [apply_register_new hg, sockets, HandleMap.get?_insert hg]
        by_cases hk : k = g.handle
        · subst hk
          simp [sockets, hg, Registration.descriptor, Descriptor.new]
        · simp [sockets, hk, Ne.symm hk, awaiting]
      · rw [apply_register_known hg, sockets_rework fun d => d.reworked_setOperation _]
        by_cases hk : k = g.handle
        · subst hk
          simp [sockets_of_some hg]
        · simp [Ne.symm hk, awaiting]
  | deregister h =>
      rw [apply, sockets_rework Descriptor.reworked_markComplete]
      exact (Option.or_none).symm
  | setOperation h operation =>
      rw [apply, sockets_rework fun d => ?_]
      · exact (Option.or_none).symm
      · split
        · exact .refl d
        · exact d.reworked_setOperation _

/-- The sockets that are registered once the changes are applied were held before. -/
theorem sockets_foldl_apply (changes : List (Change S)) (k : SocketHandle) :
    ∀ r : Registry S H,
      (changes.foldl apply r).sockets k = (r.sockets k).or (awaiting changes k) := by
  induction changes with
  | nil => exact fun r => (Option.or_none).symm
  | cons c rest ih =>
      intro r
      have hsplit : awaiting (c :: rest) k = (awaiting [c] k).or (awaiting rest k) :=
        awaiting_append [c] rest k
      rw [List.foldl_cons, ih, sockets_apply, hsplit, Option.or_assoc]

end Registry

/-- A verdict is asked of the policy as the journal tells. -/
theorem Session.decide_plays (host : Host W S H P) (s : Session W S H P) (d : Descriptor S H) :
    s.Plays host (s.decide host d).2 := by
  rcases hv : host.policy.decide s.world s.policy d s.context.context
    with ⟨decision, policy, world, stop⟩
  have hworld : Plays host { s with policy := policy } (({ s with
      policy := policy, world := world }.stopIf stop).note (.decided d.handle decision)) := by
    refine .of_world stop fun registered => ?_
    have he : (s.scene registered).Enacts host _ _ := .decided s.policy d s.context.context
    rw [show (s.scene registered).world = s.world from rfl, hv] at he
    exact he
  simp only [decide, hv]
  exact hworld

theorem AdmissionPass.consider_plays (host : Host W S H P) (pass : AdmissionPass W S H P)
    (d : Descriptor S H) : pass.session.Plays host (pass.consider host d).2.session := by
  unfold consider
  split
  · exact .refl _
  split
  · exact .refl _
  split
  · exact .refl _
  have hask : (pass.ask host d).2.session = (pass.session.decide host d).2 := by
    unfold ask
    rcases pass.session.decide host d with ⟨decision, session⟩
    cases decision <;> rfl
  rw [hask]
  exact pass.session.decide_plays host d

namespace Run

variable {r r' r'' start : Run W S H P} {h : SocketHandle} {d : Descriptor S H}

def Plays (host : Host W S H P) (r r' : Run W S H P) : Prop :=
  ∃ deeds, r'.session.journal = r.session.journal ++ deeds ∧ r.scene.Enacted host deeds r'.scene

theorem Plays.refl (r : Run W S H P) : r.Plays host r :=
  ⟨[], (List.append_nil _).symm, .nil _⟩

theorem Plays.trans (h : r.Plays host r') (h' : r'.Plays host r'') : r.Plays host r'' := by
  obtain ⟨deeds, hj, he⟩ := h
  obtain ⟨more, hj', he'⟩ := h'
  exact ⟨deeds ++ more, by rw [hj', hj, List.append_assoc], he.append he'⟩

/-- Whatever the journal has grown by was done. -/
theorem Plays.enacted (h : r.Plays host r') {deeds : List (Deed S H)}
    (hj : r'.session.journal = r.session.journal ++ deeds) :
    r.scene.Enacted host deeds r'.scene := by
  obtain ⟨made, hmade, he⟩ := h
  obtain rfl := List.append_cancel_left (hmade.symm.trans hj)
  exact he

/-- What is done to the session alone leaves the registered sockets as they are. -/
theorem Plays.of_session (h : r.session.Plays host r'.session)
    (hr : r'.registry.sockets = r.registry.sockets) : r.Plays host r' := by
  obtain ⟨deeds, hj, he⟩ := h
  refine ⟨deeds, hj, ?_⟩
  rw [scene, scene, hr]
  exact he _

/-- The scene of a run in which a socket is visited. -/
theorem scene_of_some (hk : r.registry.Keyed) (hd : r.registry.get? h = some d) :
    r.scene = Visit.scene ⟨d, r.session⟩ r.registry.sockets := by
  have hsocket := Registry.sockets_of_some hd
  rw [Run.scene, Visit.scene, hk h d hd, ← hsocket, Function.update_eq_self]

theorem visit_plays {ε : Type} {x : Step (Visit W S H P) ε Unit} (hx : Step.Works host x)
    (hk : r.registry.Keyed) (hd : r.registry.get? h = some d) :
    r.Plays host (visit h x r).2 := by
  obtain ⟨hhandle, deeds, hj, he⟩ := (hx.moves ⟨d, r.session⟩).plays
  rw [visit_of_some x hd]
  refine ⟨deeds, hj, ?_⟩
  have hlast := he r.registry.sockets
  rw [← scene_of_some hk hd, Visit.scene, hhandle, hk h d hd,
    ← Registry.sockets_modify hd] at hlast
  exact hlast

theorem disconnect_plays (hk : r.registry.Keyed) (hd : r.registry.get? h = some d)
    (hq : h ∉ enrolling r.session.context.changes)
    (hn : h.number < r.session.context.nextHandle.number)
    (hc : (disconnect host h r).1 ≠ .crashed) : r.Plays host (disconnect host h r).2 := by
  rw [disconnect_of_some hd] at hc ⊢
  rw [← hk h d hd] at hq hn
  obtain ⟨deeds, hj, he⟩ := Visit.takeLeave_enacted host (v := ⟨d, r.session⟩) hq hn hc
  refine ⟨deeds, hj, ?_⟩
  have hlast := he r.registry.sockets
  rw [← scene_of_some hk hd, hk h d hd, ← Registry.sockets_erase] at hlast
  exact hlast

theorem admitted_plays (host : Host W S H P) (r : Run W S H P) :
    r.Plays host (r.admitted host) := by
  refine .of_session ?_ (funext fun h => ?_)
  · let I (pass : AdmissionPass W S H P) : Prop := r.session.Plays host pass.session
    have hstart : I ⟨false, [], r.session⟩ := .refl _
    exact HandleMap.traverse_keeps (fun pass d hp => hp.trans (pass.consider_plays host d)) hstart
  · rcases hd' : (r.admitted host).registry.get? h with _ | d'
    · have hd : r.registry.get? h = none := by
        rwa [HandleMap.get?_eq_none, keys_admitted, ← HandleMap.get?_eq_none] at hd'
      rw [Registry.sockets, Registry.sockets, hd, hd']
    · obtain ⟨d, hd, running, postponed, rfl, -⟩ := admitted_considered r hd'
      rw [Registry.sockets_of_some hd, Registry.sockets_of_some hd']

theorem selectStage_plays (host : Host W S H P) (timeout : Duration)
    (admitted : List SocketHandle) (r : Run W S H P) :
    r.Plays host (selectStage host timeout admitted r).2 := by
  unfold selectStage
  dsimp only
  split
  · exact .refl r
  · exact .of_session (.of_world _ fun _ => .selected _ timeout) rfl

theorem scene_applied (r : Run W S H P) : r.applied.scene = r.scene := by
  have hheld : r.applied.scene.held = r.scene.held := by
    funext k
    show (Registry.sockets (r.session.context.changes.foldl Registry.apply r.registry) k).or
      none = _
    rw [Option.or_none, Registry.sockets_foldl_apply]
    rfl
  exact Scene.ext rfl hheld rfl

/-- No two sockets of the run have the same handle. -/
structure Distinct (r : Run W S H P) : Prop where
  keyed : r.registry.Keyed
  queued : (enrolling r.session.context.changes).Nodup
  apart : ∀ h ∈ enrolling r.session.context.changes, h ∉ r.registry.keys

theorem Distinct.finished (hr : r.Distinct) : (finishPolicy host r).Distinct :=
  ⟨hr.keyed, hr.queued, hr.apart⟩

section Accounted

variable (ha : start.Accounted r)
  (hs : ∀ h ∈ start.registry.keys, h.number < start.session.context.nextHandle.number)

include ha hs

theorem Accounted.distinct : r.Distinct := by
  have honce := ha.total_le_one hs
  refine ⟨ha.keyed, List.nodup_iff_count_le_one.2 fun h => ?_, fun h hq hmem => ?_⟩
  · have := honce h
    omega
  · have := honce h
    have := List.count_pos_iff.2 hq
    have := List.count_pos_iff.2 hmem
    omega

theorem Serves.plays (h : r.Serves host r') : r.Plays host r' := by
  cases h with
  | visited duty hd hc hr => exact visit_plays duty.work_works ha.keyed hd
  | selected timeout admitted => exact selectStage_plays host timeout admitted r
  | @left h d hd hc hl =>
      have hmem : h ∈ r.registry.keys := HandleMap.mem_keys.2 ⟨d, hd⟩
      exact disconnect_plays ha.keyed hd (fun hq => (ha.distinct hs).apart h hq hmem)
        (ha.lt_nextHandle hs hmem) hl

/-- Every move of a run is recorded as it is made. -/
theorem Move.plays (h : r.Move host r') : r.Plays host r' := by
  cases h with
  | applied => exact ⟨[], (List.append_nil _).symm, scene_applied r ▸ .nil _⟩
  | admitted => exact admitted_plays host r
  | served h => exact h.plays ha hs
  | leavingOff => exact .of_session ⟨[], (List.append_nil _).symm, fun _ => .nil _⟩ rfl
  | dismissed =>
      exact .of_session (.refl _) (Registry.sockets_map fun _ d => d.reworked_markComplete.socket)
  | reported h =>
      obtain ⟨error, hd⟩ := h
      exact visit_plays (Visit.reportFailure_works error) ha.keyed hd

theorem Moves.plays (h : r.Moves host r') : r.Plays host r' := by
  induction h with
  | refl => exact .refl r
  | tail hm hmove ih => exact ih.trans (hmove.plays (ha.moves hs hm) hs)

end Accounted

/-! ## The end of a run -/

/-- Sockets are closed one after the other, each of them held under a handle of its own. -/
theorem foldl_closeSocket_enacted {γ : Type} (host : Host W S H P) (handle : γ → SocketHandle)
    (socket : γ → S) (next : SocketHandle) (l : List γ) :
    ∀ (s : Session W S H P) (held : SocketHandle → Option S), (l.map handle).Nodup →
      (∀ x ∈ l, held (handle x) = some (socket x)) →
        Scene.Enacted host ⟨s.world, held, next⟩ ((l.map handle).map .closed)
          ⟨(l.foldl (fun s x => closeSocket host s (handle x) (socket x)) s).world,
            fun h => if h ∈ l.map handle then none else held h, next⟩ := by
  induction l with
  | nil => exact fun _ _ _ _ => .nil _
  | cons x rest ih =>
      intro s held hn hheld
      obtain ⟨hx, hrest⟩ := List.nodup_cons.1 hn
      have hfirst : Scene.Enacts host ⟨s.world, held, next⟩ (.closed (handle x)) _ :=
        .closed (hheld x List.mem_cons_self)
      have hlater : ∀ y ∈ rest,
          Function.update held (handle x) none (handle y) = some (socket y) := by
        intro y hy
        have hne : handle y ≠ handle x := fun h => hx (h ▸ List.mem_map_of_mem hy)
        rw [Function.update_of_ne hne]
        exact hheld y (List.mem_cons_of_mem _ hy)
      have hgone : (fun h => if h ∈ rest.map handle then none else
          Function.update held (handle x) none h) =
            fun h => if h ∈ (x :: rest).map handle then none else held h := by
        funext h
        by_cases hh : h = handle x
        · subst hh
          simp
        · simp [hh]
      have hothers := ih (closeSocket host s (handle x) (socket x)) _ hrest hlater
      rw [hgone] at hothers
      exact .cons hfirst hothers

theorem world_closeAll (host : Host W S H P) (r : Run W S H P) :
    (closeAll host r).session.world =
      ((r.session.context.changes.filterMap Change.registration?).foldl
        (fun s g => closeSocket host s g.handle g.socket)
        (r.registry.values.foldl (fun s d => closeSocket host s d.handle d.socket)
          r.session)).world := by
  obtain ⟨-, hcontext⟩ := foldl_closeSocket host (fun d : Descriptor S H => d.handle) (·.socket)
    r.registry.values r.session
  simp only [closeAll, clearChanges, hcontext]

/-- At the end nothing is held any more. -/
theorem scene_closeAll (host : Host W S H P) (r : Run W S H P) : (closeAll host r).scene =
    ⟨(closeAll host r).session.world, fun _ => none, r.session.context.nextHandle⟩ := by
  have hcontext := context_closeAll host r
  refine Scene.ext rfl (funext fun k => ?_) ?_
  · show none.or (awaiting (closeAll host r).session.context.changes k) = none
    rw [hcontext]
    rfl
  · show (closeAll host r).session.context.nextHandle = _
    rw [hcontext]

/-- Only what is registered or queued is held. -/
theorem held_eq_none {h : SocketHandle} (hfree : h ∉ r.registry.keys)
    (hq : h ∉ enrolling r.session.context.changes) : r.scene.held h = none := by
  show (r.registry.sockets h).or (awaiting r.session.context.changes h) = none
  rw [Registry.sockets, HandleMap.get?_eq_none.2 hfree, awaiting_of_not_enrolling hq]
  rfl

/-- What is registered is held under the handle of its descriptor. -/
theorem Distinct.held_registered (hr : r.Distinct) {d : Descriptor S H}
    (hd : d ∈ r.registry.values) : r.scene.held d.handle = some d.socket := by
  obtain ⟨h, hget⟩ := HandleMap.mem_values.1 hd
  show (r.registry.sockets d.handle).or _ = _
  rw [hr.keyed h d hget, Registry.sockets_of_some hget]
  rfl

/-- What is queued is held under the handle that it was given. -/
theorem Distinct.held_queued (hr : r.Distinct) {g : Registration S}
    (hg : g ∈ r.session.context.changes.filterMap Change.registration?) :
    r.scene.held g.handle = some g.socket := by
  have hfree := hr.apart g.handle (List.mem_map_of_mem hg)
  show (r.registry.sockets g.handle).or (awaiting r.session.context.changes g.handle) = _
  rw [Registry.sockets, HandleMap.get?_eq_none.2 hfree, awaiting_of_mem hr.queued hg]
  rfl

/-- Whatever a run still holds at its end is closed, and then it holds nothing. -/
theorem closeAll_plays (host : Host W S H P) (hr : r.Distinct) :
    r.Plays host (closeAll host r) := by
  have hregistered := foldl_closeSocket_enacted host (fun d : Descriptor S H => d.handle) (·.socket)
    r.scene.next r.registry.values r.session r.scene.held
    (handles_of_keyed hr.keyed ▸ HandleMap.nodup_keys _) fun d hd => hr.held_registered hd
  rw [handles_of_keyed hr.keyed] at hregistered
  have hqueued := foldl_closeSocket_enacted host (fun g : Registration S => g.handle) (·.socket)
    r.scene.next (r.session.context.changes.filterMap Change.registration?)
    (r.registry.values.foldl (fun s d => closeSocket host s d.handle d.socket) r.session)
    (fun h => if h ∈ r.registry.keys then none else r.scene.held h)
    hr.queued fun g hg => by
      rw [if_neg (hr.apart _ (List.mem_map_of_mem hg))]
      exact hr.held_queued hg
  have hnone : (fun h => if h ∈ enrolling r.session.context.changes then none else
      if h ∈ r.registry.keys then none else r.scene.held h) = fun _ => none := by
    funext h
    split_ifs with hq hk
    · rfl
    · rfl
    · exact held_eq_none hk hq
  refine ⟨_, journal_closeAll host r, ?_⟩
  rw [scene_closeAll, world_closeAll, ← hnone, handles_of_keyed hr.keyed, List.map_append]
  exact hregistered.append hqueued

theorem startPolicy_plays (host : Host W S H P) (r : Run W S H P) :
    r.Plays host (startPolicy host r) := by
  rcases hv : host.policy.atStart r.session.world r.session.policy r.session.context.context
    with ⟨policy, context, world⟩
  refine .of_session ?_ rfl
  simp only [startPolicy, hv]
  refine .of_note rfl fun registered => ?_
  have he : (r.session.scene registered).Enacts host _ _ :=
    .policyStarted r.session.policy r.session.context.context
  rw [show (r.session.scene registered).world = r.session.world from rfl, hv] at he
  exact he

theorem finishPolicy_plays (host : Host W S H P) (r : Run W S H P) :
    r.Plays host (finishPolicy host r) := by
  rcases hv : host.policy.atFinish r.session.world r.session.policy r.session.context.context
    with ⟨policy, context, world⟩
  refine .of_session ?_ rfl
  simp only [finishPolicy, hv]
  refine .of_note rfl fun registered => ?_
  have he : (r.session.scene registered).Enacts host _ _ :=
    .policyFinished r.session.policy r.session.context.context
  rw [show (r.session.scene registered).world = r.session.world from rfl, hv] at he
  exact he

/-- The end of a run is recorded as it comes. -/
theorem Ends.plays {ending : Ending RunFailure Unit} (h : r.Ends host ending r')
    (hr : r.Distinct) (hc : ending ≠ .crashed) : r.Plays host r' := by
  cases h with
  | well => exact (finishPolicy_plays host r).trans (closeAll_plays host hr.finished)
  | failed text => exact (closeAll_plays host hr).trans (finishPolicy_plays host _)
  | unfinished => exact .refl r
  | crashed => exact absurd rfl hc
  | abandoned => exact absurd rfl hc

/-- From any moment on a run is recorded as it goes on to its end. -/
theorem Moves.plays_end {last : Run W S H P} {ending : Ending RunFailure Unit}
    (ha : start.Accounted r)
    (hs : ∀ h ∈ start.registry.keys, h.number < start.session.context.nextHandle.number)
    (hm : r.Moves host last) (hend : last.Ends host ending r') (hc : ending ≠ .crashed) :
    r.Plays host r' :=
  (Moves.plays ha hs hm).trans (hend.plays ((ha.moves hs hm).distinct hs) hc)

end Run

end Reactor
