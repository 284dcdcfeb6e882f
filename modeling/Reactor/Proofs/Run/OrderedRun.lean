import Reactor.Proofs.Run.Order

/-! The events of all sockets are in order along a whole run. -/

namespace Reactor

variable {W S H P : Type} {host : Host W S H P}

/-- The deed registers only sockets whose connection has not been established. -/
def Deed.AsksFresh (deed : Deed S H) : Prop :=
  ∀ socket operation metadata, .register socket operation metadata ∈ deed.requests →
    metadata.connectFinish = false

theorem Deed.asksFresh_of_nil {deed : Deed S H} (hd : deed.requests = []) : deed.AsksFresh := by
  intro socket operation metadata hmem
  rw [hd] at hmem
  cases hmem

theorem Deed.IsWork.asksFresh (hf : host.RegistersFresh) {h : SocketHandle} {running : Bool}
    {deed : Deed S H} (hd : deed.IsWork host h running) : deed.AsksFresh := by
  cases deed with
  | heard => exact hf _ hd.2
  | _ => exact asksFresh_of_nil rfl

theorem Deed.IsLast.asksFresh (hf : host.RegistersFresh) {h : SocketHandle} {kind : EventKind}
    {deed : Deed S H} (hd : deed.IsLast host h kind) : deed.AsksFresh := by
  cases deed with
  | heard => exact hf _ hd.2
  | _ => exact asksFresh_of_nil rfl

theorem Deed.IsAside.asksFresh {deed : Deed S H} (hd : deed.IsAside) : deed.AsksFresh := by
  cases deed with
  | decided | selected => exact asksFresh_of_nil rfl
  | _ => exact hd.elim

theorem Deed.IsAside.notice? {deed : Deed S H} (hd : deed.IsAside) (h : SocketHandle) :
    deed.notice? h = none := by
  cases deed with
  | decided | selected => rfl
  | _ => exact hd.elim

theorem Leavetaking.asksFresh (hf : host.RegistersFresh) {d : Descriptor S H}
    {deeds : List (Deed S H)} (hl : Leavetaking host d deeds) : ∀ deed ∈ deeds, deed.AsksFresh := by
  intro deed hd
  obtain rfl | ⟨kind, -, hlast⟩ := hl.closed_or_isLast hd
  · exact Deed.asksFresh_of_nil rfl
  · exact hlast.asksFresh hf

theorem Descriptor.Reworked.stage {d d' : Descriptor S H} (h : d.Reworked d') :
    d'.stage = d.stage := by
  unfold Descriptor.stage
  rw [h.connectFinish]

namespace Run

/-- The events of every socket are in order, and have brought the registered ones to their present
stage. Of a socket that is not registered yet nothing has been heard. -/
structure Orderly (r : Run W S H P) : Prop where
  registered : ∀ h d, r.registry.get? h = some d →
    Stage.fresh.after? (notices h r.session.journal) = some d.stage
  accepted : ∀ h, ∃ t, Stage.fresh.after? (notices h r.session.journal) = some t
  born : ∀ h, notices h r.session.journal ≠ [] →
    h ∈ r.registry.keys ∨ 0 < closings h r.session.journal
  queued : ∀ g, .register g ∈ r.session.context.changes → g.metadata.connectFinish = false

variable {start r r' : Run W S H P} {deeds : List (Deed S H)}

theorem Orderly.queued_advance (ho : r.Orderly) (hadv : r.session.Advances deeds r'.session)
    (hf : ∀ deed ∈ deeds, deed.AsksFresh) (g : Registration S)
    (hg : .register g ∈ r'.session.context.changes) : g.metadata.connectFinish = false := by
  rw [hadv.changes, List.mem_append] at hg
  rcases hg with hg | hg
  · exact ho.queued g hg
  · obtain ⟨deed, hd, hmem⟩ := List.mem_flatMap.1 (mem_queueOf hg)
    exact hf deed hd _ _ _ hmem

/-- Deeds of which the chain hears nothing leave the order as it is. -/
theorem Orderly.unheard (ho : r.Orderly) (hj : r'.session.journal = r.session.journal ++ deeds)
    (hn : ∀ h, notices h deeds = [])
    (hr : ∀ h d', r'.registry.get? h = some d' →
      ∃ d, r.registry.get? h = some d ∧ d'.stage = d.stage)
    (hk : ∀ h ∈ r.registry.keys, h ∈ r'.registry.keys)
    (hq : ∀ g, .register g ∈ r'.session.context.changes → g.metadata.connectFinish = false) :
    r'.Orderly := by
  have hsame : ∀ h, notices h r'.session.journal = notices h r.session.journal := fun h => by
    rw [hj, notices_append, hn, List.append_nil]
  refine ⟨fun h d' hd' => ?_, fun h => ?_, fun h hne => ?_, hq⟩
  · obtain ⟨d, hd, hstage⟩ := hr h d' hd'
    rw [hsame, hstage]
    exact ho.registered h d hd
  · rw [hsame]
    exact ho.accepted h
  · rw [hsame] at hne
    refine (ho.born h hne).imp (hk h) fun hc => ?_
    rw [hj, closings_append]
    omega

/-- What is heard of one socket does not touch the others. -/
theorem Orderly.heard (ho : r.Orderly) (hadv : r.session.Advances deeds r'.session)
    {h : SocketHandle} (hn : ∀ k, h ≠ k → notices k deeds = [])
    (hr : ∀ k, k ≠ h → r'.registry.get? k = r.registry.get? k)
    (hd : ∀ d, r'.registry.get? h = some d →
      Stage.fresh.after? (notices h r'.session.journal) = some d.stage)
    (ha : ∃ t, Stage.fresh.after? (notices h r'.session.journal) = some t)
    (hb : h ∈ r'.registry.keys ∨ 0 < closings h r'.session.journal)
    (hf : ∀ deed ∈ deeds, deed.AsksFresh) : r'.Orderly := by
  have hsame : ∀ k, k ≠ h → notices k r'.session.journal = notices k r.session.journal :=
    fun k hne => by rw [hadv.journal, notices_append, hn k hne.symm, List.append_nil]
  refine ⟨fun k d' hd' => ?_, fun k => ?_, fun k hne => ?_, ho.queued_advance hadv hf⟩
  · by_cases hk : k = h
    · subst hk
      exact hd d' hd'
    · rw [hr k hk] at hd'
      rw [hsame k hk]
      exact ho.registered k d' hd'
  · by_cases hk : k = h
    · subst hk
      exact ha
    · rw [hsame k hk]
      exact ho.accepted k
  · by_cases hk : k = h
    · subst hk
      exact hb
    · rw [hsame k hk] at hne
      refine (ho.born k hne).imp (fun hmem => ?_) fun hc => ?_
      · rw [HandleMap.mem_keys] at hmem ⊢
        rw [hr k hk]
        exact hmem
      · rw [hadv.journal, closings_append]
        omega

/-- A socket whose registration is queued has not been heard of. -/
theorem Orderly.queued_unheard (ho : r.Orderly) (ha : start.Accounted r)
    (hs : ∀ h ∈ start.registry.keys, h.number < start.session.context.nextHandle.number)
    {g : Registration S} (hg : .register g ∈ r.session.context.changes) :
    notices g.handle r.session.journal = [] := by
  by_contra hne
  have hqueued : 0 < (enrolling r.session.context.changes).count g.handle := by
    refine List.count_pos_iff.2 (List.mem_map.2 ⟨g, ?_, rfl⟩)
    exact List.mem_filterMap.2 ⟨_, hg, rfl⟩
  have hone := ha.total_le_one hs g.handle
  rcases ho.born g.handle hne with hmem | hclosed
  · have := List.count_pos_iff.2 hmem
    omega
  · omega

theorem Orderly.applied (ho : r.Orderly) (ha : start.Accounted r)
    (hs : ∀ h ∈ start.registry.keys, h.number < start.session.context.nextHandle.number) :
    r.applied.Orderly := by
  let I (registry : Registry S H) (changes : List (Change S)) : Prop :=
    (∀ c ∈ changes, c ∈ r.session.context.changes) ∧
      ∀ h d, HandleMap.get? registry h = some d →
        Stage.fresh.after? (notices h r.session.journal) = some d.stage
  have hkeep : ∀ registry c rest, I registry (c :: rest) → I (registry.apply c) rest := by
    rintro registry c rest ⟨hsub, hreg⟩
    refine ⟨fun c' hc' => hsub c' (List.mem_cons_of_mem _ hc'), fun h d' hd' => ?_⟩
    rcases Registry.apply_get? hd' with ⟨d, hd, hw⟩ | ⟨g, rfl, rfl, -, rfl⟩
    · rw [hw.stage]
      exact hreg h d hd
    · have hg := hsub _ List.mem_cons_self
      have hstage : (g.descriptor : Descriptor S H).stage = .fresh := by
        have hc : (g.descriptor : Descriptor S H).metadata.connectFinish = false := ho.queued g hg
        unfold Descriptor.stage
        rw [hc]
        rfl
      rw [ho.queued_unheard ha hs hg, hstage]
      rfl
  obtain ⟨-, hreg⟩ := Registry.foldl_apply_keeps hkeep r.session.context.changes r.registry
    ⟨fun _ h => h, ho.registered⟩
  exact ⟨hreg, ho.accepted, fun h hne => (ho.born h hne).imp mem_keys_applied id,
    fun g hg => by cases hg⟩

/-- Work on a socket keeps its events in order, and touches no other socket. -/
theorem Orderly.visited (ho : r.Orderly) (hk : r.registry.Keyed) (hm : host.KeepsConnection)
    (hf : host.RegistersFresh) {ε : Type} {x : Step (Visit W S H P) ε Unit}
    (hx : Step.Works host x) {h : SocketHandle} {d : Descriptor S H}
    (hd : r.registry.get? h = some d) : (visit h x r).2.Orderly := by
  have hhandle := hk h d hd
  have hv : (⟨d, r.session⟩ : Visit W S H P).Ordered := by
    unfold Visit.Ordered
    rw [hhandle]
    exact ho.registered h d hd
  have hv' := hv.moves hm (hx.moves ⟨d, r.session⟩)
  obtain ⟨deeds, hw⟩ := (hx.moves ⟨d, r.session⟩).worked
  rw [visit_of_some x hd]
  have hself : ∀ d', (HandleMap.modify r.registry h fun _ =>
      (x ⟨d, r.session⟩).2.descriptor).get? h = some d' → d' = (x ⟨d, r.session⟩).2.descriptor := by
    intro d' hd'
    rw [HandleMap.get?_modify, if_pos rfl, hd] at hd'
    exact (Option.some.inj hd').symm
  unfold Visit.Ordered at hv'
  rw [hw.handle, hhandle] at hv'
  refine ho.heard hw.advances (fun k hne => ?_) (fun k hne => ?_) (fun d' hd' => ?_) ⟨_, hv'⟩
    (.inl ?_) fun deed hdeed => (hw.work deed hdeed).asksFresh hf
  · exact notices_work hw.work (hhandle ▸ hne)
  · rw [HandleMap.get?_modify, if_neg hne]
  · rw [hself d' hd']
    exact hv'
  · rw [HandleMap.keys_modify]
    exact HandleMap.mem_keys.2 ⟨d, hd⟩

/-- Leave is taken in order, and touches no other socket. -/
theorem Orderly.left (ho : r.Orderly) (hk : r.registry.Keyed) (hf : host.RegistersFresh)
    {h : SocketHandle} {d : Descriptor S H} (hd : r.registry.get? h = some d)
    (hl : (disconnect host h r).1 ≠ .crashed) : (disconnect host h r).2.Orderly := by
  have hhandle := hk h d hd
  obtain ⟨deeds, hadv, hleave | ⟨hcrash, -⟩⟩ := disconnect_advances host hd
  · obtain ⟨t, ht, -⟩ := hleave.after?
    rw [hhandle] at ht
    have haccept : Stage.fresh.after? (notices h (disconnect host h r).2.session.journal) =
        some t := by
      rw [hadv.journal, notices_append, Stage.after?_append, ho.registered h d hd]
      exact ht
    have hgone : (disconnect host h r).2.registry.get? h = none := by
      rw [disconnect_of_some hd, HandleMap.get?_erase, if_pos rfl]
    refine ho.heard hadv (fun k hne => ?_) (fun k hne => ?_) (fun d' hd' => ?_) ⟨t, haccept⟩
      (.inr ?_) (hleave.asksFresh hf)
    · exact hleave.notices_of_ne (hhandle ▸ hne)
    · rw [disconnect_of_some hd, HandleMap.get?_erase, if_neg hne]
    · rw [hgone] at hd'
      cases hd'
    · rw [hadv.journal, closings_append, hleave.closings_eq, if_pos hhandle]
      omega
  · exact absurd hcrash hl

theorem Orderly.serves (ho : r.Orderly) (hk : r.registry.Keyed) (hm : host.KeepsConnection)
    (hf : host.RegistersFresh) (h : r.Serves host r') : r'.Orderly := by
  cases h with
  | visited duty hd => exact ho.visited hk hm hf duty.work_works hd
  | selected timeout admitted =>
      obtain ⟨deeds, hsel, hadv⟩ := selectStage_advances host timeout admitted r
      refine ho.unheard hadv.journal
        (fun k => notices_eq_nil fun deed hd => (hsel deed hd).notice? k)
        (fun k d' hd' => ?_) (fun k hmem => ?_)
        (ho.queued_advance hadv fun deed hd => (hsel deed hd).asksFresh)
      · rw [selectStage_registry] at hd'
        exact ⟨d', hd', rfl⟩
      · rw [selectStage_registry]
        exact hmem
  | left hd hc hl => exact ho.left hk hf hd hl

theorem Orderly.move (ho : r.Orderly) (ha : start.Accounted r)
    (hs : ∀ h ∈ start.registry.keys, h.number < start.session.context.nextHandle.number)
    (hm : host.KeepsConnection) (hf : host.RegistersFresh) (h : r.Move host r') :
    r'.Orderly := by
  cases h with
  | applied => exact ho.applied ha hs
  | admitted =>
      obtain ⟨deeds, hv, hadv⟩ := r.admitted_advances host
      refine ho.unheard hadv.journal (fun k => notices_eq_nil fun deed hd => (hv deed hd).notice? k)
        (fun k d' hd' => ?_) (fun k hmem => ?_)
        (ho.queued_advance hadv fun deed hd => (hv deed hd).asksFresh)
      · obtain ⟨d, hd, running, postponed, rfl, -⟩ := admitted_considered r hd'
        exact ⟨d, hd, rfl⟩
      · rw [keys_admitted]
        exact hmem
  | served h => exact ho.serves ha.keyed hm hf h
  | leavingOff => exact ⟨ho.registered, ho.accepted, ho.born, ho.queued⟩
  | dismissed =>
      refine ho.unheard (List.append_nil _).symm (fun _ => rfl) (fun k d' hd' => ?_)
        (fun k hmem => ?_) ho.queued
      · simp only [Run.dismissed, HandleMap.get?_map] at hd'
        obtain ⟨d, hd, rfl⟩ := Option.map_eq_some_iff.1 hd'
        exact ⟨d, hd, rfl⟩
      · rw [Run.dismissed, HandleMap.keys_map]
        exact hmem
  | reported h =>
      obtain ⟨error, hd⟩ := h
      exact ho.visited ha.keyed hm hf (Visit.reportFailure_works error) hd

theorem Orderly.moves (ho : r.Orderly) (ha : start.Accounted r)
    (hs : ∀ h ∈ start.registry.keys, h.number < start.session.context.nextHandle.number)
    (hm : host.KeepsConnection) (hf : host.RegistersFresh) (h : r.Moves host r') :
    r'.Orderly := by
  induction h with
  | refl => exact ho
  | tail hmoves hmove ih => exact ih.move (ha.moves hs hmoves) hs hm hf hmove

/-- What a crash leaves behind is in order too. -/
theorem Orderly.abandons (ho : r.Orderly) (hk : r.registry.Keyed) (h : r.Abandons host r')
    (k : SocketHandle) : ∃ t, Stage.fresh.after? (notices k r'.session.journal) = some t := by
  obtain @⟨h, d, hd, -⟩ := h
  have hhandle := hk h d hd
  obtain ⟨deeds, hadv, hended⟩ := disconnect_advances host hd
  rw [hadv.journal, notices_append]
  by_cases hkh : k = h
  · subst hkh
    rw [Stage.after?_append, ho.registered k d hd, ← hhandle]
    rcases hended with hleave | ⟨-, hlast⟩
    · obtain ⟨t, ht, -⟩ := hleave.after?
      exact ⟨t, ht⟩
    · exact hlast.after?_disconnected
  · have hne : d.handle ≠ k := fun heq => hkh (heq.symm.trans hhandle)
    have hnone : notices k deeds = [] := by
      rcases hended with hleave | ⟨-, hlast⟩
      · exact hleave.notices_of_ne hne
      · exact hlast.notices_of_ne hne
    rw [hnone, List.append_nil]
    exact ho.accepted k

theorem notices_closeAll (h : SocketHandle) (r : Run W S H P) :
    notices h (closeAll host r).session.journal = notices h r.session.journal := by
  rw [journal_closeAll, notices_append]
  refine (congrArg (_ ++ ·) (notices_eq_nil fun deed hd => ?_)).trans (List.append_nil _)
  obtain ⟨k, -, rfl⟩ := List.mem_map.1 hd
  rfl

theorem notices_finishPolicy (h : SocketHandle) (r : Run W S H P) :
    notices h (finishPolicy host r).session.journal = notices h r.session.journal := by
  have hj : (finishPolicy host r).session.journal = r.session.journal ++ [.policyFinished] := rfl
  have hn : notices h ([.policyFinished] : List (Deed S H)) = [] := rfl
  rw [hj, notices_append, hn, List.append_nil]

/-- However a run ends, the events of every socket are in order. -/
theorem Orderly.ends (ho : r.Orderly) (hk : r.registry.Keyed) {ending : Ending RunFailure Unit}
    (h : r.Ends host ending r') (k : SocketHandle) :
    ∃ t, Stage.fresh.after? (notices k r'.session.journal) = some t := by
  cases h with
  | well =>
      rw [notices_closeAll, notices_finishPolicy]
      exact ho.accepted k
  | failed =>
      rw [notices_finishPolicy, notices_closeAll]
      exact ho.accepted k
  | unfinished | crashed => exact ho.accepted k
  | abandoned h => exact ho.abandons hk h k

/-- A socket leaves the registry with its last event. -/
theorem Move.finalized (hk : r.registry.Keyed) (h : r.Move host r') {k : SocketHandle}
    (hh : k ∈ r.registry.keys ∨ .event .finalize ∈ notices k r.session.journal) :
    k ∈ r'.registry.keys ∨ .event .finalize ∈ notices k r'.session.journal := by
  rcases hh with hmem | hfin
  · cases h with
    | applied => exact .inl (mem_keys_applied hmem)
    | admitted =>
        rw [keys_admitted]
        exact .inl hmem
    | served h =>
        cases h with
        | visited duty hd =>
            rw [keys_visit _ hd]
            exact .inl hmem
        | selected timeout admitted =>
            rw [selectStage_registry]
            exact .inl hmem
        | @left h d hd hc hl =>
            obtain ⟨deeds, hadv, hleave | ⟨hcrash, -⟩⟩ := disconnect_advances host hd
            · by_cases hkh : k = h
              · obtain ⟨-, -, hfin⟩ := hleave.after?
                rw [hk h d hd, ← hkh] at hfin
                rw [hadv.journal, notices_append]
                exact .inr (List.mem_append_right _ hfin)
              · refine .inl ?_
                rw [HandleMap.mem_keys] at hmem ⊢
                rw [disconnect_of_some hd, HandleMap.get?_erase, if_neg hkh]
                exact hmem
            · exact absurd hcrash hl
    | leavingOff => exact .inl hmem
    | dismissed =>
        rw [Run.dismissed, HandleMap.keys_map]
        exact .inl hmem
    | reported h =>
        rw [h.keys]
        exact .inl hmem
  · obtain ⟨deeds, hj⟩ := h.journal
    rw [hj, notices_append]
    exact .inr (List.mem_append_left _ hfin)

theorem finalized_of_moves (hk : r.registry.Keyed) (h : r.Moves host r') {k : SocketHandle}
    (hh : k ∈ r.registry.keys ∨ .event .finalize ∈ notices k r.session.journal) :
    k ∈ r'.registry.keys ∨ .event .finalize ∈ notices k r'.session.journal := by
  induction h with
  | refl => exact hh
  | tail hmoves hmove ih => exact hmove.finalized (keyed_of_moves hk hmoves) ih

end Run

end Reactor
