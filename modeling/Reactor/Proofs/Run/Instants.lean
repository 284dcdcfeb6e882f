import Reactor.Proofs.Run.Retirement

/-! The instants of a run: the states that it goes through down to the single acts in the work on a
socket. From the instant on at which a socket has nothing left to do, it is served no more than was
under way. -/

namespace Reactor

variable {W S H P : Type} {host : Host W S H P} {h : SocketHandle}

namespace Run

variable {start r r' s : Run W S H P} {d : Descriptor S H} {v v' : Visit W S H P}

def during (r : Run W S H P) (h : SocketHandle) (v : Visit W S H P) : Run W S H P :=
  ⟨HandleMap.modify r.registry h fun _ => v.descriptor, v.session⟩

/-- A move of a run during which no socket is worked on. -/
inductive Passes (host : Host W S H P) (r : Run W S H P) : Run W S H P → Prop where
  | applied : Passes host r r.applied
  | admitted : Passes host r (r.admitted host)
  | selected (timeout : Duration) (admitted : List SocketHandle) :
      Passes host r (selectStage host timeout admitted r).2
  | left {h : SocketHandle} {d : Descriptor S H} (hd : r.registry.get? h = some d)
      (hc : d.isComplete = true) (hl : (disconnect host h r).1 ≠ .crashed) :
      Passes host r (disconnect host h r).2
  | leavingOff : Passes host r r.leavingOff
  | dismissed : Passes host r r.dismissed

/-- What leads from one instant of a run to the next. -/
inductive Instant (host : Host W S H P) (r : Run W S H P) : Run W S H P → Prop where
  | act {h : SocketHandle} {d : Descriptor S H} {v : Visit W S H P}
      (hd : r.registry.get? h = some d) (ha : Visit.Act host ⟨d, r.session⟩ v) :
      Instant host r (r.during h v)
  | pass {r' : Run W S H P} (hp : r.Passes host r') : Instant host r r'

abbrev Instants (host : Host W S H P) : Run W S H P → Run W S H P → Prop :=
  Relation.ReflTransGen (Instant host)

/-! ## A run goes through its instants -/

theorem Passes.move (hp : r.Passes host r') : r.Move host r' := by
  cases hp with
  | applied => exact .applied
  | admitted => exact .admitted
  | selected timeout admitted => exact .served (.selected timeout admitted)
  | left hd hc hl => exact .served (.left hd hc hl)
  | leavingOff => exact .leavingOff
  | dismissed => exact .dismissed

theorem get?_during (hd : r.registry.get? h = some d) (v : Visit W S H P) :
    (r.during h v).registry.get? h = some v.descriptor := by
  rw [during, HandleMap.get?_modify, if_pos rfl, hd]
  rfl

theorem instants_of_acts (hd : r.registry.get? h = some d)
    (ha : Visit.Acts host ⟨d, r.session⟩ v) : r.Instants host (r.during h v) := by
  induction ha with
  | refl =>
      have hsame : r.during h ⟨d, r.session⟩ = r := by
        rw [during, HandleMap.modify_self hd]
      rw [hsame]
  | @tail u t _ hact ih =>
      have hnext : (r.during h u).during h t = r.during h t := by
        simp only [during, HandleMap.modify_modify]
      exact hnext ▸ ih.tail (.act (get?_during hd u) hact)

theorem visit_instants {ε : Type} {Pre : Visit W S H P → Prop}
    {x : Step (Visit W S H P) ε Unit} {Post : Unit → Visit W S H P → Prop}
    (hx : Step.ActsFrom host Pre x Post) (hd : r.registry.get? h = some d)
    (hpre : Pre ⟨d, r.session⟩) : r.Instants host (visit h x r).2 := by
  rw [visit_of_some x hd]
  exact instants_of_acts hd (hx.acts hpre)

/-- What a move does for a socket, it does act by act. -/
theorem Move.instants (hm : r.Move host r') : r.Instants host r' := by
  cases hm with
  | applied => exact .single (.pass .applied)
  | admitted => exact .single (.pass .admitted)
  | served hs =>
      cases hs with
      | visited duty hd hc => exact visit_instants duty.work_acts hd hc
      | selected timeout admitted => exact .single (.pass (.selected timeout admitted))
      | left hd hc hl => exact .single (.pass (.left hd hc hl))
  | leavingOff => exact .single (.pass .leavingOff)
  | dismissed => exact .single (.pass .dismissed)
  | reported hr =>
      obtain ⟨error, hd⟩ := hr
      exact visit_instants (Visit.reportFailure_acts error) hd trivial

theorem instants_of_moves (hm : r.Moves host s) : r.Instants host s := by
  induction hm with
  | refl => exact .refl
  | tail _ hmove ih => exact ih.trans hmove.instants

/-- The books of a run are kept at every instant. -/
theorem Accounted.instant (ha : start.Accounted r)
    (hs : ∀ h ∈ start.registry.keys, h.number < start.session.context.nextHandle.number)
    (hi : r.Instant host r') : start.Accounted r' := by
  cases hi with
  | @act h d v hd hact =>
      obtain ⟨deeds, hadv, hw, hhandle, -⟩ := hact.advances
      have hk : (r.during h v).registry.Keyed := by
        intro k d' hk'
        by_cases hkh : k = h
        · subst hkh
          rw [get?_during hd] at hk'
          obtain rfl := Option.some.inj hk'
          exact hhandle.trans (ha.keyed _ _ hd)
        · rw [during, HandleMap.get?_modify, if_neg hkh] at hk'
          exact ha.keyed k d' hk'
      refine ha.advance hk hadv (fun k => ?_) fun deed hdeed => (hw deed hdeed).not_isMark
      rw [closings_eq_zero k fun deed hdeed => (hw deed hdeed).closes, during,
        HandleMap.keys_modify, Nat.zero_add]
  | pass hp => exact ha.move hs hp.move

theorem Accounted.instants (ha : start.Accounted r)
    (hs : ∀ h ∈ start.registry.keys, h.number < start.session.context.nextHandle.number)
    (hi : r.Instants host s) : start.Accounted s := by
  induction hi with
  | refl => exact ha
  | tail _ hinstant ih => exact ih.instant hs hinstant

/-! ## A socket with nothing left to do -/

/-- The socket of the handle has nothing left to do, or is gone; no other can get its handle. -/
structure Retired (h : SocketHandle) (r : Run W S H P) : Prop where
  complete : ∀ d, r.registry.get? h = some d → d.isComplete = true
  issued : h.number < r.session.context.nextHandle.number
  unqueued : h ∉ enrolling r.session.context.changes

theorem Accounted.retired (ha : start.Accounted r)
    (hs : ∀ h ∈ start.registry.keys, h.number < start.session.context.nextHandle.number)
    (hd : r.registry.get? h = some d) (hc : d.isComplete = true) : r.Retired h := by
  have hmem := HandleMap.mem_keys.2 ⟨d, hd⟩
  refine ⟨fun d' hd' => ?_, ha.lt_nextHandle hs hmem, fun hqueued => ?_⟩
  · obtain rfl := Option.some.inj (hd'.symm.trans hd)
    exact hc
  · have hregistered := List.count_pos_iff.2 hmem
    have hwaiting := List.count_pos_iff.2 hqueued
    have hone := ha.total_le_one hs h
    omega

theorem Retired.advance (hr : r.Retired h) {deeds : List (Deed S H)}
    (hadv : r.session.Advances deeds r'.session)
    (hc : ∀ d, r'.registry.get? h = some d → d.isComplete = true) : r'.Retired h := by
  refine ⟨hc, ?_, ?_⟩
  · rw [hadv.nextHandle]
    exact Nat.lt_of_lt_of_le hr.issued (Nat.le_add_right _ _)
  · rw [hadv.changes, enrolling_append, List.mem_append, not_or]
    refine ⟨hr.unqueued, ?_⟩
    have hissued := hr.issued
    rw [← List.count_eq_zero, count_enrolling_queueOf, Reactor.issued, if_neg (by omega)]

/-- A queued change does not give the socket anything to do again. -/
theorem Retired.applied (hr : r.Retired h) : r.applied.Retired h := by
  let I (registry : Registry S H) (changes : List (Change S)) : Prop :=
    (∀ d, HandleMap.get? registry h = some d → d.isComplete = true) ∧ h ∉ enrolling changes
  have hkeep : ∀ registry c rest, I registry (c :: rest) → I (registry.apply c) rest := by
    rintro registry c rest ⟨hc, hqueue⟩
    have hrest : h ∉ enrolling rest := by
      have hsplit : enrolling (c :: rest) = enrolling [c] ++ enrolling rest := by
        rw [← enrolling_append]
        rfl
      rw [hsplit, List.mem_append, not_or] at hqueue
      exact hqueue.2
    refine ⟨fun d hd => ?_, hrest⟩
    by_cases hh : h = c.handle
    swap
    · rw [get?_apply_of_ne hh] at hd
      exact hc d hd
    cases c with
    | register g => exact absurd (hh ▸ List.mem_cons_self) hqueue
    | deregister k =>
        obtain rfl : h = k := hh
        rw [Registry.apply, HandleMap.get?_modify, if_pos rfl] at hd
        obtain ⟨d, -, rfl⟩ := Option.map_eq_some_iff.1 hd
        rfl
    | setOperation k operation =>
        obtain rfl : h = k := hh
        rw [Registry.apply, HandleMap.get?_modify, if_pos rfl] at hd
        obtain ⟨d, hold, rfl⟩ := Option.map_eq_some_iff.1 hd
        rw [if_pos (hc d hold)]
        exact hc d hold
  obtain ⟨hc, -⟩ := Registry.foldl_apply_keeps hkeep r.session.context.changes r.registry
    ⟨hr.complete, hr.unqueued⟩
  exact ⟨hc, hr.issued, List.not_mem_nil⟩

theorem Retired.passes (hr : r.Retired h) (hp : r.Passes host r') : r'.Retired h := by
  cases hp with
  | applied => exact hr.applied
  | admitted =>
      obtain ⟨deeds, -, hadv⟩ := r.admitted_advances host
      refine hr.advance hadv fun d hd => ?_
      obtain ⟨d, hold, running, postponed, rfl, -⟩ := admitted_considered r hd
      exact hr.complete d hold
  | selected timeout admitted =>
      obtain ⟨deeds, -, hadv⟩ := selectStage_advances host timeout admitted r
      refine hr.advance hadv fun d hd => ?_
      rw [selectStage_registry] at hd
      exact hr.complete d hd
  | left hd =>
      obtain ⟨deeds, hadv, -⟩ := disconnect_advances host hd
      exact hr.advance hadv fun d' hd' => hr.complete d' (disconnect_get? hd hd').2
  | leavingOff => exact ⟨hr.complete, hr.issued, hr.unqueued⟩
  | dismissed =>
      refine ⟨fun d hd => ?_, hr.issued, hr.unqueued⟩
      simp only [Run.dismissed, HandleMap.get?_map] at hd
      obtain ⟨d, -, rfl⟩ := Option.map_eq_some_iff.1 hd
      rfl

theorem Passes.idle (host : Host W S H P) (hp : r.Passes host r') :
    ∃ deeds, r'.session.journal = r.session.journal ++ deeds ∧
      ∀ deed ∈ deeds, ¬ deed.Serves h := by
  cases hp with
  | applied | leavingOff | dismissed => exact ⟨[], (List.append_nil _).symm, by simp⟩
  | admitted => exact (bypasses_admitted host r).idle
  | selected timeout admitted => exact (bypasses_selectStage host timeout admitted r).idle
  | left hd hc => exact (bypasses_disconnect host hd hc).idle

/-- From one instant to the next, a socket that has nothing left to do is served only as far as that
was under way. -/
theorem Retired.instant (hk : host.KeepsCompletion) (hkeyed : r.registry.Keyed)
    (hr : r.Retired h) (hi : r.Instant host r') : r'.Retired h ∧
      ∃ deeds, r'.session.journal = r.session.journal ++ deeds ∧
        OnlyUnderWay host h r.session.journal deeds := by
  cases hi with
  | pass hp =>
      obtain ⟨deeds, hj, hidle⟩ := hp.idle (h := h)
      exact ⟨hr.passes hp, deeds, hj, .of_idle hidle⟩
  | @act k d v hd hact =>
      obtain ⟨deeds, hadv, hw, -, hunder⟩ := hact.advances
      by_cases hkh : k = h
      · subst hkh
        have hc := hr.complete d hd
        refine ⟨hr.advance hadv fun d' hd' => ?_, deeds, hadv.journal, ?_⟩
        · rw [get?_during hd] at hd'
          obtain rfl := Option.some.inj hd'
          exact hact.complete hk hc
        · exact hkeyed k d hd ▸ hunder hc
      · refine ⟨hr.advance hadv fun d' hd' => ?_, deeds, hadv.journal, .of_idle fun deed hdeed => ?_⟩
        · rw [during, HandleMap.get?_modify, if_neg (Ne.symm hkh)] at hd'
          exact hr.complete d' hd'
        · exact (hw deed hdeed).not_serves (hkeyed k d hd ▸ hkh)

theorem Retired.instants (hk : host.KeepsCompletion) (ha : start.Accounted r)
    (hs : ∀ h ∈ start.registry.keys, h.number < start.session.context.nextHandle.number)
    (hr : r.Retired h) (hi : r.Instants host s) : s.Retired h ∧
      ∃ deeds, s.session.journal = r.session.journal ++ deeds ∧
        OnlyUnderWay host h r.session.journal deeds := by
  induction hi with
  | refl => exact ⟨hr, [], (List.append_nil _).symm, .of_idle (by simp)⟩
  | tail hinstants hinstant ih =>
      obtain ⟨hr', deeds, hj, hunder⟩ := ih
      obtain ⟨hr'', more, hj', hmore⟩ := hr'.instant hk (ha.instants hs hinstants).keyed hinstant
      exact ⟨hr'', deeds ++ more, by rw [hj', hj, List.append_assoc], hunder.append (hj ▸ hmore)⟩

/-- A move does not serve a socket that has nothing left to do when the move begins. -/
theorem Move.idle (hkeyed : r.registry.Keyed)
    (hc : ∀ d, r.registry.get? h = some d → d.isComplete = true) (hm : r.Move host r') :
    ∃ deeds, r'.session.journal = r.session.journal ++ deeds ∧
      ∀ deed ∈ deeds, ¬ deed.Serves h := by
  cases hm with
  | applied => exact Passes.idle host .applied
  | admitted => exact Passes.idle host .admitted
  | served hs =>
      cases hs with
      | @visited k d duty hd hactive =>
          have hkh : k ≠ h := by
            rintro rfl
            rw [hc d hd] at hactive
            cases hactive
          exact (bypasses_visit hkeyed hkh duty.work_works hd).idle
      | selected timeout admitted => exact Passes.idle host (.selected timeout admitted)
      | left hd hc hl => exact Passes.idle host (.left hd hc hl)
  | leavingOff => exact Passes.idle host .leavingOff
  | dismissed => exact Passes.idle host .dismissed
  | reported hr =>
      obtain ⟨k, d, error, hearings, -, hh, hadv⟩ := hr.advances
      refine ⟨_, hadv.journal, fun deed hdeed => ?_⟩
      rcases List.mem_cons.1 hdeed with rfl | hdeed
      · exact Deed.not_serves rfl
      · exact (hh deed hdeed).not_serves

/-- Once a socket has nothing left to do and no work on it goes on, it is not served any more. -/
theorem Retired.moves (hk : host.KeepsCompletion) (ha : start.Accounted r)
    (hs : ∀ h ∈ start.registry.keys, h.number < start.session.context.nextHandle.number)
    (hr : r.Retired h) (hm : r.Moves host s) :
    ∃ deeds, s.session.journal = r.session.journal ++ deeds ∧
      ∀ deed ∈ deeds, ¬ deed.Serves h := by
  induction hm with
  | refl => exact ⟨[], (List.append_nil _).symm, by simp⟩
  | tail hmoves hmove ih =>
      obtain ⟨deeds, hj, hd⟩ := ih
      have hkeyed := (ha.moves hs hmoves).keyed
      obtain ⟨hr', -⟩ := hr.instants hk ha hs (instants_of_moves hmoves)
      obtain ⟨more, hj', hmore⟩ := hmove.idle hkeyed hr'.complete
      refine ⟨deeds ++ more, by rw [hj', hj, List.append_assoc], fun deed hmem => ?_⟩
      exact (List.mem_append.1 hmem).elim (hd deed) (hmore deed)

end Run

end Reactor
