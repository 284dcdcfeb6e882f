import Reactor.Proofs.Run.Interference
import Reactor.Proofs.Run.LastTick
import Reactor.Proofs.Run.Partings

/-! What becomes of the sockets that hooks register. As long as the run ticks, the next tick applies
whatever has been asked for; what is asked for after the last tick is closed without a word. -/

namespace Reactor

variable {W S H P : Type} {host : Host W S H P}

/-! ## Whom the deeds concern -/

theorem Deed.IsHearing.handle? {h : SocketHandle} {deed : Deed S H}
    (hd : deed.IsHearing host h) : deed.handle? = some h := by
  cases deed with
  | heard => exact congrArg some hd.1
  | _ => exact hd.elim

theorem Deed.IsWork.handle? {h : SocketHandle} {running : Bool} {deed : Deed S H}
    (hd : deed.IsWork host h running) : deed.handle? = some h := by
  cases deed with
  | called | raised | reported | heard => exact congrArg some hd.1
  | dismissed => exact congrArg some hd
  | _ => exact hd.elim

theorem Deed.IsLast.handle? {h : SocketHandle} {kind : EventKind} {deed : Deed S H}
    (hd : deed.IsLast host h kind) : deed.handle? = some h := by
  cases deed with
  | raised | reported | heard => exact congrArg some hd.1
  | _ => exact hd.elim

theorem Leavetaking.handle? {d : Descriptor S H} {deeds : List (Deed S H)}
    (hl : Leavetaking host d deeds) : ∀ deed ∈ deeds, deed.handle? = some d.handle := by
  intro deed hd
  obtain rfl | ⟨kind, -, hlast⟩ := hl.closed_or_isLast hd
  · rfl
  · exact hlast.handle?

namespace Run

/-- The deeds concern sockets of the registry. -/
def Concerns (r : Run W S H P) (deeds : List (Deed S H)) : Prop :=
  ∀ deed ∈ deeds, ∀ h, deed.handle? = some h → h ∈ r.registry.keys

variable {start r r' t : Run W S H P} {deeds : List (Deed S H)}

theorem concerns_of_handle {h : SocketHandle} {d : Descriptor S H} (hk : r.registry.Keyed)
    (hd : r.registry.get? h = some d) (hc : ∀ deed ∈ deeds, deed.handle? = some d.handle) :
    r.Concerns deeds := by
  intro deed hdeed k hdk
  rw [hc deed hdeed, hk h d hd] at hdk
  cases hdk
  exact HandleMap.mem_keys.2 ⟨d, hd⟩

theorem consider_journal (host : Host W S H P) (pass : AdmissionPass W S H P)
    (d : Descriptor S H) : ∃ deeds, (∀ deed ∈ deeds, deed.handle? = some d.handle) ∧
      (pass.consider host d).2.session.journal = pass.session.journal ++ deeds := by
  unfold AdmissionPass.consider
  split
  · exact ⟨[], by simp, (List.append_nil _).symm⟩
  split
  · exact ⟨[], by simp, (List.append_nil _).symm⟩
  split
  · exact ⟨[], by simp, (List.append_nil _).symm⟩
  rcases hv : host.policy.decide pass.session.world pass.session.policy d
    pass.session.context.context with ⟨decision, policy, world, stop⟩
  refine ⟨[.decided d.handle decision], ?_, ?_⟩
  · intro deed hdeed
    obtain rfl := List.mem_singleton.1 hdeed
    rfl
  · simp only [AdmissionPass.ask, Session.decide, hv]
    cases decision <;> simp [AdmissionPass.take, Session.note]

/-- The policy is asked about sockets of the registry. -/
theorem admitted_concerns (host : Host W S H P) (hk : r.registry.Keyed) :
    ∃ deeds, r.Concerns deeds ∧
      (r.admitted host).session.journal = r.session.journal ++ deeds := by
  let I (pass : AdmissionPass W S H P) : Prop :=
    ∃ deeds, r.Concerns deeds ∧ pass.session.journal = r.session.journal ++ deeds
  have hstart : I ⟨false, [], r.session⟩ :=
    ⟨[], (fun _ hd => by cases hd), (List.append_nil _).symm⟩
  refine HandleMap.traverse_keeps_of_mem (I := I) ?_ hstart
  rintro pass d hd ⟨deeds, hc, hj⟩
  obtain ⟨h, hget⟩ := HandleMap.mem_values.1 hd
  obtain ⟨more, hm, hj'⟩ := consider_journal host pass d
  refine ⟨deeds ++ more, fun deed hdeed => ?_, by rw [hj', hj, List.append_assoc]⟩
  exact (List.mem_append.1 hdeed).elim (hc deed) (concerns_of_handle hk hget hm deed)

theorem selectStage_concerns (host : Host W S H P) (r : Run W S H P) (timeout : Duration)
    (admitted : List SocketHandle) :
    ∃ deeds, r.Concerns deeds ∧
      (selectStage host timeout admitted r).2.session.journal = r.session.journal ++ deeds := by
  unfold selectStage
  dsimp only
  split
  · exact ⟨[], fun _ hd => (by cases hd), (List.append_nil _).symm⟩
  · refine ⟨_, fun deed hd h hh => ?_, (r.session.advances_note _ _ _ rfl).journal⟩
    obtain rfl := List.mem_singleton.1 hd
    cases hh

/-- Whatever has been done for a socket has been done since the socket was registered. -/
def Acquainted (r : Run W S H P) : Prop :=
  ∀ deed ∈ r.session.journal, ∀ h, deed.handle? = some h →
    h ∈ r.registry.keys ∨ 0 < closings h r.session.journal

/-- A registered socket may be served, and it leaves the registry when it is closed. -/
theorem Acquainted.advance (ha : r.Acquainted) (hc : r.Concerns deeds)
    (hj : r'.session.journal = r.session.journal ++ deeds)
    (hk : ∀ h ∈ r.registry.keys, h ∈ r'.registry.keys ∨ 0 < closings h deeds) :
    r'.Acquainted := by
  have hknown : ∀ h, h ∈ r.registry.keys ∨ 0 < closings h r.session.journal →
      h ∈ r'.registry.keys ∨ 0 < closings h r'.session.journal := by
    intro h hh
    rw [hj, closings_append]
    rcases hh with hh | hclosed
    · exact (hk h hh).imp_right fun hclosed => by omega
    · exact .inr (by omega)
  intro deed hd h hh
  rw [hj] at hd
  rcases List.mem_append.1 hd with hd | hd
  · exact hknown h (ha deed hd h hh)
  · exact hknown h (.inl (hc deed hd h hh))

theorem Acquainted.serves (ha : r.Acquainted) (hk : r.registry.Keyed) (h : r.Serves host r') :
    r'.Acquainted := by
  cases h with
  | visited duty hd =>
      obtain ⟨deeds, hadv, hw⟩ := visit_advances duty.work_works hd
      have hkeys := keys_visit (duty.work host) hd
      refine ha.advance (concerns_of_handle hk hd fun deed hdeed => ?_) hadv.journal fun k hk => ?_
      · exact (hw deed hdeed).handle?
      · rw [hkeys]
        exact .inl hk
  | selected timeout admitted =>
      obtain ⟨deeds, hc, hj⟩ := selectStage_concerns host r timeout admitted
      refine ha.advance hc hj fun k hk => ?_
      rw [selectStage_registry]
      exact .inl hk
  | @left h d hd hcomplete hl =>
      obtain ⟨deeds, hadv, hleave | ⟨hcrash, -⟩⟩ := disconnect_advances host hd
      · refine ha.advance (concerns_of_handle hk hd hleave.handle?) hadv.journal fun k hmem => ?_
        rw [hleave.closings_eq, hk h d hd, disconnect_of_some hd]
        by_cases hkh : h = k
        · exact .inr (by simp [hkh])
        · obtain ⟨d', hd'⟩ := HandleMap.mem_keys.1 hmem
          refine .inl (HandleMap.mem_keys.2 ⟨d', ?_⟩)
          rw [HandleMap.get?_erase, if_neg (Ne.symm hkh)]
          exact hd'
      · exact absurd hcrash hl

theorem Acquainted.move (ha : r.Acquainted) (hk : r.registry.Keyed) (h : r.Move host r') :
    r'.Acquainted := by
  have hnothing : r.Concerns ([] : List (Deed S H)) := fun _ hd => by cases hd
  cases h with
  | applied =>
      exact ha.advance hnothing (List.append_nil _).symm fun _ hh => .inl (mem_keys_applied hh)
  | admitted =>
      obtain ⟨deeds, hc, hj⟩ := admitted_concerns host hk
      refine ha.advance hc hj fun h hh => .inl ?_
      rw [keys_admitted]
      exact hh
  | served h => exact ha.serves hk h
  | leavingOff => exact ha
  | dismissed =>
      refine ha.advance hnothing (List.append_nil _).symm fun h hh => .inl ?_
      rw [Run.dismissed, HandleMap.keys_map]
      exact hh
  | reported h =>
      obtain ⟨k, d, error, hearings, hd, hh, hadv⟩ := h.advances
      refine ha.advance (concerns_of_handle hk hd fun deed hdeed => ?_) hadv.journal
        fun j hj => .inl (by rwa [h.keys])
      rcases List.mem_cons.1 hdeed with rfl | hdeed
      · rfl
      · exact (hh deed hdeed).handle?

theorem Acquainted.moves (ha : r.Acquainted) (hk : r.registry.Keyed) (h : r.Moves host r') :
    r'.Acquainted := by
  induction h with
  | refl => exact ha
  | tail hmoves hmove ih => exact ih.move (keyed_of_moves hk hmoves) hmove

/-- Nothing has been done for a socket whose registration is queued. -/
theorem Acquainted.concerning_queued (hq : r.Acquainted) (ha : start.Accounted r)
    (hs : ∀ h ∈ start.registry.keys, h.number < start.session.context.nextHandle.number)
    {h : SocketHandle} (hh : h ∈ enrolling r.session.context.changes) :
    concerning h r.session.journal = [] := by
  refine concerning_eq_nil fun deed hd hdh => ?_
  have hqueued := List.count_pos_iff.2 hh
  have hone := ha.total_le_one hs h
  rcases hq deed hd h hdh with hmem | hclosed
  · have := List.count_pos_iff.2 hmem
    omega
  · omega

/-! ## The ticks -/

/-- A tick records whatever its hooks have asked for. -/
theorem attend_advances (host : Host W S H P) (config : ExecutorConfig) (hk : r.registry.Keyed) :
    ∃ deeds, r.session.Advances deeds (attend host config r).2.session := by
  rcases attend_serves config hk with hsame | ⟨last, hserves, hend⟩
  · rw [hsame]
    exact ⟨[], .refl _⟩
  · obtain ⟨verdicts, -, hadmitted⟩ := r.admitted_advances host
    obtain ⟨deeds, hadv⟩ := advances_of_serves hserves
    have hlast := hadmitted.trans hadv
    rcases hend with rfl | hlost
    · exact ⟨_, hlast⟩
    · obtain ⟨more, hmore⟩ := hlost.advances
      exact ⟨_, hlast.trans hmore⟩

/-- The registration of the handle is queued when a tick has ended, and has been applied when the
next one begins to serve. -/
def Enrolled (host : Host W S H P) (config : ExecutorConfig) (start : Run W S H P) (fuel : Nat)
    (h : SocketHandle) : Prop :=
  ∃ n m, n < fuel ∧ ticks host config n start = (.cut .unfinished, m) ∧
    h ∈ enrolling m.session.context.changes ∧ h ∈ m.applied.registry.keys

/-- The handle is given out while the session goes on. -/
def Handed (s s' : Session W S H P) (h : SocketHandle) : Prop :=
  s.context.nextHandle.number ≤ h.number ∧ h.number < s'.context.nextHandle.number

/-- A handle that has been given out belongs to a queued registration. -/
theorem mem_enrolling_of_handed (hadv : r.session.Advances deeds t.session) {h : SocketHandle}
    (hh : Handed r.session t.session h) : h ∈ enrolling t.session.context.changes := by
  have hcount := count_enrolling_queueOf h (requested deeds) r.session.context.nextHandle
  have hnext : t.session.context.nextHandle.number =
      r.session.context.nextHandle.number + registrations (requested deeds) := by
    rw [hadv.nextHandle]
  rw [← hnext, issued, if_pos (And.intro hh.1 hh.2)] at hcount
  rw [hadv.changes, enrolling_append]
  exact List.mem_append_right _ (List.count_pos_iff.1 (by omega))

/-- As long as there is something to do, what has been asked for is applied. -/
theorem ticks_enrol {config : ExecutorConfig} {h : SocketHandle} :
    ∀ {fuel : Nat} {r : Run W S H P}, r.registry.Keyed →
      ticks host config fuel r = (.done .drained, t) →
      h ∈ enrolling r.session.context.changes ∨ Handed r.session t.session h →
        Enrolled host config r fuel h := by
  intro fuel
  induction fuel with
  | zero => exact fun _ hx => by cases hx
  | succ fuel ih =>
      intro r hk hx hh
      rcases hh with hqueued | hh
      · exact ⟨0, r, Nat.succ_pos _, rfl, hqueued, mem_keys_applied_of_queued (.inr hqueued)⟩
      have hk' : r.applied.registry.Keyed := keyed_applied hk
      obtain ⟨deeds, hadv⟩ := attend_advances host config hk'
      rcases ha : attend host config r.applied with ⟨last, m⟩
      rw [ticks_apply, attendTicks_apply fuel ha] at hx
      rcases last with (_ | exit) | (_ | text) | _
      · have hm : m.registry.Keyed :=
          keyed_of_moves hk' ((attend_follows config).moves_to hk' ha (by simp))
        rw [ha] at hadv
        have hlater : h ∈ enrolling m.session.context.changes ∨ Handed m.session t.session h := by
          by_cases hlt : h.number < m.session.context.nextHandle.number
          · exact .inl (mem_enrolling_of_handed hadv ⟨hh.1, hlt⟩)
          · exact .inr ⟨Nat.le_of_not_lt hlt, hh.2⟩
        obtain ⟨n, m', hlt, hn, hqueued, hmem⟩ := ih hm hx hlater
        refine ⟨n + 1, m', Nat.succ_lt_succ hlt, ?_, hqueued, hmem⟩
        rw [ticks_apply, attendTicks_apply n ha]
        exact hn
      all_goals cases hx
      -- nothing is left to do, so nobody has heard of anything since the changes were applied
      obtain rfl := attend_drained hk' ha
      exact absurd hh.2 (Nat.not_lt_of_le hh.1)

/-! ## The end of the run -/

/-- A run whose ticks are over because nothing was left to do takes leave of the sockets that are
still registered. -/
theorem windDown_drained (host : Host W S H P) (r : Run W S H P) :
    windDown host .drained r = part host r.leavingOff := by
  rw [windDown_apply]
  rfl

theorem part_serves (hk : r.registry.Keyed) (hx : part host r = (.done (), t)) :
    Relation.ReflTransGen (Serves host) r t := by
  obtain ⟨hcrash, rfl⟩ := part_done hx
  exact disconnectStage_follows.moves hk hcrash

/-- Nobody is left to be taken leave of. -/
theorem part_empty (hr : r.registry = .empty) : part host r = (.done (), r) := by
  have hstage : disconnectStage host r = (.done (), r) := by
    show disconnectAll host (Registry.completed r.registry) r = _
    rw [hr]
    rfl
  rw [part, Step.bind_of_done (Step.attempt_of_done hstage)]
  rfl

/-- A run that ends well, is not asked to stop, and of which no selection fails, goes on until
nothing is left to do. -/
theorem perform_drained {config : ExecutorConfig} {fuel : Nat} (hk : r.registry.Keyed)
    (hr : r.session.Active) (hdone : (perform host config fuel r).1 = .done ())
    (hstop : (perform host config fuel r).2.session.context.control.stopRequested = false)
    (hselect : ∀ deed ∈ (perform host config fuel r).2.session.journal, deed.selectFails = false) :
    ∃ t, ticks host config fuel (startPolicy host r) = (.done .drained, t) := by
  obtain ⟨last, hbody, -, hlast⟩ := perform_done host config fuel hk hdone
  obtain ⟨last', hbody', hj⟩ := perform_done_journal host config fuel hk hdone
  obtain rfl : last = last' := congrArg Prod.snd (hbody.symm.trans hbody')
  obtain ⟨exit, t, hticks, hwind⟩ := Step.done_of_bind hbody
  have hstart : (startPolicy host r).session.Active := hr
  obtain ⟨made, hp, -, -⟩ := ticks_orders host config fuel (startPolicy host r) hr
  rw [hticks] at hp
  have ht : t.session.Active := hstart.proceeds hp
  have hidle : Step.Idles (conclude host exit >>= fun _ => part host) :=
    (conclude_idles exit).bind fun _ => part_idles
  obtain ⟨deeds, hp', -, -⟩ := hidle t.leavingOff ht.1
  rw [← windDown_apply, hwind] at hp'
  cases exit with
  | drained => exact ⟨t, hticks⟩
  | stopped =>
      have hasked : t.session.context.control.stopRequested = true := ticks_stopped hstart hticks
      have hstill : last.session.context.control.stopRequested = true :=
        hp'.stop ht.1 (.inl hasked)
      rw [hlast, context_closeAll] at hstop
      exact absurd (hstill.symm.trans hstop) (by simp)
  | selectFailed error =>
      obtain ⟨deed, hd, hfails⟩ := List.any_eq_true.1 (ticks_selectFailed hticks)
      have hleft : last.session.journal = t.session.journal ++ deeds := hp'.journal
      rw [hj, hleft] at hselect
      have hnot := hselect deed (List.mem_append_left _ (List.mem_append_left _ hd))
      exact absurd (hfails.symm.trans hnot) (by simp)

end Run

end Reactor
