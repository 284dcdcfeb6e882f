import Mathlib.Data.List.Dedup
import Mathlib.Data.List.Perm.Subperm
import Reactor.Proofs.Run.Ownership

/-! Who is served. With a selector that can be relied on, sockets are called and events about their
connection and their traffic are raised only while they take part. -/

namespace Reactor

variable {W S H P : Type} {host : Host W S H P}

theorem PollSelector.mem_conditions {interests : List Interest} :
    ∀ {reported : List (Option PollFlags)} {c : Interest × Option PollFlags},
      c ∈ conditions interests reported → c.1 ∈ interests := by
  induction interests with
  | nil => exact fun h => by cases h
  | cons i rest ih =>
      intro reported c h
      rw [conditions] at h
      split at h
      all_goals
        rcases List.mem_cons.1 h with rfl | h
        · exact List.mem_cons_self
        · exact List.mem_cons_of_mem _ (ih h)

theorem PollSelector.mem_readiness {interests : List Interest}
    {reported : List (Option PollFlags)} {h : SocketHandle}
    (hh : h ∈ (readiness (conditions interests reported)).read ++
      (readiness (conditions interests reported)).write) : ∃ i ∈ interests, i.handle = h := by
  simp only [readiness, List.mem_append, List.mem_filterMap] at hh
  rcases hh with ⟨c, hc, hif⟩ | ⟨c, hc, hif⟩
  all_goals
    split at hif
    · cases hif
      exact ⟨c.1, mem_conditions hc, rfl⟩
    · cases hif

/-- A selector that polls answers with sockets that it was asked about. -/
theorem selectsAmong_polling {poll : W → List (Nat × PollFlags) → Nat → PollAnswer × W}
    (hs : host.select = pollingSelector poll) : host.SelectsAmong := by
  intro world interests timeout ready hready h hh
  have hanswer : ∃ answer, PollSelector.interpret interests answer = .ok ready := by
    rw [hs] at hready
    exact ⟨_, hready⟩
  obtain ⟨answer, hready⟩ := hanswer
  unfold PollSelector.interpret at hready
  split at hready
  · cases hready
    exact PollSelector.mem_readiness hh
  · split at hready
    · cases hready
      exact PollSelector.mem_readiness hh
    · cases hready

/-- Whom the deed serves, and how far along that socket was: the deed is a call of the socket, or an
event about its connection or its traffic. -/
def Deed.service? : Deed S H → Option (SocketHandle × Standing)
  | .called h standing _ => some (h, standing)
  | .raised h standing payload =>
      if payload.kind = .connected ∨ payload.kind.isTraffic = true then some (h, standing) else none
  | _ => none

def services (journal : List (Deed S H)) : List (SocketHandle × Standing) :=
  journal.filterMap Deed.service?

@[simp] theorem services_append (journal deeds : List (Deed S H)) :
    services (journal ++ deeds) = services journal ++ services deeds := by
  simp [services]

theorem services_eq_nil {deeds : List (Deed S H)} (hd : ∀ deed ∈ deeds, deed.service? = none) :
    services deeds = [] := by
  simpa [services] using hd

theorem Deed.IsAside.service? {deed : Deed S H} (hd : deed.IsAside) : deed.service? = none := by
  cases deed with
  | decided | selected => rfl
  | _ => exact hd.elim

theorem Deed.IsHearing.service? {h : SocketHandle} {deed : Deed S H} (hd : deed.IsHearing host h) :
    deed.service? = none := by
  cases deed with
  | heard => rfl
  | _ => exact hd.elim

theorem Deed.IsLast.service? {h : SocketHandle} {kind : EventKind} {deed : Deed S H}
    (hd : deed.IsLast host h kind) (hc : kind ≠ .connected) (ht : kind.isTraffic = false) :
    deed.service? = none := by
  cases deed with
  | raised k standing payload =>
      obtain ⟨-, rfl⟩ := hd
      exact if_neg (by simp [hc, ht])
  | reported | heard => rfl
  | _ => exact hd.elim

theorem Deed.IsWork.service? {h : SocketHandle} {running : Bool} {deed : Deed S H}
    (hd : deed.IsWork host h running) {s : SocketHandle × Standing} (hs : deed.service? = some s) :
    s.1 = h ∧ s.2.running = running := by
  cases deed with
  | called k standing call =>
      cases hs
      exact hd
  | raised k standing payload =>
      obtain ⟨hk, hr, hkind⟩ := hd
      rw [Deed.service?, if_pos hkind] at hs
      cases hs
      exact ⟨hk, hr⟩
  | _ => cases hs

/-- Leave is taken without any service. -/
theorem Leavetaking.services {d : Descriptor S H} {deeds : List (Deed S H)}
    (hl : Leavetaking host d deeds) : services deeds = [] := by
  refine services_eq_nil fun deed hd => ?_
  obtain rfl | ⟨kind, rfl | rfl, hlast⟩ := hl.closed_or_isLast hd
  · rfl
  · exact hlast.service? (by decide) rfl
  · exact hlast.service? (by decide) rfl

theorem LastWord.services {h : SocketHandle} {running : Bool} {deeds : List (Deed S H)}
    (hw : LastWord host h running .disconnected deeds) : services deeds = [] :=
  services_eq_nil fun deed hd => (hw.isLast deed hd).service? (by simp [Payload.kind]) rfl

namespace Run

variable {r r' start : Run W S H P}

def TakesPart (r : Run W S H P) (h : SocketHandle) : Prop :=
  ∃ d, r.registry.get? h = some d ∧ d.running = true

theorem disconnect_services (host : Host W S H P) {h : SocketHandle} {d : Descriptor S H}
    (hd : r.registry.get? h = some d) :
    ∃ deeds, (disconnect host h r).2.session.journal = r.session.journal ++ deeds ∧
      services deeds = [] := by
  obtain ⟨deeds, hadv, hleave | ⟨-, hlast⟩⟩ := disconnect_advances host hd
  · exact ⟨deeds, hadv.journal, hleave.services⟩
  · exact ⟨deeds, hadv.journal, hlast.services⟩

theorem Abandons.serviced (h : r.Abandons host r') :
    ∃ deeds, r'.session.journal = r.session.journal ++ deeds ∧ services deeds = [] := by
  obtain ⟨hd, -⟩ := h
  exact disconnect_services host hd

/-- Nobody takes part who did not before. -/
theorem Serves.takesPart (h : r.Serves host r') {k : SocketHandle} (hk : r'.TakesPart k) :
    r.TakesPart k := by
  obtain ⟨d', hd', hr⟩ := hk
  cases h with
  | visited duty hd =>
      rcases visit_get? duty.work_works hd hd' with ⟨rfl, -, hrun⟩ | ⟨-, hd'⟩
      · exact ⟨_, hd, hrun ▸ hr⟩
      · exact ⟨d', hd', hr⟩
  | selected timeout admitted =>
      rw [selectStage_registry] at hd'
      exact ⟨d', hd', hr⟩
  | left hd => exact ⟨d', (disconnect_get? hd hd').2, hr⟩

/-- Those who are served take part. -/
theorem Serves.serviced (hs : host.SelectsAmong) (hk : r.registry.Keyed) (h : r.Serves host r') :
    ∃ deeds, r'.session.journal = r.session.journal ++ deeds ∧
      ∀ s ∈ services deeds, s.2.running = true ∧ r.TakesPart s.1 := by
  cases h with
  | @visited h d duty hd hc hr =>
      obtain ⟨deeds, hadv, hw⟩ := visit_advances duty.work_works hd
      refine ⟨deeds, hadv.journal, fun s hmem => ?_⟩
      obtain ⟨deed, hdeed, hserve⟩ := List.mem_filterMap.1 hmem
      obtain ⟨hhandle, hrun⟩ := (hw deed hdeed).service? hserve
      refine ⟨hrun.trans (hr hs), d, ?_, hr hs⟩
      rw [hhandle, hk h d hd]
      exact hd
  | selected timeout admitted =>
      obtain ⟨deeds, hsel, hadv⟩ := selectStage_advances host timeout admitted r
      refine ⟨deeds, hadv.journal, fun s hmem => ?_⟩
      rw [services_eq_nil fun deed hd => (hsel deed hd).service?] at hmem
      cases hmem
  | left hd =>
      obtain ⟨deeds, hj, hnone⟩ := disconnect_services host hd
      refine ⟨deeds, hj, fun s hmem => ?_⟩
      rw [hnone] at hmem
      cases hmem

/-- All that a tick serves took part when the service began. -/
theorem services_of_serves (hs : host.SelectsAmong) (hk : r.registry.Keyed)
    (h : Relation.ReflTransGen (Serves host) r r') :
    (∀ k, r'.TakesPart k → r.TakesPart k) ∧ r'.registry.Keyed ∧
      ∃ deeds, r'.session.journal = r.session.journal ++ deeds ∧
        ∀ s ∈ services deeds, s.2.running = true ∧ r.TakesPart s.1 := by
  induction h with
  | refl => exact ⟨fun _ h => h, hk, [], (List.append_nil _).symm, fun s hs => by cases hs⟩
  | tail _ hmove ih =>
      obtain ⟨hback, hkeyed, deeds, hj, hd⟩ := ih
      obtain ⟨more, hj', hm⟩ := hmove.serviced hs hkeyed
      refine ⟨fun k hk => hback k (hmove.takesPart hk), hmove.keyed hkeyed, deeds ++ more, ?_, ?_⟩
      · rw [hj', hj, List.append_assoc]
      · intro s hmem
        rw [services_append, List.mem_append] at hmem
        rcases hmem with hmem | hmem
        · exact hd s hmem
        · exact ⟨(hm s hmem).1, hback _ (hm s hmem).2⟩

theorem Move.serviced (hs : host.SelectsAmong) (hk : r.registry.Keyed) (h : r.Move host r') :
    ∃ deeds, r'.session.journal = r.session.journal ++ deeds ∧
      ∀ s ∈ services deeds, s.2.running = true := by
  have hnone : ∀ {deeds : List (Deed S H)}, services deeds = [] →
      ∀ s ∈ services deeds, s.2.running = true := by
    intro deeds hnil s hmem
    rw [hnil] at hmem
    cases hmem
  cases h with
  | applied | leavingOff | dismissed => exact ⟨[], (List.append_nil _).symm, hnone rfl⟩
  | admitted =>
      obtain ⟨deeds, hv, hadv⟩ := r.admitted_advances host
      exact ⟨deeds, hadv.journal, hnone (services_eq_nil fun deed hd => (hv deed hd).service?)⟩
  | served h =>
      obtain ⟨deeds, hj, hd⟩ := h.serviced hs hk
      exact ⟨deeds, hj, fun s hmem => (hd s hmem).1⟩
  | reported h =>
      obtain ⟨k, d, error, hearings, -, hh, hadv⟩ := h.advances
      refine ⟨_, hadv.journal, hnone (services_eq_nil fun deed hd => ?_)⟩
      rcases List.mem_cons.1 hd with rfl | hd
      · rfl
      · exact (hh deed hd).service?

/-- Along a whole run, only those are served who take part. -/
theorem services_of_moves (hs : host.SelectsAmong) (hk : r.registry.Keyed)
    (hr : ∀ s ∈ services r.session.journal, s.2.running = true) (h : r.Moves host r') :
    ∀ s ∈ services r'.session.journal, s.2.running = true := by
  induction h with
  | refl => exact hr
  | tail hmoves hmove ih =>
      obtain ⟨deeds, hj, hd⟩ := hmove.serviced hs (keyed_of_moves hk hmoves)
      rw [hj, services_append]
      intro s hmem
      exact (List.mem_append.1 hmem).elim (ih s) (hd s)

theorem services_closed (handles : List SocketHandle) :
    services (handles.map (.closed : SocketHandle → Deed S H)) = [] := by
  refine services_eq_nil fun deed hd => ?_
  obtain ⟨k, -, rfl⟩ := List.mem_map.1 hd
  rfl

/-- The end of a run serves nobody. -/
theorem Ends.serviced {ending : Ending RunFailure Unit} (h : r.Ends host ending r') :
    services r'.session.journal = services r.session.journal := by
  have hfinish : ∀ r : Run W S H P, services (finishPolicy host r).session.journal =
      services r.session.journal := fun r => by
    have hj : (finishPolicy host r).session.journal = r.session.journal ++ [.policyFinished] := rfl
    rw [hj, services_append]
    exact List.append_nil _
  have hclose : ∀ r : Run W S H P, services (closeAll host r).session.journal =
      services r.session.journal := fun r => by
    rw [journal_closeAll, services_append, services_closed, List.append_nil]
  cases h with
  | well => rw [hclose, hfinish]
  | failed => rw [hfinish, hclose]
  | unfinished | crashed => rfl
  | abandoned h =>
      obtain ⟨deeds, hj, hnone⟩ := h.serviced
      rw [hj, services_append, hnone, List.append_nil]

/-! ## A tick -/

/-- All that a tick serves takes part once the tick has let sockets in. -/
theorem tick_services (hs : host.SelectsAmong) (config : ExecutorConfig) (hk : r.registry.Keyed) :
    ∃ deeds, (tick host config r).2.session.journal = r.session.journal ++ deeds ∧
      ∀ s ∈ services deeds, (r.applied.admitted host).TakesPart s.1 := by
  have hkeyed : r.applied.registry.Keyed := keyed_applied hk
  have hsame : r.applied.session.journal = r.session.journal := rfl
  rw [tick_apply]
  rcases attend_serves config hkeyed with hstay | ⟨last, hm, hend⟩
  · refine ⟨[], ?_, fun s hmem => by cases hmem⟩
    rw [hstay, hsame, List.append_nil]
  · obtain ⟨verdicts, hv, hadv⟩ := r.applied.admitted_advances host
    have hverdicts : services verdicts = [] :=
      services_eq_nil fun deed hd => (hv deed hd).service?
    obtain ⟨-, hlast, deeds, hj, hd⟩ := services_of_serves hs (serving_participants hkeyed).1 hm
    have htick : ∃ more, (attend host config r.applied).2.session.journal =
        last.session.journal ++ more ∧ services more = [] := by
      rcases hend with rfl | habandon
      · exact ⟨[], (List.append_nil _).symm, rfl⟩
      · exact habandon.serviced
    obtain ⟨more, hmore, hnone⟩ := htick
    refine ⟨verdicts ++ deeds ++ more, ?_, ?_⟩
    · rw [hmore, hj, hadv.journal, hsame]
      simp only [List.append_assoc]
    · intro s hmem
      rw [services_append, services_append, hverdicts, hnone, List.append_nil,
        List.nil_append] at hmem
      exact (hd s hmem).2

/-- There are no more sockets in a list than take part, if all of them do. -/
theorem length_le_runningCount {l : List SocketHandle} (hn : l.Nodup)
    (hl : ∀ h ∈ l, r.TakesPart h) : l.length ≤ Registry.runningCount r.registry := by
  let taking := (r.registry.entries.filter fun e => e.2.running).map Prod.fst
  have hsub : l ⊆ taking := by
    intro h hmem
    obtain ⟨d, hd, hr⟩ := hl h hmem
    refine List.mem_map.2 ⟨(h, d), List.mem_filter.2 ⟨?_, hr⟩, rfl⟩
    exact HandleMap.mem_entries.2 hd
  have hcount : taking.length = Registry.runningCount r.registry := by
    rw [List.length_map, Registry.runningCount, HandleMap.values, List.countP_map,
      List.countP_eq_length_filter]
    rfl
  rw [← hcount]
  exact (List.Nodup.subperm hn hsub).length_le

end Run

end Reactor
