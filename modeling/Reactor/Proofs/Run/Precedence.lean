import Reactor.Policy.Rules
import Reactor.Proofs.Run.Replay

/-! First come, first served: a policy that never passes over a socket admits the sockets in the
order of their handles, which is that of their registration. -/

namespace Reactor

variable {W S H P : Type} {host : Host W S H P}

/-- The socket that the policy lets in, if the deed is such a verdict. -/
def Deed.granted? : Deed S H → Option SocketHandle
  | .decided h .grant => some h
  | _ => none

def granted (journal : List (Deed S H)) : List SocketHandle := journal.filterMap Deed.granted?

@[simp] theorem granted_append (journal deeds : List (Deed S H)) :
    granted (journal ++ deeds) = granted journal ++ granted deeds := by
  simp [granted]

theorem granted_eq_nil {deeds : List (Deed S H)} (hd : ∀ deed ∈ deeds, deed.granted? = none) :
    granted deeds = [] := by
  simpa [granted] using hd

theorem Deed.IsWork.granted? {h : SocketHandle} {running : Bool} {deed : Deed S H}
    (hd : deed.IsWork host h running) : deed.granted? = none := by
  cases deed with
  | decided => exact hd.elim
  | _ => rfl

theorem Deed.IsLast.granted? {h : SocketHandle} {kind : EventKind} {deed : Deed S H}
    (hd : deed.IsLast host h kind) : deed.granted? = none := by
  cases deed with
  | decided => exact hd.elim
  | _ => rfl

theorem Leavetaking.granted_eq {d : Descriptor S H} {deeds : List (Deed S H)}
    (hl : Leavetaking host d deeds) : granted deeds = [] := by
  refine granted_eq_nil fun deed hd => ?_
  obtain rfl | ⟨kind, -, hlast⟩ := hl.closed_or_isLast hd
  · rfl
  · exact hlast.granted?

/-- The policy passes over nobody: whoever is held back holds back all that come after. -/
def Host.NeverSkips (host : Host W S H P) : Prop :=
  ∀ world policy d context, (host.policy.decide world policy d context).1 ≠ .skip

theorem neverSkips_constantLimit {host : Host W S H ConstantLimitPolicy}
    (hp : host.policy = .constantLimit) : host.NeverSkips := by
  intro world policy d context
  rw [hp]
  show policy.decide.1 ≠ _
  unfold ConstantLimitPolicy.decide
  split <;> simp

/-! ## The admission of a tick -/

namespace AdmissionPass

/-- Either a socket that waits is let in, or nobody is; if a socket goes on waiting then, nobody
that comes later is let in in this tick. -/
theorem consider_grants (hn : host.NeverSkips) (pass : AdmissionPass W S H P)
    (d : Descriptor S H) :
    (pass.deferred = false ∧ d.isComplete = false ∧ d.running = false ∧
        (pass.consider host d).1.running = true ∧
        granted (pass.consider host d).2.session.journal =
          granted pass.session.journal ++ [d.handle]) ∨
      ((pass.consider host d).1.running = d.running ∧
        granted (pass.consider host d).2.session.journal = granted pass.session.journal ∧
        (pass.deferred = true → (pass.consider host d).2.deferred = true) ∧
        (d.isComplete = false → d.running = false →
          (pass.consider host d).2.deferred = true)) := by
  unfold consider
  split
  · rename_i hc
    exact .inr ⟨rfl, rfl, id, fun hactive => absurd hc (by simp [hactive])⟩
  rename_i hc
  split
  · rename_i hr
    exact .inr ⟨rfl, rfl, id, fun _ hwaits => absurd hr (by simp [hwaits])⟩
  rename_i hr
  split
  · rename_i hdeferred
    exact .inr ⟨rfl, rfl, id, fun _ _ => hdeferred⟩
  rename_i hdeferred
  have hnot := hn pass.session.world pass.session.policy d pass.session.context.context
  unfold ask Session.decide
  rcases hv : host.policy.decide pass.session.world pass.session.policy d
    pass.session.context.context with ⟨decision, policy, world, stop⟩
  rw [hv] at hnot
  have hj : ∀ decision, granted (({ pass.session with policy := policy, world := world }.stopIf
      stop).note (.decided d.handle decision)).journal =
        granted pass.session.journal ++
          granted ([.decided d.handle decision] : List (Deed S H)) := by
    intro decision
    simp [Session.note]
  cases decision with
  | grant => exact .inl ⟨by simpa using hdeferred, by simpa using hc, by simpa using hr, rfl, hj _⟩
  | skip => exact absurd rfl hnot
  | defer => exact .inr ⟨rfl, (hj _).trans (List.append_nil _), fun _ => rfl, fun _ _ => rfl⟩

/-- What the admission of a tick makes of the entries of the registry, given those that are let
in. -/
structure Admits (entries entries' : List (SocketHandle × Descriptor S H))
    (news : List SocketHandle) : Prop where
  order : news.Pairwise fun h k => h.number < k.number
  waited : ∀ h ∈ news, ∃ d, (h, d) ∈ entries ∧ d.isComplete = false ∧ d.running = false
  running : ∀ e ∈ entries', e.2.running = true →
    (∃ d, (e.1, d) ∈ entries ∧ d.running = true) ∨ e.1 ∈ news
  waiting : ∀ e ∈ entries', e.2.isComplete = false → e.2.running = false →
    (∃ d, (e.1, d) ∈ entries ∧ d.isComplete = false ∧ d.running = false) ∧
      ∀ h ∈ news, h.number < e.1.number

section Admits

variable {entries entries' : List (SocketHandle × Descriptor S H)} {news : List SocketHandle}

theorem admits_nil : Admits ([] : List (SocketHandle × Descriptor S H)) [] [] := by
  refine ⟨.nil, ?_, ?_, ?_⟩
  all_goals
    intro _ hmem
    cases hmem

theorem Admits.widen (ha : Admits entries entries' news) (e : SocketHandle × Descriptor S H) :
    Admits (e :: entries) entries' news where
  order := ha.order
  waited h hh := by
    obtain ⟨d, hd, hwaited⟩ := ha.waited h hh
    exact ⟨d, List.mem_cons_of_mem _ hd, hwaited⟩
  running e' he' hr := by
    refine (ha.running e' he' hr).imp ?_ id
    rintro ⟨d, hd, hrunning⟩
    exact ⟨d, List.mem_cons_of_mem _ hd, hrunning⟩
  waiting e' he' hc hr := by
    obtain ⟨⟨d, hd, hwaits⟩, hbefore⟩ := ha.waiting e' he' hc hr
    exact ⟨⟨d, List.mem_cons_of_mem _ hd, hwaits⟩, hbefore⟩

/-- Whoever is let in comes before all that are asked about later. -/
theorem Admits.letIn (ha : Admits entries entries' news) {h : SocketHandle}
    {d d' : Descriptor S H} (hfirst : ∀ e ∈ entries, h.number < e.1.number)
    (hactive : d.isComplete = false) (hwaited : d.running = false) (hrunning : d'.running = true) :
    Admits ((h, d) :: entries) ((h, d') :: entries') (h :: news) where
  order := by
    refine List.pairwise_cons.2 ⟨fun k hk => ?_, ha.order⟩
    obtain ⟨_, hmem, -⟩ := ha.waited k hk
    exact hfirst _ hmem
  waited k hk := by
    rcases List.mem_cons.1 hk with rfl | hk
    · exact ⟨d, List.mem_cons_self, hactive, hwaited⟩
    · exact (ha.widen _).waited k hk
  running e he hr := by
    rcases List.mem_cons.1 he with rfl | he
    · exact .inr List.mem_cons_self
    · exact ((ha.widen _).running e he hr).imp id (List.mem_cons_of_mem _)
  waiting e he hc hr := by
    rcases List.mem_cons.1 he with rfl | he'
    · rw [hrunning] at hr
      cases hr
    · obtain ⟨⟨still, hmem, hwaits⟩, hbefore⟩ := ha.waiting e he' hc hr
      refine ⟨⟨still, List.mem_cons_of_mem _ hmem, hwaits⟩, fun k hk => ?_⟩
      rcases List.mem_cons.1 hk with rfl | hk'
      · exact hfirst (e.1, still) hmem
      · exact hbefore k hk'

/-- If somebody is left waiting, then nobody that comes later is let in. -/
theorem Admits.passBy (ha : Admits entries entries' news) {h : SocketHandle}
    {d d' : Descriptor S H} (hrunning : d'.running = d.running)
    (hcomplete : d'.isComplete = d.isComplete)
    (hholds : d.isComplete = false → d.running = false → news = []) :
    Admits ((h, d) :: entries) ((h, d') :: entries') news where
  order := ha.order
  waited := (ha.widen _).waited
  running e he hr := by
    rcases List.mem_cons.1 he with rfl | he
    · exact .inl ⟨d, List.mem_cons_self, hrunning.symm.trans hr⟩
    · exact (ha.widen _).running e he hr
  waiting e he hc hr := by
    rcases List.mem_cons.1 he with rfl | he
    · have hactive : d.isComplete = false := hcomplete.symm.trans hc
      have hwaits : d.running = false := hrunning.symm.trans hr
      refine ⟨⟨d, List.mem_cons_self, hactive, hwaits⟩, fun k hk => ?_⟩
      rw [hholds hactive hwaits] at hk
      cases hk
    · exact (ha.widen _).waiting e he hc hr

end Admits

/-- The handles come in increasing order, so sockets are let in by their handles. -/
theorem traverse_admits (hn : host.NeverSkips) (entries : List (SocketHandle × Descriptor S H)) :
    ∀ pass : AdmissionPass W S H P,
      entries.Pairwise (fun e e' => e.1.number < e'.1.number) →
      (∀ e ∈ entries, e.2.handle = e.1) →
      ∃ news, granted (HandleMap.traverseEntries (consider host) entries pass).2.session.journal =
          granted pass.session.journal ++ news ∧
        (pass.deferred = true → news = []) ∧
        Admits entries (HandleMap.traverseEntries (consider host) entries pass).1 news := by
  induction entries with
  | nil => exact fun pass _ _ => ⟨[], (List.append_nil _).symm, fun _ => rfl, admits_nil⟩
  | cons e rest ih =>
      intro pass hsorted hkeyed
      obtain ⟨hfirst, hrest⟩ := List.pairwise_cons.1 hsorted
      obtain ⟨news, hj, hdeferred, hadmits⟩ :=
        ih (pass.consider host e.2).2 hrest fun e' he' => hkeyed e' (List.mem_cons_of_mem _ he')
      rcases pass.consider_grants hn e.2 with
        ⟨hopen, hactive, hwaited, hrunning, hgranted⟩ | ⟨hrunning, hgranted, hstays, hholds⟩
      · refine ⟨e.1 :: news, ?_, fun h => absurd h (by simp [hopen]),
          hadmits.letIn hfirst hactive hwaited hrunning⟩
        rw [HandleMap.traverseEntries, hj, hgranted, hkeyed e List.mem_cons_self,
          List.append_assoc]
        rfl
      · have hcomplete : (pass.consider host e.2).1.isComplete = e.2.isComplete := by
          have hconsidered : e.2.Considered (pass.consider host e.2).1 :=
            pass.consider_considered e.2
          obtain ⟨_, _, heq, -⟩ := hconsidered
          rw [heq]
          rfl
        refine ⟨news, ?_, fun h => hdeferred (hstays h), hadmits.passBy hrunning hcomplete
          fun hactive hwaits => hdeferred (hholds hactive hwaits)⟩
        rw [HandleMap.traverseEntries, hj, hgranted]

end AdmissionPass

namespace Run

variable {start r r' : Run W S H P}

theorem admitted_admits (hn : host.NeverSkips) (hk : r.registry.Keyed) :
    ∃ news, granted (r.admitted host).session.journal = granted r.session.journal ++ news ∧
      AdmissionPass.Admits r.registry.entries (r.admitted host).registry.entries news := by
  obtain ⟨news, hj, -, hadmits⟩ := AdmissionPass.traverse_admits hn r.registry.entries
    ⟨false, [], r.session⟩ r.registry.sorted fun e he => hk _ _ (HandleMap.mem_entries.1 he)
  exact ⟨news, hj, hadmits⟩

/-! ## The whole run -/

/-- Sockets have been let in in the order of their handles. Whoever takes part is one of them, and
whoever waits has come after all of them, as every registration in the queue has come after all that
are registered or have been let in. -/
structure Ranked (r : Run W S H P) : Prop where
  order : (granted r.session.journal).Pairwise fun h k => h.number < k.number
  known : ∀ h, h ∈ r.registry.keys ∨ h ∈ granted r.session.journal →
    h.number < r.session.context.nextHandle.number ∧
      ∀ k ∈ enrolling r.session.context.changes, h.number < k.number
  running : ∀ h d, r.registry.get? h = some d → d.running = true →
    h ∈ granted r.session.journal
  waiting : ∀ h d, r.registry.get? h = some d → d.isComplete = false → d.running = false →
    ∀ k ∈ granted r.session.journal, k.number < h.number

/-- Whoever has come before a socket that takes part takes part as well, unless it has nothing left
to do. -/
theorem Ranked.precedes (hr : r.Ranked) {h k : SocketHandle} {d e : Descriptor S H}
    (hd : r.registry.get? h = some d) (he : r.registry.get? k = some e)
    (hlt : h.number < k.number) (hc : d.isComplete = false) (hrun : e.running = true) :
    d.running = true := by
  by_contra hwaits
  have hafter := hr.waiting h d hd hc (by simpa using hwaits) k (hr.running k e he hrun)
  omega

/-- The queue gets nothing but later handles. -/
theorem Defers.known (hr : r.Ranked) {deeds : List (Deed S H)} (hd : r.Defers deeds r')
    {h : SocketHandle} (hh : h ∈ r.registry.keys ∨ h ∈ granted r.session.journal) :
    h.number < r'.session.context.nextHandle.number ∧
      ∀ k ∈ enrolling r'.session.context.changes, h.number < k.number := by
  obtain ⟨hlt, hqueued⟩ := hr.known h hh
  refine ⟨?_, fun k hk => ?_⟩
  · rw [hd.nextHandle]
    exact Nat.lt_of_lt_of_le hlt (Nat.le_add_right _ _)
  · rw [hd.changes, enrolling_append, List.mem_append] at hk
    rcases hk with hk | hk
    · exact hqueued k hk
    · exact Nat.lt_of_lt_of_le hlt (le_of_mem_enrolling_queueOf hk)

/-- Nobody is let in, nobody begins to take part, and nobody gets something to do again. -/
theorem Ranked.goOn (hr : r.Ranked) {deeds : List (Deed S H)} (hd : r.Defers deeds r')
    (hg : granted r'.session.journal = granted r.session.journal)
    (hget : ∀ h d', r'.registry.get? h = some d' → ∃ d, r.registry.get? h = some d ∧
      d'.running = d.running ∧ (d'.isComplete = false → d.isComplete = false)) :
    r'.Ranked where
  order := by
    rw [hg]
    exact hr.order
  known h hh := by
    rw [hg] at hh
    exact hd.known hr (hh.imp (hd.keys.mem ·) id)
  running h d' hd' hrun := by
    obtain ⟨d, hd, hsame, -⟩ := hget h d' hd'
    rw [hg]
    exact hr.running h d hd (hsame ▸ hrun)
  waiting h d' hd' hc hwaits := by
    obtain ⟨d, hd, hsame, hactive⟩ := hget h d' hd'
    rw [hg]
    exact hr.waiting h d hd (hactive hc) (hsame ▸ hwaits)

theorem Ranked.admitted (hr : r.Ranked) (hn : host.NeverSkips) (hk : r.registry.Keyed) :
    (r.admitted host).Ranked := by
  obtain ⟨deeds, hd⟩ := (Interim.admitted : r.Interim host _).defers
  obtain ⟨news, hg, hadmits⟩ := admitted_admits hn hk
  have hwaited : ∀ h ∈ news, ∃ d, r.registry.get? h = some d ∧ d.isComplete = false ∧
      d.running = false := by
    intro h hh
    obtain ⟨d, hmem, hrest⟩ := hadmits.waited h hh
    exact ⟨d, HandleMap.mem_entries.1 hmem, hrest⟩
  refine ⟨?_, fun h hh => ?_, fun h d' hd' hrun => ?_, fun h d' hd' hc hwaits k hk' => ?_⟩
  · rw [hg, List.pairwise_append]
    refine ⟨hr.order, hadmits.order, fun k hk' h hh => ?_⟩
    obtain ⟨d, hdh, hc, hwaits⟩ := hwaited h hh
    exact hr.waiting h d hdh hc hwaits k hk'
  · refine hd.known hr ?_
    rw [keys_admitted, hg, List.mem_append] at hh
    rcases hh with hh | hh | hh
    · exact .inl hh
    · exact .inr hh
    · obtain ⟨d, hdh, -⟩ := hwaited h hh
      exact .inl (HandleMap.mem_keys.2 ⟨d, hdh⟩)
  · rw [hg, List.mem_append]
    refine (hadmits.running (h, d') (HandleMap.mem_entries.2 hd') hrun).imp ?_ id
    rintro ⟨d, hmem, hrun'⟩
    exact hr.running h d (HandleMap.mem_entries.1 hmem) hrun'
  · obtain ⟨⟨d, hmem, hactive, hstill⟩, hbefore⟩ :=
      hadmits.waiting (h, d') (HandleMap.mem_entries.2 hd') hc hwaits
    rw [hg, List.mem_append] at hk'
    rcases hk' with hk' | hk'
    · exact hr.waiting h d (HandleMap.mem_entries.1 hmem) hactive hstill k hk'
    · exact hbefore k hk'

/-- The sockets in the queue have come after all that have been let in, so they may wait. -/
theorem Ranked.applied (hr : r.Ranked) (ha : start.Accounted r)
    (hs : ∀ h ∈ start.registry.keys, h.number < start.session.context.nextHandle.number) :
    r.applied.Ranked := by
  refine ⟨hr.order, fun h hh => ⟨?_, fun k hk => by cases hk⟩, fun h d' hd' hrun => ?_,
    fun h d' hd' hc hwaits k hk => ?_⟩
  · rcases hh with hh | hh
    · exact (ha.applied hs).lt_nextHandle hs hh
    · exact (hr.known h (.inr hh)).1
  · rcases ha.get?_applied_cases hs hd' with ⟨d, hd, hwork, -⟩ | ⟨-, hwaits⟩
    · exact hr.running h d hd (hwork.running ▸ hrun)
    · rw [hwaits] at hrun
      cases hrun
  · rcases ha.get?_applied_cases hs hd' with ⟨d, hd, hwork, hactive⟩ | ⟨hqueued, -⟩
    · refine hr.waiting h d hd ?_ (hwork.running ▸ hwaits) k hk
      by_contra hcomplete
      rw [hactive (by simpa using hcomplete)] at hc
      cases hc
    · exact (hr.known k (.inr hk)).2 h hqueued

theorem reportFailure_isComplete (host : Host W S H P) (error : IoError) (v : Visit W S H P) :
    (Visit.reportFailure host error v).2.descriptor.isComplete = false →
      v.descriptor.isComplete = false := by
  have hsame : (Visit.dispatchFault host (.io error) none v).2.descriptor.isComplete =
      v.descriptor.isComplete := by
    obtain ⟨-, -, -, own, hd⟩ := Visit.dispatchFault_advances host (.io error) none v
    rw [hd]
    rfl
  rw [Visit.reportFailure]
  rcases hf : Visit.dispatchFault host (.io error) none v with ⟨_ | (_ | text) | _, t⟩
  all_goals rw [hf] at hsame
  · rw [Step.bind_of_done (Step.attempt_of_done hf)]
    exact fun h => by cases h
  · rw [Step.bind_of_done (Step.attempt_of_cut hf)]
    exact fun h => by cases h
  · rw [Step.bind_of_done (Step.attempt_of_cut hf)]
    exact hsame.symm.trans
  · rw [Step.bind_of_crashed (Step.attempt_of_crashed hf)]
    exact hsame.symm.trans

theorem Ranked.serves (hr : r.Ranked) (h : r.Serves host r') : r'.Ranked := by
  obtain ⟨deeds, hdefers⟩ := (Interim.served h).defers
  cases h with
  | visited duty hd hc =>
      obtain ⟨made, hadv, hwork⟩ := visit_advances duty.work_works hd
      refine hr.goOn hdefers ?_ fun k d' hk => ?_
      · rw [hadv.journal, granted_append,
          granted_eq_nil fun deed hdeed => (hwork deed hdeed).granted?, List.append_nil]
      · rcases visit_get? duty.work_works hd hk with ⟨rfl, -, hsame⟩ | ⟨-, hk⟩
        · exact ⟨_, hd, hsame, fun _ => hc⟩
        · exact ⟨d', hk, rfl, id⟩
  | selected timeout admitted =>
      refine hr.goOn hdefers ?_ fun k d' hk => ?_
      · unfold selectStage
        dsimp only
        split
        · rfl
        · simp [Session.note, granted, Deed.granted?]
      · rw [selectStage_registry] at hk
        exact ⟨d', hk, rfl, id⟩
  | left hd hc hl =>
      obtain ⟨made, hadv, hleave⟩ := disconnect_advances host hd
      refine hr.goOn hdefers ?_ fun k d' hk => ⟨d', (disconnect_get? hd hk).2, rfl, id⟩
      rw [hadv.journal, granted_append, (hleave.resolve_right fun h => hl h.1).granted_eq,
        List.append_nil]

theorem Ranked.move (hr : r.Ranked) (hn : host.NeverSkips) (ha : start.Accounted r)
    (hs : ∀ h ∈ start.registry.keys, h.number < start.session.context.nextHandle.number)
    (h : r.Move host r') : r'.Ranked := by
  rcases move_iff.1 h with rfl | hstep
  · exact hr.applied ha hs
  obtain ⟨deeds, hdefers⟩ := hstep.defers
  cases hstep with
  | admitted => exact hr.admitted hn ha.keyed
  | served h => exact hr.serves h
  | leavingOff => exact hr.goOn hdefers rfl fun k d' hk => ⟨d', hk, rfl, id⟩
  | dismissed =>
      refine hr.goOn hdefers rfl fun k d' hk => ?_
      rw [Run.dismissed, HandleMap.get?_map] at hk
      obtain ⟨d, hd, rfl⟩ := Option.map_eq_some_iff.1 hk
      exact ⟨d, hd, rfl, fun h => by cases h⟩
  | reported h =>
      obtain ⟨k, d, error, hearings, -, hh, hadv⟩ := h.advances
      have hnone : granted (.reported d.handle d.standing (.io error) none :: hearings) = [] := by
        refine granted_eq_nil fun deed hdeed => ?_
        rcases List.mem_cons.1 hdeed with rfl | hdeed
        · rfl
        · have hwork : deed.IsWork host d.handle d.running := (hh deed hdeed).isWork
          exact hwork.granted?
      refine hr.goOn hdefers ?_ fun j d' hj => ?_
      · rw [hadv.journal, granted_append, hnone, List.append_nil]
      · obtain @⟨k', d₀, error', hd₀⟩ := h
        rcases visit_get? (Visit.reportFailure_works error') hd₀ hj with ⟨rfl, -, hsame⟩ | ⟨-, hj⟩
        · refine ⟨d₀, hd₀, hsame, fun hc => ?_⟩
          rw [visit_of_some _ hd₀, HandleMap.get?_modify, if_pos rfl, hd₀] at hj
          obtain rfl := Option.some.inj hj
          exact reportFailure_isComplete host error' _ hc
        · exact ⟨d', hj, rfl, id⟩

theorem Ranked.moves (hr : start.Ranked) (hn : host.NeverSkips) (ha : start.Accounted start)
    (hs : ∀ h ∈ start.registry.keys, h.number < start.session.context.nextHandle.number)
    (h : start.Moves host r) : r.Ranked := by
  induction h with
  | refl => exact hr
  | tail hbefore hmove ih => exact ih.move hn (ha.moves hs hbefore) hs hmove

/-- At its end a run lets nobody in. -/
theorem Ends.granted_eq {ending : Ending RunFailure Unit} (h : r.Ends host ending r') :
    granted r'.session.journal = granted r.session.journal := by
  have hclosed : ∀ r : Run W S H P,
      granted (closeAll host r).session.journal = granted r.session.journal := by
    intro r
    have hnone : ∀ handles : List SocketHandle,
        granted (handles.map (.closed : SocketHandle → Deed S H)) = [] := by
      refine fun handles => granted_eq_nil fun deed hd => ?_
      obtain ⟨k, -, rfl⟩ := List.mem_map.1 hd
      rfl
    rw [journal_closeAll, granted_append, hnone, List.append_nil]
  have hfinished : ∀ r : Run W S H P,
      granted (finishPolicy host r).session.journal = granted r.session.journal := fun r =>
    (granted_append _ _).trans (List.append_nil _)
  cases h with
  | well => rw [hclosed, hfinished]
  | failed text => rw [hfinished, hclosed]
  | unfinished | crashed => rfl
  | abandoned h =>
      obtain ⟨hd, -⟩ := h
      obtain ⟨deeds, hadv, hleave | ⟨-, hlast⟩⟩ := disconnect_advances host hd
      · rw [hadv.journal, granted_append, hleave.granted_eq, List.append_nil]
      · rw [hadv.journal, granted_append,
          granted_eq_nil fun deed hdeed => (hlast.isLast deed hdeed).granted?, List.append_nil]

end Run

end Reactor
