import Reactor.Proofs.Run.Moves

/-! The course of a run, stage by stage: each is a chain of moves, and so is the run. -/

namespace Reactor.Run

variable {W S H P : Type} {host : Host W S H P}

/-! ## The stages of a tick -/

/-- Work that moves on by `M`, and of which a crash may abandon a socket. -/
abbrev FollowsFrom {ε α : Type} (host : Host W S H P) (M : Run W S H P → Run W S H P → Prop)
    (P' : Run W S H P → Prop) (x : Step (Run W S H P) ε α)
    (Q : α → Run W S H P → Prop) : Prop :=
  Step.Follows M (Abandons host) P' x Q

theorem checkStop_follows {M : Run W S H P → Run W S H P → Prop} {P' : Run W S H P → Prop} :
    FollowsFrom host M P' (onSession Session.checkStop) fun _ => P' := by
  intro r hr
  have hsame : (onSession Session.checkStop r).2 = r := by
    simp only [onSession, Step.within, Session.checkStop]
    split <;> rfl
  rw [hsame]
  exact ⟨⟨r, .refl, .inl rfl⟩, fun _ _ => hr⟩

theorem visit_follows (host : Host W S H P) (duty : Duty) {handles : List SocketHandle}
    {h : SocketHandle} (hh : h ∈ handles) :
    FollowsFrom host (Serves host) (Serving host handles)
      (visit h (Visit.unlessComplete (duty.work host))) fun _ => Serving host handles := by
  intro r hr
  rcases hd : r.registry.get? h with _ | d
  · rw [visit_of_none _ hd]
    exact ⟨⟨r, .refl, .inl rfl⟩, fun _ _ => hr⟩
  cases hc : d.isComplete with
  | true =>
      rw [visit_of_complete _ hd hc]
      exact ⟨⟨r, .refl, .inl rfl⟩, fun _ _ => hr⟩
  | false =>
      rw [visit_of_active _ hd hc]
      have hserves : r.Serves host (visit h (duty.work host) r).2 :=
        .visited duty hd hc (hr h hh d hd)
      exact ⟨⟨_, .single hserves, .inl rfl⟩, fun _ _ => hserves.serving hr⟩

theorem forEachActive_follows (duty : Duty) {handles : List SocketHandle} :
    ∀ {hs : List SocketHandle}, (∀ h ∈ hs, h ∈ handles) →
      FollowsFrom host (Serves host) (Serving host handles)
        (forEachActive hs (duty.work host)) fun _ => Serving host handles := by
  intro hs
  induction hs with
  | nil => exact fun _ => .pure fun _ hr => hr
  | cons h rest ih =>
      intro hsub
      rw [forEachActive_cons]
      have hvisit := visit_follows host duty (hsub h List.mem_cons_self)
      refine (checkStop_follows.bind fun _ => hvisit).bind fun _ => ?_
      exact ih fun k hk => hsub k (List.mem_cons_of_mem _ hk)

theorem mem_interests {r : Run W S H P} {admitted : List SocketHandle} (hk : r.registry.Keyed)
    {i : Interest} (hi : i ∈ r.interests host admitted) : i.handle ∈ admitted := by
  simp only [interests, List.mem_filterMap] at hi
  obtain ⟨d, ⟨h, hh, hd⟩, hint⟩ := hi
  have hhandle : i.handle = d.handle := by
    unfold Descriptor.interest? at hint
    split at hint
    · cases hint
    · revert hint
      dsimp only
      split <;> rintro ⟨⟩ <;> rfl
  rw [hhandle, hk h d hd]
  exact hh

/-- Only sockets that take part in the tick become ready. -/
theorem selectStage_follows (timeout : Duration) (admitted : List SocketHandle) :
    FollowsFrom host (Serves host)
      (fun r => r.registry.Keyed ∧ r.Serving host admitted)
      (selectStage host timeout admitted) fun ready r =>
        r.registry.Keyed ∧ r.Serving host (ready.read ++ ready.write) := by
  rintro r ⟨hk, hr⟩
  have hserves : r.Serves host (selectStage host timeout admitted r).2 := .selected timeout admitted
  refine ⟨⟨_, .single hserves, .inl rfl⟩, fun ready hready => ⟨hserves.keyed hk, ?_⟩⟩
  intro h hh d hd hsel
  rw [selectStage_registry] at hd
  refine hr h ?_ d hd hsel
  unfold selectStage at hready
  dsimp only at hready
  split at hready
  · cases hready
    cases hh
  · rcases hres : (host.select r.session.world (r.interests host admitted) timeout).result
      with error | ready'
    all_goals rw [hres] at hready
    all_goals cases hready
    obtain ⟨i, hi, rfl⟩ := hsel _ _ _ _ hres h hh
    exact mem_interests hk hi

theorem ioStage_follows (host : Host W S H P) (ready : Readiness) :
    FollowsFrom host (Serves host) (Serving host (ready.read ++ ready.write))
      (ioStage host ready) fun _ => Serving host (ready.read ++ ready.write) := by
  refine .bind (forEachActive_follows .reading fun h hh => ?_) fun _ =>
    forEachActive_follows .writing fun h hh => ?_
  · exact List.mem_append_left _ hh
  · exact List.mem_append_right _ hh

theorem disconnect_follows {handles : List SocketHandle} {h : SocketHandle} (hh : h ∈ handles) :
    FollowsFrom host (Serves host) (Finished handles) (disconnect host h) fun _ _ => True := by
  intro r hr
  rcases hd : r.registry.get? h with _ | d
  · rw [disconnect_of_none hd]
    exact ⟨⟨r, .refl, .inl rfl⟩, fun _ _ => trivial⟩
  by_cases hl : (disconnect host h r).1 = .crashed
  · exact ⟨⟨r, .refl, .inr ⟨hl, .lost hd hl⟩⟩, fun _ _ => trivial⟩
  · exact ⟨⟨_, .single (.left hd (hr h hh d hd) hl), .inl rfl⟩, fun _ _ => trivial⟩

theorem disconnectAll_follows {handles : List SocketHandle} :
    ∀ {hs : List SocketHandle}, (∀ h ∈ hs, h ∈ handles) →
      FollowsFrom host (Serves host) (Finished handles) (disconnectAll host hs)
        fun _ _ => True := by
  intro hs
  induction hs with
  | nil => exact fun _ => .pure fun _ _ => trivial
  | cons h rest ih =>
      intro hsub
      refine .bind ((disconnect_follows (hsub h List.mem_cons_self)).attempt_keeping
        (fun _ _ hs hm => hm.finished hs) fun _ hr => hr) fun first => ?_
      have hrest := ih fun k hk => hsub k (List.mem_cons_of_mem _ hk)
      refine (hrest.weaken (fun _ hr => hr.1) fun _ _ hr => hr).attempt.bind fun others => ?_
      split
      · exact .cut
      · exact .cut
      · exact .pure fun _ _ => trivial

theorem finished_completed {r : Run W S H P} (hk : r.registry.Keyed) :
    r.Finished (Registry.completed r.registry) := by
  intro h hh d hd
  simp only [Registry.completed, List.mem_map, List.mem_filter, HandleMap.mem_values] at hh
  obtain ⟨d', ⟨⟨k, hk'⟩, hc⟩, rfl⟩ := hh
  rw [hk k d' hk', hk'] at hd
  exact Option.some.inj hd ▸ hc

theorem disconnectStage_follows :
    FollowsFrom host (Serves host) (fun r => r.registry.Keyed) (disconnectStage host)
      fun _ _ => True := fun r hk =>
  disconnectAll_follows (fun _ hh => hh) r (finished_completed hk)

/-! ## A run -/

theorem activeCount_eq_zero {r : Registry S H} :
    Registry.activeCount r = 0 ↔ ∀ h d, HandleMap.get? r h = some d → d.isComplete = true := by
  simp only [Registry.activeCount, List.length_eq_zero_iff, List.filter_eq_nil_iff,
    HandleMap.mem_values]
  constructor
  · intro hr h d hd
    simpa using hr d ⟨h, hd⟩
  · rintro hr d ⟨h, hd⟩
    simpa using hr h d hd

theorem activeCount_dismissed (r : Run W S H P) :
    Registry.activeCount r.dismissed.registry = 0 := by
  refine activeCount_eq_zero.2 fun h d hd => ?_
  rw [Run.dismissed, HandleMap.get?_map] at hd
  obtain ⟨d, -, rfl⟩ := Option.map_eq_some_iff.1 hd
  rfl

/-- What a tick does once it is settled who takes part in it. -/
def serveAdmitted (host : Host W S H P) (config : ExecutorConfig) (admitted : List SocketHandle) :
    Step (Run W S H P) Halt (Option Exit) := do
  connectStage host admitted
  onSession Session.checkStop
  match ← (selectStage host config.pollTimeout admitted).attempt with
  | .error error => return some (.selectFailed error)
  | .ok ready =>
      ioStage host ready
      disconnectStage host
      return none

/-- A tick once the queued changes have been applied. -/
def attend (host : Host W S H P) (config : ExecutorConfig) :
    Step (Run W S H P) Halt (Option Exit) := do
  onSession Session.checkStop
  if Registry.activeCount (← Step.get).registry = 0 then
    return some .drained
  serveAdmitted host config (← admission host)

theorem tick_apply (config : ExecutorConfig) (r : Run W S H P) :
    tick host config r = attend host config r.applied := rfl

/-- The part of `serveAdmitted` before leave is taken. -/
def serviceOf (host : Host W S H P) (config : ExecutorConfig) (admitted : List SocketHandle) :
    Step (Run W S H P) Halt (Option Exit) := do
  connectStage host admitted
  onSession Session.checkStop
  match ← (selectStage host config.pollTimeout admitted).attempt with
  | .error error => return some (.selectFailed error)
  | .ok ready =>
      ioStage host ready
      return none

/-- The part of `attend` before leave is taken. -/
def service (host : Host W S H P) (config : ExecutorConfig) :
    Step (Run W S H P) Halt (Option Exit) := do
  onSession Session.checkStop
  if Registry.activeCount (← Step.get).registry = 0 then
    return some .drained
  serviceOf host config (← admission host)

/-- The leave that is taken at the end of a tick, unless the ticks are over already. -/
def leaveAfter (host : Host W S H P) : Option Exit → Step (Run W S H P) Halt (Option Exit)
  | some exit => pure (some exit)
  | none => do
      disconnectStage host
      return none

theorem serveAdmitted_eq (config : ExecutorConfig) (admitted : List SocketHandle) :
    serveAdmitted host config admitted = serviceOf host config admitted >>= leaveAfter host := by
  simp only [serveAdmitted, serviceOf, bind_assoc]
  refine bind_congr fun _ => bind_congr fun _ => bind_congr fun result => ?_
  cases result with
  | error error => rfl
  | ok ready => simp only [bind_assoc]; rfl

theorem attend_eq (config : ExecutorConfig) :
    attend host config = service host config >>= leaveAfter host := by
  simp only [attend, service, bind_assoc]
  refine bind_congr fun _ => bind_congr fun r => ?_
  split
  · rfl
  · simp only [bind_assoc, serveAdmitted_eq]

/-- Those who take part in a tick are served. -/
theorem serviceOf_follows (config : ExecutorConfig) (admitted : List SocketHandle) :
    FollowsFrom host (Serves host) (fun r => r.registry.Keyed ∧ r.Serving host admitted)
      (serviceOf host config admitted) fun exit r => r.registry.Keyed ∧ exit ≠ some .drained := by
  have hkeep : ∀ r r' : Run W S H P, r.registry.Keyed → Serves host r r' → r'.registry.Keyed :=
    fun _ _ hk hm => hm.keyed hk
  have hconnect : FollowsFrom host (Serves host)
      (fun r => r.registry.Keyed ∧ r.Serving host admitted) (connectStage host admitted)
      fun _ r => r.registry.Keyed ∧ r.Serving host admitted :=
    (forEachActive_follows .opening fun _ hh => hh).keeping hkeep
  refine hconnect.bind fun _ => ?_
  refine checkStop_follows.bind fun _ => ?_
  refine ((selectStage_follows _ admitted).attempt_keeping hkeep fun _ hr => hr.1).bind
    fun result => ?_
  cases result with
  | error error => exact .pure fun _ hr => ⟨hr.1, fun h => by cases h⟩
  | ok ready =>
      have hio := (ioStage_follows host ready).keeping hkeep
      refine (hio.weaken (fun _ hr => hr.2 ready rfl) fun _ _ hr => hr.1).bind fun _ => ?_
      exact .pure fun _ hk => ⟨hk, fun h => by cases h⟩

theorem leaveAfter_follows (exit : Option Exit) :
    FollowsFrom host (Serves host) (fun r => r.registry.Keyed) (leaveAfter host exit)
      fun exit' _ => exit' = exit := by
  cases exit with
  | none => exact disconnectStage_follows.bind fun _ => .pure fun _ _ => rfl
  | some exit => exact .pure fun _ _ => rfl

/-- Those who take part in a tick are served and taken leave of. -/
theorem serveAdmitted_follows (config : ExecutorConfig) (admitted : List SocketHandle) :
    FollowsFrom host (Serves host) (fun r => r.registry.Keyed ∧ r.Serving host admitted)
      (serveAdmitted host config admitted) fun exit _ => exit ≠ some .drained := by
  rw [serveAdmitted_eq]
  refine (serviceOf_follows config admitted).bind fun exit r hr => ?_
  obtain ⟨hmoves, hexit⟩ := leaveAfter_follows exit r hr.1
  exact ⟨hmoves, fun exit' hdone => hexit exit' hdone ▸ hr.2⟩

theorem serving_participants {r : Run W S H P} (hk : r.registry.Keyed) :
    (r.admitted host).registry.Keyed ∧ (r.admitted host).Serving host (r.participants host) := by
  have hkeyed : (r.admitted host).registry.Keyed := Move.keyed hk .admitted
  refine ⟨hkeyed, fun h hh d hd _ => ?_⟩
  obtain ⟨d', hd', hrun, -⟩ := participants_running r hkeyed hh
  have heq : some d = some d' := hd.symm.trans hd'
  exact Option.some.inj heq ▸ hrun

/-- The service of a tick, before which sockets are let in. -/
theorem service_follows (config : ExecutorConfig) :
    FollowsFrom host (Move host) (fun r => r.registry.Keyed) (service host config) fun exit r =>
      r.registry.Keyed ∧ (exit = some .drained → Registry.activeCount r.registry = 0) := by
  refine checkStop_follows.bind fun _ => ?_
  refine Step.Follows.get.bind fun r => ?_
  split
  · rename_i hzero
    exact .pure fun r' hr => ⟨hr.2, fun _ => hr.1 ▸ hzero⟩
  have hpass : FollowsFrom host (Move host) (fun r => r.registry.Keyed)
      (admission host : Step (Run W S H P) Halt _) fun admitted r =>
        r.registry.Keyed ∧ r.Serving host admitted := by
    refine .single (fun _ _ => .admitted) ?_
    rintro r _ hk ⟨⟩
    exact serving_participants hk
  refine (hpass.weaken (fun _ hr => hr.2) fun _ _ h => h).bind fun admitted => ?_
  have hserve := (serviceOf_follows config admitted).mono
    (fun _ _ => .served : ∀ r r' : Run W S H P, Serves host r r' → Move host r r')
  exact hserve.weaken (fun _ hr => hr) fun _ _ hr => ⟨hr.1, fun h => absurd h hr.2⟩

/-- A tick is its service, and the leave taken at its end. -/
theorem attend_follows (config : ExecutorConfig) :
    FollowsFrom host (Move host) (fun r => r.registry.Keyed) (attend host config) fun exit r =>
      exit = some .drained → Registry.activeCount r.registry = 0 := by
  rw [attend_eq]
  refine (service_follows config).bind fun exit => ?_
  cases exit with
  | none =>
      have hleave : FollowsFrom host (Move host) (fun r => r.registry.Keyed) (leaveAfter host none)
          fun exit' _ => exit' = none := (leaveAfter_follows none).mono fun _ _ => .served
      exact hleave.weaken (fun _ hr => hr.1) fun exit _ hexit h => by cases hexit.symm.trans h
  | some exit => exact .pure fun _ hr => hr.2

/-- A tick either does nothing, or lets sockets in and serves those who take part. -/
theorem attend_serves (config : ExecutorConfig) {r : Run W S H P} (hk : r.registry.Keyed) :
    (attend host config r).2 = r ∨
      ∃ last, Relation.ReflTransGen (Serves host) (r.admitted host) last ∧
        (last = (attend host config r).2 ∨ last.Abandons host (attend host config r).2) := by
  have hcheck : ∀ {ending : Ending Halt Unit} {t : Run W S H P},
      onSession Session.checkStop r = (ending, t) → t = r := by
    intro ending t h
    simp only [onSession, Step.within, Session.checkStop] at h
    split at h <;> cases h <;> rfl
  rcases hx : (onSession Session.checkStop r : Ending Halt Unit × Run W S H P)
    with ⟨_ | halt | _, t⟩
  all_goals obtain rfl := hcheck hx
  · rw [attend, Step.bind_of_done hx, Step.get_bind]
    split
    · exact .inl rfl
    · rw [Step.bind_of_done (admission_apply t)]
      obtain ⟨⟨last, hm, hend⟩, -⟩ := serveAdmitted_follows config (t.participants host)
        (t.admitted host) (serving_participants hk)
      exact .inr ⟨last, hm, hend.imp id And.right⟩
  · rw [attend, Step.bind_of_cut hx]
    exact .inl rfl
  · rw [attend, Step.bind_of_crashed hx]
    exact .inl rfl

/-- What a run can rely on when its ticks have ended. -/
def Ended (exit : Exit) (r : Run W S H P) : Prop :=
  r.registry.Keyed ∧ (exit = .drained → Registry.activeCount r.registry = 0)

/-- Ticks, the changes of the first of which have been applied. -/
def attendTicks (host : Host W S H P) (config : ExecutorConfig) (fuel : Nat) :
    Step (Run W S H P) RunFailure Exit := do
  match ← (attend host config).attempt with
  | .ok none => ticks host config fuel
  | .ok (some exit) => return exit
  | .error .stop => return .stopped
  | .error (.fatal text) => Step.cut (.fatal text)

theorem ticks_apply (config : ExecutorConfig) (fuel : Nat) (r : Run W S H P) :
    ticks host config (fuel + 1) r = attendTicks host config fuel r.applied := rfl

theorem attendTicks_follows {config : ExecutorConfig} {fuel : Nat}
    (h : FollowsFrom host (Move host) (fun r => r.registry.Keyed) (ticks host config fuel) Ended) :
    FollowsFrom host (Move host) (fun r => r.registry.Keyed) (attendTicks host config fuel)
      Ended := by
  refine ((attend_follows config).attempt_keeping (fun _ _ hk hm => hm.keyed hk)
    fun _ hk => hk).bind fun result => ?_
  rcases result with (_ | text) | (_ | exit)
  · exact .pure fun r hr => ⟨hr.1, fun h => by cases h⟩
  · exact .cut
  · exact h.weaken (fun _ hr => hr.1) fun _ _ h => h
  · exact .pure fun r hr => ⟨hr.1, fun h => hr.2 _ rfl (h ▸ rfl)⟩

theorem ticks_follows (config : ExecutorConfig) (fuel : Nat) :
    FollowsFrom host (Move host) (fun r => r.registry.Keyed) (ticks host config fuel) Ended := by
  have happly : FollowsFrom host (Move host) (fun r => r.registry.Keyed)
      (applyChanges : Step (Run W S H P) RunFailure Unit) fun _ r => r.registry.Keyed :=
    .modify (fun _ _ => .applied) fun _ hk => keyed_applied hk
  induction fuel with
  | zero => exact .cut
  | succ fuel ih => exact happly.bind fun _ => attendTicks_follows ih

/-- What comes of the first socket does not keep the others from being taken leave of. -/
theorem disconnectAll_cons {h : SocketHandle} (rest : List SocketHandle) {r t : Run W S H P}
    {ending : Ending Halt Unit} (hx : disconnect host h r = (ending, t))
    (hne : ending ≠ .crashed) : disconnectAll host (h :: rest) r =
      (Visit.leaveEnding ending (disconnectAll host rest t).1, (disconnectAll host rest t).2) := by
  rcases ending with _ | halt | _
  · rw [disconnectAll, Step.bind_of_done (Step.attempt_of_done hx)]
    rcases ho : disconnectAll host rest t with ⟨_ | halt | _, t'⟩
    · rw [Step.bind_of_done (Step.attempt_of_done ho)]; rfl
    · rw [Step.bind_of_done (Step.attempt_of_cut ho)]; rfl
    · rw [Step.bind_of_crashed (Step.attempt_of_crashed ho)]; rfl
  · rw [disconnectAll, Step.bind_of_done (Step.attempt_of_cut hx)]
    rcases ho : disconnectAll host rest t with ⟨_ | halt' | _, t'⟩
    · rw [Step.bind_of_done (Step.attempt_of_done ho)]; rfl
    · rw [Step.bind_of_done (Step.attempt_of_cut ho)]; rfl
    · rw [Step.bind_of_crashed (Step.attempt_of_crashed ho)]; rfl
  · exact absurd rfl hne

/-- Taking leave of sockets removes them, and no others. -/
theorem disconnectAll_get? (host : Host W S H P) {k : SocketHandle} {d : Descriptor S H} :
    ∀ {hs : List SocketHandle} {r : Run W S H P}, (disconnectAll host hs r).1 ≠ .crashed →
      (disconnectAll host hs r).2.registry.get? k = some d →
        k ∉ hs ∧ r.registry.get? k = some d := by
  intro hs
  induction hs with
  | nil => exact fun _ hk => ⟨by simp, hk⟩
  | cons h rest ih =>
      intro r hend hk
      have hfirst : ∀ {d}, (disconnect host h r).2.registry.get? k = some d →
          k ≠ h ∧ r.registry.get? k = some d := by
        intro d hd
        rcases hh : r.registry.get? h with _ | d'
        · rw [disconnect_of_none hh] at hd
          refine ⟨?_, hd⟩
          rintro rfl
          rw [hh] at hd
          cases hd
        · exact disconnect_get? hh hd
      rcases hx : disconnect host h r with ⟨ending, t⟩
      by_cases hc : ending = .crashed
      · rw [hc] at hx
        rw [disconnectAll, Step.bind_of_crashed (Step.attempt_of_crashed hx)] at hend
        exact absurd rfl hend
      rw [disconnectAll_cons rest hx hc] at hend hk
      obtain ⟨hnot, hk⟩ := ih (fun hcrash => hend (by rw [hcrash]; rfl)) hk
      rw [hx] at hfirst
      obtain ⟨hne, hk⟩ := hfirst hk
      exact ⟨fun hmem => (List.mem_cons.1 hmem).elim hne hnot, hk⟩

/-- A report leaves the visited socket with nothing to do, and every other as it was. -/
theorem reportFailure_follows (error : IoError) {handles : List SocketHandle} (h : SocketHandle) :
    FollowsFrom host (Reports host) (Finished handles)
      (visit h (Visit.reportFailure host error)) fun _ => Finished (h :: handles) := by
  intro r hr
  rcases hd : r.registry.get? h with _ | d
  · rw [visit_of_none _ hd]
    refine ⟨⟨r, .refl, .inl rfl⟩, fun _ _ k hk d hd' => ?_⟩
    rcases List.mem_cons.1 hk with rfl | hk
    · rw [hd] at hd'
      cases hd'
    · exact hr k hk d hd'
  refine ⟨⟨_, .single (.reported error hd), .inl rfl⟩, fun _ hdone k hk d' hd' => ?_⟩
  have hcomplete : ∀ v : Visit W S H P, (Visit.reportFailure host error v).1 = .done () →
      (Visit.reportFailure host error v).2.descriptor.isComplete = true := by
    intro v
    rw [Visit.reportFailure]
    rcases hf : Visit.dispatchFault host (.io error) none v with ⟨_ | (_ | text) | _, t⟩
    · rw [Step.bind_of_done (Step.attempt_of_done hf)]
      exact fun _ => rfl
    · rw [Step.bind_of_done (Step.attempt_of_cut hf)]
      exact fun _ => rfl
    · rw [Step.bind_of_done (Step.attempt_of_cut hf)]
      exact fun h => by cases h
    · rw [Step.bind_of_crashed (Step.attempt_of_crashed hf)]
      exact fun h => by cases h
  rw [visit_of_some _ hd] at hdone hd'
  simp only [HandleMap.get?_modify] at hd'
  split at hd'
  · rename_i heq
    rw [heq, hd] at hd'
    obtain rfl := Option.some.inj hd'
    exact hcomplete _ hdone
  · rename_i hne
    exact hr k ((List.mem_cons.1 hk).resolve_left hne) d' hd'

theorem reportSelectFailure_follows (host : Host W S H P) (error : IoError) :
    ∀ hs handles : List SocketHandle, FollowsFrom host (Reports host) (Finished handles)
      (reportSelectFailure host error hs) fun _ => Finished (hs ++ handles) := by
  intro hs
  induction hs with
  | nil => exact fun _ => .pure fun _ hr => hr
  | cons h rest ih =>
      intro handles
      refine (reportFailure_follows error h).bind fun _ => ?_
      refine (ih _).weaken (fun _ hr => hr) fun _ r hr k hk => hr k ?_
      simp only [List.cons_append, List.mem_cons, List.mem_append] at hk ⊢
      tauto

def Emptied (r : Run W S H P) : Prop := ∀ h, r.registry.get? h = none

theorem disconnectStage_emptied {r : Run W S H P} (hk : r.registry.Keyed)
    (hc : ∀ h d, r.registry.get? h = some d → d.isComplete = true)
    (hend : (disconnectStage host r).1 ≠ .crashed) : (disconnectStage host r).2.Emptied := by
  intro h
  rcases hd : (disconnectStage host r).2.registry.get? h with _ | d
  · rfl
  obtain ⟨hnot, hd⟩ := disconnectAll_get? host hend hd
  refine absurd ?_ hnot
  simp only [Registry.completed, List.mem_map, List.mem_filter, HandleMap.mem_values]
  exact ⟨d, ⟨⟨h, hd⟩, hc h d hd⟩, hk h d hd⟩

/-- Leaves every socket with nothing to do, in the way that the end of the ticks calls for. -/
def conclude (host : Host W S H P) : Exit → Step (Run W S H P) RunFailure Unit
  | .drained => pure ()
  | .stopped => do
      applyChanges
      modifyRegistry fun registry => HandleMap.map registry fun _ d => d.markComplete
  | .selectFailed error => do
      reportSelectFailure host error (← Step.get).registry.keys

def part (host : Host W S H P) : Step (Run W S H P) RunFailure Unit := do
  match ← (disconnectStage host).attempt with
  | .error (.fatal text) => Step.cut (.fatal text)
  | _ => pure ()

theorem windDown_eq (exit : Exit) :
    windDown host exit = (do
      Step.modify leavingOff
      conclude host exit
      part host) := by
  cases exit with
  | drained => rfl
  | stopped => simp only [conclude, bind_assoc]; rfl
  | selectFailed error => simp only [conclude, bind_assoc]; rfl

theorem conclude_follows (exit : Exit) :
    FollowsFrom host (Move host) (Ended exit) (conclude host exit) fun _ r =>
      r.registry.Keyed ∧ Registry.activeCount r.registry = 0 := by
  have hkeyed : ∀ r r' : Run W S H P, r.registry.Keyed → r.Move host r' → r'.registry.Keyed :=
    fun _ _ hk hm => hm.keyed hk
  cases exit with
  | drained => exact .pure fun r hr => ⟨hr.1, hr.2 rfl⟩
  | stopped =>
      have happly : FollowsFrom host (Move host) (Ended .stopped)
          (applyChanges : Step (Run W S H P) RunFailure Unit) fun _ r => r.registry.Keyed :=
        .modify (fun _ _ => .applied) fun _ hr => keyed_applied hr.1
      exact happly.bind fun _ => .modify (fun _ _ => .dismissed) fun r hk =>
        ⟨hkeyed _ _ hk .dismissed, activeCount_dismissed r⟩
  | selectFailed error =>
      refine Step.Follows.get.bind fun r => ?_
      have hkept : ∀ s t : Run W S H P,
          s.registry.Keyed ∧ s.registry.keys = r.registry.keys → Reports host s t →
            t.registry.Keyed ∧ t.registry.keys = r.registry.keys :=
        fun _ _ hs hm => ⟨hm.keyed hs.1, hm.keys.trans hs.2⟩
      have hreport := (reportSelectFailure_follows host error r.registry.keys []).keeping hkept
      refine (hreport.mono fun _ _ => .reported).weaken ?_ ?_
      · rintro s ⟨rfl, hs⟩
        exact ⟨⟨hs.1, rfl⟩, fun h hh => by cases hh⟩
      · rintro _ s ⟨⟨hk, hkeys⟩, hfin⟩
        refine ⟨hk, activeCount_eq_zero.2 fun h d hd => hfin h ?_ d hd⟩
        rw [List.append_nil, ← hkeys]
        exact HandleMap.mem_keys.2 ⟨d, hd⟩

theorem part_follows :
    FollowsFrom host (Move host)
      (fun r => r.registry.Keyed ∧ Registry.activeCount r.registry = 0) (part host)
      fun _ => Emptied := by
  have hstage : FollowsFrom host (Move host)
      (fun r => r.registry.Keyed ∧ Registry.activeCount r.registry = 0) (disconnectStage host)
      fun _ _ => True :=
    (disconnectStage_follows.mono fun _ _ => .served).weaken (fun _ hr => hr.1) fun _ _ h => h
  refine (hstage.attempt_of_kept fun r hr hend =>
    disconnectStage_emptied hr.1 (activeCount_eq_zero.1 hr.2) hend).bind fun result => ?_
  split
  · exact .cut
  · exact .pure fun _ hr => hr.1

/-- A run that is wound down to the end holds no socket any more. -/
theorem windDown_follows (exit : Exit) :
    FollowsFrom host (Move host) (Ended exit) (windDown host exit) fun _ => Emptied := by
  rw [windDown_eq]
  have hleave : FollowsFrom host (Move host) (Ended exit)
      (Step.modify leavingOff : Step (Run W S H P) RunFailure Unit) fun _ => Ended exit :=
    .modify (fun _ _ => .leavingOff) fun _ hr => hr
  exact hleave.bind fun _ => (conclude_follows exit).bind fun _ => part_follows

/-- What a run does between the beginning and the end that the policy is told of. -/
def body (host : Host W S H P) (config : ExecutorConfig) (fuel : Nat) :
    Step (Run W S H P) RunFailure Unit := do
  windDown host (← ticks host config fuel)

theorem body_follows (host : Host W S H P) (config : ExecutorConfig) (fuel : Nat) :
    FollowsFrom host (Move host) (fun r => r.registry.Keyed) (body host config fuel)
      fun _ => Emptied :=
  (ticks_follows config fuel).bind fun exit => windDown_follows exit

/-- What becomes of a run once its body has ended. -/
def closeDown (host : Host W S H P) :
    Ending RunFailure Unit × Run W S H P → Ending RunFailure Unit × Run W S H P
  | (.done (), t) => (.done (), closeAll host (finishPolicy host t))
  | (.cut (.fatal text), t) => (.cut (.fatal text), finishPolicy host (closeAll host t))
  | (.cut .unfinished, t) => (.cut .unfinished, t)
  | (.crashed, t) => (.crashed, t)

theorem perform_eq (host : Host W S H P) (config : ExecutorConfig) (fuel : Nat)
    (r : Run W S H P) :
    perform host config fuel r = closeDown host (body host config fuel (startPolicy host r)) := by
  have hstart : (Step.modify (startPolicy host) : Step (Run W S H P) RunFailure Unit) r =
      (.done (), startPolicy host r) := rfl
  rw [perform, Step.bind_of_done hstart]
  rcases hx : body host config fuel (startPolicy host r) with ⟨_ | (text | _) | _, t⟩
  all_goals rw [body] at hx
  · rw [Step.bind_of_done (Step.attempt_of_done hx)]
    rfl
  · rw [Step.bind_of_done (Step.attempt_of_cut hx)]
    rfl
  · rw [Step.bind_of_done (Step.attempt_of_cut hx)]
    rfl
  · rw [Step.bind_of_crashed (Step.attempt_of_crashed hx)]
    rfl

/-- How a run ends, from the last state that its moves have led to. -/
inductive Ends (host : Host W S H P) (last : Run W S H P) :
    Ending RunFailure Unit → Run W S H P → Prop where
  | well (he : last.Emptied) : Ends host last (.done ()) (closeAll host (finishPolicy host last))
  | failed (text : String) :
      Ends host last (.cut (.fatal text)) (finishPolicy host (closeAll host last))
  | unfinished : Ends host last (.cut .unfinished) last
  | crashed : Ends host last .crashed last
  | abandoned {r : Run W S H P} (h : last.Abandons host r) : Ends host last .crashed r

/-- A run is a chain of moves from the moment at which the policy is told of its beginning. -/
theorem perform_ends (host : Host W S H P) (config : ExecutorConfig) (fuel : Nat) {r : Run W S H P}
    (hk : r.registry.Keyed) :
    ∃ last, (startPolicy host r).Moves host last ∧
      last.Ends host (perform host config fuel r).1 (perform host config fuel r).2 := by
  obtain ⟨⟨last, hm, hend⟩, hq⟩ := body_follows host config fuel (startPolicy host r) hk
  refine ⟨last, hm, ?_⟩
  rw [perform_eq]
  rcases hx : body host config fuel (startPolicy host r) with ⟨_ | (text | _) | _, t⟩
  all_goals rw [hx] at hend hq
  · obtain rfl : last = t := by simpa using hend
    exact .well (hq () rfl)
  · obtain rfl : last = t := by simpa using hend
    exact .failed text
  · obtain rfl : last = t := by simpa using hend
    exact .unfinished
  · rcases hend with rfl | ⟨-, hc⟩
    · exact .crashed
    · exact .abandoned hc

/-- A run whose body ends well does so itself. -/
theorem ends_of_body {config : ExecutorConfig} {fuel : Nat} {r last : Run W S H P}
    (hk : r.registry.Keyed)
    (hbody : body host config fuel (startPolicy host r) = (.done (), last)) :
    last.Ends host (.done ()) (perform host config fuel r).2 := by
  rw [perform_eq, hbody]
  exact .well ((body_follows host config fuel).delivers_to (s := startPolicy host r) hk hbody)

/-- A run that ends well has been wound down until no socket was left. -/
theorem perform_done (host : Host W S H P) (config : ExecutorConfig) (fuel : Nat)
    {r : Run W S H P} (hk : r.registry.Keyed) (hdone : (perform host config fuel r).1 = .done ()) :
    ∃ last, body host config fuel (startPolicy host r) = (.done (), last) ∧ last.Emptied ∧
      (perform host config fuel r).2 = closeAll host (finishPolicy host last) := by
  rw [perform_eq] at hdone ⊢
  rcases hx : body host config fuel (startPolicy host r) with ⟨_ | (text | _) | _, t⟩
  all_goals rw [hx] at hdone
  · exact ⟨t, rfl, (body_follows host config fuel).delivers_to (s := startPolicy host r) hk hx, rfl⟩
  · cases hdone
  · cases hdone
  · cases hdone

end Reactor.Run
