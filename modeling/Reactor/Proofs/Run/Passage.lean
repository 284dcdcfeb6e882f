import Reactor.Proofs.Run.Services
import Reactor.Proofs.Run.Ticks
import Reactor.Proofs.Run.Turns

/-! A run from the point of view of one of its sockets: the turns of the socket, and between them
whatever leaves it alone. -/

namespace Reactor

variable {W S H P : Type} {host : Host W S H P} {h : SocketHandle}

/-- A turn of a socket: what the tick does for it, and the visit with which that begins. -/
structure Turn (W S H P : Type) where
  duty : Duty
  before : Visit W S H P

/-- The deed is a call of the socket, or an event about its connection or its traffic. -/
def Deed.Serves (h : SocketHandle) (deed : Deed S H) : Prop :=
  ∃ standing, deed.service? = some (h, standing)

/-- The socket that a request is about, unless that is a new one. -/
def Request.handle? : Request S → Option SocketHandle
  | .deregister h | .setOperation h _ => some h
  | .stop | .register _ _ _ => none

/-- The deed is a report of a failure of the socket, or a hook asked for a change of it. -/
def Deed.Disturbs (h : SocketHandle) : Deed S H → Prop
  | .reported k _ _ _ => k = h
  | .heard _ _ requests _ => ∃ request ∈ requests, request.handle? = some h
  | _ => False

instance (h : SocketHandle) : DecidablePred (Deed.Disturbs h : Deed S H → Prop)
  | .reported k _ _ _ => inferInstanceAs (Decidable (k = h))
  | .heard _ _ requests _ =>
      inferInstanceAs (Decidable (∃ request ∈ requests, request.handle? = some h))
  | .policyStarted | .policyFinished | .decided _ _ | .called _ _ _ | .raised _ _ _
  | .selected _ _ | .closed _ | .dismissed _ => inferInstanceAs (Decidable False)

theorem Deed.Blames.disturbs {deed : Deed S H} (hd : deed.Blames h) : deed.Disturbs h := by
  cases deed with
  | reported => exact hd
  | _ => exact hd.elim

theorem Deed.not_serves {deed : Deed S H} (hd : deed.service? = none) : ¬ deed.Serves h := by
  rintro ⟨standing, hs⟩
  rw [hd] at hs
  cases hs

/-- The deed is a transfer of bytes of the socket, or announces one. -/
def Deed.IsTransfer (h : SocketHandle) : Deed S H → Prop
  | .called k _ (.read _) | .called k _ (.write _ _ _) | .raised k _ (.read _ _)
  | .raised k _ (.write _ _) => k = h
  | _ => False

theorem Deed.IsGreeting.not_transfer {k : SocketHandle} {deed : Deed S H}
    (hd : deed.IsGreeting k) : ¬ deed.IsTransfer h := by
  cases deed with
  | called k' standing call =>
      cases call with
      | connect | pollConnect => exact id
      | _ => exact hd.elim
  | raised k' standing payload =>
      cases payload with
      | connected => exact id
      | _ => exact hd.elim
  | heard => exact id
  | _ => exact hd.elim

theorem Deed.not_transfer {deed : Deed S H} (hd : ¬ deed.Serves h) : ¬ deed.IsTransfer h := by
  intro ht
  refine hd ?_
  cases deed with
  | called k standing call =>
      cases call with
      | read | write => exact ⟨standing, by rw [← show k = h from ht]; rfl⟩
      | _ => exact ht.elim
  | raised k standing payload =>
      cases payload with
      | read | write => exact ⟨standing, by rw [← show k = h from ht]; rfl⟩
      | _ => exact ht.elim
  | _ => exact ht.elim

theorem Deed.IsWork.not_serves {k : SocketHandle} {running : Bool} {deed : Deed S H}
    (hd : deed.IsWork host k running) (hk : k ≠ h) : ¬ deed.Serves h := by
  rintro ⟨standing, hs⟩
  exact hk (hd.service? hs).1.symm

/-- A queued change is about a new socket or about one that was asked for. -/
theorem mem_queueOf_handle {c : Change S} {requests : List (Request S)} :
    ∀ {next : SocketHandle}, c ∈ queueOf next requests →
      next.number ≤ c.handle.number ∨
        ∃ request ∈ requests, request.handle? = some c.handle := by
  induction requests with
  | nil => exact fun hc => by cases hc
  | cons request rest ih =>
      intro next hc
      have hrest : ∀ {next' : SocketHandle}, next.number ≤ next'.number →
          c ∈ queueOf next' rest → next.number ≤ c.handle.number ∨
            ∃ request' ∈ request :: rest, request'.handle? = some c.handle := by
        intro next' hle hc
        exact (ih hc).imp (Nat.le_trans hle) fun ⟨request', hmem, hr⟩ =>
          ⟨request', List.mem_cons_of_mem _ hmem, hr⟩
      cases request with
      | stop => exact hrest (Nat.le_refl _) hc
      | register socket operation metadata =>
          rcases List.mem_cons.1 hc with rfl | hc
          · exact .inl (Nat.le_refl _)
          · exact hrest (Nat.le_succ _) hc
      | deregister k =>
          rcases List.mem_cons.1 hc with rfl | hc
          · exact .inr ⟨_, List.mem_cons_self, rfl⟩
          · exact hrest (Nat.le_refl _) hc
      | setOperation k operation =>
          rcases List.mem_cons.1 hc with rfl | hc
          · exact .inr ⟨_, List.mem_cons_self, rfl⟩
          · exact hrest (Nat.le_refl _) hc

namespace Run

/-- What goes on leaves the socket alone: nothing is done with it, and as long as it has something
left to do, it may at most be admitted or held back. -/
structure Bypasses (h : SocketHandle) (r s : Run W S H P) : Prop where
  kept : ∀ d, r.registry.get? h = some d → d.isComplete = false →
    ∃ d', s.registry.get? h = some d' ∧ d.Considered d'
  idle : ∃ deeds, s.session.journal = r.session.journal ++ deeds ∧
    ∀ deed ∈ deeds, ¬ deed.Serves h

/-- A stretch of a run with the turns of a socket. Each of the turns comes to its end, and no
failure of the socket is reported in it. -/
inductive Passage (host : Host W S H P) (h : SocketHandle) (r : Run W S H P) :
    List (Turn W S H P) → Run W S H P → Prop where
  | start : Passage host h r [] r
  | turn {turns : List (Turn W S H P)} {s t : Run W S H P} {d : Descriptor S H}
      (hp : Passage host h r turns s) (duty : Duty) (hd : s.registry.get? h = some d)
      (hc : d.isComplete = false) (hx : visit h (duty.work host) s = (.done (), t))
      (hb : s.session.Blameless h t.session) :
      Passage host h r (turns ++ [⟨duty, ⟨d, s.session⟩⟩]) t
  | aside {turns : List (Turn W S H P)} {s t : Run W S H P} (hp : Passage host h r turns s)
      (ha : s.Bypasses h t) : Passage host h r turns t

theorem Passage.append {r s t : Run W S H P} {turns more : List (Turn W S H P)}
    (hp : Passage host h r turns s) (hm : Passage host h s more t) :
    Passage host h r (turns ++ more) t := by
  induction hm with
  | start => rwa [List.append_nil]
  | turn _ duty hd hc hx hb ih =>
      rw [← List.append_assoc]
      exact ih.turn duty hd hc hx hb
  | aside _ ha ih => exact ih.aside ha

theorem journal_of_moves {r s : Run W S H P} (hm : r.Moves host s) :
    ∃ deeds, s.session.journal = r.session.journal ++ deeds := by
  induction hm with
  | refl => exact ⟨[], (List.append_nil _).symm⟩
  | tail _ hmove ih =>
      obtain ⟨deeds, hj⟩ := ih
      obtain ⟨more, hj'⟩ := hmove.journal
      exact ⟨deeds ++ more, by rw [hj', hj, List.append_assoc]⟩

/-! ## What leaves a socket alone -/

section Bypasses

variable {r s t : Run W S H P} {k : SocketHandle} {d : Descriptor S H}

theorem Bypasses.of_same (hr : s.registry.get? h = r.registry.get? h)
    (hi : ∃ deeds, s.session.journal = r.session.journal ++ deeds ∧
      ∀ deed ∈ deeds, ¬ deed.Serves h) : r.Bypasses h s :=
  ⟨fun d hd _ => ⟨d, hr.trans hd, d.running, d.postponed, rfl, id⟩, hi⟩

theorem bypasses_visit (hk : r.registry.Keyed) (hkh : k ≠ h) {x : Step (Visit W S H P) Halt Unit}
    (hx : Step.Works host x) (hd : r.registry.get? k = some d) : r.Bypasses h (visit k x r).2 := by
  obtain ⟨deeds, hadv, hw⟩ := visit_advances hx hd
  refine .of_same ?_ ⟨deeds, hadv.journal, fun deed hdeed => ?_⟩
  · rw [visit_of_some x hd, HandleMap.get?_modify, if_neg (Ne.symm hkh)]
  · exact (hw deed hdeed).not_serves (hk k d hd ▸ hkh)

theorem bypasses_admitted (host : Host W S H P) (r : Run W S H P) :
    r.Bypasses h (r.admitted host) := by
  obtain ⟨deeds, haside, hadv⟩ := r.admitted_advances host
  refine ⟨fun d hd _ => ?_, deeds, hadv.journal, fun deed hdeed =>
    Deed.not_serves (haside deed hdeed).service?⟩
  have hmem : h ∈ (r.admitted host).registry.keys := by
    rw [keys_admitted]
    exact HandleMap.mem_keys.2 ⟨d, hd⟩
  obtain ⟨d', hd'⟩ := HandleMap.mem_keys.1 hmem
  obtain ⟨d₀, hd₀, hconsidered⟩ := admitted_considered r hd'
  have heq : d₀ = d := Option.some.inj (hd₀.symm.trans hd)
  exact ⟨d', hd', heq ▸ hconsidered⟩

theorem bypasses_selectStage (host : Host W S H P) (timeout : Duration)
    (admitted : List SocketHandle) (r : Run W S H P) :
    r.Bypasses h (selectStage host timeout admitted r).2 := by
  obtain ⟨deeds, haside, hadv⟩ := selectStage_advances host timeout admitted r
  refine .of_same (by rw [selectStage_registry]) ⟨deeds, hadv.journal, fun deed hdeed =>
    Deed.not_serves (haside deed hdeed).service?⟩

/-- Leave is taken without a call of any socket, and not of one that has something left to do. -/
theorem bypasses_disconnect (host : Host W S H P) (hd : r.registry.get? k = some d)
    (hc : d.isComplete = true) : r.Bypasses h (disconnect host k r).2 := by
  refine ⟨fun d' hd' hc' => ⟨d', ?_, d'.running, d'.postponed, rfl, id⟩, ?_⟩
  · have hne : h ≠ k := by
      rintro rfl
      rw [hd] at hd'
      cases hd'
      rw [hc] at hc'
      cases hc'
    rw [disconnect_of_some hd, HandleMap.get?_erase, if_neg hne]
    exact hd'
  · obtain ⟨deeds, hj, hnone⟩ := disconnect_services host hd
    refine ⟨deeds, hj, fun deed hdeed => Deed.not_serves ?_⟩
    simp only [services, List.filterMap_eq_nil_iff] at hnone
    exact hnone deed hdeed

theorem get?_apply_of_ne {registry : Registry S H} {c : Change S} (hc : h ≠ c.handle) :
    HandleMap.get? (registry.apply c) h = HandleMap.get? registry h := by
  cases c with
  | register g =>
      have hne : h ≠ g.handle := hc
      rcases hg : HandleMap.get? registry g.handle with _ | d
      · rw [Registry.apply_register_new hg, HandleMap.get?_insert hg, if_neg hne]
      · rw [Registry.apply_register_known hg, HandleMap.get?_modify, if_neg hne]
  | deregister k =>
      have hne : h ≠ k := hc
      rw [Registry.apply, HandleMap.get?_modify, if_neg hne]
  | setOperation k operation =>
      have hne : h ≠ k := hc
      rw [Registry.apply, HandleMap.get?_modify, if_neg hne]

theorem get?_foldl_apply {changes : List (Change S)} :
    ∀ {registry : Registry S H}, (∀ c ∈ changes, c.handle ≠ h) →
      HandleMap.get? (changes.foldl Registry.apply registry) h = HandleMap.get? registry h := by
  induction changes with
  | nil => exact fun _ => rfl
  | cons c rest ih =>
      intro registry hne
      rw [List.foldl_cons, ih fun c' hc' => hne c' (List.mem_cons_of_mem _ hc')]
      exact get?_apply_of_ne (hne c List.mem_cons_self).symm

theorem bypasses_applied (hc : ∀ c ∈ r.session.context.changes, c.handle ≠ h) :
    r.Bypasses h r.applied :=
  .of_same (get?_foldl_apply hc) ⟨[], (List.append_nil _).symm, by simp⟩

end Bypasses

/-! ## The turns of undisturbed ticks -/

/-- One thing that a tick does, from the point of view of a socket. -/
inductive Beat (host : Host W S H P) (h : SocketHandle) (r : Run W S H P) :
    Run W S H P → Prop where
  | turn {d : Descriptor S H} {t : Run W S H P} (duty : Duty) (hd : r.registry.get? h = some d)
      (hc : d.isComplete = false) (hx : visit h (duty.work host) r = (.done (), t)) :
      Beat host h r t
  | applied : Beat host h r r.applied
  | aside {t : Run W S H P} (ha : r.Bypasses h t)
      (hadv : ∃ deeds, r.session.Advances deeds t.session) : Beat host h r t

abbrev Beats (host : Host W S H P) (h : SocketHandle) : Run W S H P → Run W S H P → Prop :=
  Relation.ReflTransGen (Beat host h)

section Beats

variable {r s t : Run W S H P}

theorem visit_beats (duty : Duty) {k : SocketHandle} (hk : r.registry.Keyed)
    (hx : visit k (Visit.unlessComplete (duty.work host)) r = (.done (), t)) :
    Beats host h r t ∧ t.registry.Keyed := by
  rcases hd : r.registry.get? k with _ | d
  · rw [visit_of_none _ hd] at hx
    cases hx
    exact ⟨.refl, hk⟩
  cases hc : d.isComplete with
  | true =>
      rw [visit_of_complete _ hd hc] at hx
      cases hx
      exact ⟨.refl, hk⟩
  | false =>
      rw [visit_of_active _ hd hc] at hx
      have ht : (visit k (duty.work host) r).2 = t := congrArg Prod.snd hx
      have hkeyed : t.registry.Keyed := by
        rw [← ht]
        intro j d' hj
        rcases visit_get? duty.work_works hd hj with ⟨rfl, hh, -⟩ | ⟨-, hd'⟩
        · exact hh.trans (hk _ _ hd)
        · exact hk j d' hd'
      refine ⟨.single ?_, hkeyed⟩
      by_cases hkh : k = h
      · subst hkh
        exact .turn duty hd hc hx
      · obtain ⟨deeds, hadv, -⟩ := visit_advances duty.work_works hd
        rw [← ht]
        exact .aside (bypasses_visit hk hkh duty.work_works hd) ⟨deeds, hadv⟩

theorem forEachActive_beats (duty : Duty) {hs : List SocketHandle} :
    ∀ {r : Run W S H P}, r.registry.Keyed →
      forEachActive hs (duty.work host) r = (.done (), t) →
        Beats host h r t ∧ t.registry.Keyed := by
  induction hs with
  | nil =>
      rintro r hk ⟨⟩
      exact ⟨.refl, hk⟩
  | cons k rest ih =>
      intro r hk hx
      rw [forEachActive_cons] at hx
      obtain ⟨_, m, hfirst, hrest⟩ := Step.done_of_bind hx
      obtain ⟨hb, hkm⟩ := visit_beats duty hk (done_of_checkStop hfirst)
      obtain ⟨hb', hkt⟩ := ih hkm hrest
      exact ⟨hb.trans hb', hkt⟩

theorem disconnectAll_beats {hs : List SocketHandle} :
    ∀ {r : Run W S H P}, r.Finished hs → disconnectAll host hs r = (.done (), t) →
      Beats host h r t := by
  induction hs with
  | nil =>
      rintro r - ⟨⟩
      exact .refl
  | cons k rest ih =>
      intro r hf hx
      obtain ⟨first, m, hfirst, hx⟩ := Step.done_of_bind hx
      obtain ⟨others, m', hothers, hx⟩ := Step.done_of_bind hx
      rcases Step.done_of_attempt hfirst with ⟨_, rfl, hleft⟩ | ⟨halt, rfl, -⟩
      swap
      · rcases others with _ | _ <;> cases hx
      rcases Step.done_of_attempt hothers with ⟨_, rfl, hrest⟩ | ⟨halt, rfl, -⟩
      swap
      · cases hx
      cases hx
      rcases hd : r.registry.get? k with _ | d
      · rw [disconnect_of_none hd] at hleft
        cases hleft
        exact ih (fun j hj => hf j (List.mem_cons_of_mem _ hj)) hrest
      · have hc := hf k List.mem_cons_self d hd
        have hm : (disconnect host k r).2 = m := congrArg Prod.snd hleft
        have hserves : r.Serves host (disconnect host k r).2 := .left hd hc (by simp [hleft])
        obtain ⟨deeds, hadv, -⟩ := disconnect_advances host hd
        have hbeat : Beat host h r (disconnect host k r).2 :=
          .aside (bypasses_disconnect host hd hc) ⟨deeds, hadv⟩
        have hstill := hserves.finished hf
        rw [hm] at hbeat hstill
        exact .head hbeat (ih (fun j hj => hstill j (List.mem_cons_of_mem _ hj)) hrest)

/-- A tick that does not end the run goes by turns. -/
theorem tick_beats {config : ExecutorConfig} (hk : r.registry.Keyed)
    (hx : tick host config r = (.done none, t)) : Beats host h r t := by
  rw [tick_apply] at hx
  refine .head .applied ?_
  have hkeyed : r.applied.registry.Keyed := keyed_applied hk
  generalize r.applied = m at hkeyed hx
  have hserve := done_of_checkStop hx
  rw [Step.get_bind] at hserve
  split at hserve
  · cases hserve
  rw [Step.bind_of_done (admission_apply m)] at hserve
  obtain ⟨verdicts, -, hadv⟩ := m.admitted_advances host
  refine .head (.aside (bypasses_admitted host m) ⟨verdicts, hadv⟩) ?_
  obtain ⟨_, r₁, hconnect, hserve⟩ := Step.done_of_bind hserve
  obtain ⟨hb₁, hk₁⟩ :=
    forEachActive_beats (h := h) .opening (serving_participants hkeyed).1 hconnect
  refine hb₁.trans ?_
  obtain ⟨result, r₃, hanswer, hserve⟩ := Step.done_of_bind (done_of_checkStop hserve)
  rcases Step.done_of_attempt hanswer with ⟨ready, rfl, hselect⟩ | ⟨error, rfl, -⟩
  swap
  · cases hserve
  have hr₃ : (selectStage host config.pollTimeout (m.participants host) r₁).2 = r₃ :=
    congrArg Prod.snd hselect
  obtain ⟨deeds, -, hadv'⟩ :=
    selectStage_advances host config.pollTimeout (m.participants host) r₁
  refine .head (b := r₃) (hr₃ ▸ .aside (bypasses_selectStage host _ _ r₁) ⟨deeds, hadv'⟩) ?_
  have hk₃ : r₃.registry.Keyed := by
    rw [← hr₃, selectStage_registry]
    exact hk₁
  obtain ⟨_, r₄, hio, hserve⟩ := Step.done_of_bind hserve
  obtain ⟨_, r₅, hdisconnect, hserve⟩ := Step.done_of_bind hserve
  cases hserve
  obtain ⟨_, r', hread, hwrite⟩ := Step.done_of_bind hio
  obtain ⟨hb₄, hk₄⟩ := forEachActive_beats (h := h) .reading hk₃ hread
  obtain ⟨hb₅, hk₅⟩ := forEachActive_beats (h := h) .writing hk₄ hwrite
  exact hb₄.trans (hb₅.trans (disconnectAll_beats (finished_completed hk₅) hdisconnect))

theorem ticks_beats {config : ExecutorConfig} {n : Nat} :
    ∀ {r : Run W S H P}, r.registry.Keyed →
      ticks host config n r = (.cut .unfinished, t) → Beats host h r t := by
  induction n with
  | zero =>
      rintro r - ⟨⟩
      exact .refl
  | succ n ih =>
      intro r hk hx
      rcases ticks_succ host config r with ⟨m, htick, hnext⟩ | ⟨ending, m, hne, -, hover⟩
      · rw [hnext] at hx
        have hkm : m.registry.Keyed := by
          have hone : ticks host config 1 r = (.cut .unfinished, m) := by
            rw [ticks, Step.bind_of_done (Step.attempt_of_done htick)]
            rfl
          exact keyed_of_moves hk ((ticks_follows config 1).moves_to hk hone (by simp))
        exact (tick_beats hk htick).trans (ih hkm hx)
      · rw [hover] at hx
        exact absurd (congrArg Prod.fst hx) hne

/-- Nothing that was asked for concerns the socket, and no new socket can take its handle. -/
structure Unasked (h : SocketHandle) (r : Run W S H P) : Prop where
  issued : h.number < r.session.context.nextHandle.number
  changes : ∀ c ∈ r.session.context.changes, c.handle ≠ h

/-- The run has gone on without a report of a failure of the socket, and without a request to change
it. -/
def Undisturbed (h : SocketHandle) (r t : Run W S H P) : Prop :=
  ∃ deeds, t.session.journal = r.session.journal ++ deeds ∧ ∀ deed ∈ deeds, ¬ deed.Disturbs h

theorem Undisturbed.of_moves (hm : r.Moves host t)
    (hd : ∀ deed ∈ t.session.journal.drop r.session.journal.length, ¬ deed.Disturbs h) :
    r.Undisturbed h t := by
  obtain ⟨deeds, hj⟩ := journal_of_moves hm
  rw [hj, List.drop_left] at hd
  exact ⟨deeds, hj, hd⟩

theorem Unasked.advance (hu : r.Unasked h) {deeds : List (Deed S H)}
    (hadv : r.session.Advances deeds t.session) (hd : ∀ deed ∈ deeds, ¬ deed.Disturbs h) :
    t.Unasked h := by
  refine ⟨?_, fun c hc => ?_⟩
  · rw [hadv.nextHandle]
    exact Nat.lt_of_lt_of_le hu.issued (Nat.le_add_right _ _)
  · rw [hadv.changes, List.mem_append] at hc
    rcases hc with hc | hc
    · exact hu.changes c hc
    rintro rfl
    rcases mem_queueOf_handle hc with hle | ⟨request, hmem, hr⟩
    · exact absurd hu.issued (Nat.not_lt.2 hle)
    · obtain ⟨deed, hdeed, hmem⟩ := List.mem_flatMap.1 hmem
      cases deed with
      | heard k link requests verdict => exact hd _ hdeed ⟨request, hmem, hr⟩
      | _ => cases hmem

theorem Beat.journal (hb : Beat host h r t) :
    ∃ deeds, t.session.journal = r.session.journal ++ deeds := by
  cases hb with
  | turn duty hd hc hx =>
      obtain ⟨deeds, hadv, -⟩ := visit_advances duty.work_works hd
      rw [hx] at hadv
      exact ⟨deeds, hadv.journal⟩
  | applied => exact ⟨[], (List.append_nil _).symm⟩
  | aside ha => exact ⟨_, ha.idle.choose_spec.1⟩

theorem Undisturbed.split (hu : r.Undisturbed h t)
    (hrs : ∃ deeds, s.session.journal = r.session.journal ++ deeds)
    (hst : ∃ deeds, t.session.journal = s.session.journal ++ deeds) :
    r.Undisturbed h s ∧ s.Undisturbed h t := by
  obtain ⟨all, hall, hnone⟩ := hu
  obtain ⟨deeds, hdeeds⟩ := hrs
  obtain ⟨more, hmore⟩ := hst
  have heq : all = deeds ++ more := by
    rw [hmore, hdeeds, List.append_assoc] at hall
    exact (List.append_cancel_left hall).symm
  refine ⟨⟨deeds, hdeeds, fun deed hd => hnone deed ?_⟩, more, hmore, fun deed hd => hnone deed ?_⟩
  · exact heq ▸ List.mem_append_left _ hd
  · exact heq ▸ List.mem_append_right _ hd

theorem Undisturbed.of_advances (hu : r.Undisturbed h t) {deeds : List (Deed S H)}
    (hadv : r.session.Advances deeds t.session) : ∀ deed ∈ deeds, ¬ deed.Disturbs h := by
  obtain ⟨all, hall, hnone⟩ := hu
  rw [hadv.journal] at hall
  exact List.append_cancel_left hall ▸ hnone

theorem Undisturbed.blameless (hu : r.Undisturbed h t) :
    r.session.Blameless h t.session := by
  obtain ⟨deeds, hj, hnone⟩ := hu
  exact ⟨deeds, hj, fun deed hd hb => hnone deed hd hb.disturbs⟩

theorem Beats.journal (hb : Beats host h r t) :
    ∃ deeds, t.session.journal = r.session.journal ++ deeds := by
  induction hb with
  | refl => exact ⟨[], (List.append_nil _).symm⟩
  | tail _ hbeat ih =>
      obtain ⟨deeds, hj⟩ := ih
      obtain ⟨more, hj'⟩ := hbeat.journal
      exact ⟨deeds ++ more, by rw [hj', hj, List.append_assoc]⟩

/-- Without disturbance, what a tick does is a turn of the socket or leaves it alone. -/
theorem Beat.passage (hb : Beat host h r t) (ha : r.Unasked h) (hu : r.Undisturbed h t) :
    (∃ turns, Passage host h r turns t) ∧ t.Unasked h := by
  cases hb with
  | turn duty hd hc hx =>
      obtain ⟨deeds, hadv, -⟩ := visit_advances duty.work_works hd
      rw [hx] at hadv
      exact ⟨⟨_, .turn .start duty hd hc hx hu.blameless⟩,
        ha.advance hadv (hu.of_advances hadv)⟩
  | applied =>
      exact ⟨⟨_, .aside .start (bypasses_applied ha.changes)⟩, ha.issued, fun c hc => by cases hc⟩
  | aside hbypass hadv =>
      obtain ⟨deeds, hadv⟩ := hadv
      exact ⟨⟨_, .aside .start hbypass⟩, ha.advance hadv (hu.of_advances hadv)⟩

theorem Beats.passage (hb : Beats host h r t) (ha : r.Unasked h) (hu : r.Undisturbed h t) :
    ∃ turns, Passage host h r turns t := by
  induction hb using Relation.ReflTransGen.head_induction_on with
  | refl => exact ⟨[], .start⟩
  | head hbeat hrest ih =>
      obtain ⟨hfirst, hsecond⟩ := hu.split hbeat.journal (Beats.journal hrest)
      obtain ⟨⟨turns, hp⟩, hasked⟩ := hbeat.passage ha hfirst
      obtain ⟨more, hm⟩ := ih hasked hsecond
      exact ⟨turns ++ more, hp.append hm⟩

/-- Undisturbed ticks are a stretch of turns of the socket. -/
theorem ticks_passage {config : ExecutorConfig} {n : Nat} (hk : r.registry.Keyed)
    (ha : r.Unasked h) (hx : ticks host config n r = (.cut .unfinished, t))
    (hu : r.Undisturbed h t) : ∃ turns, Passage host h r turns t :=
  (ticks_beats hk hx).passage ha hu

end Beats

end Run

end Reactor
