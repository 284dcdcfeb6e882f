import Reactor.Proofs.Run.Ownership
import Reactor.Proofs.Run.Ticks

/-! What becomes of the sockets that a run holds when its ticks are over: leave is taken of each of
them, once and in full. -/

namespace Reactor

variable {W S H P : Type} {host : Host W S H P}

/-- A part of the leave that is taken of a socket. -/
inductive Parting where
  | disconnected | closed | finalized
  deriving DecidableEq, Repr

def EventKind.parting? : EventKind → Option Parting
  | .disconnected => some .disconnected
  | .finalize => some .finalized
  | _ => none

def Deed.parting? (h : SocketHandle) : Deed S H → Option Parting
  | .raised k _ payload => if k = h then payload.kind.parting? else none
  | .closed k => if k = h then some .closed else none
  | _ => none

/-- The leave that was taken of a socket, in order. -/
def partings (h : SocketHandle) (deeds : List (Deed S H)) : List Parting :=
  deeds.filterMap (Deed.parting? h)

@[simp] theorem partings_append (h : SocketHandle) (deeds more : List (Deed S H)) :
    partings h (deeds ++ more) = partings h deeds ++ partings h more := by
  simp [partings]

theorem partings_cons (h : SocketHandle) (deed : Deed S H) (deeds : List (Deed S H)) :
    partings h (deed :: deeds) = (deed.parting? h).toList ++ partings h deeds := by
  rcases hd : deed.parting? h with _ | parting <;> simp [partings, hd]

theorem partings_eq_nil {h : SocketHandle} {deeds : List (Deed S H)}
    (hd : ∀ deed ∈ deeds, deed.parting? h = none) : partings h deeds = [] := by
  simpa [partings] using hd

theorem Deed.IsHearing.parting? {h k : SocketHandle} {deed : Deed S H}
    (hd : deed.IsHearing host k) : deed.parting? h = none := by
  cases deed with
  | heard => rfl
  | _ => exact hd.elim

/-- What is done for another socket is no part of it. -/
theorem Deed.IsLast.parting?_ne {h k : SocketHandle} {kind : EventKind} {deed : Deed S H}
    (hd : deed.IsLast host k kind) (hne : k ≠ h) : deed.parting? h = none := by
  cases deed with
  | raised k' standing payload =>
      obtain ⟨rfl, -⟩ := hd
      exact if_neg hne
  | reported | heard => rfl
  | _ => exact hd.elim

/-- A last event is one part, however it ends. -/
theorem LastWord.partings_eq {h : SocketHandle} {running : Bool} {payload : Payload S}
    {deeds : List (Deed S H)} (hw : LastWord host h running payload deeds) :
    partings h deeds = payload.kind.parting?.toList := by
  have hraised : ∀ standing : Standing,
      (Deed.raised h standing payload : Deed S H).parting? h = payload.kind.parting? :=
    fun _ => if_pos rfl
  cases hw with
  | heard hr hh =>
      rw [partings_cons, hraised, partings_eq_nil fun deed hd => (hh deed hd).parting?,
        List.append_nil]
  | failed error hr hh hm =>
      rw [partings_cons, hraised, partings_eq_nil, List.append_nil]
      intro deed hd
      rcases List.mem_append.1 hd with hd | hd
      · exact (hh deed hd).parting?
      · rcases List.mem_cons.1 hd with rfl | hd
        · rfl
        · exact (hm deed hd).parting?

theorem Leavetaking.partings_ne {h : SocketHandle} {d : Descriptor S H} {deeds : List (Deed S H)}
    (hl : Leavetaking host d deeds) (hne : d.handle ≠ h) : partings h deeds = [] := by
  refine partings_eq_nil fun deed hd => ?_
  obtain rfl | ⟨kind, -, hlast⟩ := hl.closed_or_isLast hd
  · exact if_neg hne
  · exact hlast.parting?_ne hne

/-- A socket of which leave was taken has been closed. -/
theorem closings_pos_of_parted {h : SocketHandle} {deeds : List (Deed S H)}
    (hp : Parting.closed ∈ partings h deeds) : 0 < closings h deeds := by
  obtain ⟨deed, hd, hparting⟩ := List.mem_filterMap.1 hp
  refine List.countP_pos_iff.2 ⟨deed, hd, ?_⟩
  cases deed with
  | closed k =>
      simp only [Deed.parting?] at hparting
      split at hparting
      · simpa [Deed.closes]
      · cases hparting
  | raised k standing payload =>
      simp only [Deed.parting?] at hparting
      split at hparting
      · revert hparting
        cases payload.kind <;> simp [EventKind.parting?]
      · cases hparting
  | _ => cases hparting

/-- The leave that is taken of a socket, given whether it is told of its disconnection. -/
def leave (told : Bool) : List Parting :=
  (if told then [.disconnected] else []) ++ [.closed, .finalized]

namespace Visit

/-- Whoever is not told of the disconnection is closed all the same. -/
theorem takeLeave_partings (host : Host W S H P) {v : Visit W S H P}
    (hc : (takeLeave host v).1 ≠ .crashed) : ∃ deeds : List (Deed S H),
      (takeLeave host v).2.session.journal = v.session.journal ++ deeds ∧
        partings v.descriptor.handle deeds = leave (v.toldOff host) := by
  have hfarewell : (v.farewell host).1 ≠ .crashed := fun hcrash =>
    hc (by rw [takeLeave_of_crashed hcrash, hcrash])
  have hclosed : (Deed.closed v.descriptor.handle : Deed S H).parting? v.descriptor.handle =
      some .closed := if_pos rfl
  rw [takeLeave_apply hfarewell]
  dsimp only
  by_cases ht : v.toldOff host = true
  · have hf : v.farewell host = notify host .disconnected v := if_pos ht
    obtain ⟨deeds, hw, hadv, hk⟩ := notify_deeds host .disconnected v
    rw [← hf] at hadv hk
    obtain ⟨more, hm, hadv'⟩ := finale_deeds host v hk
    refine ⟨_, (hadv.trans hadv').journal, ?_⟩
    rw [partings_append, partings_cons, hw.partings_eq, hm.partings_eq, hclosed, ht]
    rfl
  · have hf : v.farewell host = (.done (), v) := if_neg ht
    have hk : v.Kin (v.farewell host).2 := by
      rw [hf]
      exact ⟨_, _, rfl⟩
    obtain ⟨more, hm, hadv⟩ := finale_deeds host v hk
    rw [hf] at hadv
    refine ⟨_, hadv.journal, ?_⟩
    rw [partings_cons, hm.partings_eq, hclosed, eq_false_of_ne_true ht]
    rfl

end Visit

namespace Run

/-- After the run had come to `r`, leave was taken of the socket, once and in full: from the moment
`m` at which its turn came, it was told of its disconnection if it was open or its connection was
announced, then it was closed, and then it had its last event. -/
inductive Parted (host : Host W S H P) (h : SocketHandle) (r : Run W S H P)
    (deeds : List (Deed S H)) : Prop where
  | parted (m : Run W S H P) (d : Descriptor S H) (earlier later : List (Deed S H))
      (moves : r.Moves host m) (get : m.registry.get? h = some d)
      (journal : m.session.journal = r.session.journal ++ earlier)
      (split : deeds = earlier ++ later) (before : partings h earlier = [])
      (after : partings h later = leave
        (d.metadata.connectFinish || host.sockets.isOpen m.session.world d.socket)) :
      Parted host h r deeds

section Parted

variable {h : SocketHandle} {r t : Run W S H P} {deeds more : List (Deed S H)}

theorem Parted.later (hp : t.Parted host h more) (hm : r.Moves host t)
    (hj : t.session.journal = r.session.journal ++ deeds) (hd : partings h deeds = []) :
    r.Parted host h (deeds ++ more) := by
  obtain ⟨m, d, earlier, later, moves, get, journal, split, before, after⟩ := hp
  refine ⟨m, d, deeds ++ earlier, later, hm.trans moves, get, ?_, ?_, ?_, after⟩
  · rw [journal, hj, List.append_assoc]
  · rw [split, List.append_assoc]
  · rw [partings_append, hd, before]
    rfl

theorem Parted.followed (hp : r.Parted host h deeds) (hd : partings h more = []) :
    r.Parted host h (deeds ++ more) := by
  obtain ⟨m, d, earlier, later, moves, get, journal, split, before, after⟩ := hp
  refine ⟨m, d, earlier, later ++ more, moves, get, journal, ?_, before, ?_⟩
  · rw [split, List.append_assoc]
  · rw [partings_append, after, hd, List.append_nil]

/-- The leave was taken in full. -/
theorem Parted.closed (hp : r.Parted host h deeds) : Parting.closed ∈ partings h deeds := by
  obtain ⟨m, d, earlier, later, -, -, -, split, -, after⟩ := hp
  rw [split, partings_append, after]
  simp [leave]

end Parted

/-! ## Taking leave of the sockets one after the other -/

section Disconnecting

variable {h k : SocketHandle} {r t : Run W S H P} {ending : Ending Halt Unit}

/-- No leave is taken of a socket while it is taken of another one, or once it is gone. -/
theorem disconnect_spares (hk : r.registry.Keyed) (hx : disconnect host k r = (ending, t))
    (hc : ending ≠ .crashed) (hne : k ≠ h ∨ r.registry.get? h = none) :
    t.registry.get? h = r.registry.get? h ∧ ∃ deeds : List (Deed S H),
      r.session.Advances deeds t.session ∧ partings h deeds = [] := by
  rcases hd : r.registry.get? k with _ | d
  · rw [disconnect_of_none hd] at hx
    cases hx
    exact ⟨rfl, [], .refl _, rfl⟩
  have hother : k ≠ h := by
    rcases hne with hne | hnone
    · exact hne
    · rintro rfl
      rw [hd] at hnone
      cases hnone
  obtain ⟨deeds, hadv, hl⟩ := disconnect_advances host hd
  rw [hx] at hadv hl
  have hleave := hl.resolve_right fun h => hc h.1
  refine ⟨?_, deeds, hadv, hleave.partings_ne (by rwa [hk k d hd])⟩
  rw [disconnect_of_some hd] at hx
  cases hx
  rw [HandleMap.get?_erase, if_neg (Ne.symm hother)]

theorem disconnect_parts {d : Descriptor S H} (hk : r.registry.Keyed)
    (hd : r.registry.get? h = some d) (hx : disconnect host h r = (ending, t))
    (hc : ending ≠ .crashed) : t.registry.get? h = none ∧ ∃ deeds : List (Deed S H),
      t.session.journal = r.session.journal ++ deeds ∧ partings h deeds = leave
        (d.metadata.connectFinish || host.sockets.isOpen r.session.world d.socket) := by
  rw [disconnect_of_some hd] at hx
  obtain ⟨rfl, rfl⟩ := Prod.mk.inj hx
  obtain ⟨deeds, hj, hp⟩ := Visit.takeLeave_partings host (v := ⟨d, r.session⟩) hc
  rw [hk h d hd] at hp
  refine ⟨?_, deeds, hj, hp⟩
  rw [HandleMap.get?_erase, if_pos rfl]

/-- The rest of the sockets, after the first of them. -/
theorem disconnectAll_rest {rest : List SocketHandle}
    (hend : (disconnectAll host (k :: rest) r).1 ≠ .crashed) : ∃ ending t,
      disconnect host k r = (ending, t) ∧ ending ≠ .crashed ∧
        (disconnectAll host rest t).1 ≠ .crashed ∧
        (disconnectAll host (k :: rest) r).2 = (disconnectAll host rest t).2 := by
  rcases hx : disconnect host k r with ⟨ending, t⟩
  have hc : ending ≠ .crashed := by
    rintro rfl
    rw [disconnectAll, Step.bind_of_crashed (Step.attempt_of_crashed hx)] at hend
    exact hend rfl
  rw [disconnectAll_cons rest hx hc] at hend ⊢
  exact ⟨ending, t, rfl, hc, fun hcrash => hend (by rw [hcrash]; rfl), rfl⟩

/-- What there is to say of the sockets still to come, once the first is gone. -/
theorem disconnect_keeps {handles : List SocketHandle} (hk : r.registry.Keyed)
    (hf : r.Finished handles) (hh : k ∈ handles) (hx : disconnect host k r = (ending, t))
    (hc : ending ≠ .crashed) :
    r.Moves host t ∧ t.registry.Keyed ∧ t.Finished handles := by
  have hserves := (disconnect_follows hh).moves_to hf hx hc
  refine ⟨Relation.ReflTransGen.mono (fun _ _ => .served) r t hserves, ?_, ?_⟩
  · exact Step.kept_of_moves (I := fun r => r.registry.Keyed) (fun _ _ hk hm => hm.keyed hk) hk
      hserves
  · exact Step.kept_of_moves (I := Finished handles) (fun _ _ hf hm => hm.finished hf) hf hserves

theorem disconnectAll_absent {handles : List SocketHandle} :
    ∀ {hs : List SocketHandle} {r : Run W S H P}, (∀ k ∈ hs, k ∈ handles) →
      r.registry.Keyed → r.Finished handles → r.registry.get? h = none →
        (disconnectAll host hs r).1 ≠ .crashed → ∃ deeds : List (Deed S H),
          r.session.Advances deeds (disconnectAll host hs r).2.session ∧
            partings h deeds = [] := by
  intro hs
  induction hs with
  | nil => exact fun _ _ _ _ _ => ⟨[], .refl _, rfl⟩
  | cons k rest ih =>
      intro r hsub hk hf hnone hend
      obtain ⟨ending, t, hx, hc, hend', heq⟩ := disconnectAll_rest hend
      obtain ⟨-, hk', hf'⟩ := disconnect_keeps hk hf (hsub k List.mem_cons_self) hx hc
      obtain ⟨hget, deeds, hadv, hp⟩ := disconnect_spares hk hx hc (.inr hnone)
      obtain ⟨more, hadv', hp'⟩ := ih (fun j hj => hsub j (List.mem_cons_of_mem _ hj)) hk' hf'
        (hget.trans hnone) hend'
      refine ⟨deeds ++ more, heq ▸ hadv.trans hadv', ?_⟩
      rw [partings_append, hp, hp']
      rfl

/-- Leave is taken of each socket once, when its turn comes. -/
theorem disconnectAll_parts (host : Host W S H P) {d : Descriptor S H}
    {handles : List SocketHandle} :
    ∀ {hs : List SocketHandle} {r : Run W S H P}, (∀ k ∈ hs, k ∈ handles) →
      r.registry.Keyed → r.Finished handles → h ∈ hs → r.registry.get? h = some d →
        (disconnectAll host hs r).1 ≠ .crashed → ∃ deeds : List (Deed S H),
          (disconnectAll host hs r).2.session.journal = r.session.journal ++ deeds ∧
            r.Parted host h deeds := by
  intro hs
  induction hs with
  | nil => exact fun _ _ _ hh => by cases hh
  | cons k rest ih =>
      intro r hsub hk hf hh hd hend
      obtain ⟨ending, t, hx, hc, hend', heq⟩ := disconnectAll_rest hend
      obtain ⟨hm, hk', hf'⟩ := disconnect_keeps hk hf (hsub k List.mem_cons_self) hx hc
      have hrest : ∀ j ∈ rest, j ∈ handles := fun j hj => hsub j (List.mem_cons_of_mem _ hj)
      by_cases hkh : k = h
      · subst hkh
        obtain ⟨hgone, deeds, hj, hp⟩ := disconnect_parts hk hd hx hc
        obtain ⟨more, hadv, hp'⟩ := disconnectAll_absent hrest hk' hf' hgone hend'
        have hparted : r.Parted host k deeds :=
          .parted r d [] deeds .refl hd (List.append_nil _).symm rfl rfl hp
        refine ⟨deeds ++ more, ?_, hparted.followed hp'⟩
        rw [heq, hadv.journal, hj, List.append_assoc]
      · obtain ⟨hget, deeds, hadv, hp⟩ := disconnect_spares hk hx hc (.inl hkh)
        obtain ⟨more, hj', hp'⟩ := ih hrest hk' hf'
          ((List.mem_cons.1 hh).resolve_left fun h => hkh h.symm) (hget.trans hd) hend'
        refine ⟨deeds ++ more, ?_, hp'.later hm hadv.journal hp⟩
        rw [heq, hj', hadv.journal, List.append_assoc]

end Disconnecting

/-! ## The end of the ticks -/

/-- The run holds the socket when its ticks are over: it is registered, or its registration is
queued and is still going to be applied, as it is unless the ticks end by a failed selection. -/
def Holds (exit : Exit) (r : Run W S H P) (h : SocketHandle) : Prop :=
  h ∈ r.registry.keys ∨
    (∀ error, exit ≠ .selectFailed error) ∧ h ∈ enrolling r.session.context.changes

/-- What is queued is held, unless the selection has failed. -/
theorem selectFailed_of_not_holds {exit : Exit} {r : Run W S H P} {h : SocketHandle}
    (hq : h ∈ enrolling r.session.context.changes) (hh : ¬ r.Holds exit h) :
    ∃ error, exit = .selectFailed error := by
  by_contra hexit
  exact hh (.inr ⟨fun error heq => hexit ⟨error, heq⟩, hq⟩)

/-- Where nothing is left to do, nothing is queued either. -/
theorem attend_drained {config : ExecutorConfig} {r t : Run W S H P} (hk : r.registry.Keyed)
    (hx : attend host config r = (.done (some .drained), t)) : t = r := by
  have hrest := done_of_checkStop hx
  rw [Step.get_bind] at hrest
  split at hrest
  · cases hrest
    rfl
  · rw [Step.bind_of_done (admission_apply r)] at hrest
    have hdrained := (serveAdmitted_follows config (r.participants host)).delivers_to
      (serving_participants hk) hrest
    exact absurd rfl hdrained

theorem ticks_drained {config : ExecutorConfig} {fuel : Nat} {t : Run W S H P} :
    ∀ {r : Run W S H P}, r.registry.Keyed → ticks host config fuel r = (.done .drained, t) →
      t.session.context.changes = [] := by
  induction fuel with
  | zero => exact fun _ hx => by cases hx
  | succ fuel ih =>
      intro r hk hx
      rw [ticks_apply] at hx
      have hk' : r.applied.registry.Keyed := keyed_applied hk
      rcases ha : attend host config r.applied with ⟨(_ | exit) | (_ | text) | _, m⟩
      · rw [attendTicks, Step.bind_of_done (Step.attempt_of_done ha)] at hx
        have hmoves := (attend_follows config).moves_to hk' ha (by simp)
        exact ih (keyed_of_moves hk' hmoves) hx
      · rw [attendTicks, Step.bind_of_done (Step.attempt_of_done ha)] at hx
        cases hx
        obtain rfl := attend_drained hk' ha
        rfl
      · rw [attendTicks, Step.bind_of_done (Step.attempt_of_cut ha)] at hx
        cases hx
      · rw [attendTicks, Step.bind_of_done (Step.attempt_of_cut ha)] at hx
        cases hx
      · rw [attendTicks, Step.bind_of_crashed (Step.attempt_of_crashed ha)] at hx
        cases hx

/-- A report that the selection failed is no part of taking leave. -/
theorem Reports.partings {r r' : Run W S H P} (hr : r.Reports host r') (h : SocketHandle) :
    ∃ deeds : List (Deed S H), r.session.Advances deeds r'.session ∧ partings h deeds = [] := by
  obtain ⟨k, d, error, hearings, -, hh, hadv⟩ := hr.advances
  refine ⟨_, hadv, partings_eq_nil fun deed hd => ?_⟩
  rcases List.mem_cons.1 hd with rfl | hd
  · rfl
  · exact (hh deed hd).parting?

theorem reports_partings {r r' : Run W S H P} (hr : Relation.ReflTransGen (Reports host) r r')
    (h : SocketHandle) : r'.registry.keys = r.registry.keys ∧ ∃ deeds : List (Deed S H),
      r.session.Advances deeds r'.session ∧ partings h deeds = [] := by
  induction hr with
  | refl => exact ⟨rfl, [], .refl _, rfl⟩
  | tail _ hmove ih =>
      obtain ⟨hkeys, deeds, hadv, hp⟩ := ih
      obtain ⟨more, hadv', hp'⟩ := hmove.partings h
      refine ⟨hmove.keys.trans hkeys, deeds ++ more, hadv.trans hadv', ?_⟩
      rw [partings_append, hp, hp']
      rfl

/-- When the selection has failed, nobody joins and nobody goes before leave is taken. -/
theorem conclude_selectFailed {error : IoError} {r t : Run W S H P}
    (hx : conclude host (.selectFailed error) r = (.done (), t)) (h : SocketHandle) :
    t.registry.keys = r.registry.keys ∧ ∃ deeds : List (Deed S H),
      r.session.Advances deeds t.session ∧ partings h deeds = [] := by
  rw [conclude, Step.get_bind] at hx
  have hreports := (reportSelectFailure_follows host error r.registry.keys []).moves_to
    (fun h hh => by cases hh) hx (by simp)
  exact reports_partings hreports h

/-- What the run holds is in the registry when leave is taken, and none has been taken before. -/
theorem conclude_holds {exit : Exit} {r t : Run W S H P} {h : SocketHandle}
    (hdrained : exit = .drained → r.session.context.changes = []) (hh : r.Holds exit h)
    (hx : conclude host exit r.leavingOff = (.done (), t)) :
    h ∈ t.registry.keys ∧ ∃ deeds : List (Deed S H),
      t.session.journal = r.session.journal ++ deeds ∧ partings h deeds = [] := by
  cases exit with
  | drained =>
      cases hx
      rw [Holds, hdrained rfl] at hh
      have hregistered := hh.resolve_right fun h => by cases h.2
      exact ⟨hregistered, [], (List.append_nil _).symm, rfl⟩
  | stopped =>
      cases hx
      have hregistered : h ∈ r.applied.registry.keys :=
        mem_keys_applied_of_queued (hh.imp id And.right)
      obtain ⟨d, hd⟩ := HandleMap.mem_keys.1 hregistered
      refine ⟨?_, [], (List.append_nil _).symm, rfl⟩
      refine HandleMap.mem_keys.2 ⟨d.markComplete, ?_⟩
      show HandleMap.get? (HandleMap.map r.applied.registry fun _ d => d.markComplete) h = _
      rw [HandleMap.get?_map, hd]
      rfl
  | selectFailed error =>
      have hregistered := hh.resolve_right fun h => h.1 error rfl
      obtain ⟨hkeys, deeds, hadv, hp⟩ := conclude_selectFailed hx h
      exact ⟨hkeys ▸ hregistered, deeds, hadv.journal, hp⟩

/-- A leave that is not cut short has been taken to its end. -/
theorem part_done {r t : Run W S H P} (hx : part host r = (.done (), t)) :
    (disconnectStage host r).1 ≠ .crashed ∧ (disconnectStage host r).2 = t := by
  rcases hs : disconnectStage host r with ⟨_ | (_ | text) | _, m⟩
  · rw [part, Step.bind_of_done (Step.attempt_of_done hs)] at hx
    cases hx
    exact ⟨by simp, rfl⟩
  · rw [part, Step.bind_of_done (Step.attempt_of_cut hs)] at hx
    cases hx
    exact ⟨by simp, rfl⟩
  · rw [part, Step.bind_of_done (Step.attempt_of_cut hs)] at hx
    cases hx
  · rw [part, Step.bind_of_crashed (Step.attempt_of_crashed hs)] at hx
    cases hx

/-- If no socket has anything left to do, leave is taken of each of them. -/
theorem disconnectStage_parts {r : Run W S H P} {h : SocketHandle} (hk : r.registry.Keyed)
    (hzero : Registry.activeCount r.registry = 0) (hh : h ∈ r.registry.keys)
    (hend : (disconnectStage host r).1 ≠ .crashed) : ∃ deeds : List (Deed S H),
      (disconnectStage host r).2.session.journal = r.session.journal ++ deeds ∧
        r.Parted host h deeds := by
  obtain ⟨d, hd⟩ := HandleMap.mem_keys.1 hh
  have hcompleted : h ∈ Registry.completed r.registry := by
    simp only [Registry.completed, List.mem_map, List.mem_filter, HandleMap.mem_values]
    exact ⟨d, ⟨⟨h, hd⟩, activeCount_eq_zero.1 hzero h d hd⟩, hk h d hd⟩
  exact disconnectAll_parts host (fun _ hk => hk) hk (finished_completed hk) hcompleted hd hend

/-- A run that is wound down takes leave of whatever it holds. -/
theorem windDown_parts {exit : Exit} {r t : Run W S H P} {h : SocketHandle} (hr : r.Ended exit)
    (hdrained : exit = .drained → r.session.context.changes = []) (hh : r.Holds exit h)
    (hx : windDown host exit r = (.done (), t)) : ∃ deeds : List (Deed S H),
      t.session.journal = r.session.journal ++ deeds ∧ r.Parted host h deeds := by
  rw [windDown_eq, Step.modify_bind] at hx
  obtain ⟨_, m, hconclude, hpart⟩ := Step.done_of_bind hx
  have hended : r.leavingOff.Ended exit := hr
  obtain ⟨hkeyed, hzero⟩ := (conclude_follows exit).delivers_to hended hconclude
  have hmoves : r.Moves host m :=
    .head .leavingOff ((conclude_follows exit).moves_to hended hconclude (by simp))
  obtain ⟨hmem, deeds, hj, hp⟩ := conclude_holds hdrained hh hconclude
  have hstage := part_done hpart
  obtain ⟨more, hj', hparted⟩ := disconnectStage_parts hkeyed hzero hmem hstage.1
  have ht : t.session.journal = m.session.journal ++ more := by
    rw [← hstage.2]
    exact hj'
  refine ⟨deeds ++ more, ?_, hparted.later hmoves hj hp⟩
  rw [ht, hj, List.append_assoc]

/-- A run whose selection has failed takes no leave of whatever is not registered, and leaves the
queue as it is. -/
theorem windDown_unapplied {error : IoError} {r t : Run W S H P} {h : SocketHandle}
    (hr : r.Ended (.selectFailed error)) (hh : h ∉ r.registry.keys)
    (hx : windDown host (.selectFailed error) r = (.done (), t)) :
    ∃ deeds : List (Deed S H), r.leavingOff.session.Advances deeds t.session ∧
      partings h deeds = [] := by
  rw [windDown_eq, Step.modify_bind] at hx
  obtain ⟨_, m, hconclude, hpart⟩ := Step.done_of_bind hx
  have hended : r.leavingOff.Ended (.selectFailed error) := hr
  obtain ⟨hkeyed, -⟩ := (conclude_follows _).delivers_to hended hconclude
  obtain ⟨hkeys, deeds, hadv, hp⟩ := conclude_selectFailed hconclude h
  obtain ⟨hcrash, rfl⟩ := part_done hpart
  have hnone : m.registry.get? h = none := HandleMap.get?_eq_none.2 (hkeys ▸ hh)
  obtain ⟨more, hadv', hp'⟩ :=
    disconnectAll_absent (fun _ hk => hk) hkeyed (finished_completed hkeyed) hnone hcrash
  refine ⟨deeds ++ more, hadv.trans hadv', ?_⟩
  rw [partings_append, hp, hp']
  rfl

/-! ## The end of the run -/

/-- What a run that ends well does after its body: only registrations that are still queued are
closed. -/
theorem perform_done_journal (host : Host W S H P) (config : ExecutorConfig) (fuel : Nat)
    {r : Run W S H P} (hk : r.registry.Keyed) (hdone : (perform host config fuel r).1 = .done ()) :
    ∃ last, body host config fuel (startPolicy host r) = (.done (), last) ∧
      (perform host config fuel r).2.session.journal = last.session.journal ++
        .policyFinished :: (enrolling last.session.context.changes).map .closed := by
  obtain ⟨last, hbody, hempty, hlast⟩ := perform_done host config fuel hk hdone
  have hvalues : last.registry.values = [] := by
    refine List.eq_nil_iff_forall_not_mem.2 fun d hd => ?_
    obtain ⟨h, hh⟩ := HandleMap.mem_values.1 hd
    rw [hempty h] at hh
    cases hh
  refine ⟨last, hbody, ?_⟩
  rw [hlast, journal_closeAll]
  show last.session.journal ++ [.policyFinished] ++
    (last.registry.values.map (·.handle) ++ enrolling last.session.context.changes).map .closed = _
  rw [hvalues, List.append_assoc]
  rfl

theorem partings_closed (h : SocketHandle) (handles : List SocketHandle) :
    partings h (handles.map .closed : List (Deed S H)) =
      .replicate (handles.count h) .closed := by
  induction handles with
  | nil => rfl
  | cons k rest ih =>
      have hclosed : (Deed.closed k : Deed S H).parting? h = if k = h then some .closed else none :=
        rfl
      rw [List.map_cons, partings_cons, hclosed, ih, List.count_cons]
      by_cases hk : k = h <;> simp [hk, List.replicate_succ]

/-- The end of a run is no leave, but a closing of whatever is still queued. -/
theorem partings_finished (h : SocketHandle) (handles : List SocketHandle) :
    partings h (.policyFinished :: handles.map .closed : List (Deed S H)) =
      .replicate (handles.count h) .closed := by
  rw [partings_cons, partings_closed]
  rfl

section Queue

variable {start last : Run W S H P}
  (hs : ∀ h ∈ start.registry.keys, h.number < start.session.context.nextHandle.number)
  {h : SocketHandle}

include hs

/-- A socket of which leave was taken is not closed again at the end of the run: its one closing is
done, so it is not among those that are closed without a word. -/
theorem Parted.finished {r : Run W S H P} {deeds : List (Deed S H)} (hp : r.Parted host h deeds)
    (ha : start.Accounted last) (hj : last.session.journal = r.session.journal ++ deeds) :
    r.Parted host h
      (deeds ++ .policyFinished :: (enrolling last.session.context.changes).map .closed) := by
  have hclosed : 0 < closings h last.session.journal := by
    rw [hj, closings_append]
    exact Nat.lt_of_lt_of_le (closings_pos_of_parted hp.closed) (Nat.le_add_left _ _)
  have honce := ha.total_le_one hs h
  refine hp.followed ?_
  rw [partings_finished, show (enrolling last.session.context.changes).count h = 0 by omega]
  rfl

/-- A socket whose registration is still queued at the end is closed then, and only closed. -/
theorem Accounted.partings_unapplied (ha : start.Accounted last)
    (hq : h ∈ enrolling last.session.context.changes) :
    partings h (.policyFinished ::
      (enrolling last.session.context.changes).map Deed.closed : List (Deed S H)) = [.closed] := by
  have honce := ha.total_le_one hs h
  have hqueued := List.count_pos_iff.2 hq
  rw [partings_finished, show (enrolling last.session.context.changes).count h = 1 by omega]
  rfl

end Queue

end Run

end Reactor
