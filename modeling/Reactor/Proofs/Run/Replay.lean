import Reactor.Proofs.Run.Ownership
import Reactor.Proofs.Run.Passage

/-! The queue of changes. Between two applications it only grows, and the registry only loses
sockets; when it is applied, every handle gets what the changes that name it make of it, one after
the other. -/

namespace Reactor

variable {W S H P : Type}

theorem Descriptor.Reworked.trans {d d' d'' : Descriptor S H} (h : d.Reworked d')
    (h' : d'.Reworked d'') : d.Reworked d'' where
  handle := h'.handle.trans h.handle
  socket := h'.socket.trans h.socket
  running := h'.running.trans h.running
  postponed := h'.postponed.trans h.postponed
  connectFinish := h'.connectFinish.trans h.connectFinish

/-! ## Replaying the queue for one handle -/

/-- What a change makes of the descriptor that it names, if there is one. -/
def Change.amend : Change S → Option (Descriptor S H) → Option (Descriptor S H)
  | .register g, none => some g.descriptor
  | .register g, some d => some (d.setOperation g.operation)
  | .deregister _, d => d.map Descriptor.markComplete
  | .setOperation _ operation, d =>
      d.map fun d => if d.isComplete then d else d.setOperation operation

/-- What the changes make of the descriptor of a handle. Those that name another handle count for
nothing. -/
def replay (changes : List (Change S)) (h : SocketHandle) (d : Option (Descriptor S H)) :
    Option (Descriptor S H) :=
  (changes.filter fun c => c.handle = h).foldl (fun d c => c.amend d) d

section Replay

variable {h : SocketHandle} {c : Change S} {changes : List (Change S)}

theorem replay_cons (c : Change S) (changes : List (Change S)) (h : SocketHandle)
    (d : Option (Descriptor S H)) :
    replay (c :: changes) h d = replay changes h (if c.handle = h then c.amend d else d) := by
  unfold replay
  split
  · rename_i hc
    rw [List.filter_cons_of_pos (by simpa using hc), List.foldl_cons]
  · rename_i hc
    rw [List.filter_cons_of_neg (by simpa using hc)]

theorem replay_append (changes more : List (Change S)) (h : SocketHandle)
    (d : Option (Descriptor S H)) :
    replay (changes ++ more) h d = replay more h (replay changes h d) := by
  simp only [replay, List.filter_append, List.foldl_append]

/-- A handle that is not named keeps its descriptor. -/
theorem replay_of_unnamed (hne : ∀ c ∈ changes, c.handle ≠ h) (d : Option (Descriptor S H)) :
    replay changes h d = d := by
  rw [replay, List.filter_eq_nil_iff.2 fun c hc => by simpa using hne c hc]
  rfl

theorem get?_apply (registry : Registry S H) (c : Change S) (h : SocketHandle) :
    HandleMap.get? (registry.apply c) h = if c.handle = h then c.amend (HandleMap.get? registry h)
      else HandleMap.get? registry h := by
  split
  · rename_i hc
    subst hc
    cases c with
    | register g =>
        simp only [Change.handle]
        rcases hg : HandleMap.get? registry g.handle with _ | d
        · rw [Registry.apply_register_new hg, HandleMap.get?_insert hg, if_pos rfl]
          rfl
        · rw [Registry.apply_register_known hg, HandleMap.get?_modify, if_pos rfl, hg]
          rfl
    | deregister k => rw [Registry.apply, Change.handle, HandleMap.get?_modify, if_pos rfl]; rfl
    | setOperation k operation =>
        rw [Registry.apply, Change.handle, HandleMap.get?_modify, if_pos rfl]
        rfl
  · rename_i hc
    exact Run.get?_apply_of_ne (Ne.symm hc)

/-- Applying the queue comes to replaying it for every handle. -/
theorem get?_foldl_apply_eq_replay (changes : List (Change S)) (h : SocketHandle) :
    ∀ registry : Registry S H, HandleMap.get? (changes.foldl Registry.apply registry) h =
      replay changes h (HandleMap.get? registry h) := by
  induction changes with
  | nil => exact fun _ => rfl
  | cons c rest ih =>
      intro registry
      rw [List.foldl_cons, ih, get?_apply, replay_cons]

/-- What every change but a registration keeps of a descriptor, the changes keep, if none of them
registers its handle. -/
theorem replay_keeps {I : Option (Descriptor S H) → Prop}
    (hI : ∀ (c : Change S) d, c.registration? = none → I d → I (c.amend d)) :
    ∀ {changes : List (Change S)} {d : Option (Descriptor S H)}, h ∉ enrolling changes → I d →
      I (replay changes h d) := by
  intro changes
  induction changes with
  | nil => exact fun _ hd => hd
  | cons c rest ih =>
      intro d hh hd
      rw [← List.singleton_append, enrolling_append, List.mem_append, not_or] at hh
      rw [replay_cons]
      refine ih hh.2 ?_
      split
      · rename_i hc
        refine hI c d ?_ hd
        cases c with
        | register g => exact absurd (List.mem_singleton.2 hc.symm) hh.1
        | _ => rfl
      · exact hd

/-- Without a registration the changes can not bring a descriptor about. -/
theorem replay_none (hh : h ∉ enrolling changes) :
    replay changes h (none : Option (Descriptor S H)) = none := by
  refine replay_keeps (I := fun d => d = none) ?_ hh rfl
  rintro (g | k | ⟨k, operation⟩) _ hc rfl
  · cases hc
  · rfl
  · rfl

/-- Without a registration the changes give a registered socket other work at most, and do not bring
one back to work that has nothing left to do. -/
theorem replay_some (hh : h ∉ enrolling changes) (d : Descriptor S H) :
    ∃ d', replay changes h (some d) = some d' ∧ d.Reworked d' ∧
      (d.isComplete = true → d'.isComplete = true) := by
  refine replay_keeps (I := fun o => ∃ d', o = some d' ∧ d.Reworked d' ∧
    (d.isComplete = true → d'.isComplete = true)) ?_ hh ⟨d, rfl, .refl d, id⟩
  rintro (g | k | ⟨k, operation⟩) _ hc ⟨d', rfl, hwork, hcomplete⟩
  · cases hc
  · exact ⟨_, rfl, hwork.trans d'.reworked_markComplete, fun _ => rfl⟩
  · refine ⟨_, rfl, ?_⟩
    dsimp only
    split
    · exact ⟨hwork, hcomplete⟩
    · rename_i hactive
      exact ⟨hwork.trans (d'.reworked_setOperation operation),
        fun h => absurd (hcomplete h) hactive⟩

/-- Without a registration nothing changes a socket that has been completed. -/
theorem replay_completed (hh : h ∉ enrolling changes) (d : Descriptor S H) :
    replay changes h (some d.markComplete) = some d.markComplete := by
  refine replay_keeps (I := fun o => o = some d.markComplete) ?_ hh rfl
  rintro (g | k | ⟨k, operation⟩) _ hc rfl
  · cases hc
  · rfl
  · rfl

end Replay

namespace Run

variable {host : Host W S H P} {start r r' : Run W S H P}

theorem get?_applied (r : Run W S H P) (h : SocketHandle) :
    r.applied.registry.get? h = replay r.session.context.changes h (r.registry.get? h) :=
  get?_foldl_apply_eq_replay _ _ _

section Accounted

variable (ha : start.Accounted r)
  (hs : ∀ h ∈ start.registry.keys, h.number < start.session.context.nextHandle.number)
include ha hs

/-- A registration that is queued is the only one of its handle, which is not registered yet. -/
theorem Accounted.registration {g : Registration S} {before after : List (Change S)}
    (hq : r.session.context.changes = before ++ .register g :: after) :
    g.handle ∉ r.registry.keys ∧ g.handle ∉ enrolling before ∧ g.handle ∉ enrolling after := by
  have hone := ha.total_le_one hs g.handle
  rw [hq, enrolling_append, enrolling_register, List.count_append, List.count_cons_self] at hone
  refine ⟨?_, ?_, ?_⟩ <;> rw [← List.count_eq_zero] <;> omega

theorem Accounted.not_enrolling {h : SocketHandle} {d : Descriptor S H}
    (hd : r.registry.get? h = some d) : h ∉ enrolling r.session.context.changes := by
  have hone := ha.total_le_one hs h
  have hpos : 0 < r.registry.keys.count h := List.count_pos_iff.2 (HandleMap.mem_keys.2 ⟨d, hd⟩)
  rw [← List.count_eq_zero]
  omega

/-- Where a registration is replayed, there is no descriptor yet. -/
theorem Accounted.replay_before {g : Registration S} {before after : List (Change S)}
    (hq : r.session.context.changes = before ++ .register g :: after) :
    replay before g.handle (r.registry.get? g.handle) = none := by
  obtain ⟨hkey, hbefore, -⟩ := ha.registration hs hq
  rw [HandleMap.get?_eq_none.2 hkey, replay_none hbefore]

/-- A queued registration begins with a new descriptor, and what is queued after it is done to
that. -/
theorem Accounted.get?_registered {g : Registration S} {before after : List (Change S)}
    (hq : r.session.context.changes = before ++ .register g :: after) :
    r.applied.registry.get? g.handle = replay after g.handle (some g.descriptor) := by
  rw [get?_applied, hq, replay_append, ha.replay_before hs hq, replay_cons]
  exact congrArg (replay after g.handle) (if_pos rfl)

/-- After a queued removal the socket has nothing left to do, whatever is queued later. -/
theorem Accounted.get?_deregistered {h : SocketHandle} {d : Descriptor S H}
    {before after : List (Change S)}
    (hq : r.session.context.changes = before ++ .deregister h :: after)
    (hd : replay before h (r.registry.get? h) = some d) :
    r.applied.registry.get? h = some d.markComplete := by
  have hone := ha.total_le_one hs h
  rw [hq, enrolling_append, enrolling_deregister, List.count_append] at hone
  have hafter : h ∉ enrolling after := by
    -- The descriptor is there, so the only registration of the handle is behind it.
    rcases hk : r.registry.get? h with _ | d₀
    · have hbefore : h ∈ enrolling before := by
        by_contra hnot
        rw [hk, replay_none hnot] at hd
        cases hd
      have hpos := List.count_pos_iff.2 hbefore
      rw [← List.count_eq_zero]
      omega
    · have hpos : 0 < r.registry.keys.count h :=
        List.count_pos_iff.2 (HandleMap.mem_keys.2 ⟨d₀, hk⟩)
      rw [← List.count_eq_zero]
      omega
  rw [get?_applied, hq, replay_append, hd, replay_cons]
  exact (congrArg (replay after h) (if_pos rfl)).trans (replay_completed hafter d)

/-- What applying the queue does to the sockets: those that were there are given other work at most,
and are not brought back to work; the others are new and wait. -/
theorem Accounted.get?_applied_cases {h : SocketHandle} {d' : Descriptor S H}
    (hd' : r.applied.registry.get? h = some d') :
    (∃ d, r.registry.get? h = some d ∧ d.Reworked d' ∧
        (d.isComplete = true → d'.isComplete = true)) ∨
      h ∈ enrolling r.session.context.changes ∧ d'.running = false := by
  rcases hk : r.registry.get? h with _ | d
  · rw [get?_applied, hk] at hd'
    by_cases hh : h ∈ enrolling r.session.context.changes
    · refine .inr ⟨hh, ?_⟩
      simp only [enrolling, List.mem_map, List.mem_filterMap] at hh
      obtain ⟨g, ⟨c, hc, hg⟩, rfl⟩ := hh
      obtain rfl : c = .register g := by
        cases c with
        | register g' => rw [Option.some.inj hg]
        | _ => cases hg
      obtain ⟨before, after, hq⟩ := List.append_of_mem hc
      obtain ⟨-, -, hafter⟩ := ha.registration hs hq
      have hnew := ha.get?_registered hs hq
      rw [get?_applied, hk, hd'] at hnew
      obtain ⟨d₁, hreplay, hwork, -⟩ := replay_some hafter (g.descriptor (H := H))
      rw [hreplay] at hnew
      rw [Option.some.inj hnew, hwork.running]
      rfl
    · rw [replay_none hh] at hd'
      cases hd'
  · obtain ⟨d₁, hreplay, hwork, hcomplete⟩ := replay_some (ha.not_enrolling hs hk) d
    rw [get?_applied, hk, hreplay] at hd'
    obtain rfl := Option.some.inj hd'
    exact .inl ⟨d, rfl, hwork, hcomplete⟩

end Accounted

/-! ## Between two applications of the queue -/

/-- A move of a run that does not apply the queue. -/
inductive Interim (host : Host W S H P) (r : Run W S H P) : Run W S H P → Prop where
  | admitted : Interim host r (r.admitted host)
  | served {r' : Run W S H P} (h : r.Serves host r') : Interim host r r'
  | leavingOff : Interim host r r.leavingOff
  | dismissed : Interim host r r.dismissed
  | reported {r' : Run W S H P} (h : r.Reports host r') : Interim host r r'

theorem move_iff : r.Move host r' ↔ r' = r.applied ∨ r.Interim host r' := by
  constructor
  · rintro (_ | _ | h | _ | _ | h)
    · exact .inl rfl
    · exact .inr .admitted
    · exact .inr (.served h)
    · exact .inr .leavingOff
    · exact .inr .dismissed
    · exact .inr (.reported h)
  · rintro (rfl | _ | h | _ | _ | h)
    · exact .applied
    · exact .admitted
    · exact .served h
    · exact .leavingOff
    · exact .dismissed
    · exact .reported h

/-- The run has gone on by the deeds: the registry has at most lost sockets, and the queue has grown
by what the hooks asked for, in that order. -/
structure Defers (deeds : List (Deed S H)) (r r' : Run W S H P) : Prop where
  keys : r'.registry.keys.Sublist r.registry.keys
  journal : r'.session.journal = r.session.journal ++ deeds
  changes : r'.session.context.changes =
    r.session.context.changes ++ queueOf r.session.context.nextHandle (requested deeds)
  nextHandle : r'.session.context.nextHandle =
    ⟨r.session.context.nextHandle.number + registrations (requested deeds)⟩

theorem Defers.of_advances {deeds : List (Deed S H)}
    (hk : r'.registry.keys.Sublist r.registry.keys) (h : r.session.Advances deeds r'.session) :
    r.Defers deeds r' := ⟨hk, h.journal, h.changes, h.nextHandle⟩

theorem Defers.of_same (hk : r'.registry.keys.Sublist r.registry.keys)
    (hj : r'.session.journal = r.session.journal) (hc : r'.session.context = r.session.context) :
    r.Defers [] r' where
  keys := hk
  journal := by rw [hj, List.append_nil]
  changes := by rw [hc]; simp [queueOf]
  nextHandle := by rw [hc]; simp

theorem Defers.trans {deeds more : List (Deed S H)} {r'' : Run W S H P} (h : r.Defers deeds r')
    (h' : r'.Defers more r'') : r.Defers (deeds ++ more) r'' where
  keys := h'.keys.trans h.keys
  journal := by rw [h'.journal, h.journal, List.append_assoc]
  changes := by
    rw [h'.changes, h.changes, h.nextHandle, requested_append, queueOf_append, List.append_assoc]
  nextHandle := by
    rw [h'.nextHandle, h.nextHandle, requested_append, registrations_append]
    simp [Nat.add_assoc]

theorem keys_disconnect_sublist (host : Host W S H P) (h : SocketHandle) (r : Run W S H P) :
    (disconnect host h r).2.registry.keys.Sublist r.registry.keys := by
  rcases hd : r.registry.get? h with _ | d
  · rw [disconnect_of_none hd]
  · rw [disconnect_of_some hd]
    exact List.filter_sublist.map _

theorem Interim.defers (h : r.Interim host r') : ∃ deeds, r.Defers deeds r' := by
  cases h with
  | admitted =>
      obtain ⟨deeds, -, hadv⟩ := r.admitted_advances host
      exact ⟨deeds, .of_advances (by rw [keys_admitted]) hadv⟩
  | served h =>
      obtain ⟨deeds, hadv⟩ := h.advances
      refine ⟨deeds, .of_advances ?_ hadv⟩
      cases h with
      | visited duty hd => rw [keys_visit _ hd]
      | selected timeout admitted => rw [selectStage_registry]
      | left => exact keys_disconnect_sublist host _ r
  | leavingOff => exact ⟨[], .of_same (List.Sublist.refl _) rfl rfl⟩
  | dismissed => exact ⟨[], .of_same (by rw [Run.dismissed, HandleMap.keys_map]) rfl rfl⟩
  | reported h =>
      obtain ⟨k, d, error, hearings, -, -, hadv⟩ := h.advances
      exact ⟨_, .of_advances (by rw [h.keys]) hadv⟩

/-- Until the queue is applied again, sockets leave the registry and none is added to it, and the
hooks' requests line up in the queue. -/
theorem defers_of_interims (h : Relation.ReflTransGen (Interim host) r r') :
    ∃ deeds, r.Defers deeds r' := by
  induction h with
  | refl => exact ⟨[], .of_same (List.Sublist.refl _) rfl rfl⟩
  | tail _ hstep ih =>
      obtain ⟨deeds, hd⟩ := ih
      obtain ⟨more, hm⟩ := hstep.defers
      exact ⟨deeds ++ more, hd.trans hm⟩

end Run

end Reactor
