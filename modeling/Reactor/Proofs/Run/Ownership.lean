import Reactor.Proofs.Run.Course

/-! Who owns the sockets of a run. Every socket that was there at the beginning or has been handed
over since is registered, or waits in the queue of changes, or has been closed, and only one of
these. -/

namespace Reactor

variable {W S H P : Type} {host : Host W S H P}

def Deed.closes (h : SocketHandle) : Deed S H → Bool
  | .closed k => k = h
  | _ => false

/-- How often the socket of a handle has been closed. -/
def closings (h : SocketHandle) (journal : List (Deed S H)) : Nat :=
  journal.countP (Deed.closes h)

/-- The deed is about the beginning or the end of the whole run. -/
def Deed.IsMark : Deed S H → Prop
  | .policyStarted | .policyFinished => True
  | _ => False

section Closings

variable (h : SocketHandle)

@[simp] theorem closings_nil : closings h ([] : List (Deed S H)) = 0 := rfl

@[simp] theorem closings_append (journal deeds : List (Deed S H)) :
    closings h (journal ++ deeds) = closings h journal + closings h deeds := by
  simp [closings]

theorem closings_cons (deed : Deed S H) (deeds : List (Deed S H)) :
    closings h (deed :: deeds) = closings h deeds + if deed.closes h then 1 else 0 := by
  simp [closings, List.countP_cons]

theorem closings_eq_zero {deeds : List (Deed S H)} (hd : ∀ deed ∈ deeds, deed.closes h = false) :
    closings h deeds = 0 := by
  rw [closings, List.countP_eq_zero]
  intro deed hmem
  simp [hd deed hmem]

theorem closings_map (handles : List SocketHandle) :
    closings h (handles.map (.closed : SocketHandle → Deed S H)) = handles.count h := by
  induction handles with
  | nil => rfl
  | cons k rest ih =>
      rw [List.map_cons, closings_cons, ih, List.count_cons]
      simp [Deed.closes]

end Closings

theorem Deed.IsWork.closes {k h : SocketHandle} {running : Bool} {deed : Deed S H}
    (hd : deed.IsWork host k running) : deed.closes h = false := by
  cases deed with
  | closed => exact hd.elim
  | _ => rfl

theorem Deed.IsLast.closes {k h : SocketHandle} {kind : EventKind} {deed : Deed S H}
    (hd : deed.IsLast host k kind) : deed.closes h = false := by
  cases deed with
  | closed => exact hd.elim
  | _ => rfl

theorem Deed.IsAside.closes {h : SocketHandle} {deed : Deed S H} (hd : deed.IsAside) :
    deed.closes h = false := by
  cases deed with
  | closed => exact hd.elim
  | _ => rfl

/-- Taking leave closes the socket once, and no other. -/
theorem Leavetaking.closings_eq {d : Descriptor S H} {deeds : List (Deed S H)}
    (hl : Leavetaking host d deeds) (h : SocketHandle) :
    closings h deeds = if d.handle = h then 1 else 0 := by
  have hlast : ∀ {payload : Payload S} {deeds : List (Deed S H)},
      LastWord host d.handle d.running payload deeds → closings h deeds = 0 :=
    fun hw => closings_eq_zero h fun deed hd => (hw.isLast deed hd).closes
  cases hl with
  | silent _ hf =>
      rw [closings_cons, hlast hf]
      simp [Deed.closes]
  | told hw hf =>
      rw [closings_append, closings_cons, hlast hw, hlast hf]
      simp [Deed.closes]

theorem Deed.IsWork.not_isMark {k : SocketHandle} {running : Bool} {deed : Deed S H}
    (hd : deed.IsWork host k running) : ¬ deed.IsMark := by
  cases deed with
  | policyStarted => exact hd.elim
  | policyFinished => exact hd.elim
  | _ => exact id

theorem Deed.IsLast.not_isMark {k : SocketHandle} {kind : EventKind} {deed : Deed S H}
    (hd : deed.IsLast host k kind) : ¬ deed.IsMark := by
  cases deed with
  | policyStarted => exact hd.elim
  | policyFinished => exact hd.elim
  | _ => exact id

theorem Deed.IsAside.not_isMark {deed : Deed S H} (hd : deed.IsAside) : ¬ deed.IsMark := by
  cases deed with
  | decided | selected => exact id
  | _ => exact hd.elim

theorem Leavetaking.not_isMark {d : Descriptor S H} {deeds : List (Deed S H)}
    (hl : Leavetaking host d deeds) : ∀ deed ∈ deeds, ¬ deed.IsMark := by
  intro deed hd
  obtain rfl | ⟨kind, -, hlast⟩ := hl.closed_or_isLast hd
  · exact id
  · exact hlast.not_isMark

namespace Run

/-- The books of a run: for every handle, how often its socket has been closed, whether it is
registered and whether its registration is queued add up to whether the socket was there at the
beginning or has been handed over since. -/
structure Accounted (start r : Run W S H P) : Prop where
  keyed : r.registry.Keyed
  balance : ∀ h, closings h r.session.journal + r.registry.keys.count h +
      (enrolling r.session.context.changes).count h =
    start.registry.keys.count h +
      issued start.session.context.nextHandle.number r.session.context.nextHandle.number h
  supply : r.session.context.nextHandle.number =
    start.session.context.nextHandle.number + registrations (requested r.session.journal)
  executing : r.session.context.control.executing = true
  unmarked : ∃ deeds, r.session.journal = start.session.journal ++ deeds ∧
    ∀ deed ∈ deeds, ¬ deed.IsMark

variable {start r r' : Run W S H P}

/-- The books stay in balance when the session goes on, as long as sockets leave the registry by
being closed. -/
theorem Accounted.advance (ha : start.Accounted r) (hk : r'.registry.Keyed)
    {deeds : List (Deed S H)} (hadv : r.session.Advances deeds r'.session)
    (hcount : ∀ h, closings h deeds + r'.registry.keys.count h = r.registry.keys.count h)
    (hmark : ∀ deed ∈ deeds, ¬ deed.IsMark) : start.Accounted r' where
  keyed := hk
  balance h := by
    have hb := ha.balance h
    have hc := hcount h
    have hs := ha.supply
    have hqueue := count_enrolling_queueOf h (requested deeds) r.session.context.nextHandle
    have hissued := issued_add (h := h) (a := start.session.context.nextHandle.number)
      (b := r.session.context.nextHandle.number) (c := r'.session.context.nextHandle.number)
      (by omega) (by rw [hadv.nextHandle]; exact Nat.le_add_right _ _)
    have hnext : r'.session.context.nextHandle.number =
        r.session.context.nextHandle.number + registrations (requested deeds) := by
      rw [hadv.nextHandle]
    rw [hadv.journal, hadv.changes, closings_append, enrolling_append, List.count_append, hqueue,
      ← hnext]
    omega
  supply := by
    rw [hadv.nextHandle, hadv.journal, requested_append, registrations_append, ha.supply]
    simp [Nat.add_assoc]
  executing := hadv.executing.trans ha.executing
  unmarked := by
    obtain ⟨earlier, hj, hm⟩ := ha.unmarked
    refine ⟨earlier ++ deeds, by rw [hadv.journal, hj, List.append_assoc], fun deed hd => ?_⟩
    exact (List.mem_append.1 hd).elim (hm deed) (hmark deed)

/-- No socket is owned twice. -/
theorem Accounted.total_le_one (ha : start.Accounted r)
    (hs : ∀ h ∈ start.registry.keys, h.number < start.session.context.nextHandle.number)
    (h : SocketHandle) : closings h r.session.journal + r.registry.keys.count h +
      (enrolling r.session.context.changes).count h ≤ 1 := by
  have hcount : start.registry.keys.count h ≤ 1 :=
    List.nodup_iff_count_le_one.1 (HandleMap.nodup_keys _) h
  rw [ha.balance h]
  by_cases hmem : h ∈ start.registry.keys
  · have := hs h hmem
    simp only [issued]
    split <;> omega
  · rw [List.count_eq_zero_of_not_mem hmem]
    simp only [issued]
    split <;> omega

/-- Every handle that is registered has been given out. -/
theorem Accounted.lt_nextHandle (ha : start.Accounted r)
    (hs : ∀ h ∈ start.registry.keys, h.number < start.session.context.nextHandle.number)
    {h : SocketHandle} (hh : h ∈ r.registry.keys) :
    h.number < r.session.context.nextHandle.number := by
  have hbalance := ha.balance h
  have hcount : 0 < r.registry.keys.count h := List.count_pos_iff.2 hh
  by_cases hstart : h ∈ start.registry.keys
  · rw [ha.supply]
    exact Nat.lt_of_lt_of_le (hs h hstart) (Nat.le_add_right _ _)
  · rw [List.count_eq_zero_of_not_mem hstart] at hbalance
    unfold issued at hbalance
    split at hbalance
    · rename_i hlt
      exact hlt.2
    · omega

theorem Accounted.applied (ha : start.Accounted r)
    (hs : ∀ h ∈ start.registry.keys, h.number < start.session.context.nextHandle.number) :
    start.Accounted r.applied := by
  -- A registration that is still queued is not registered, so applying it only moves the socket.
  let I (registry : Registry S H) (changes : List (Change S)) : Prop :=
    registry.Keyed ∧ ∀ h, closings h r.session.journal + registry.keys.count h +
      (enrolling changes).count h = start.registry.keys.count h +
        issued start.session.context.nextHandle.number r.session.context.nextHandle.number h
  have hkeep : ∀ registry c rest, I registry (c :: rest) → I (registry.apply c) rest := by
    rintro registry c rest ⟨hk, hb⟩
    refine ⟨Registry.keyed_apply hk c, fun h => ?_⟩
    have hsplit : enrolling (c :: rest) = enrolling [c] ++ enrolling rest := by
      rw [← enrolling_append]
      rfl
    have hnew : ∀ g, c = .register g → HandleMap.get? registry g.handle = none := by
      rintro g rfl
      rw [HandleMap.get?_eq_none, ← List.count_eq_zero]
      have hbg := hb g.handle
      have hone := ha.total_le_one hs g.handle
      rw [ha.balance, ← hbg, enrolling_register, List.count_cons_self] at hone
      omega
    rw [Registry.count_keys_apply c h hnew, ← hb h, hsplit, List.count_append]
    omega
  obtain ⟨hk, hb⟩ := Registry.foldl_apply_keeps hkeep r.session.context.changes r.registry
    ⟨ha.keyed, ha.balance⟩
  exact ⟨hk, hb, ha.supply, ha.executing, ha.unmarked⟩

theorem Accounted.serves (ha : start.Accounted r) (h : r.Serves host r') : start.Accounted r' := by
  cases h with
  | visited duty hd hc hr =>
      obtain ⟨deeds, hadv, hw⟩ := visit_advances duty.work_works hd
      have hkeys := keys_visit (duty.work host) hd
      refine ha.advance (Serves.keyed ha.keyed (.visited duty hd hc hr)) hadv (fun k => ?_)
        fun deed hdeed => (hw deed hdeed).not_isMark
      rw [closings_eq_zero k fun deed hdeed => (hw deed hdeed).closes, hkeys, Nat.zero_add]
  | selected timeout admitted =>
      obtain ⟨deeds, hsel, hadv⟩ := selectStage_advances host timeout admitted r
      refine ha.advance (Serves.keyed ha.keyed (.selected timeout admitted)) hadv (fun k => ?_)
        fun deed hdeed => (hsel deed hdeed).not_isMark
      rw [closings_eq_zero k fun deed hdeed => (hsel deed hdeed).closes, selectStage_registry,
        Nat.zero_add]
  | left hd hc hl =>
      obtain ⟨deeds, hadv, hleave | ⟨hcrash, -⟩⟩ := disconnect_advances host hd
      · refine ha.advance (Serves.keyed ha.keyed (.left hd hc hl)) hadv (fun k => ?_)
          hleave.not_isMark
        rw [hleave.closings_eq, ha.keyed _ _ hd, disconnect_of_some hd,
          ← HandleMap.count_keys_erase hd k, Nat.add_comm]
      · exact absurd hcrash hl

theorem Accounted.move (ha : start.Accounted r)
    (hs : ∀ h ∈ start.registry.keys, h.number < start.session.context.nextHandle.number)
    (h : r.Move host r') : start.Accounted r' := by
  have hk := h.keyed ha.keyed
  cases h with
  | applied => exact ha.applied hs
  | admitted =>
      obtain ⟨deeds, hv, hadv⟩ := r.admitted_advances host
      refine ha.advance hk hadv (fun k => ?_) fun deed hdeed => (hv deed hdeed).not_isMark
      rw [closings_eq_zero k fun deed hdeed => (hv deed hdeed).closes, keys_admitted, Nat.zero_add]
  | served h => exact ha.serves h
  | leavingOff => exact ⟨hk, ha.balance, ha.supply, ha.executing, ha.unmarked⟩
  | dismissed =>
      refine ⟨hk, fun k => ?_, ha.supply, ha.executing, ha.unmarked⟩
      rw [Run.dismissed, HandleMap.keys_map]
      exact ha.balance k
  | reported h =>
      obtain ⟨k, d, error, hearings, -, hh, hadv⟩ := h.advances
      have hw : ∀ deed ∈ Deed.reported d.handle d.standing (.io error) none :: hearings,
          deed.IsWork host d.handle d.running := by
        intro deed hdeed
        rcases List.mem_cons.1 hdeed with rfl | hdeed
        · exact ⟨rfl, rfl⟩
        · exact (hh deed hdeed).isWork
      refine ha.advance hk hadv (fun k => ?_) fun deed hdeed => (hw deed hdeed).not_isMark
      rw [closings_eq_zero k fun deed hdeed => (hw deed hdeed).closes, h.keys, Nat.zero_add]

/-- A run keeps its books all the way. -/
theorem Accounted.moves (ha : start.Accounted r)
    (hs : ∀ h ∈ start.registry.keys, h.number < start.session.context.nextHandle.number)
    (h : r.Moves host r') : start.Accounted r' := by
  induction h with
  | refl => exact ha
  | tail _ hmove ih => exact ih.move hs hmove

/-! ## The closing of what is left -/

theorem foldl_closeSocket {γ : Type} (host : Host W S H P) (handle : γ → SocketHandle)
    (socket : γ → S) (l : List γ) :
    ∀ s : Session W S H P,
      (l.foldl (fun s x => closeSocket host s (handle x) (socket x)) s).journal =
          s.journal ++ (l.map handle).map .closed ∧
        (l.foldl (fun s x => closeSocket host s (handle x) (socket x)) s).context = s.context := by
  induction l with
  | nil => intro s; simp
  | cons x rest ih =>
      intro s
      obtain ⟨hj, hc⟩ := ih (closeSocket host s (handle x) (socket x))
      rw [List.foldl_cons, hj, hc]
      simp [closeSocket, Session.note]

theorem journal_closeAll (host : Host W S H P) (r : Run W S H P) :
    (closeAll host r).session.journal = r.session.journal ++
      (r.registry.values.map (·.handle) ++ enrolling r.session.context.changes).map .closed := by
  obtain ⟨hj, hc⟩ := foldl_closeSocket host (fun d : Descriptor S H => d.handle) (·.socket)
    r.registry.values r.session
  obtain ⟨hj', -⟩ := foldl_closeSocket host (fun g : Registration S => g.handle) (·.socket)
    (r.session.context.changes.filterMap Change.registration?)
    (r.registry.values.foldl (fun s d => closeSocket host s d.handle d.socket) r.session)
  simp only [closeAll, clearChanges, hc, hj', hj, enrolling, List.map_append, List.append_assoc]

theorem context_closeAll (host : Host W S H P) (r : Run W S H P) :
    (closeAll host r).session.context = { r.session.context with changes := [] } := by
  obtain ⟨-, hc⟩ := foldl_closeSocket host (fun d : Descriptor S H => d.handle) (·.socket)
    r.registry.values r.session
  obtain ⟨-, hc'⟩ := foldl_closeSocket host (fun g : Registration S => g.handle) (·.socket)
    (r.session.context.changes.filterMap Change.registration?)
    (r.registry.values.foldl (fun s d => closeSocket host s d.handle d.socket) r.session)
  simp only [closeAll, clearChanges, hc, hc']

theorem handles_of_keyed {registry : Registry S H} (hk : registry.Keyed) :
    registry.values.map (·.handle) = HandleMap.keys registry := by
  simp only [HandleMap.values, HandleMap.keys, List.map_map]
  refine List.map_congr_left fun e he => ?_
  exact hk e.1 e.2 (HandleMap.mem_entries.1 he)

/-- What a run leaves behind once it has returned: the books are closed. -/
structure Settled (start r : Run W S H P) : Prop where
  registry : r.registry = .empty
  changes : r.session.context.changes = []
  closed : ∀ h, closings h r.session.journal = start.registry.keys.count h +
    issued start.session.context.nextHandle.number
      (start.session.context.nextHandle.number + registrations (requested r.session.journal)) h
  ordered : ∃ (deeds : List (Deed S H)) (handles : List SocketHandle),
    (∀ deed ∈ deeds, ¬ deed.IsMark) ∧ r.session.journal =
      start.session.journal ++ deeds ++ .policyFinished :: handles.map .closed

@[simp] theorem requested_closed (handles : List SocketHandle) :
    requested (handles.map (.closed : SocketHandle → Deed S H)) = [] := by
  simp [requested, Deed.requests, List.flatMap_map]

@[simp] theorem requested_finished (deeds : List (Deed S H)) :
    requested (.policyFinished :: deeds) = requested deeds := rfl

@[simp] theorem closings_finished (h : SocketHandle) (deeds : List (Deed S H)) :
    closings h (.policyFinished :: deeds) = closings h deeds := by
  simp [closings, Deed.closes]

/-- After the last move of a run every socket that is still owned is closed. -/
theorem Accounted.settled (ha : start.Accounted r) {ending : Ending RunFailure Unit}
    (h : r.Ends host ending r') (hdone : ending ≠ .cut .unfinished) (hcrash : ending ≠ .crashed) :
    start.Settled r' := by
  obtain ⟨deeds, hj, hm⟩ := ha.unmarked
  have hhandles := handles_of_keyed ha.keyed
  have hleft : (closeAll host r).session.journal = r.session.journal ++
      (r.registry.keys ++ enrolling r.session.context.changes).map .closed := by
    rw [journal_closeAll, hhandles]
  have hbalance : ∀ h, closings h r.session.journal +
      (r.registry.keys ++ enrolling r.session.context.changes).count h =
        start.registry.keys.count h + issued start.session.context.nextHandle.number
          (start.session.context.nextHandle.number +
            registrations (requested r.session.journal)) h := by
    intro h
    have hb := ha.balance h
    rw [ha.supply] at hb
    rw [List.count_append]
    omega
  cases h with
  | well he =>
      have hjournal : (closeAll host (finishPolicy host r)).session.journal = r.session.journal ++
          .policyFinished :: (r.registry.keys ++ enrolling r.session.context.changes).map
            .closed := by
        rw [journal_closeAll, ← hhandles]
        simp [finishPolicy, Session.note]
      refine ⟨rfl, by rw [context_closeAll], fun h => ?_, deeds, _, hm, by rw [hjournal, hj]⟩
      rw [hjournal, closings_append, closings_finished, closings_map, hbalance]
      simp
  | failed text =>
      have hjournal : (finishPolicy host (closeAll host r)).session.journal =
          r.session.journal ++ (r.registry.keys ++ enrolling r.session.context.changes).map
            .closed ++ [.policyFinished] := by
        rw [← hleft]
        rfl
      have hchanges : (finishPolicy host (closeAll host r)).session.context.changes = [] := by
        show (closeAll host r).session.context.changes = []
        rw [context_closeAll]
      refine ⟨rfl, hchanges, fun h => ?_, deeds ++ (r.registry.keys ++
        enrolling r.session.context.changes).map .closed, [], ?_, ?_⟩
      · rw [hjournal, closings_append, closings_append, closings_map, closings_finished, hbalance]
        simp
      · intro deed hd
        rcases List.mem_append.1 hd with hd | hd
        · exact hm deed hd
        · obtain ⟨k, -, rfl⟩ := List.mem_map.1 hd
          exact id
      · rw [hjournal, hj, List.append_assoc start.session.journal]
        rfl
  | unfinished => exact absurd rfl hdone
  | crashed => exact absurd rfl hcrash
  | abandoned => exact absurd rfl hcrash

end Run

end Reactor
