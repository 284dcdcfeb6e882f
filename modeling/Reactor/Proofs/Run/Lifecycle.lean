import Reactor.Proofs.Run.Work

/-! The order in which the hooks hear of one socket, as an automaton that reads what the chain is
given for it. -/

namespace Reactor

variable {S H : Type}

/-- What the chain is given for a socket: an event, or a fault together with the kind of event in
which it arose. -/
inductive Notice where
  | event (kind : EventKind)
  | fault (origin : Option EventKind)
  deriving DecidableEq, Repr

def Deed.notice? (h : SocketHandle) : Deed S H → Option Notice
  | .raised k _ payload => if k = h then some (.event payload.kind) else none
  | .reported k _ _ event => if k = h then some (.fault event) else none
  | _ => none

/-- What the chain was given for a socket, in order. -/
def notices (h : SocketHandle) (journal : List (Deed S H)) : List Notice :=
  journal.filterMap (Deed.notice? h)

@[simp] theorem notices_append (h : SocketHandle) (journal deeds : List (Deed S H)) :
    notices h (journal ++ deeds) = notices h journal ++ notices h deeds := by
  simp [notices]

/-- How the events of a socket are ordered. -/
structure Lifecycle (ns : List Notice) : Prop where
  connectedOnce : ns.count (.event .connected) ≤ 1
  disconnectedOnce : ns.count (.event .disconnected) ≤ 1
  finalizeOnce : ns.count (.event .finalize) ≤ 1
  /-- Traffic comes after the connection. -/
  traffic : ∀ before kind after, ns = before ++ .event kind :: after → kind.isTraffic = true →
    .event .connected ∈ before
  /-- After the disconnection there are faults and the last event only. -/
  disconnected : ∀ before after, ns = before ++ .event .disconnected :: after →
    ∀ n ∈ after, n = .event .finalize ∨ ∃ origin, n = .fault origin
  /-- After the last event there is at most the fault in which it ended. -/
  finalize : ∀ before after, ns = before ++ .event .finalize :: after →
    after = [] ∨ after = [.fault (some .finalize)]
  /-- A connected socket is disconnected before its last event. -/
  parted : ∀ before after, ns = before ++ .event .finalize :: after → .event .connected ∈ before →
    ∃ earlier later, before = earlier ++ .event .disconnected :: later ∧
      .event .connected ∈ earlier

inductive Stage where
  | fresh | live | parted | ended | silent
  deriving DecidableEq, Repr

namespace Stage

/-- The stage after a notice, if the notice is in order. -/
def next : Stage → Notice → Option Stage
  | fresh, .event .connected => some live
  | live, .event .read | live, .event .write | live, .event .accept => some live
  | fresh, .event .disconnected | live, .event .disconnected => some parted
  | fresh, .event .finalize | parted, .event .finalize => some ended
  | fresh, .fault _ => some fresh
  | live, .fault _ => some live
  | parted, .fault _ => some parted
  | ended, .fault (some .finalize) => some silent
  | _, _ => none

def after? (s : Stage) (ns : List Notice) : Option Stage := ns.foldlM next s

variable {s t : Stage} {n : Notice} {ns ms : List Notice}

@[simp] theorem after?_nil : s.after? [] = some s := rfl

theorem after?_cons : s.after? (n :: ns) = (s.next n).bind fun t => t.after? ns := rfl

theorem after?_append : s.after? (ns ++ ms) = (s.after? ns).bind fun t => t.after? ms := by
  simp only [after?, List.foldlM_append]
  rfl

theorem after?_split (h : s.after? (ns ++ n :: ms) = some t) :
    ∃ s' s'', s.after? ns = some s' ∧ s'.next n = some s'' ∧ s''.after? ms = some t := by
  rw [after?_append, Option.bind_eq_some_iff] at h
  obtain ⟨s', hs, h⟩ := h
  rw [after?_cons, Option.bind_eq_some_iff] at h
  obtain ⟨s'', hn, h⟩ := h
  exact ⟨s', s'', hs, hn, h⟩

theorem next_cases (h : s.next n = some t) :
    (s = fresh ∧ n = .event .connected ∧ t = live) ∨
      (s = live ∧ t = live ∧ ∃ kind : EventKind, kind.isTraffic = true ∧ n = .event kind) ∨
      ((s = fresh ∨ s = live) ∧ n = .event .disconnected ∧ t = parted) ∨
      ((s = fresh ∨ s = parted) ∧ n = .event .finalize ∧ t = ended) ∨
      (t = s ∧ (s = fresh ∨ s = live ∨ s = parted) ∧ ∃ origin, n = .fault origin) ∨
      (s = ended ∧ n = .fault (some .finalize) ∧ t = silent) := by
  unfold next at h
  split at h <;> simp_all [EventKind.isTraffic]

/-- Stages are only ever left for later ones. -/
def rank : Stage → Nat
  | fresh => 0
  | live => 1
  | parted => 2
  | ended => 3
  | silent => 4

theorem rank_next (h : s.next n = some t) : s.rank ≤ t.rank := by
  rcases next_cases h with ⟨rfl, -, rfl⟩ | ⟨rfl, rfl, -⟩ | ⟨rfl | rfl, -, rfl⟩ |
    ⟨rfl | rfl, -, rfl⟩ | ⟨rfl, -⟩ | ⟨rfl, -, rfl⟩ <;> simp [rank]

theorem rank_after? (h : s.after? ns = some t) : s.rank ≤ t.rank := by
  induction ns generalizing s with
  | nil =>
      cases h
      exact Nat.le_refl _
  | cons n rest ih =>
      rw [after?_cons, Option.bind_eq_some_iff] at h
      obtain ⟨s', hn, h⟩ := h
      exact Nat.le_trans (rank_next hn) (ih h)

/-- The notice is in order only before a rank that it makes the socket reach. -/
def Marks (n : Notice) (k : Nat) : Prop :=
  ∀ s t : Stage, s.next n = some t → s.rank < k ∧ k ≤ t.rank

theorem marks_connected : Marks (.event .connected) 1 := by
  intro s t h
  cases s <;> cases h
  simp [rank]

theorem marks_disconnected : Marks (.event .disconnected) 2 := by
  intro s t h
  cases s <;> cases h <;> simp [rank]

theorem marks_finalize : Marks (.event .finalize) 3 := by
  intro s t h
  cases s <;> cases h <;> simp [rank]

theorem not_mem_of_rank {k : Nat} (hn : Marks n k) (hs : k ≤ s.rank)
    (h : s.after? ns = some t) : n ∉ ns := by
  intro hmem
  obtain ⟨before, after, rfl⟩ := List.append_of_mem hmem
  obtain ⟨s', s'', hs', hn', -⟩ := after?_split h
  have hlt := (hn s' s'' hn').1
  have hle := rank_after? hs'
  omega

theorem rank_of_mem {k : Nat} (hn : Marks n k) (hmem : n ∈ ns) (h : s.after? ns = some t) :
    k ≤ t.rank := by
  obtain ⟨before, after, rfl⟩ := List.append_of_mem hmem
  obtain ⟨s', s'', -, hn', hafter⟩ := after?_split h
  exact Nat.le_trans (hn s' s'' hn').2 (rank_after? hafter)

theorem count_le_one {k : Nat} (hn : Marks n k) (h : s.after? ns = some t) :
    ns.count n ≤ 1 := by
  by_cases hmem : n ∈ ns
  · obtain ⟨before, after, rfl, hbefore⟩ := List.eq_append_cons_of_mem hmem
    obtain ⟨s', s'', -, hn', hafter⟩ := after?_split h
    have hlater := not_mem_of_rank hn (hn s' s'' hn').2 hafter
    have hone : (before ++ n :: after).count n = 1 := by
      rw [List.count_append, List.count_cons_self, List.count_eq_zero_of_not_mem hbefore,
        List.count_eq_zero_of_not_mem hlater]
    exact Nat.le_of_eq hone
  · rw [List.count_eq_zero_of_not_mem hmem]
    exact Nat.zero_le _

theorem connected_mem (h : s.after? ns = some live) : s = live ∨ .event .connected ∈ ns := by
  induction ns generalizing s with
  | nil =>
      cases h
      exact .inl rfl
  | cons n rest ih =>
      rw [after?_cons, Option.bind_eq_some_iff] at h
      obtain ⟨s', hn, h⟩ := h
      rcases ih h with rfl | hmem
      · rcases next_cases hn with ⟨-, rfl, -⟩ | ⟨rfl, -⟩ | ⟨-, -, h⟩ | ⟨-, -, h⟩ | ⟨rfl, -⟩ |
          ⟨-, -, h⟩
        · exact .inr List.mem_cons_self
        · exact .inl rfl
        · cases h
        · cases h
        · exact .inl rfl
        · cases h
      · exact .inr (List.mem_cons_of_mem _ hmem)

theorem disconnected_mem (h : s.after? ns = some parted) :
    s = parted ∨ .event .disconnected ∈ ns := by
  induction ns generalizing s with
  | nil =>
      cases h
      exact .inl rfl
  | cons n rest ih =>
      rw [after?_cons, Option.bind_eq_some_iff] at h
      obtain ⟨s', hn, h⟩ := h
      rcases ih h with rfl | hmem
      · rcases next_cases hn with ⟨-, -, h⟩ | ⟨-, h, -⟩ | ⟨-, rfl, -⟩ | ⟨-, -, h⟩ | ⟨rfl, -⟩ |
          ⟨-, -, h⟩
        · cases h
        · cases h
        · exact .inr List.mem_cons_self
        · cases h
        · exact .inl rfl
        · cases h
      · exact .inr (List.mem_cons_of_mem _ hmem)

theorem ended_after? (h : ended.after? ns = some t) :
    ns = [] ∨ ns = [.fault (some .finalize)] := by
  cases ns with
  | nil => exact .inl rfl
  | cons n rest =>
      rw [after?_cons, Option.bind_eq_some_iff] at h
      obtain ⟨s', hn, h⟩ := h
      rcases next_cases hn with ⟨h, -⟩ | ⟨h, -⟩ | ⟨h | h, -⟩ | ⟨h | h, -⟩ | ⟨-, h | h | h, -⟩ |
        ⟨-, rfl, rfl⟩
      all_goals try cases h
      cases rest with
      | nil => exact .inr rfl
      | cons m rest => cases h

/-- Notices that are in order make up a lifecycle. -/
theorem lifecycle (h : fresh.after? ns = some t) : Lifecycle ns where
  connectedOnce := count_le_one marks_connected h
  disconnectedOnce := count_le_one marks_disconnected h
  finalizeOnce := count_le_one marks_finalize h
  traffic before kind after hns hk := by
    subst hns
    obtain ⟨s', s'', hs, hn, -⟩ := after?_split h
    have hlive : s' = live := by
      cases kind with
      | read | write | accept =>
          cases s' <;> cases hn
          rfl
      | _ => cases hk
    subst hlive
    exact (connected_mem hs).resolve_left (by simp)
  disconnected before after hns n hmem := by
    subst hns
    obtain ⟨s', s'', -, hd, hafter⟩ := after?_split h
    obtain ⟨first, last, rfl⟩ := List.append_of_mem hmem
    obtain ⟨u, v, hu, hn, -⟩ := after?_split hafter
    have hrank : 2 ≤ u.rank := Nat.le_trans (marks_disconnected s' s'' hd).2 (rank_after? hu)
    rcases next_cases hn with ⟨rfl, -⟩ | ⟨rfl, -⟩ | ⟨rfl | rfl, -⟩ | ⟨-, rfl, -⟩ |
      ⟨-, -, origin, rfl⟩ | ⟨-, rfl, -⟩
    · simp [rank] at hrank
    · simp [rank] at hrank
    · simp [rank] at hrank
    · simp [rank] at hrank
    · exact .inl rfl
    · exact .inr ⟨origin, rfl⟩
    · exact .inr ⟨_, rfl⟩
  finalize before after hns := by
    subst hns
    obtain ⟨s', s'', -, hf, hafter⟩ := after?_split h
    have hended : s'' = ended := by
      cases s' <;> cases hf
      all_goals rfl
    subst hended
    exact ended_after? hafter
  parted before after hns hmem := by
    subst hns
    obtain ⟨s', s'', hs, hf, -⟩ := after?_split h
    have hrank := rank_of_mem marks_connected hmem hs
    have hparted : s' = parted := by
      cases s' with
      | fresh => simp [rank] at hrank
      | parted => rfl
      | _ => cases hf
    subst hparted
    have hd := (disconnected_mem hs).resolve_left (by simp)
    obtain ⟨earlier, later, rfl⟩ := List.append_of_mem hd
    obtain ⟨u, v, -, hd', hlater⟩ := after?_split hs
    refine ⟨earlier, later, rfl, ?_⟩
    have hnot : .event .connected ∉ later := by
      refine not_mem_of_rank marks_connected ?_ hlater
      have := (marks_disconnected u v hd').2
      omega
    simpa [hnot] using hmem

end Stage

end Reactor
