import Reactor.Proofs.Run.Course

/-! The ticks of a run one after the other, and the sockets that take part in them. -/

namespace Reactor.Run

variable {W S H P : Type} {host : Host W S H P} {config : ExecutorConfig} {r s : Run W S H P}

/-- Either a tick leads to the next one, or the ticks are over for good. -/
theorem ticks_succ (host : Host W S H P) (config : ExecutorConfig) (r : Run W S H P) :
    (∃ t, tick host config r = (.done none, t) ∧
        ∀ n, ticks host config (n + 1) r = ticks host config n t) ∨
      ∃ ending t, ending ≠ .cut .unfinished ∧ tick host config r ≠ (.done none, t) ∧
        ∀ n, ticks host config (n + 1) r = (ending, t) := by
  rcases hx : tick host config r with ⟨(_ | exit) | (_ | text) | _, t⟩
  · refine .inl ⟨t, rfl, fun n => ?_⟩
    rw [ticks, Step.bind_of_done (Step.attempt_of_done hx)]
  · refine .inr ⟨.done exit, t, by simp, by simp, fun n => ?_⟩
    rw [ticks, Step.bind_of_done (Step.attempt_of_done hx)]
    rfl
  · refine .inr ⟨.done .stopped, t, by simp, by simp, fun n => ?_⟩
    rw [ticks, Step.bind_of_done (Step.attempt_of_cut hx)]
    rfl
  · refine .inr ⟨.cut (.fatal text), t, by simp, by simp, fun n => ?_⟩
    rw [ticks, Step.bind_of_done (Step.attempt_of_cut hx)]
    rfl
  · refine .inr ⟨.crashed, t, by simp, by simp, fun n => ?_⟩
    rw [ticks, Step.bind_of_crashed (Step.attempt_of_crashed hx)]

/-- Ticks that were interrupted go on where they were. -/
theorem ticks_add {n : Nat} (k : Nat) (h : ticks host config n r = (.cut .unfinished, s)) :
    ticks host config (n + k) r = ticks host config k s := by
  induction n generalizing r with
  | zero =>
      obtain rfl : r = s := congrArg Prod.snd h
      rw [Nat.zero_add]
  | succ n ih =>
      rw [Nat.succ_add]
      rcases ticks_succ host config r with ⟨t, -, hnext⟩ | ⟨ending, t, hne, -, hover⟩
      · rw [hnext] at h ⊢
        exact ih h
      · rw [hover] at h
        exact absurd (congrArg Prod.fst h) hne

/-- Ticks that are over stay as they are. -/
theorem ticks_over {n : Nat} (k : Nat) {ending : Ending RunFailure Exit}
    (h : ticks host config n r = (ending, s)) (hne : ending ≠ .cut .unfinished) :
    ticks host config (n + k) r = (ending, s) := by
  induction n generalizing r with
  | zero => exact absurd (congrArg Prod.fst h).symm hne
  | succ n ih =>
      rw [Nat.succ_add]
      rcases ticks_succ host config r with ⟨t, -, hnext⟩ | ⟨_, t, -, -, hover⟩
      · rw [hnext] at h ⊢
        exact ih h
      · rw [hover] at h ⊢
        exact h

/-- Ticks come to one end only, however many more of them there might be. -/
theorem ticks_unique {n k : Nat} {t : Run W S H P} {ending ending' : Ending RunFailure Exit}
    (h : ticks host config n r = (ending, s)) (ht : ticks host config k r = (ending', t))
    (hne : ending ≠ .cut .unfinished) (hne' : ending' ≠ .cut .unfinished) :
    ending = ending' ∧ s = t := by
  have hn := ticks_over k h hne
  have hk := ticks_over n ht hne'
  rw [Nat.add_comm, hk] at hn
  cases hn
  exact ⟨rfl, rfl⟩

/-- Ticks that have been interrupted have not yet come to the end that they come to later. -/
theorem ticks_interrupted {n fuel : Nat} {t : Run W S H P} {ending : Ending RunFailure Exit}
    (h : ticks host config n r = (.cut .unfinished, s))
    (ht : ticks host config fuel r = (ending, t)) (hne : ending ≠ .cut .unfinished) :
    ∃ k, ticks host config (k + 1) s = (ending, t) := by
  have hlt : n < fuel := by
    by_contra hle
    have hlater := ticks_over (n - fuel) ht hne
    rw [Nat.add_sub_cancel' (Nat.le_of_not_lt hle), h] at hlater
    exact hne (congrArg Prod.fst hlater).symm
  obtain ⟨k, rfl⟩ : ∃ k, fuel = n + (k + 1) := ⟨fuel - n - 1, by omega⟩
  exact ⟨k, by rw [← ticks_add _ h, ht]⟩

/-- The socket of the handle is in the registry at some moment of the run: when the changes have
been applied at the beginning of a tick, or when they have been applied after a stop. -/
inductive Registered (host : Host W S H P) (config : ExecutorConfig) (start : Run W S H P)
    (h : SocketHandle) : Prop where
  | ticking (n : Nat) {r : Run W S H P} (hr : ticks host config n start = (.cut .unfinished, r))
      (hh : h ∈ r.applied.registry.keys) : Registered host config start h
  | stopped (n : Nat) {r : Run W S H P} (hr : ticks host config n start = (.done .stopped, r))
      (hh : h ∈ r.applied.registry.keys) : Registered host config start h

theorem Registered.of_ticks {start : Run W S H P} {h : SocketHandle} (n : Nat)
    (hend : (ticks host config n start).1 = .cut .unfinished)
    (hh : h ∈ (ticks host config n start).2.applied.registry.keys) :
    Registered host config start h :=
  .ticking n (Prod.ext hend rfl) hh

/-- After a stop the changes that are still queued are applied before leave is taken. -/
theorem windDown_stopped (host : Host W S H P) (r : Run W S H P) :
    windDown host .stopped r =
      (do
        modifyRegistry fun registry => HandleMap.map registry fun _ d => d.markComplete
        part host : Step (Run W S H P) RunFailure Unit) r.leavingOff.applied := by
  rw [windDown_eq]
  rfl

theorem windDown_stopped_moves {t : Run W S H P} (hk : r.registry.Keyed)
    (h : windDown host .stopped r = (.done (), t)) : r.leavingOff.applied.Moves host t := by
  have hdismiss : FollowsFrom host (Move host) (fun r => r.registry.Keyed)
      (modifyRegistry fun registry => HandleMap.map registry fun _ d => d.markComplete :
        Step (Run W S H P) RunFailure Unit) fun _ r =>
          r.registry.Keyed ∧ Registry.activeCount r.registry = 0 :=
    .modify (fun _ _ => .dismissed) fun r hk =>
      ⟨Move.keyed hk (.dismissed : r.Move host _), activeCount_dismissed r⟩
  rw [windDown_stopped] at h
  have hkeyed : r.leavingOff.applied.registry.Keyed := keyed_applied (r := r.leavingOff) hk
  exact (hdismiss.bind fun _ => part_follows).moves_to hkeyed h (by simp)

/-- A run that ends well has moved on from every state in which it held a socket. -/
theorem Registered.moves {start t : Run W S H P} {h : SocketHandle} {fuel : Nat}
    (hreg : start.Registered host config h) (hk : start.registry.Keyed)
    (hx : body host config fuel start = (.done (), t)) :
    ∃ r, h ∈ r.registry.keys ∧ start.Moves host r ∧ r.Moves host t := by
  have hmoves : ∀ {n : Nat} {ending : Ending RunFailure Exit} {u : Run W S H P},
      ticks host config n start = (ending, u) → ending ≠ .crashed → start.Moves host u :=
    fun hn hne => (ticks_follows config _).moves_to hk hn hne
  rcases hticks : ticks host config fuel start with ⟨exit | e | _, u⟩
  · rw [body, Step.bind_of_done hticks] at hx
    have hu : Ended exit u := (ticks_follows config fuel).delivers_to hk hticks
    cases hreg with
    | @ticking n r hr hh =>
        have hkr : r.registry.Keyed := keyed_of_moves hk (hmoves hr (by simp))
        obtain ⟨k, hlater⟩ := ticks_interrupted hr hticks (by simp)
        rw [ticks_apply] at hlater
        refine ⟨r.applied, hh, (hmoves hr (by simp)).tail .applied, ?_⟩
        have hrest : r.applied.Moves host u :=
          (attendTicks_follows (ticks_follows config k)).moves_to (keyed_applied hkr) hlater
            (by simp)
        exact hrest.trans ((windDown_follows exit).moves_to hu hx (by simp))
    | @stopped n r hr hh =>
        obtain ⟨hexit, rfl⟩ := ticks_unique hticks hr (by simp) (by simp)
        cases hexit
        have hleft : start.Moves host u.leavingOff :=
          (hmoves hticks (by simp)).tail .leavingOff
        exact ⟨u.leavingOff.applied, hh, hleft.tail .applied, windDown_stopped_moves hu.1 hx⟩
  · rw [body, Step.bind_of_cut hticks] at hx
    cases hx
  · rw [body, Step.bind_of_crashed hticks] at hx
    cases hx

end Reactor.Run
