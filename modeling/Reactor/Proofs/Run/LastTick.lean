import Reactor.Proofs.Run.Stopping

/-! The last tick of a run: the ticks end as it does, and it has a cause to leave off. -/

namespace Reactor

variable {W S H P : Type} {host : Host W S H P}

def Deed.selectFails : Deed S H → Bool
  | .selected _ (.error _) => true
  | _ => false

namespace Run

variable {config : ExecutorConfig} {r t : Run W S H P}

open Step

/-! ## How a tick ends -/

/-- A service that delivers leaves the rest of the tick to be done, or nothing was left to do, or
the selection has failed. -/
inductive Served (r t : Run W S H P) : Option Exit → Prop where
  | served : Served r t none
  | drained (same : t = r) : Served r t (some .drained)
  | selectFailed {error : IoError} (hd : t.session.journal.any Deed.selectFails = true) :
      Served r t (some (.selectFailed error))

theorem selectStage_failed {timeout : Duration} {admitted : List SocketHandle} {error : IoError}
    (hx : selectStage host timeout admitted r = (.cut error, t)) :
    t.session.journal.any Deed.selectFails = true := by
  unfold selectStage at hx
  dsimp only at hx
  split at hx
  · cases hx
  · rcases hr : (host.select r.session.world (r.interests host admitted) timeout).result
      with error' | ready
    all_goals
      rw [hr] at hx
      cases hx
    simp [Session.note, Deed.selectFails]

theorem served_of_serviceOf {s : Run W S H P} {admitted : List SocketHandle} {exit : Option Exit}
    (hx : serviceOf host config admitted r = (.done exit, t)) : Served s t exit := by
  obtain ⟨_, m, -, hx⟩ := done_of_bind hx
  obtain ⟨result, m', hselect, hx⟩ := done_of_bind (done_of_checkStop hx)
  cases result with
  | error error =>
      cases hx
      rcases done_of_attempt hselect with ⟨_, h, -⟩ | ⟨e, h, hcut⟩
      · cases h
      · cases h
        exact .selectFailed (selectStage_failed hcut)
  | ok ready =>
      obtain ⟨_, m'', -, hx⟩ := done_of_bind hx
      cases hx
      exact .served

theorem served_of_service {exit : Option Exit}
    (hx : service host config r = (.done exit, t)) : Served r t exit := by
  have hrest := done_of_checkStop hx
  rw [get_bind] at hrest
  split at hrest
  · cases hrest
    exact .drained rfl
  · rw [bind_of_done (admission_apply r)] at hrest
    exact served_of_serviceOf hrest

/-- Leave is taken to the end, whoever asks for a stop meanwhile. -/
theorem disconnectAll_cut (host : Host W S H P) {halt : Halt} :
    ∀ {handles : List SocketHandle} {r : Run W S H P},
      (disconnectAll host handles r).1 = .cut halt → ∃ text, halt = .fatal text := by
  intro handles
  induction handles with
  | nil => exact fun h => by cases h
  | cons h rest ih =>
      intro r hx
      rcases hfirst : disconnect host h r with ⟨ending, t⟩
      by_cases hc : ending = .crashed
      · rw [hc] at hfirst
        rw [disconnectAll, bind_of_crashed (attempt_of_crashed hfirst)] at hx
        cases hx
      · rw [disconnectAll_cons rest hfirst hc] at hx
        rcases ending with _ | halt' | _
        · refine ih (r := t) ?_
          revert hx
          rcases (disconnectAll host rest t).1 with _ | _ | _ <;> exact id
        · obtain ⟨text, rfl⟩ := disconnect_cut host (congrArg Prod.fst hfirst)
          revert hx
          rcases (disconnectAll host rest t).1 with _ | _ | _ <;> rintro ⟨⟩ <;> exact ⟨text, rfl⟩
        · exact absurd rfl hc

/-- A tick that leaves off does so in its service, or because it is failed while leave is taken at
its end. -/
theorem attend_cut {halt : Halt} (hx : attend host config r = (.cut halt, t)) :
    service host config r = (.cut halt, t) ∨
      ∃ m text, service host config r = (.done none, m) ∧
        disconnectStage host m = (.cut (.fatal text), t) ∧ halt = .fatal text := by
  rw [attend_eq] at hx
  rcases hs : service host config r with ⟨(_ | exit) | halt' | _, m⟩
  · rw [bind_of_done hs, leaveAfter] at hx
    rcases hd : disconnectStage host m with ⟨_ | halt' | _, t'⟩
    · rw [bind_of_done hd] at hx
      cases hx
    · rw [bind_of_cut hd] at hx
      cases hx
      obtain ⟨text, rfl⟩ := disconnectAll_cut host (congrArg Prod.fst hd)
      exact .inr ⟨m, text, rfl, hd, rfl⟩
    · rw [bind_of_crashed hd] at hx
      cases hx
  · rw [bind_of_done hs] at hx
    cases hx
  · rw [bind_of_cut hs] at hx
    cases hx
    exact .inl rfl
  · rw [bind_of_crashed hs] at hx
    cases hx

/-- The ticks end in a tick for a reason that the service of the tick has found. -/
theorem attend_exit {exit : Exit} (hx : attend host config r = (.done (some exit), t)) :
    service host config r = (.done (some exit), t) := by
  rw [attend_eq] at hx
  obtain ⟨result, m, hs, hx⟩ := done_of_bind hx
  cases result with
  | none =>
      obtain ⟨_, _, -, hx⟩ := done_of_bind hx
      cases hx
  | some exit' =>
      cases hx
      exact hs

/-! ## The end of the ticks -/

/-- How the ticks end if one of them ends so. It may lead to the next one instead. -/
def tickEnding? : Ending Halt (Option Exit) → Option (Ending RunFailure Exit)
  | .done none => none
  | .done (some exit) => some (.done exit)
  | .cut .stop => some (.done .stopped)
  | .cut (.fatal text) => some (.cut (.fatal text))
  | .crashed => some .crashed

theorem attendTicks_apply {ending : Ending Halt (Option Exit)} (fuel : Nat)
    (hx : attend host config r = (ending, t)) : attendTicks host config fuel r =
      match tickEnding? ending with
      | none => ticks host config fuel t
      | some ending => (ending, t) := by
  rcases ending with (_ | exit) | (_ | text) | _
  · rw [attendTicks, bind_of_done (attempt_of_done hx)]; rfl
  · rw [attendTicks, bind_of_done (attempt_of_done hx)]; rfl
  · rw [attendTicks, bind_of_done (attempt_of_cut hx)]; rfl
  · rw [attendTicks, bind_of_done (attempt_of_cut hx)]; rfl
  · rw [attendTicks, bind_of_crashed (attempt_of_crashed hx)]; rfl

/-- The ticks end as the last of them does. -/
theorem ticks_last {ending : Ending RunFailure Exit} (hne : ending ≠ .cut .unfinished) :
    ∀ {fuel : Nat} {r : Run W S H P}, ticks host config fuel r = (ending, t) →
      ∃ n m last, n < fuel ∧ ticks host config n r = (.cut .unfinished, m) ∧
        attend host config m.applied = (last, t) ∧ tickEnding? last = some ending := by
  intro fuel
  induction fuel with
  | zero => exact fun hx => absurd (congrArg Prod.fst hx).symm hne
  | succ fuel ih =>
      intro r hx
      rcases ha : attend host config r.applied with ⟨last, m⟩
      rw [ticks_apply, attendTicks_apply fuel ha] at hx
      rcases hend : tickEnding? last with _ | ending'
      · rw [hend] at hx
        obtain ⟨n, m', last', hlt, hn, hlast, hending⟩ := ih hx
        refine ⟨n + 1, m', last', Nat.succ_lt_succ hlt, ?_, hlast, hending⟩
        rw [ticks_apply, attendTicks_apply n ha, hend]
        exact hn
      · rw [hend] at hx
        obtain ⟨rfl, rfl⟩ := Prod.mk.inj hx
        exact ⟨0, r, last, Nat.succ_pos _, rfl, ha, hend⟩

/-- Ticks that end by a stop have been asked for it. -/
theorem ticks_stopped {fuel : Nat} (hr : r.session.Active)
    (hx : ticks host config fuel r = (.done .stopped, t)) :
    t.session.context.control.stopRequested = true := by
  obtain ⟨n, m, last, -, hn, hlast, hending⟩ := ticks_last (by simp) hx
  obtain ⟨deeds, hp, -⟩ := ticks_orders host config n r hr
  rw [hn] at hp
  have hm : m.applied.session.Active := (hr.proceeds hp).proceeds m.proceeds_applied
  rcases last with (_ | exit) | (_ | text) | _
  all_goals cases hending
  · cases served_of_service (attend_exit hlast)
  · rcases attend_cut hlast with hs | ⟨_, _, -, -, hhalt⟩
    · obtain ⟨_, -, -, -, -, hexplains⟩ := service_heeds config m.applied hm
      rw [hs] at hexplains
      exact hexplains
    · cases hhalt

/-- Ticks that end by a failed selection have the failure on record. -/
theorem ticks_selectFailed {fuel : Nat} {error : IoError}
    (hx : ticks host config fuel r = (.done (.selectFailed error), t)) :
    t.session.journal.any Deed.selectFails = true := by
  obtain ⟨n, m, last, -, -, hlast, hending⟩ := ticks_last (by simp) hx
  rcases last with (_ | exit) | (_ | text) | _
  all_goals cases hending
  cases served_of_service (attend_exit hlast) with
  | selectFailed hd => exact hd

end Run

end Reactor
