import Reactor.Proofs.Run.LastTick
import Reactor.Proofs.Run.Partings

/-! How a run comes to be failed by a hook. Either that was the last thing to happen, or it happened
while leave was taken of sockets with nothing left to do, which then went on to the last of them. -/

namespace Reactor

variable {W S H P : Type} {host : Host W S H P}

open Step

/-- The deed is part of the leave that is taken of one of the sockets: one of its last events, a
report of the failure in which such an event has ended, a hook that heard of these, or the closing.
-/
def Deed.IsParting (host : Host W S H P) (handles : List SocketHandle) (deed : Deed S H) : Prop :=
  ∃ h ∈ handles, deed = .closed h ∨ deed.IsLast host h .disconnected ∨
    deed.IsLast host h .finalize

theorem Deed.IsParting.mono {handles more : List SocketHandle} {deed : Deed S H}
    (hd : deed.IsParting host handles) (hsub : ∀ h ∈ handles, h ∈ more) :
    deed.IsParting host more := by
  obtain ⟨h, hh, hd⟩ := hd
  exact ⟨h, hsub h hh, hd⟩

theorem Leavetaking.isParting {d : Descriptor S H} {deeds : List (Deed S H)}
    (hl : Leavetaking host d deeds) : ∀ deed ∈ deeds, deed.IsParting host [d.handle] := by
  intro deed hd
  refine ⟨d.handle, List.mem_singleton_self _, ?_⟩
  obtain hclosed | ⟨kind, rfl | rfl, hlast⟩ := hl.closed_or_isLast hd
  · exact .inl hclosed
  · exact .inr (.inl hlast)
  · exact .inr (.inr hlast)

/-- The first failure of the run that hooks have raised splits what was done. -/
theorem exists_of_head?_fatals {text : String} {deeds : List (Deed S H)}
    (h : (fatals deeds).head? = some text) :
    ∃ before deed after, deeds = before ++ deed :: after ∧ fatals before = [] ∧
      deed.fatal? = some text := by
  induction deeds with
  | nil => cases h
  | cons deed rest ih =>
      rcases hd : deed.fatal? with _ | raised
      · have hrest : fatals (deed :: rest) = fatals rest := List.filterMap_cons_none hd
        rw [hrest] at h
        obtain ⟨before, failing, after, rfl, hbefore, hfatal⟩ := ih h
        refine ⟨deed :: before, failing, after, rfl, ?_, hfatal⟩
        rw [fatals, List.filterMap_cons_none hd]
        exact hbefore
      · have hraised : fatals (deed :: rest) = raised :: fatals rest := List.filterMap_cons_some hd
        rw [hraised, List.head?_cons] at h
        exact ⟨[], deed, rest, rfl, rfl, hd.trans h⟩

namespace Run

variable {config : ExecutorConfig} {r m t : Run W S H P} {text : String}

/-- While leave is taken of sockets nothing else is done. -/
theorem disconnectAll_isParting {handles : List SocketHandle} :
    ∀ {r : Run W S H P}, r.registry.Keyed → r.Finished handles →
      (disconnectAll host handles r).1 ≠ .crashed → ∃ deeds,
        (disconnectAll host handles r).2.session.journal = r.session.journal ++ deeds ∧
          ∀ deed ∈ deeds, deed.IsParting host handles := by
  induction handles with
  | nil => exact fun _ _ _ => ⟨[], (List.append_nil _).symm, by simp⟩
  | cons h rest ih =>
      intro r hk hf hend
      obtain ⟨ending, t, hx, hc, hend', heq⟩ := disconnectAll_rest hend
      obtain ⟨-, hk', hf'⟩ := disconnect_keeps hk hf List.mem_cons_self hx hc
      obtain ⟨more, hj', hmore⟩ := ih hk' (fun k hk => hf' k (List.mem_cons_of_mem _ hk)) hend'
      have hfirst : ∃ deeds, t.session.journal = r.session.journal ++ deeds ∧
          ∀ deed ∈ deeds, deed.IsParting host [h] := by
        rcases hd : r.registry.get? h with _ | d
        · rw [disconnect_of_none hd] at hx
          cases hx
          exact ⟨[], (List.append_nil _).symm, by simp⟩
        · obtain ⟨deeds, hadv, hleave | ⟨hcrash, -⟩⟩ := disconnect_advances host hd
          · rw [hx] at hadv
            refine ⟨deeds, hadv.journal, ?_⟩
            rw [← hk h d hd]
            exact hleave.isParting
          · rw [hx] at hcrash
            exact absurd hcrash hc
      obtain ⟨deeds, hj, hdeeds⟩ := hfirst
      refine ⟨deeds ++ more, by rw [heq, hj', hj, List.append_assoc], fun deed hd => ?_⟩
      rcases List.mem_append.1 hd with hd | hd
      · exact (hdeeds deed hd).mono (by simp)
      · exact (hmore deed hd).mono fun k hk => List.mem_cons_of_mem _ hk

inductive Failed (host : Host W S H P) (r t : Run W S H P) : Prop where
  | atOnce {earlier : List (Deed S H)} {deed : Deed S H}
      (journal : t.session.journal = r.session.journal ++ (earlier ++ [deed]))
      (calm : fatals earlier = []) : Failed host r t
  | parting {m : Run W S H P} {deeds : List (Deed S H)} {halt : Halt} (moves : r.Moves host m)
      (journal : m.session.journal = r.session.journal ++ deeds) (calm : fatals deeds = [])
      (stage : disconnectStage host m = (.cut halt, t)) : Failed host r t

theorem Failed.later {deeds : List (Deed S H)} (hf : m.Failed host t) (hm : r.Moves host m)
    (hj : m.session.journal = r.session.journal ++ deeds) (hd : fatals deeds = []) :
    r.Failed host t := by
  cases hf with
  | @atOnce earlier deed journal calm =>
      have hcalm : fatals (deeds ++ earlier) = [] := by rw [fatals_append, hd, calm]; rfl
      exact .atOnce (by rw [journal, hj, List.append_assoc, List.append_assoc]) hcalm
  | @parting m' more halt moves journal calm stage =>
      have hcalm : fatals (deeds ++ more) = [] := by rw [fatals_append, hd, calm]; rfl
      exact .parting (hm.trans moves) (by rw [journal, hj, List.append_assoc]) hcalm stage

/-- Work that leaves off at once when it is failed. -/
theorem failed_of_explains {deeds : List (Deed S H)}
    (hp : r.session.Proceeds deeds t.session)
    (hx : Explains deeds t.session (some (.fatal text))) : r.Failed host t := by
  obtain ⟨earlier, deed, rfl, hcalm⟩ := hx
  exact .atOnce hp.journal hcalm

theorem attend_failed (hk : r.registry.Keyed) (hr : r.session.Active)
    (hx : attend host config r = (.cut (.fatal text), t)) : r.Failed host t := by
  have hheeds : Heeds (service host config) := service_heeds config
  obtain ⟨deeds, hp, -, hsurf, -, hexplains⟩ := hheeds r hr
  rcases attend_cut hx with hs | ⟨m, text', hs, hstage, -⟩
  all_goals rw [hs] at hp hsurf hexplains
  · exact failed_of_explains hp hexplains
  · exact .parting ((service_follows config).moves_to hk hs (by simp)) hp.journal hsurf.nil_of_done
      hstage

/-- Ticks that are failed are failed in the last of them. -/
theorem ticks_failed {fuel : Nat} (hk : r.registry.Keyed) (hr : r.session.Active)
    (hx : ticks host config fuel r = (.cut (.fatal text), t)) : r.Failed host t := by
  obtain ⟨n, m, last, -, hn, hlast, hending⟩ := ticks_last (by simp) hx
  obtain ⟨deeds, hp, -, hsurf⟩ := ticks_orders host config n r hr
  rw [hn] at hp hsurf
  have hm : r.Moves host m := (ticks_follows config n).moves_to hk hn (by simp)
  have hactive : m.applied.session.Active := hr.proceeds (hp.trans m.proceeds_applied)
  have hfailed : m.applied.Failed host t := by
    rcases last with (_ | exit) | (_ | text) | _
    all_goals cases hending
    exact attend_failed (keyed_applied (keyed_of_moves hk hm)) hactive hlast
  exact hfailed.later (hm.tail .applied) hp.journal (hsurf.nil_of_halt? rfl)

/-! ## The winding down -/

/-- A report of a failed selection leaves off as soon as a hook fails the run. -/
theorem reportFailure_prompt (error : IoError) : Prompt (Visit.reportFailure host error) := by
  intro v hv
  have hreport : Prompt (Visit.dispatchFault host (.io error) none) :=
    Visit.dispatchFault_prompt (.io error) none
  obtain ⟨deeds, hp, hexplains⟩ := hreport v hv
  rw [Visit.reportFailure]
  rcases hf : Visit.dispatchFault host (.io error) none v with ⟨_ | (_ | text) | _, w⟩
  all_goals rw [hf] at hp hexplains
  · rw [bind_of_done (attempt_of_done hf)]
    exact ⟨deeds, hp, trivial⟩
  · rw [bind_of_done (attempt_of_cut hf)]
    exact ⟨deeds, hp, trivial⟩
  · rw [bind_of_done (attempt_of_cut hf)]
    exact ⟨deeds, hp, hexplains⟩
  · rw [bind_of_crashed (attempt_of_crashed hf)]
    exact ⟨deeds, hp, trivial⟩

theorem reportSelectFailure_prompt (error : IoError) (handles : List SocketHandle) :
    Prompt (reportSelectFailure host error handles) := by
  induction handles with
  | nil => exact prompt_of_same (fun _ => rfl) fun _ => rfl
  | cons h rest ih =>
      have hvisit : Prompt (visit h (Visit.reportFailure host error)) := by
        intro r hr
        rcases hd : r.registry.get? h with _ | d
        · rw [visit_of_none _ hd]
          exact ⟨[], .refl _, trivial⟩
        · rw [visit_of_some _ hd]
          exact reportFailure_prompt error ⟨d, r.session⟩ hr
      exact hvisit.bind (visit_idles h (Visit.reportFailure_idles error)) fun _ => ih

theorem conclude_prompt (exit : Exit) : Prompt (conclude host exit) := by
  cases exit with
  | drained => exact prompt_of_same (fun _ => rfl) fun _ => rfl
  | stopped => exact fun r _ => ⟨[], r.proceeds_applied, trivial⟩
  | selectFailed error => exact fun r hr => reportSelectFailure_prompt error _ r hr

theorem part_failed (hx : part host r = (.cut (.fatal text), t)) :
    disconnectStage host r = (.cut (.fatal text), t) := by
  rcases hs : disconnectStage host r with ⟨_ | (_ | text') | _, m⟩
  · rw [part, bind_of_done (attempt_of_done hs)] at hx
    cases hx
  · rw [part, bind_of_done (attempt_of_cut hs)] at hx
    cases hx
  · rw [part, bind_of_done (attempt_of_cut hs)] at hx
    cases hx
    rfl
  · rw [part, bind_of_crashed (attempt_of_crashed hs)] at hx
    cases hx

theorem windDown_failed {exit : Exit} (hr : r.Ended exit)
    (he : r.session.context.control.executing = true)
    (hx : windDown host exit r = (.cut (.fatal text), t)) : r.Failed host t := by
  rw [windDown_apply] at hx
  have hended : r.leavingOff.Ended exit := hr
  have hprompt : Prompt (conclude host exit) := conclude_prompt exit
  have hidle : Idles (conclude host exit) := conclude_idles exit
  obtain ⟨deeds, hp, hexplains⟩ := hprompt r.leavingOff he
  obtain ⟨deeds', hp', -, hsurf⟩ := hidle r.leavingOff he
  obtain rfl := hp.unique hp'
  have hstart : r.Moves host r.leavingOff := .single .leavingOff
  have hsame : r.leavingOff.session.journal = r.session.journal ++ [] :=
    (List.append_nil _).symm
  rcases hc : conclude host exit r.leavingOff with ⟨_ | e | _, m⟩
  all_goals rw [hc] at hp hsurf hexplains
  · rw [bind_of_done hc] at hx
    have hmoves := (conclude_follows exit).moves_to hended hc (by simp)
    have hleft : r.leavingOff.Failed host t :=
      .parting hmoves hp.journal (Surfaces.nil_of_done hsurf) (part_failed hx)
    exact hleft.later hstart hsame rfl
  · rw [bind_of_cut hc] at hx
    cases hx
    exact (failed_of_explains hp hexplains).later hstart hsame rfl
  · rw [bind_of_crashed hc] at hx
    cases hx

theorem body_failed {fuel : Nat} (hk : r.registry.Keyed) (hr : r.session.Active)
    (hx : body host config fuel r = (.cut (.fatal text), t)) : r.Failed host t := by
  obtain ⟨deeds, hp, -, hsurf⟩ := ticks_orders host config fuel r hr
  rcases hticks : ticks host config fuel r with ⟨exit | e | _, m⟩
  all_goals rw [hticks] at hp hsurf
  · rw [body, bind_of_done hticks] at hx
    have hended : m.Ended exit := (ticks_follows config fuel).delivers_to hk hticks
    have hm : r.Moves host m := (ticks_follows config fuel).moves_to hk hticks (by simp)
    exact (windDown_failed hended (hr.proceeds hp).1 hx).later hm hp.journal hsurf.nil_of_done
  · rw [body, bind_of_cut hticks] at hx
    cases hx
    exact ticks_failed hk hr hticks
  · rw [body, bind_of_crashed hticks] at hx
    cases hx

/-- What a run that is failed does after its body: what it holds is closed, and the policy is told.
-/
theorem perform_failed {fuel : Nat}
    (hx : (perform host config fuel r).1 = .cut (.fatal text)) :
    ∃ t, body host config fuel (startPolicy host r) = (.cut (.fatal text), t) ∧
      (perform host config fuel r).2.session.journal = t.session.journal ++
        (t.registry.values.map (·.handle) ++ enrolling t.session.context.changes).map .closed ++
          [.policyFinished] := by
  rw [perform_eq] at hx ⊢
  rcases hb : body host config fuel (startPolicy host r) with ⟨_ | (text' | _) | _, t⟩
  all_goals
    rw [hb] at hx
    cases hx
  refine ⟨t, rfl, ?_⟩
  show (closeAll host t).session.journal ++ [.policyFinished] = _
  rw [journal_closeAll]

/-- After the first failure of the run only the leave is taken to its end that was being taken then.
-/
theorem Failed.split {deeds : List (Deed S H)} (hk : r.registry.Keyed) (hf : r.Failed host t)
    (hj : t.session.journal = r.session.journal ++ deeds)
    (hfirst : (fatals deeds).head? = some text) :
    ∃ before deed after, deeds = before ++ deed :: after ∧ fatals before = [] ∧
      deed.fatal? = some text ∧
      (after = [] ∨ ∃ m earlier, r.Moves host m ∧
        r.session.journal ++ before = m.session.journal ++ earlier ∧
        ∀ d ∈ earlier ++ deed :: after, d.IsParting host (Registry.completed m.registry)) := by
  cases hf with
  | @atOnce earlier deed journal calm =>
      obtain rfl : deeds = earlier ++ [deed] := List.append_cancel_left (hj.symm.trans journal)
      have hlast : deed.fatal? = some text := by
        rw [fatals_append, calm, List.nil_append] at hfirst
        rcases hd : deed.fatal? with _ | raised
        all_goals simp only [fatals, List.filterMap_cons, List.filterMap_nil, hd] at hfirst
        · cases hfirst
        · exact hfirst
      exact ⟨earlier, deed, [], rfl, calm, hlast, .inl rfl⟩
  | @parting m earlier halt moves journal calm stage =>
      have hkm : m.registry.Keyed := keyed_of_moves hk moves
      have hc : (disconnectStage host m).1 ≠ .crashed := by simp [stage]
      obtain ⟨pass, hpass, hparting⟩ := disconnectAll_isParting hkm (finished_completed hkm) hc
      have hend : t.session.journal = m.session.journal ++ pass := by
        rw [← hpass]
        exact congrArg (fun x => x.2.session.journal) stage.symm
      obtain rfl : deeds = earlier ++ pass := by
        refine List.append_cancel_left (hj.symm.trans (hend.trans ?_))
        rw [journal, List.append_assoc]
      rw [fatals_append, calm, List.nil_append] at hfirst
      obtain ⟨before, deed, after, rfl, hbefore, hfatal⟩ := exists_of_head?_fatals hfirst
      refine ⟨earlier ++ before, deed, after, (List.append_assoc _ _ _).symm, ?_, hfatal,
        .inr ⟨m, before, moves, ?_, hparting⟩⟩
      · rw [fatals_append, calm, hbefore]
        rfl
      · rw [journal, List.append_assoc]

end Run

end Reactor
