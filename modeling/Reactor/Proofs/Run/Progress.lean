import Mathlib.Algebra.Order.BigOperators.Group.List
import Mathlib.Algebra.Order.Group.Nat
import Reactor.Proofs.Run.Faring
import Reactor.Proofs.Run.Metered

/-! With the policy that bounds the number of sockets in flight, somebody takes part as long as
somebody has something left to do: whoever has to wait waits for a place of another, and places are
given back. So every tick brings an errand nearer to its end, and the ticks are over when all
errands are done. -/

namespace Reactor

variable {W S H σ : Type} [ChunkSource σ] {host : Host W S H ConstantLimitPolicy}
  {A : host.sockets.InMemory σ} {handles : List SocketHandle} {errands : SocketHandle → Errand}
  {work : SocketHandle → Nat} {r : Run W S H ConstantLimitPolicy} {K : Nat}

/-! ## The admission -/

/-- The verdicts of the policy that bounds the number of sockets in flight ask for nothing. -/
theorem AdmissionPass.consider_context (hp : host.policy = .constantLimit)
    (pass : AdmissionPass W S H ConstantLimitPolicy) (d : Descriptor S H) :
    (pass.consider host d).2.session.context = pass.session.context := by
  have hdecide : (pass.session.decide host d).2.context = pass.session.context := by
    simp [Session.decide, hp, PolicyRules.constantLimit, Session.stopIf, Session.note]
  unfold consider
  split
  · rfl
  split
  · rfl
  split
  · rfl
  unfold ask
  rw [← hdecide]
  rcases pass.session.decide host d with ⟨decision, session⟩
  cases decision <;> rfl

/-- In verdicts and selections no socket is told anything or offered any bytes. -/
theorem silent_of_aside {deeds : List (Deed S H)} (hd : ∀ deed ∈ deeds, deed.IsAside)
    (h : SocketHandle) : eventsOf h deeds = [] ∧ bytesSent h deeds = [] := by
  constructor
  · refine List.filterMap_eq_nil_iff.2 fun deed hmem => ?_
    have haside := hd deed hmem
    cases deed with
    | decided | selected => rfl
    | _ => exact haside.elim
  · refine List.flatMap_eq_nil_iff.2 fun deed hmem => ?_
    have haside := hd deed hmem
    cases deed with
    | decided | selected => rfl
    | _ => exact haside.elim

theorem Descriptor.Considered.fares {d d' : Descriptor S H} (h : d.Considered d')
    {errand : Errand} {events : List (Payload S)} {bytes : Bytes} {n : Nat}
    (hf : d.Fares A errand events bytes n) : d'.Fares A errand events bytes n := by
  obtain ⟨running, postponed, rfl, -⟩ := h
  cases hf with
  | pending hc hp => exact .pending hc (hp.of_eq rfl rfl rfl rfl)
  | done hc hconn hm => exact .done hc hconn hm

namespace Run

theorem admitted_calm (hp : host.policy = .constantLimit) (hc : r.session.Calm) :
    (r.admitted host).session.Calm := by
  have hcontext : (r.admitted host).session.context = r.session.context :=
    HandleMap.traverse_keeps (m := r.registry) (f := AdmissionPass.consider host)
      (I := fun pass => pass.session.context = r.session.context) (s := ⟨false, [], r.session⟩)
      (fun pass d h => (pass.consider_context hp d).trans h) rfl
  obtain ⟨deeds, hd, hadv⟩ := r.admitted_advances host
  refine ⟨?_, ?_, fun deed hmem => ?_⟩
  · rw [hcontext]
    exact hc.unstopped
  · rw [hcontext]
    exact hc.unqueued
  · rw [hadv.journal] at hmem
    rcases List.mem_append.1 hmem with hmem | hmem
    · exact hc.unfailed deed hmem
    · have haside := hd deed hmem
      cases deed with
      | decided | selected => rfl
      | _ => exact haside.elim

/-- The admission does no harm. -/
theorem admitted_faring (hp : host.policy = .constantLimit)
    (hf : r.Faring A handles errands work) : (r.admitted host).Faring A handles errands work := by
  obtain ⟨deeds, haside, hadv⟩ := r.admitted_advances host
  refine ⟨admitted_calm hp hf.calm, Move.keyed hf.keyed .admitted, fun h d' hd' => ?_,
    fun h hh => ?_⟩
  · obtain ⟨d, hd, -⟩ := r.admitted_considered hd'
    exact hf.known h d hd
  obtain ⟨hevents, hbytes⟩ := silent_of_aside haside h
  have he : eventsOf h (r.admitted host).session.journal = eventsOf h r.session.journal := by
    rw [hadv.journal, eventsOf_append, hevents, List.append_nil]
  have hb : bytesSent h (r.admitted host).session.journal = bytesSent h r.session.journal := by
    rw [hadv.journal, bytesSent_append, hbytes, List.append_nil]
  rcases hd' : (r.admitted host).registry.get? h with _ | d'
  · have hd : r.registry.get? h = none := by
      rw [HandleMap.get?_eq_none] at hd' ⊢
      rwa [keys_admitted] at hd'
    exact (hf.fares h hh).of_eq (hd'.trans hd.symm) he hb
  · obtain ⟨d, hd, hconsidered⟩ := r.admitted_considered hd'
    refine .held hd' ?_
    rw [he, hb]
    exact hconsidered.fares (hf.held hd)

/-- As long as somebody has something left to do, somebody takes part: if one has to wait, the
places are taken by others, and no place has been lost. -/
theorem exists_participant (hp : host.policy = .constantLimit) (hK : 0 < K)
    (hf : r.Faring A handles errands work) (hbusy : r.Busy) (hm : r.Metered K)
    (hactive : Registry.activeCount r.registry ≠ 0) :
    ∃ h d, r.registry.get? h = some d ∧ h ∈ r.participants host := by
  have hfar := admitted_faring hp hf
  have hbusy' : (r.admitted host).Busy := by
    intro h d' hd'
    obtain ⟨d, hd, running, postponed, rfl, -⟩ := r.admitted_considered hd'
    exact hbusy h d hd
  have hjoin : ∀ h d', (r.admitted host).registry.get? h = some d' → d'.running = true →
      ∃ h d, r.registry.get? h = some d ∧ h ∈ r.participants host := by
    intro h d' hd' hrun
    obtain ⟨d, hd, -⟩ := r.admitted_considered hd'
    exact ⟨h, d, hd, r.mem_participants hfar.keyed hd' hrun (hbusy' h d' hd')⟩
  obtain ⟨h, d, hd⟩ : ∃ h d, r.registry.get? h = some d := by
    by_contra hnone
    simp only [not_exists] at hnone
    exact hactive (activeCount_eq_zero.2 fun h d hd => absurd hd (hnone h d))
  obtain ⟨d', hd'⟩ : ∃ d', (r.admitted host).registry.get? h = some d' := by
    rw [← HandleMap.mem_keys, keys_admitted, HandleMap.mem_keys]
    exact ⟨d, hd⟩
  cases hrun : d'.running with
  | true => exact hjoin h d' hd' hrun
  | false =>
      obtain ⟨-, -, -, hfull⟩ := admitted_limited hp r hm.limit hm.bounded
      have htaken := hfull ⟨h, d', hd', hbusy' h d' hd', hrun⟩
      have hbalance := (hm.admitted hp).balance
      rw [htaken, lost_eq_zero hfar.calm.unfailed] at hbalance
      have hrunning : 0 < Registry.runningCount (r.admitted host).registry := by omega
      obtain ⟨d'', hmem, hrun'⟩ := List.countP_pos_iff.1 hrunning
      obtain ⟨k, hk⟩ := HandleMap.mem_values.1 hmem
      exact hjoin k d'' hk hrun'

/-- What a tick does: it ends the ticks once nothing is left to do, or it brings an errand nearer to
its end. -/
theorem tick_progress (hobs : host.Observed) (hp : host.policy = .constantLimit)
    {poll : W → List (Nat × PollFlags) → Nat → PollAnswer × W}
    (hs : host.select = pollingSelector poll) (config : ExecutorConfig) (hK : 0 < K)
    (hf : r.Faring A handles errands work) (hbusy : r.Busy) (hm : r.Metered K) :
    tick host config r = (.done (some .drained), r) ∧ r.Emptied ∨
      ∃ h ∈ handles, 0 < work h ∧ ∃ r', tick host config r = (.done none, r') ∧
        r'.Faring A handles errands (spend work h) ∧ r'.Busy := by
  have happlied : r.applied = r := by
    have hclear :
        ({ r.session.context with changes := [] } : RunContext S) = r.session.context := by
      rw [← hf.calm.unqueued]
    simp only [Run.applied, applyChanges, Step.modify, clearChanges, hf.calm.unqueued,
      List.foldl_nil, hclear]
  rw [tick_apply, happlied]
  by_cases hactive : Registry.activeCount r.registry = 0
  · refine .inl ⟨?_, fun h => ?_⟩
    · rw [attend, Step.bind_of_done (checkStop_of_calm hf.calm), Step.get_bind, if_pos hactive]
      rfl
    · rcases hd : r.registry.get? h with _ | d
      · rfl
      · cases (hbusy h d hd).symm.trans (activeCount_eq_zero.1 hactive h d hd)
  · obtain ⟨h, d, hd, hh⟩ := exists_participant hp hK hf hbusy hm hactive
    obtain ⟨m, hservice, hm'⟩ := serviceOf_faring hobs hs config hh (admitted_faring hp hf)
    obtain ⟨r', hleave, hr', hbusy'⟩ := disconnectStage_faring hobs hm'
    refine .inr ⟨h, hf.known h d hd, (hf.pending hd (hbusy h d hd)).pos, r', ?_, hr', hbusy'⟩
    have hx : service host config r = (.done none, m) := by
      rw [service, Step.bind_of_done (checkStop_of_calm hf.calm), Step.get_bind, if_neg hactive,
        Step.bind_of_done (admission_apply r), hservice]
    rw [attend_eq, Step.bind_of_done hx, leaveAfter, Step.bind_of_done hleave]
    rfl

theorem sum_spend_lt {h : SocketHandle} (hh : h ∈ handles) (hpos : 0 < work h) :
    (handles.map (spend work h)).sum < (handles.map work).sum := by
  apply List.sum_lt_sum
  · intro k _
    by_cases heq : k = h
    · rw [heq, spend, Function.update_self]
      exact Nat.sub_le _ 1
    · rw [spend, Function.update_of_ne heq]
  · refine ⟨h, hh, ?_⟩
    rw [spend, Function.update_self]
    exact Nat.sub_lt hpos Nat.one_pos

/-- The ticks come to an end within as many as there is work to do, when all errands are done. -/
theorem ticks_complete (ho : host.handlers.Observe) (hp : host.policy = .constantLimit)
    {poll : W → List (Nat × PollFlags) → Nat → PollAnswer × W}
    (hs : host.select = pollingSelector poll) (config : ExecutorConfig) (hK : 0 < K) :
    ∀ {fuel : Nat} {work : SocketHandle → Nat} {r : Run W S H ConstantLimitPolicy},
      (handles.map work).sum < fuel → r.Faring A handles errands work → r.Busy → r.Metered K →
        ∃ r', ticks host config fuel r = (.done .drained, r') ∧ r'.session.Calm ∧ r'.Emptied ∧
          ∀ h ∈ handles, (errands h).Fulfilled (eventsOf h r'.session.journal)
            (bytesSent h r'.session.journal) := by
  intro fuel
  induction fuel with
  | zero => exact fun hlt => absurd hlt (Nat.not_lt_zero _)
  | succ fuel ih =>
      intro work r hlt hf hbusy hm
      rcases tick_progress (ho.observed hp) hp hs config hK hf hbusy hm with
        ⟨htick, hempty⟩ | ⟨h, hh, hpos, r', htick, hf', hbusy'⟩
      · refine ⟨r, ?_, hf.calm, hempty, fun h hh => ?_⟩
        · rw [ticks, Step.bind_of_done (Step.attempt_of_done htick)]
          rfl
        · rcases hf.fares h hh with ⟨hd, -⟩ | ⟨-, hdone⟩
          · cases (hempty h).symm.trans hd
          · exact hdone
      · have hless := sum_spend_lt hh hpos
        have hmoves : r.Moves host r' := by
          rw [tick_apply] at htick
          have hattend := (attend_follows config).moves_to (keyed_applied hf.keyed) htick (by simp)
          exact .head .applied hattend
        obtain ⟨last, hticks, hlast⟩ := ih (by omega) hf' hbusy'
          (hm.moves hp ho.keepsFinalize hmoves)
        refine ⟨last, ?_, hlast⟩
        rw [ticks, Step.bind_of_done (Step.attempt_of_done htick)]
        exact hticks

end Run

end Reactor
