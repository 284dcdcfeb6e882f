import Mathlib.Data.List.Induction
import Reactor.Policy.Rules
import Reactor.Proofs.Run.Deeds

/-! The places of the policy that bounds the number of sockets in flight. A place is given back at
the last event of a socket, unless a hook fails there: the policy comes last in the chain, and is
not told then. -/

namespace Reactor

/-- No handler makes another event of the last event of a socket, or a last event of another. -/
def HandlerRules.KeepsFinalize {W S H : Type} (rules : HandlerRules W S H) : Prop :=
  ∀ world handler (event : Event S H) context,
    (rules.onEvent world handler event context).payload.kind = .finalize ↔ event.kind = .finalize

/-- What the journal tells about lost places: how many were lost, and whether the chain is at the
last event of a socket that holds one. -/
structure Losses where
  count : Nat
  parting : Bool
  deriving DecidableEq

namespace Losses

variable {S H : Type}

/-- A failure of the chain; it loses a place if a place should be given back. -/
def missed (l : Losses) : Losses := { l with count := l.count + if l.parting then 1 else 0 }

def after (l : Losses) : Deed S H → Losses
  | .raised _ standing payload => { l with parting := standing.running && payload.kind = .finalize }
  | .heard _ _ _ (.done ()) => l
  | .heard _ _ _ _ => l.missed
  | _ => { l with parting := false }

end Losses

variable {W S H P : Type}

def losses (journal : List (Deed S H)) : Losses := journal.foldl Losses.after ⟨0, false⟩

/-- The number of places that were lost: how often a hook has failed at the last event of a socket
that took part. -/
def lost (journal : List (Deed S H)) : Nat := (losses journal).count

@[simp] theorem losses_append (journal deeds : List (Deed S H)) :
    losses (journal ++ deeds) = deeds.foldl Losses.after (losses journal) :=
  List.foldl_append

/-- The deed is the last event of a socket that takes part. -/
def Deed.parts : Deed S H → Bool
  | .raised _ standing payload => standing.running && payload.kind = .finalize
  | _ => false

def Deed.isHeard : Deed S H → Bool
  | .heard _ _ _ _ => true
  | _ => false

theorem Losses.foldl_after {deeds : List (Deed S H)} (hd : ∀ deed ∈ deeds, deed.parts = false) :
    ∀ l : Losses, l.parting = false → deeds.foldl Losses.after l = l := by
  induction deeds with
  | nil => exact fun _ _ => rfl
  | cons deed rest ih =>
      intro l hl
      have hstep : l.after deed = l := by
        have hsame : (⟨l.count, false⟩ : Losses) = l := by rw [← hl]
        cases deed with
        | raised h standing payload =>
            have hnot : (standing.running && decide (payload.kind = .finalize)) = false :=
              hd _ List.mem_cons_self
            rw [after, hnot]
            exact hsame
        | heard h link requests verdict =>
            have hmissed : l.missed = l := by
              rw [missed, hl]
              exact hsame
            rcases verdict with _ | e | _
            · rfl
            · exact hmissed
            · exact hmissed
        | _ => exact hsame
      rw [List.foldl_cons, hstep]
      exact ih (fun deed hmem => hd deed (List.mem_cons_of_mem _ hmem)) l hl

/-- Places are lost at last events only. -/
theorem lost_append (journal : List (Deed S H)) {deeds : List (Deed S H)}
    (hfirst : ∀ deed ∈ deeds.head?, deed.isHeard = false)
    (hd : ∀ deed ∈ deeds, deed.parts = false) : lost (journal ++ deeds) = lost journal := by
  rw [lost, lost, losses_append]
  cases deeds with
  | nil => rfl
  | cons deed rest =>
      have hparts := hd deed List.mem_cons_self
      have hstep : (losses journal).after deed = ⟨(losses journal).count, false⟩ := by
        cases deed with
        | raised h standing payload =>
            have hnot : (standing.running && decide (payload.kind = .finalize)) = false := hparts
            rw [Losses.after, hnot]
        | heard => cases hfirst _ rfl
        | _ => rfl
      rw [List.foldl_cons, hstep,
        Losses.foldl_after (fun deed hmem => hd deed (List.mem_cons_of_mem _ hmem)) _ rfl]

theorem lost_append_of_plain (journal : List (Deed S H)) {deeds : List (Deed S H)}
    (hd : ∀ deed ∈ deeds, deed.isHeard = false ∧ deed.parts = false) :
    lost (journal ++ deeds) = lost journal :=
  lost_append journal (fun deed hmem => (hd deed (List.mem_of_mem_head? hmem)).1)
    fun deed hmem => (hd deed hmem).2

/-- A hook has failed at the last event of a socket that took part. -/
def PartingFailed (journal : List (Deed S H)) : Prop :=
  ∃ (before : List (Deed S H)) (parting : Deed S H) (hearings : List (Deed S H))
    (h : SocketHandle) (link : Link H) (requests : List (Request S))
    (verdict : Ending HandlerError Unit) (after : List (Deed S H)),
    journal = before ++ parting :: (hearings ++ .heard h link requests verdict :: after) ∧
      parting.parts = true ∧ (∀ deed ∈ hearings, deed.isHeard = true) ∧ verdict ≠ .done ()

theorem Losses.count_le_after (l : Losses) (deed : Deed S H) : l.count ≤ (l.after deed).count := by
  cases deed with
  | heard h link requests verdict =>
      have hmissed : l.count ≤ l.missed.count := Nat.le_add_right _ _
      rcases verdict with _ | e | _
      · exact Nat.le_refl _
      · exact hmissed
      · exact hmissed
  | _ => exact Nat.le_refl _

theorem Losses.count_le_foldl (deeds : List (Deed S H)) :
    ∀ l : Losses, l.count ≤ (deeds.foldl Losses.after l).count := by
  induction deeds with
  | nil => exact fun _ => Nat.le_refl _
  | cons deed rest ih => exact fun l => Nat.le_trans (l.count_le_after deed) (ih _)

theorem Losses.parting_foldl {deeds : List (Deed S H)} (hd : ∀ deed ∈ deeds, deed.isHeard = true) :
    ∀ l : Losses, (deeds.foldl Losses.after l).parting = l.parting := by
  induction deeds with
  | nil => exact fun _ => rfl
  | cons deed rest ih =>
      intro l
      have hone : (l.after deed).parting = l.parting := by
        have hheard := hd deed List.mem_cons_self
        cases deed with
        | heard h link requests verdict => rcases verdict with _ | e | _ <;> rfl
        | _ => cases hheard
      exact (ih (fun deed hmem => hd deed (List.mem_cons_of_mem _ hmem)) _).trans hone

/-- While the chain is at a last event, it has just been raised, and only hooks have answered. -/
theorem losses_parting {journal : List (Deed S H)} (h : (losses journal).parting = true) :
    ∃ before parting hearings, journal = before ++ parting :: hearings ∧
      parting.parts = true ∧ ∀ deed ∈ hearings, deed.isHeard = true := by
  induction journal using List.reverseRecOn with
  | nil => cases h
  | append_singleton journal deed ih =>
      rw [losses_append] at h
      cases deed with
      | raised k standing payload =>
          exact ⟨journal, _, [], rfl, h, fun deed hmem => by cases hmem⟩
      | heard k link requests verdict =>
          have hbefore : (losses journal).parting = true := by
            rcases verdict with _ | e | _ <;> exact h
          obtain ⟨before, parting, hearings, rfl, hparts, hheard⟩ := ih hbefore
          refine ⟨before, parting, hearings ++ [.heard k link requests verdict], by simp, hparts,
            ?_⟩
          intro deed hmem
          rcases List.mem_append.1 hmem with hmem | hmem
          · exact hheard deed hmem
          · rw [List.mem_singleton.1 hmem]
            rfl
      | _ => cases h

/-- Places are lost just where a hook fails at the last event of a socket that takes part. -/
theorem lost_pos_iff {journal : List (Deed S H)} : 0 < lost journal ↔ PartingFailed journal := by
  constructor
  · induction journal using List.reverseRecOn with
    | nil => exact fun h => by cases h
    | append_singleton journal deed ih =>
        intro h
        by_cases hlost : 0 < lost journal
        · obtain ⟨before, parting, hearings, k, link, requests, verdict, after, rfl, hrest⟩ := ih hlost
          exact ⟨before, parting, hearings, k, link, requests, verdict, after ++ [deed], by simp,
            hrest⟩
        · have hzero : (losses journal).count = 0 := Nat.eq_zero_of_not_pos hlost
          rw [lost, losses_append] at h
          cases deed with
          | heard k link requests verdict =>
              have hnew : (losses journal).parting = true ∧ verdict ≠ .done () := by
                rcases verdict with _ | e | _
                · exact absurd h hlost
                all_goals
                  refine ⟨?_, by simp⟩
                  by_contra hnot
                  simp [Losses.after, Losses.missed, hzero, hnot] at h
              obtain ⟨before, parting, hearings, rfl, hparts, hheard⟩ := losses_parting hnew.1
              exact ⟨before, parting, hearings, k, link, requests, verdict, [], by simp, hparts,
                hheard, hnew.2⟩
          | _ => exact absurd h hlost
  · rintro ⟨before, parting, hearings, k, link, requests, verdict, after, rfl, hparts, hheard, hne⟩
    have hraised : ((losses before).after parting).parting = true := by
      cases parting with
      | raised => exact hparts
      | _ => cases hparts
    have hfailed : ∀ l : Losses, l.parting = true →
        0 < (l.after (.heard k link requests verdict : Deed S H)).count := by
      intro l hl
      rcases verdict with _ | e | _
      · exact absurd rfl hne
      all_goals simp [Losses.after, Losses.missed, hl]
    rw [lost, losses_append, List.foldl_cons, List.foldl_append, List.foldl_cons]
    refine Nat.lt_of_lt_of_le (hfailed _ ?_) (Losses.count_le_foldl after _)
    rw [Losses.parting_foldl hheard, hraised]

def ConstantLimitPolicy.told (p : ConstantLimitPolicy) (kind : EventKind) (running : Bool) :
    ConstantLimitPolicy :=
  if kind = .finalize ∧ running = true then { p with inFlight := p.inFlight - 1 } else p

theorem ConstantLimitPolicy.told_congr (p : ConstantLimitPolicy) {kind kind' : EventKind}
    (h : kind = .finalize ↔ kind' = .finalize) (running : Bool) :
    p.told kind running = p.told kind' running := by
  simp only [told, h]

namespace Visit

section Chain

variable {host : Host W S H P}

/-- A hook that fails is recorded as a failure of the chain. -/
theorem losses_hear (host : Host W S H P) (link : Link H) (payload : Payload S) (v : Visit W S H P) :
    losses (hear host link payload v).2.session.journal =
      match (hear host link payload v).1 with
      | .done _ => losses v.session.journal
      | _ => (losses v.session.journal).missed := by
  rcases hr : v.askAbout host payload link with ⟨policy, ⟨context, requests, verdict, world⟩, m, p⟩
  have hj : (hear host link payload v).2.session.journal = v.session.journal ++
      [.heard v.descriptor.handle link requests verdict] := by
    simp only [hear, hr, Session.absorb, Session.note]
  have hend : (hear host link payload v).1 = verdict.map fun _ => p := by
    simp only [hear, hr]
  rw [hj, hend, losses_append]
  rcases verdict with _ | e | _ <;> rfl

/-- The chain ends at the first hook that fails. -/
theorem losses_hearAll (host : Host W S H P) (links : List (Link H)) :
    ∀ (payload : Payload S) (v : Visit W S H P),
      losses (hearAll host links payload v).2.session.journal =
        match (hearAll host links payload v).1 with
        | .done _ => losses v.session.journal
        | _ => (losses v.session.journal).missed := by
  induction links with
  | nil => exact fun _ _ => rfl
  | cons link links ih =>
      intro payload v
      have hone := losses_hear host link payload v
      rw [hearAll]
      rcases hx : hear host link payload v with ⟨p | e | _, t⟩
      all_goals rw [hx] at hone
      · rw [Step.bind_of_done hx, ih p t]
        dsimp only at hone
        rw [hone]
      · rw [Step.bind_of_cut hx]
        exact hone
      · rw [Step.bind_of_crashed hx]
        exact hone

theorem hearAll_append (links more : List (Link H)) :
    ∀ payload : Payload S, hearAll host (links ++ more) payload =
      hearAll host links payload >>= fun p => hearAll host more p := by
  induction links with
  | nil => exact fun _ => rfl
  | cons link links ih =>
      intro payload
      rw [List.cons_append, hearAll, hearAll, bind_assoc]
      exact congrArg _ (funext fun p => ih p)

end Chain

section Limited

variable {host : Host W S H P}

/-- Handlers are not the policy, which they can not reach. -/
theorem hearAll_handlers (hk : host.handlers.KeepsFinalize) {links : List (Link H)}
    (hl : ∀ link ∈ links, link ≠ .policy) : ∀ (payload : Payload S) (v : Visit W S H P),
      (hearAll host links payload v).2.session.policy = v.session.policy ∧
        ∀ p, (hearAll host links payload v).1 = .done p →
          (p.kind = .finalize ↔ payload.kind = .finalize) := by
  induction links with
  | nil =>
      intro payload v
      refine ⟨rfl, ?_⟩
      rintro p ⟨⟩
      exact Iff.rfl
  | cons link links ih =>
      intro payload v
      have hone : (hear host link payload v).2.session.policy = v.session.policy ∧
          ∀ p, (hear host link payload v).1 = .done p →
            (p.kind = .finalize ↔ payload.kind = .finalize) := by
        have hkind : ∀ handler, (host.handlers.onEvent v.session.world handler
            ⟨v.descriptor, payload⟩ v.session.context).payload.kind = .finalize ↔
              payload.kind = .finalize := fun handler => hk _ _ _ _
        cases link with
        | policy => exact absurd rfl (hl _ List.mem_cons_self)
        | own handler | shared handler =>
            refine ⟨rfl, fun p hp => ?_⟩
            have hpay : p = (host.handlers.onEvent v.session.world handler
                ⟨v.descriptor, payload⟩ v.session.context).payload := by
              simp only [hear, askAbout, Ending.map] at hp
              split at hp
              · exact (Ending.done.inj hp).symm
              · cases hp
              · cases hp
            rw [hpay]
            exact hkind handler
      have hrest := ih fun link hmem => hl link (List.mem_cons_of_mem _ hmem)
      rw [hearAll]
      rcases hx : hear host link payload v with ⟨p | e | _, t⟩
      all_goals rw [hx] at hone
      · rw [Step.bind_of_done hx]
        obtain ⟨hpolicy, hkind⟩ := hrest p t
        refine ⟨hpolicy.trans hone.1, fun q hq => ?_⟩
        exact (hkind q hq).trans (hone.2 p rfl)
      · rw [Step.bind_of_cut hx]
        exact ⟨hone.1, fun _ h => by cases h⟩
      · rw [Step.bind_of_crashed hx]
        exact ⟨hone.1, fun _ h => by cases h⟩

end Limited

section Limited

variable {host : Host W S H ConstantLimitPolicy}

theorem hear_policy (hp : host.policy = .constantLimit) (payload : Payload S)
    (v : Visit W S H ConstantLimitPolicy) :
    (hear host .policy payload v).1 = .done payload ∧
      (hear host .policy payload v).2.session.policy =
        v.session.policy.told payload.kind v.descriptor.running := by
  simp only [hear, askAbout, hp]
  exact ⟨rfl, rfl⟩

/-- The policy hears of an event if no handler fails. -/
theorem hearAll_policy (hp : host.policy = .constantLimit) (hk : host.handlers.KeepsFinalize)
    {links : List (Link H)} (hl : ∀ link ∈ links, link ≠ .policy) (payload : Payload S)
    (v : Visit W S H ConstantLimitPolicy) :
    (hearAll host (links ++ [.policy]) payload v).2.session.policy =
      match (hearAll host (links ++ [.policy]) payload v).1 with
      | .done _ => v.session.policy.told payload.kind v.descriptor.running
      | _ => v.session.policy := by
  obtain ⟨hpolicy, hkind⟩ := hearAll_handlers hk hl payload v
  obtain ⟨deeds, hh⟩ := hearAll_hears host links payload v
  obtain ⟨m, hm⟩ := hh.descriptor
  rw [hearAll_append]
  rcases hx : hearAll host links payload v with ⟨p | e | _, t⟩
  all_goals rw [hx] at hpolicy hkind hm
  · obtain ⟨hdone, htold⟩ := hear_policy hp p t
    rw [Step.bind_of_done hx, hearAll]
    rcases hy : hear host .policy p t with ⟨q | e | _, t'⟩
    all_goals rw [hy] at hdone htold
    · rw [Step.bind_of_done hy]
      have hrunning : t.descriptor.running = v.descriptor.running := by
        rw [show t.descriptor = _ from hm]
      dsimp only at hpolicy htold
      rw [hrunning, hpolicy, ConstantLimitPolicy.told_congr _ (hkind p rfl)] at htold
      exact htold
    · cases hdone
    · cases hdone
  · rw [Step.bind_of_cut hx]
    exact hpolicy
  · rw [Step.bind_of_crashed hx]
    exact hpolicy

theorem links_eq {v : Visit W S H P} (ho : v.session.observing = true) :
    ∃ links : List (Link H), (∀ link ∈ links, link ≠ .policy) ∧ v.links = links ++ [.policy] := by
  refine ⟨v.descriptor.handler.toList.map .own ++ v.session.handlers.map .shared, ?_, ?_⟩
  · intro link hmem
    simp only [List.mem_append, List.mem_map] at hmem
    rcases hmem with ⟨h, -, rfl⟩ | ⟨h, -, rfl⟩ <;> simp
  · simp [links, Session.chain, ho]

end Limited

end Visit

end Reactor
