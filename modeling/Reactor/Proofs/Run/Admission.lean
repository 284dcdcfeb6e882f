import Reactor.Proofs.Handle.Map
import Reactor.Proofs.Run.Requests
import Reactor.Run.Admission

/-! What the admission of a tick does to the registered sockets. -/

namespace Reactor

variable {W S H P : Type} {host : Host W S H P}

/-- The handles under which descriptors are registered are their own. -/
def Registry.Keyed (r : Registry S H) : Prop :=
  ∀ h d, HandleMap.get? r h = some d → d.handle = h

def Registry.runningCount (r : Registry S H) : Nat := r.values.countP (·.running)

/-- The descriptor may have been admitted or held back, and is the same otherwise. -/
def Descriptor.Considered (d d' : Descriptor S H) : Prop :=
  ∃ running postponed, d' = { d with running := running, postponed := postponed } ∧
    (d.running = true → running = true)

theorem Descriptor.considered_judged (d : Descriptor S H) (decision : Decision) :
    d.Considered (d.judged decision) := by
  cases decision with
  | grant => exact ⟨true, false, rfl, fun _ => rfl⟩
  | skip => exact ⟨d.running, true, rfl, id⟩
  | defer => exact ⟨d.running, true, rfl, id⟩

/-- The deed is a verdict of the policy or an answer of the selector, of which the hooks do not
hear. -/
def Deed.IsAside : Deed S H → Prop
  | .decided _ _ | .selected _ _ => True
  | _ => False

namespace AdmissionPass

theorem consider_considered (pass : AdmissionPass W S H P) (d : Descriptor S H) :
    d.Considered (pass.consider host d).1 := by
  unfold consider
  split
  · exact ⟨d.running, d.postponed, rfl, id⟩
  split
  · exact ⟨d.running, d.postponed, rfl, id⟩
  split
  · exact ⟨d.running, true, rfl, id⟩
  · exact d.considered_judged _

theorem consider_advances (host : Host W S H P) (pass : AdmissionPass W S H P)
    (d : Descriptor S H) :
    ∃ deeds, (∀ deed ∈ deeds, deed.IsAside) ∧
      pass.session.Advances deeds (pass.consider host d).2.session := by
  unfold consider
  split
  · exact ⟨[], by simp, .refl _⟩
  split
  · exact ⟨[], by simp, .refl _⟩
  split
  · exact ⟨[], by simp, .refl _⟩
  rcases hv : host.policy.decide pass.session.world pass.session.policy d
    pass.session.context.context with ⟨decision, policy, world, stop⟩
  have h := Session.advances_note { pass.session with policy := policy } world stop
    (.decided d.handle decision) rfl
  refine ⟨[.decided d.handle decision], ?_, ?_⟩
  · intro deed hdeed
    obtain rfl := List.mem_singleton.1 hdeed
    trivial
  · have hs : (pass.ask host d).2.session = (({ pass.session with
        policy := policy, world := world }.stopIf stop).note (.decided d.handle decision)) := by
      simp only [ask, Session.decide, hv]
      cases decision <;> rfl
    rw [hs]
    exact ⟨h.journal, h.changes, h.nextHandle, h.executing, h.handlers, h.observing, h.stopping⟩

/-- Whoever takes part in the tick is running and has something left to do. -/
theorem admitted_running {l : List (SocketHandle × Descriptor S H)} :
    ∀ (pass : AdmissionPass W S H P) (h : SocketHandle),
      h ∈ (HandleMap.traverseEntries (consider host) l pass).2.admitted →
        h ∈ pass.admitted ∨ ∃ e ∈ (HandleMap.traverseEntries (consider host) l pass).1,
          e.2.handle = h ∧ e.2.running = true ∧ e.2.isComplete = false := by
  induction l with
  | nil => exact fun pass h hh => .inl hh
  | cons e rest ih =>
      intro pass h hh
      rcases ih _ h hh with hh | ⟨e', he', hrest⟩
      · have hfirst : h ∈ pass.admitted ∨ (pass.consider host e.2).1.handle = h ∧
            (pass.consider host e.2).1.running = true ∧
            (pass.consider host e.2).1.isComplete = false := by
          revert hh
          unfold consider
          split
          · exact .inl
          rename_i hc
          rw [Bool.not_eq_true] at hc
          split
          · rename_i hr
            simp only [take, List.mem_append, List.mem_singleton]
            exact fun hh => hh.imp id fun heq => ⟨heq.symm, hr, hc⟩
          split
          · exact .inl
          unfold ask
          rcases pass.session.decide host e.2 with ⟨decision, session⟩
          cases decision with
          | grant =>
              simp only [take, List.mem_append, List.mem_singleton]
              exact fun hh => hh.imp id fun heq => ⟨heq.symm, rfl, hc⟩
          | skip => exact .inl
          | defer => exact .inl
        refine hfirst.imp id fun hd => ⟨_, List.mem_cons_self, hd⟩
      · exact .inr ⟨e', List.mem_cons_of_mem _ he', hrest⟩

/-- Whoever is running and has something left to do joins those who take part in the tick. -/
theorem consider_joins (pass : AdmissionPass W S H P) (d : Descriptor S H)
    (hr : (pass.consider host d).1.running = true)
    (hc : (pass.consider host d).1.isComplete = false) :
    (pass.consider host d).1.handle ∈ (pass.consider host d).2.admitted := by
  revert hr hc
  unfold consider
  split
  · rename_i hc
    intro _ hc'
    simp [hc] at hc'
  split
  · exact fun _ _ => by simp [take]
  rename_i hwaiting
  split
  · exact fun hr => absurd hr hwaiting
  unfold ask
  rcases pass.session.decide host d with ⟨decision, session⟩
  cases decision with
  | grant => exact fun _ _ => by simp [take, Descriptor.judged]
  | skip | defer => exact fun hr => absurd hr hwaiting

theorem consider_keeps (pass : AdmissionPass W S H P) (d : Descriptor S H) {h : SocketHandle}
    (hh : h ∈ pass.admitted) : h ∈ (pass.consider host d).2.admitted := by
  unfold consider
  split
  · exact hh
  split
  · exact List.mem_append_left _ hh
  split
  · exact hh
  unfold ask
  rcases pass.session.decide host d with ⟨decision, session⟩
  cases decision with
  | grant => exact List.mem_append_left _ hh
  | skip | defer => exact hh

end AdmissionPass

namespace Run

variable {ε : Type} (r : Run W S H P)

def admitted (host : Host W S H P) : Run W S H P :=
  ((admission host : Step (Run W S H P) Halt _) r).2

def participants (host : Host W S H P) : List SocketHandle :=
  (HandleMap.traverse r.registry (AdmissionPass.consider host) ⟨false, [], r.session⟩).2.admitted

theorem admission_apply :
    (admission host : Step (Run W S H P) ε _) r =
      (.done (r.participants host), r.admitted host) := rfl

@[simp] theorem keys_admitted : (r.admitted host).registry.keys = r.registry.keys :=
  HandleMap.keys_traverse _ _ _

theorem admitted_considered {h : SocketHandle} {d' : Descriptor S H}
    (hd : (r.admitted host).registry.get? h = some d') :
    ∃ d, r.registry.get? h = some d ∧ d.Considered d' := by
  obtain ⟨d, pass, hr, rfl⟩ := HandleMap.of_get?_traverse hd
  exact ⟨d, hr, pass.consider_considered d⟩

theorem admitted_advances (host : Host W S H P) :
    ∃ deeds, (∀ deed ∈ deeds, deed.IsAside) ∧
      r.session.Advances deeds (r.admitted host).session := by
  let I (pass : AdmissionPass W S H P) : Prop :=
    ∃ deeds, (∀ deed ∈ deeds, deed.IsAside) ∧ r.session.Advances deeds pass.session
  have hstart : I ⟨false, [], r.session⟩ := ⟨[], by simp, .refl _⟩
  refine HandleMap.traverse_keeps (I := I) ?_ hstart
  rintro pass d ⟨deeds, hv, hadv⟩
  obtain ⟨more, hm, hadv'⟩ := pass.consider_advances host d
  refine ⟨deeds ++ more, fun deed hd => ?_, hadv.trans hadv'⟩
  exact (List.mem_append.1 hd).elim (hv deed) (hm deed)

/-- Whoever takes part in the tick is running and has something left to do. -/
theorem participants_running (hk : (r.admitted host).registry.Keyed) {h : SocketHandle}
    (hh : h ∈ r.participants host) :
    ∃ d, (r.admitted host).registry.get? h = some d ∧ d.running = true ∧
      d.isComplete = false := by
  rcases AdmissionPass.admitted_running _ h hh with hh | ⟨⟨k, d⟩, he, hhandle, hrest⟩
  · cases hh
  · have hd : (r.admitted host).registry.get? k = some d := HandleMap.mem_entries.1 he
    have hkh : k = h := (hk k d hd).symm.trans hhandle
    exact ⟨d, hkh ▸ hd, hrest⟩

/-- Whoever is running and has something left to do takes part in the tick. -/
theorem mem_participants (hk : (r.admitted host).registry.Keyed) {h : SocketHandle}
    {d : Descriptor S H} (hd : (r.admitted host).registry.get? h = some d)
    (hr : d.running = true) (hc : d.isComplete = false) : h ∈ r.participants host := by
  have hjoins := HandleMap.traverse_leaves (m := r.registry) (f := AdmissionPass.consider host)
    (s := ⟨false, [], r.session⟩)
    (J := fun d pass => d.running = true → d.isComplete = false → d.handle ∈ pass.admitted)
    AdmissionPass.consider_joins
    (fun _ pass d' hj hr hc => pass.consider_keeps d' (hj hr hc)) (HandleMap.mem_values.2 ⟨h, hd⟩)
  rw [← hk h d hd]
  exact hjoins hr hc

end Run

end Reactor
