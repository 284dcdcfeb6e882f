import Reactor.Proofs.Run.Admission
import Reactor.Proofs.Run.Work
import Reactor.Run.Tick

/-! What becomes of the registry when the queued changes are applied. -/

namespace Reactor

variable {W S H P : Type}

theorem Descriptor.Reworked.refl (d : Descriptor S H) : d.Reworked d := ⟨rfl, rfl, rfl, rfl, rfl⟩

theorem Descriptor.reworked_setOperation (d : Descriptor S H) (operation : Operation) :
    d.Reworked (d.setOperation operation) := ⟨rfl, rfl, rfl, rfl, rfl⟩

def Registration.descriptor (g : Registration S) : Descriptor S H :=
  .new g.handle g.socket g.operation g.metadata

namespace Registry

variable {r : Registry S H} {k : SocketHandle} {d' : Descriptor S H}

theorem modify_get? {h : SocketHandle} {f : Descriptor S H → Descriptor S H}
    (hf : ∀ d : Descriptor S H, d.Reworked (f d))
    (hk : HandleMap.get? (HandleMap.modify r h f) k = some d') :
    ∃ d, HandleMap.get? r k = some d ∧ d.Reworked d' := by
  rw [HandleMap.get?_modify] at hk
  split at hk
  · obtain ⟨d, hd, rfl⟩ := Option.map_eq_some_iff.1 hk
    exact ⟨d, hd, hf d⟩
  · exact ⟨d', hk, .refl d'⟩

theorem apply_register_new {g : Registration S} (hg : HandleMap.get? r g.handle = none) :
    r.apply (.register g) = HandleMap.insert r g.handle g.descriptor := by
  simp only [apply, enroll, Descriptor.new, hg]
  rfl

theorem apply_register_known {g : Registration S} {d : Descriptor S H}
    (hg : HandleMap.get? r g.handle = some d) :
    r.apply (.register g) = HandleMap.modify r g.handle (·.setOperation g.operation) := by
  simp only [apply, enroll, Descriptor.new, hg]

/-- A change gives registered sockets other work, or adds a socket under a new handle. -/
theorem apply_get? {c : Change S} (hk : HandleMap.get? (r.apply c) k = some d') :
    (∃ d, HandleMap.get? r k = some d ∧ d.Reworked d') ∨
      ∃ g, c = .register g ∧ g.handle = k ∧ HandleMap.get? r k = none ∧ d' = g.descriptor := by
  cases c with
  | register g =>
      rcases hg : HandleMap.get? r g.handle with _ | d
      · rw [apply_register_new hg, HandleMap.get?_insert hg] at hk
        split at hk
        · rename_i heq
          exact .inr ⟨g, rfl, heq.symm, heq ▸ hg, (Option.some.inj hk).symm⟩
        · exact .inl ⟨d', hk, .refl d'⟩
      · rw [apply_register_known hg] at hk
        exact .inl (modify_get? (fun d => d.reworked_setOperation _) hk)
  | deregister h => exact .inl (modify_get? Descriptor.reworked_markComplete hk)
  | setOperation h operation =>
      refine .inl (modify_get? (fun d => ?_) hk)
      split
      · exact .refl d
      · exact d.reworked_setOperation _

/-- The handles that are registered after a change: those before it, and that of a new socket. -/
theorem count_keys_apply (c : Change S) (h : SocketHandle)
    (hnew : ∀ g, c = .register g → HandleMap.get? r g.handle = none) :
    (r.apply c).keys.count h = r.keys.count h + (enrolling [c]).count h := by
  cases c with
  | register g =>
      have hg := hnew g rfl
      rw [apply_register_new hg, HandleMap.count_keys_insert hg]
      simp [enrolling, Change.registration?, List.count_singleton]
  | deregister k =>
      have he : enrolling [(.deregister k : Change S)] = ([] : List SocketHandle) := rfl
      simp [apply, he]
  | setOperation k operation =>
      have he : enrolling [(.setOperation k operation : Change S)] = ([] : List SocketHandle) := rfl
      simp [apply, he]

theorem keyed_apply (hr : r.Keyed) (c : Change S) : (r.apply c).Keyed := by
  intro k d' hk
  rcases apply_get? hk with ⟨d, hd, hw⟩ | ⟨g, -, hg, -, rfl⟩
  · exact hw.handle.trans (hr k d hd)
  · exact hg

theorem mem_keys_apply (c : Change S) {h : SocketHandle} (hh : h ∈ r.keys) :
    h ∈ (r.apply c).keys := by
  cases c with
  | register g =>
      rcases hg : HandleMap.get? r g.handle with _ | d
      · rw [apply_register_new hg, HandleMap.mem_keys, HandleMap.get?_insert hg]
        obtain ⟨d, hd⟩ := HandleMap.mem_keys.1 hh
        split
        · exact ⟨_, rfl⟩
        · exact ⟨d, hd⟩
      · rw [apply_register_known hg, HandleMap.keys_modify]
        exact hh
  | deregister k =>
      rw [apply, HandleMap.keys_modify]
      exact hh
  | setOperation k operation =>
      rw [apply, HandleMap.keys_modify]
      exact hh

theorem mem_keys_apply_of_queued (c : Change S) {h : SocketHandle} (hh : h ∈ enrolling [c]) :
    h ∈ (r.apply c).keys := by
  cases c with
  | register g =>
      obtain rfl : h = g.handle := by simpa [enrolling, Change.registration?] using hh
      rcases hg : HandleMap.get? r g.handle with _ | d
      · rw [apply_register_new hg, HandleMap.mem_keys, HandleMap.get?_insert hg, if_pos rfl]
        exact ⟨_, rfl⟩
      · rw [apply_register_known hg, HandleMap.keys_modify, HandleMap.mem_keys]
        exact ⟨d, hg⟩
  | _ => cases hh

/-- What every change keeps, the changes keep. -/
theorem foldl_apply_keeps {I : Registry S H → List (Change S) → Prop}
    (hI : ∀ r c rest, I r (c :: rest) → I (r.apply c) rest) (changes : List (Change S)) :
    ∀ r, I r changes → I (changes.foldl apply r) [] := by
  induction changes with
  | nil => exact fun r h => h
  | cons c rest ih => exact fun r h => ih _ (hI r c rest h)

end Registry

namespace Run

variable (r : Run W S H P)

def applied : Run W S H P := ((applyChanges : Step (Run W S H P) Halt Unit) r).2

variable {r}

theorem keyed_applied (hk : r.registry.Keyed) : r.applied.registry.Keyed :=
  Registry.foldl_apply_keeps (I := fun registry _ => registry.Keyed)
    (fun _ c _ h => Registry.keyed_apply h c) _ _ hk

theorem mem_keys_applied {h : SocketHandle} (hh : h ∈ r.registry.keys) :
    h ∈ r.applied.registry.keys :=
  Registry.foldl_apply_keeps (I := fun registry _ => h ∈ HandleMap.keys registry)
    (fun _ c _ h => Registry.mem_keys_apply c h) _ _ hh

/-- A socket whose registration was queued is registered then. -/
theorem mem_keys_applied_of_queued {h : SocketHandle}
    (hh : h ∈ r.registry.keys ∨ h ∈ enrolling r.session.context.changes) :
    h ∈ r.applied.registry.keys := by
  have hkeeps := Registry.foldl_apply_keeps
    (I := fun registry changes => h ∈ HandleMap.keys registry ∨ h ∈ enrolling changes)
    (fun registry c rest h => ?_) r.session.context.changes r.registry hh
  · exact hkeeps.resolve_right (by simp [enrolling])
  · rcases h with h | h
    · exact .inl (Registry.mem_keys_apply c h)
    · rw [← List.singleton_append, enrolling_append, List.mem_append] at h
      exact h.imp (Registry.mem_keys_apply_of_queued c) id

end Run

end Reactor
