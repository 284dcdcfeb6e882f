import Reactor.Proofs.Executor.Recorder

/-! Every run that returns has cleaned up after itself, whichever way it came to its end. -/

namespace Reactor.Executor

variable {W S H P : Type}

/-- A socket is owned by a run if it was registered when the run began, or has got one of the
handles that the hooks of the run have asked for. -/
def Owns (e : Executor S H P) (journal : List (Deed S H)) (h : SocketHandle) : Prop :=
  h ∈ e.registry.keys ∨ e.nextHandle.number ≤ h.number ∧
    h.number < e.nextHandle.number + registrations (requested journal)

instance (e : Executor S H P) (journal : List (Deed S H)) (h : SocketHandle) :
    Decidable (e.Owns journal h) :=
  inferInstanceAs (Decidable (_ ∨ _ ∧ _))

/-- A socket can not have been registered already and be handed over later. -/
theorem Sound.count_owned {e : Executor S H P} (hs : e.Sound) (journal : List (Deed S H))
    (h : SocketHandle) :
    e.registry.keys.count h + issued e.nextHandle.number
        (e.nextHandle.number + registrations (requested journal)) h =
      if e.Owns journal h then 1 else 0 := by
  have hcount : e.registry.keys.count h = if h ∈ e.registry.keys then 1 else 0 :=
    List.Nodup.count (HandleMap.nodup_keys _)
  have hlt := hs.supply h
  rw [hcount]
  unfold Owns issued
  by_cases hmem : h ∈ e.registry.keys
  · have hnot : ¬ e.nextHandle.number ≤ h.number := Nat.not_le.2 (hlt hmem)
    simp [hmem, hnot]
  · simp [hmem]

/-- A run that returns leaves no socket, no queued change and no flag behind. The policy was told
of its beginning before anything else was done, and of its end after everything but the closing of
sockets. Every socket that the run owned has been closed, and closed once: its journal has one
closing of it, and whatever the journal has was done, so the one call of `close` was made on the
socket that the run held. -/
theorem execute_tears_down {e : Executor S H P} (he : e.Reachable W)
    (hidle : e.control.executing = false) (host : Host W S H P) (fuel : Nat)
    (context : ExecutionContext) (world : W)
    (hr : (e.execute host fuel context world).ending = .done () ∨
      ∃ error, (e.execute host fuel context world).ending = .cut (.error (.handler error))) :
    (e.execute host fuel context world).executor.registry = .empty ∧
      (e.execute host fuel context world).executor.changes = [] ∧
      (e.execute host fuel context world).executor.control = ⟨false, false⟩ ∧
      (∃ (deeds : List (Deed S H)) (handles : List SocketHandle),
        (∀ deed ∈ deeds, ¬ deed.IsMark) ∧ (e.execute host fuel context world).journal =
          .policyStarted :: deeds ++ .policyFinished :: handles.map .closed) ∧
      (e.scene world).Enacted host (e.execute host fuel context world).journal
        (e.execute host fuel context world).scene ∧
      ∀ h, closings h (e.execute host fuel context world).journal =
        if e.Owns (e.execute host fuel context world).journal h then 1 else 0 := by
  have hs := he.sound hidle
  have hreturned : Returned (e.execute host fuel context world).ending .unfinished := by
    rcases hr with hr | ⟨error, hr⟩ <;> rw [hr] <;> exact ⟨by simp, by simp⟩
  obtain ⟨hsettled, hcontrol⟩ := hs.settled host fuel context world hidle hreturned
  refine ⟨?_, ?_, hcontrol, ?_, hs.enacted hidle hreturned.2, fun h => ?_⟩
  · rw [execute_apply host fuel context world hidle]
    exact (registry_afterwards _ _ _).trans hsettled.registry
  · rw [execute_apply host fuel context world hidle]
    exact (changes_afterwards _ _ _).trans hsettled.changes
  · rw [execute_apply host fuel context world hidle]
    obtain ⟨deeds, handles, hm, hj⟩ := hsettled.ordered
    exact ⟨deeds, handles, hm, hj⟩
  · rw [execute_apply host fuel context world hidle]
    exact (hsettled.closed h).trans (hs.count_owned _ h)

/-- Two sockets, and a hook that registers a third at the last event of the last one. -/
def renewed : Executor Recorder.Endpoint Recorder.Hook Unit :=
  Recorder.executor ⟨1, true⟩ ⟨2, true⟩ (Recorder.on ⟨2⟩ .finalize [⟨3, true⟩] (.done ()))

/-- A socket that is registered when the last one has gone is closed once, too. -/
theorem execute_tears_down_renewing :
    renewed.Reachable (List Recorder.Entry) ∧ renewed.control.executing = false ∧
      (renewed.execute Recorder.host 5 .empty []).ending = .done () ∧
      (renewed.execute Recorder.host 5 .empty []).executor.registry = .empty ∧
      (renewed.execute Recorder.host 5 .empty []).executor.changes = [] ∧
      (renewed.scene []).Enacted Recorder.host
        (renewed.execute Recorder.host 5 .empty []).journal
        (renewed.execute Recorder.host 5 .empty []).scene ∧
      closings ⟨3⟩ (renewed.execute Recorder.host 5 .empty []).journal = 1 ∧
      (renewed.execute Recorder.host 5 .empty []).world.filterMap Recorder.Entry.closed? =
        [1, 2, 3] := by
  have he : renewed.Reachable (List Recorder.Entry) := Recorder.executor_reachable _ _ _
  have hdone : (renewed.execute Recorder.host 5 .empty []).ending = .done () := by
    decide +kernel
  have howns : renewed.Owns (renewed.execute Recorder.host 5 .empty []).journal ⟨3⟩ := by
    decide +kernel
  obtain ⟨hregistry, hchanges, -, -, henacted, hclosed⟩ :=
    execute_tears_down he rfl Recorder.host 5 .empty [] (.inl hdone)
  refine ⟨he, rfl, hdone, hregistry, hchanges, henacted, ?_, by decide +kernel⟩
  rw [hclosed ⟨3⟩, if_pos howns]

end Reactor.Executor
