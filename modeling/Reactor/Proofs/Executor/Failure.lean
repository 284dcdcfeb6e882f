import Reactor.Proofs.Executor.Stop
import Reactor.Proofs.Executor.Teardown
import Reactor.Proofs.Run.Failing

/-! A hook that fails the run: the run ends in the first such failure, and in no other error, and
nothing is begun after it. -/

namespace Reactor.Executor

variable {W S H P : Type} {e : Executor S H P} {host : Host W S H P}

/-- The failure in which a run ends is the first one of the whole run. -/
theorem surfaces_execute (hidle : e.control.executing = false) (host : Host W S H P) (fuel : Nat)
    (context : ExecutionContext) (world : W) :
    Surfaces (e.execute host fuel context world).journal
      (Run.perform host e.config fuel (e.started context world)).1 := by
  have hactive : (e.started context world).session.Active := ⟨rfl, rfl⟩
  obtain ⟨deeds, hj, -, hsurf⟩ := Run.perform_orders host e.config fuel hactive
  rw [journal_execute hidle, hj]
  exact hsurf

/-- The failure of a run shows in the first failure that a hook has raised, and otherwise there is
none. -/
theorem ending_execute_iff (hidle : e.control.executing = false) (fuel : Nat)
    (context : ExecutionContext) (world : W)
    (hc : (e.execute host fuel context world).ending ≠ .crashed) (error : ExecutorError) :
    (e.execute host fuel context world).ending = .cut (.error error) ↔
      ∃ text, error = .handler (.fatal text) ∧
        (fatals (e.execute host fuel context world).journal).head? = some text := by
  have hsurf := surfaces_execute hidle host fuel context world
  rw [ending_execute hidle] at hc ⊢
  revert hsurf hc
  rcases (Run.perform host e.config fuel (e.started context world)).1 with _ | (text | _) | _
  · intro _ hsurf
    rw [hsurf (by simp)]
    simp [outcome]
  · intro _ hsurf
    rw [hsurf (by simp)]
    simp [outcome, Failure.fatal?, Failure.halt?, Halt.fatal?, eq_comm]
  · intro _ hsurf
    rw [hsurf (by simp)]
    simp [outcome, Failure.fatal?, Failure.halt?]
  · exact fun hc _ => absurd rfl hc

/-- Failures of the run surface exactly. A run that returns ends in an error if and only if a hook
has failed it, and the error is the first such failure, wherever in the chain it was raised;
failures of sockets never end it. After the first failure of the run nothing is begun any more. If
leave was being taken of sockets with nothing left to do, it is taken to the last of them. The
sockets that are held by then are closed without any event, so every socket of the run is closed
once; and the journal has these calls of `close` as they were made. -/
theorem execute_surfaces (he : e.Reachable W) (hidle : e.control.executing = false)
    (host : Host W S H P) (fuel : Nat) (context : ExecutionContext) (world : W) :
    ((e.execute host fuel context world).ending ≠ .crashed → ∀ error,
      (e.execute host fuel context world).ending = .cut (.error error) ↔
        ∃ text, error = .handler (.fatal text) ∧
          (fatals (e.execute host fuel context world).journal).head? = some text) ∧
    ∀ text, (e.execute host fuel context world).ending =
        .cut (.error (.handler (.fatal text))) →
      ∃ (before : List (Deed S H)) (deed : Deed S H) (after : List (Deed S H))
          (handles : List SocketHandle),
        (e.execute host fuel context world).journal =
          (before ++ deed :: after) ++ handles.map .closed ++ [.policyFinished] ∧
        fatals before = [] ∧ deed.fatal? = some text ∧
        (after = [] ∨ ∃ m earlier,
          (Run.startPolicy host (e.started context world)).Moves host m ∧
          before = m.session.journal ++ earlier ∧
          ∀ d ∈ earlier ++ deed :: after, d.IsParting host (Registry.completed m.registry)) ∧
        (∃ scene, (e.scene world).Enacted host (before ++ deed :: after) scene ∧
          (∀ h, h ∈ handles ↔ (scene.held h).isSome = true) ∧
          scene.Enacted host (handles.map .closed ++ [.policyFinished])
            (e.execute host fuel context world).scene) ∧
        ∀ h, closings h (before ++ deed :: after) + handles.count h =
          if e.Owns (e.execute host fuel context world).journal h then 1 else 0 := by
  refine ⟨ending_execute_iff hidle fuel context world, fun text hend => ?_⟩
  have hs := he.sound hidle
  have hkeyed : (Run.startPolicy host (e.started context world)).registry.Keyed := hs.keyed
  have hactive : (Run.startPolicy host (e.started context world)).session.Active := ⟨rfl, rfl⟩
  have hreturned : Returned (e.execute host fuel context world).ending .unfinished := by
    rw [hend]
    exact ⟨by simp, by simp⟩
  obtain ⟨hsettled, -⟩ := hs.settled host fuel context world hidle hreturned
  have hclosed := fun h => (hsettled.closed h).trans (hs.count_owned _ h)
  have henacted := hs.enacted_closings hidle hreturned
  rw [ending_execute hidle] at hend
  rw [journal_execute hidle] at henacted ⊢
  obtain ⟨t, hbody, hj⟩ := Run.perform_failed (fatal_of_outcome hend)
  obtain ⟨deeds, hdeeds, -, hsurf⟩ := Run.body_orders host e.config fuel hactive
  rw [hbody] at hdeeds hsurf
  obtain ⟨before, deed, after, rfl, hbefore, hfatal, hafter⟩ :=
    (Run.body_failed hkeyed hactive hbody).split hkeyed hdeeds (hsurf (by simp))
  have hsplit : t.session.journal = (.policyStarted :: before) ++ deed :: after := hdeeds
  rw [hj, hsplit] at hclosed henacted ⊢
  refine ⟨.policyStarted :: before, deed, after, _, rfl, hbefore, hfatal, hafter,
    henacted _ _ rfl, fun h => ?_⟩
  simp only [← hclosed h, closings_append, closings_map]
  rfl

/-- Two sockets, and a hook that fails the run when the first of them is disconnected, and registers
a third one on that occasion. -/
def quitting : Executor Recorder.Endpoint Recorder.Hook Unit :=
  Recorder.executor ⟨1, true⟩ ⟨2, true⟩
    (Recorder.on ⟨1⟩ .disconnected [⟨3, true⟩] (.cut (.fatal "over")))

/-- The second socket has its last event all the same, and the third one is closed without any. -/
theorem execute_surfaces_quitting :
    quitting.Reachable (List Recorder.Entry) ∧ quitting.control.executing = false ∧
      (quitting.execute Recorder.host 5 .empty []).ending =
        .cut (.error (.handler (.fatal "over"))) ∧
      (fatals (quitting.execute Recorder.host 5 .empty []).journal).head? = some "over" ∧
      .event .finalize ∈ notices ⟨2⟩ (quitting.execute Recorder.host 5 .empty []).journal ∧
      (∃ (deeds : List (Deed Recorder.Endpoint Recorder.Hook)) (handles : List SocketHandle)
          (scene : Scene (List Recorder.Entry) Recorder.Endpoint),
        (quitting.execute Recorder.host 5 .empty []).journal =
          deeds ++ handles.map .closed ++ [.policyFinished] ∧
        scene.Enacted Recorder.host (handles.map .closed ++ [.policyFinished])
          (quitting.execute Recorder.host 5 .empty []).scene ∧
        closings ⟨3⟩ deeds + handles.count ⟨3⟩ = 1) ∧
      (quitting.execute Recorder.host 5 .empty []).world.filter (Recorder.Entry.isAbout 3) =
        [.closed 3] := by
  have he : quitting.Reachable (List Recorder.Entry) := Recorder.executor_reachable _ _ _
  have hend : (quitting.execute Recorder.host 5 .empty []).ending =
      .cut (.error (.handler (.fatal "over"))) := by
    decide +kernel
  have howns : quitting.Owns (quitting.execute Recorder.host 5 .empty []).journal ⟨3⟩ := by
    decide +kernel
  obtain ⟨hexact, hsurfaces⟩ := execute_surfaces he rfl Recorder.host 5 .empty []
  obtain ⟨text, htext, hfirst⟩ := (hexact (by rw [hend]; simp) _).1 hend
  cases htext
  obtain ⟨before, deed, after, handles, hj, -, -, -, ⟨scene, -, -, henacted⟩, hclosed⟩ :=
    hsurfaces "over" hend
  have hthird := hclosed ⟨3⟩
  rw [if_pos howns] at hthird
  exact ⟨he, rfl, hend, hfirst, by decide +kernel,
    ⟨before ++ deed :: after, handles, scene, hj, henacted, hthird⟩, by decide +kernel⟩

end Reactor.Executor
