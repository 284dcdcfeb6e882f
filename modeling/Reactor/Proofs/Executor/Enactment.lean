import Reactor.Proofs.Executor.Reachable
import Reactor.Proofs.Run.Enactment

/-! What an execution has recorded is what was done: its journal leads from the scene in which it
began to the one that it has left. -/

namespace Reactor

variable {W S H P : Type}

/-- The scene of an executor: it holds what is registered and what is queued. -/
def Executor.scene (e : Executor S H P) (world : W) : Scene W S where
  world := world
  held h := (e.registry.sockets h).or (awaiting e.changes h)
  next := e.nextHandle

def RunReport.scene (report : RunReport W S H P) : Scene W S :=
  report.executor.scene report.world

namespace Executor

variable {e : Executor S H P} {host : Host W S H P} {fuel : Nat} {context : ExecutionContext}
  {world : W}

theorem scene_execute (he : e.control.executing = false) :
    (e.execute host fuel context world).scene =
      (Run.perform host e.config fuel (e.started context world)).2.scene := by
  rw [execute_apply host fuel context world he]
  rcases Run.perform host e.config fuel (e.started context world) with ⟨_ | (text | _) | _, r⟩
  all_goals rfl

/-- A run that does not crash is recorded from its first moment on. -/
theorem Sound.plays (hs : e.Sound)
    (hc : (Run.perform host e.config fuel (e.started context world)).1 ≠ .crashed) :
    (e.started context world).Plays host
      (Run.perform host e.config fuel (e.started context world)).2 := by
  obtain ⟨last, hm, -, hend⟩ := hs.ends host fuel context world
  exact (Run.startPolicy_plays host _).trans
    (hm.plays_end (hs.accounted host context world) hs.supply hend hc)

theorem Sound.enacted (hs : e.Sound) (he : e.control.executing = false)
    (hc : (e.execute host fuel context world).ending ≠ .crashed) :
    (e.scene world).Enacted host (e.execute host fuel context world).journal
      (e.execute host fuel context world).scene := by
  rw [ending_execute he] at hc
  have hplays : (e.started context world).Plays host
      (Run.perform host e.config fuel (e.started context world)).2 :=
    hs.plays fun hcrash => hc (by rw [hcrash]; rfl)
  rw [scene_execute he, journal_execute he]
  exact hplays.enacted rfl

/-- A run that returns does not hold a socket any more. -/
theorem Sound.held_eq_none (hs : e.Sound) (he : e.control.executing = false)
    (hr : Returned (e.execute host fuel context world).ending .unfinished) (h : SocketHandle) :
    (e.execute host fuel context world).scene.held h = none := by
  obtain ⟨hsettled, -⟩ := hs.settled host fuel context world he hr
  rw [scene_execute he]
  exact Run.held_eq_none (by rw [hsettled.registry]; exact List.not_mem_nil)
    (by rw [hsettled.changes]; exact List.not_mem_nil)

/-- If closings are the last deeds of a run but one, they are the closings of what it still held. -/
theorem Sound.enacted_closings (hs : e.Sound) (he : e.control.executing = false)
    (hr : Returned (e.execute host fuel context world).ending .unfinished)
    (deeds : List (Deed S H)) (handles : List SocketHandle)
    (hj : (e.execute host fuel context world).journal =
      deeds ++ handles.map .closed ++ [.policyFinished]) :
    ∃ scene, (e.scene world).Enacted host deeds scene ∧
      (∀ h, h ∈ handles ↔ (scene.held h).isSome = true) ∧
      scene.Enacted host (handles.map .closed ++ [.policyFinished])
        (e.execute host fuel context world).scene := by
  have henacted : (e.scene world).Enacted host (e.execute host fuel context world).journal
      (e.execute host fuel context world).scene := hs.enacted he hr.2
  rw [hj, List.append_assoc] at henacted
  obtain ⟨scene, hdeeds, hrest⟩ := henacted.split
  obtain ⟨last, hclosings, hfinished⟩ := hrest.split
  refine ⟨scene, hdeeds, hclosings.mem_closings fun h => ?_, hrest⟩
  rw [← hs.held_eq_none he hr h]
  cases hfinished with
  | cons hone hnil =>
      cases hnil
      rw [hone.held_of_finished]

end Executor

end Reactor
