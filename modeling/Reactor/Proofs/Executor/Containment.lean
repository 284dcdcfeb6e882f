import Reactor.Proofs.Executor.Stop
import Reactor.Proofs.Run.Containment

/-! A failed selection ends the run, and ends it well: everybody is told, and then everybody is
taken leave of. -/

namespace Reactor.Executor

variable {W S H P : Type} {e : Executor S H P} {host : Host W S H P}

/-- A failed selection is total and contained, if no hook fails the run. It is the last thing that
the ticks do. Then every socket that is registered at that moment is told of it once, in the order
of the handles, whether or not it takes part or has anything left to do; only after that leave is
taken of each of them in full. What the journal has of this was done, call by call, from the scene
in which the selection has failed. Whatever the hooks do meanwhile, be it that they fail the socket
or ask for a stop, the run ends well. -/
theorem execute_contains_selectFailure (he : e.Reachable W) (hidle : e.control.executing = false)
    (hl : host.Lenient) (fuel : Nat) (context : ExecutionContext) (world : W)
    {interests : List Interest} {error : IoError}
    (hfails : .selected interests (.error error) ∈ (e.execute host fuel context world).journal) :
    (e.execute host fuel context world).ending = .done () ∧
      ∃ r m earlier reports rest,
        Run.ticks host e.config fuel (Run.startPolicy host (e.started context world)) =
          (.done (.selectFailed error), r) ∧
        r.session.journal = earlier ++ [.selected interests (.error error)] ∧
        r.registry.keys.Pairwise (fun h k => h.number < k.number) ∧
        r.Moves host m ∧ m.session.journal = r.session.journal ++ reports ∧
        r.scene.Enacted host reports m.scene ∧
        Reported host error r.registry.keys reports ∧
        (e.execute host fuel context world).journal = m.session.journal ++ rest ∧
        m.scene.Enacted host rest (e.execute host fuel context world).scene ∧
        (∀ h ∈ r.registry.keys, m.Parted host h rest) ∧
        ∀ deed ∈ rest, deed.isUnprompted = false := by
  have hs := he.sound hidle
  have hkeyed : (Run.startPolicy host (e.started context world)).registry.Keyed := hs.keyed
  rw [journal_execute hidle] at hfails ⊢
  rw [ending_execute hidle, scene_execute hidle]
  obtain ⟨r, earlier, hticks, hlast⟩ :=
    Run.ticks_of_selectFails (fun deed hd => by cases hd) hfails
  have hended : r.Ended (.selectFailed error) :=
    (Run.ticks_follows e.config fuel).delivers_to hkeyed hticks
  obtain ⟨m, t, reports, rest, hwind, hmoves, hj, hreported, hleaves, hrest, hparted, hcalm⟩ :=
    Run.windDown_selectFailed hl hended.1 error
  have hbody : Run.body host e.config fuel (Run.startPolicy host (e.started context world)) =
      (.done (), t) := by
    rw [Run.body, Step.bind_of_done hticks, hwind]
  have hdone : (Run.perform host e.config fuel (e.started context world)).1 = .done () := by
    rw [Run.perform_eq, hbody]
    rfl
  obtain ⟨t', hbody', hjournal⟩ := Run.perform_done_journal host e.config fuel hs.keyed hdone
  obtain rfl : t' = t := congrArg Prod.snd (hbody'.symm.trans hbody)
  have hr := (hs.accounted host context world).moves hs.supply
    ((Run.ticks_follows e.config fuel).moves_to hkeyed hticks (by simp))
  have hm := hr.moves hs.supply hmoves
  have hfinal := hjournal.trans (by rw [hrest, List.append_assoc])
  have htells := Run.Moves.plays hr hs.supply hmoves
  have hends := hleaves.plays_end hm hs.supply (Run.ends_of_body hs.keyed hbody) (by simp)
  rw [hdone]
  refine ⟨rfl, r, m, earlier, reports, _, hticks, hlast, List.pairwise_map.2 r.registry.sorted,
    hmoves, hj, htells.enacted hj, hreported, hfinal, hends.enacted hfinal, fun h hh => ?_,
    fun deed hd => ?_⟩
  · exact (hparted h hh).finished hs.supply (hm.moves hs.supply hleaves) hrest
  · rcases List.mem_append.1 hd with hd | hd
    · exact hcalm deed hd
    · rcases List.mem_cons.1 hd with rfl | hd
      · rfl
      · obtain ⟨h, -, rfl⟩ := List.mem_map.1 hd
        rfl

end Reactor.Executor

/-! ## A host whose hooks fail every socket and ask for stops -/

namespace Reactor.Containing

def handlers : HandlerRules (List Recorder.Entry) Recorder.Endpoint EventKind where
  onEvent record _ event context :=
    { Recorder.hearing record event context with
      requests := [.stop]
      verdict := .cut (.socket .notOpen) }
  onFault record _ fault context :=
    { Recorder.hearingFault record fault context with
      requests := if fault.error = .notOpen then [] else [.stop]
      verdict := .cut (.socket .notOpen) }

def host : Host (List Recorder.Entry) Recorder.Endpoint EventKind Unit :=
  { Halting.host (.error (.kind .timedOut)) with handlers := handlers }

theorem lenient : host.Lenient where
  event v payload link := by cases link <;> trivial
  fault v fault link := by cases link <;> trivial

def ticked :
    Ending RunFailure Exit × Run (List Recorder.Entry) Recorder.Endpoint EventKind Unit :=
  Run.ticks host (Halting.executor .connected).config 1
    (Run.startPolicy host ((Halting.executor .connected).started .empty []))

/-- The first of two sockets could not be opened, so nothing is left to do for it when the selection
fails. It is told of that all the same, and leave is taken of both. -/
theorem execute_contains_selectFailure_upset :
    (Halting.executor .connected).Reachable (List Recorder.Entry) ∧
      (Halting.executor .connected).control.executing = false ∧ host.Lenient ∧
      ((Halting.executor .connected).execute host 1 .empty []).ending = .done () ∧
      ticked.2.registry.values.map (·.isComplete) = [true, false] ∧
      (∃ (m : Run (List Recorder.Entry) Recorder.Endpoint EventKind Unit)
          (reports rest : List (Deed Recorder.Endpoint EventKind)),
        ((Halting.executor .connected).execute host 1 .empty []).journal =
          m.session.journal ++ rest ∧
        m.scene.Enacted host rest
          ((Halting.executor .connected).execute host 1 .empty []).scene ∧
        Reported host (.kind .timedOut) [⟨1⟩, ⟨2⟩] reports ∧ m.Parted host ⟨1⟩ rest ∧
        m.Parted host ⟨2⟩ rest) ∧
      ((Halting.executor .connected).execute host 1 .empty []).world =
        [.told ⟨1⟩ .exception, .told ⟨1⟩ .exception, .told ⟨2⟩ .exception, .closed 1,
          .told ⟨1⟩ .finalize, .told ⟨1⟩ .exception, .told ⟨2⟩ .disconnected,
          .told ⟨2⟩ .exception, .closed 2, .told ⟨2⟩ .finalize, .told ⟨2⟩ .exception] := by
  have he : (Halting.executor .connected).Reachable (List Recorder.Entry) :=
    Halting.executor_reachable _
  have hfails : ((Halting.executor .connected).execute host 1 .empty []).journal.any
      Deed.selectFails = true := by decide +kernel
  have hexit : ticked.1 = .done (.selectFailed (.kind .timedOut)) := by decide +kernel
  have hkeys : ticked.2.registry.keys = [⟨1⟩, ⟨2⟩] := by decide +kernel
  have hvalues : ticked.2.registry.values.map (·.isComplete) = [true, false] := by decide +kernel
  obtain ⟨deed, hmem, hd⟩ := List.any_eq_true.1 hfails
  obtain ⟨interests, error, rfl⟩ := Deed.exists_of_selectFails hd
  obtain ⟨hend, r, m, earlier, reports, rest, hticks, -, -, -, -, -, hreported, hj, henacted,
      hparted, -⟩ :=
    Executor.execute_contains_selectFailure he rfl lenient 1 .empty [] hmem
  have hticked : ticked = (.done (.selectFailed error), r) := hticks
  rw [hticked] at hexit hkeys
  cases hexit
  rw [show r.registry.keys = _ from hkeys] at hreported hparted
  exact ⟨he, rfl, lenient, hend, hvalues, ⟨m, reports, rest, hj, henacted, hreported,
    hparted ⟨1⟩ (by simp), hparted ⟨2⟩ (by simp)⟩, by decide +kernel⟩

end Reactor.Containing
