import Reactor.Proofs.Executor.Recorder
import Reactor.Proofs.Run.Partings
import Reactor.Proofs.Run.Stopping

/-! A hook that asks for a stop is heeded: nobody is served after it, and the run soon ends well,
having taken leave of every socket that it holds. -/

namespace Reactor.Executor

variable {W S H P : Type} {e : Executor S H P} {host : Host W S H P}

section Journal

variable (he : e.control.executing = false) (fuel : Nat) (context : ExecutionContext) (world : W)

include he

/-- Nobody is served after a hook has asked for a stop. -/
theorem execute_heeds_stop : (e.execute host fuel context world).journal.Pairwise
    fun deed later => deed.asksStop = true → later.service? = none := by
  obtain ⟨deeds, hj, hheeded, -⟩ := Run.perform_orders host e.config fuel
    (r := e.started context world) ⟨rfl, rfl⟩
  have hstart : (Run.startPolicy host (e.started context world)).session.journal =
      [.policyStarted] := rfl
  rw [journal_execute he, hj, hstart]
  refine List.pairwise_cons.2 ⟨?_, hheeded.imp fun h hasks => h ?_⟩
  · intro later _ hasks
    cases hasks
  · simp [Deed.callsOff, hasks]

/-- If a hook has asked for a stop, and nothing fails the run, it ends well with one more tick. -/
theorem execute_done_of_stop
    (hstop : (e.execute host fuel context world).journal.any Deed.asksStop = true)
    (hcalm : ∀ deed ∈ (e.execute host (fuel + 1) context world).journal, deed.fatal? = none)
    (hcrash : (e.execute host (fuel + 1) context world).ending ≠ .crashed) :
    (Run.perform host e.config (fuel + 1) (e.started context world)).1 = .done () := by
  let start := Run.startPolicy host (e.started context world)
  have hactive : start.session.Active := ⟨rfl, rfl⟩
  rw [journal_execute he] at hstop hcalm
  rw [ending_execute he] at hcrash
  have hends : (Run.ticks host e.config (fuel + 1) start).1 ≠ .cut .unfinished := by
    obtain ⟨deeds, hj, -, -⟩ := Run.body_orders host e.config fuel hactive
    obtain ⟨tail, htail, hj', -⟩ := Run.perform_apply host e.config fuel (e.started context world)
    refine Run.ticks_end e.config hactive hj ?_
    rw [hj', hj, List.any_append, List.any_append, Bool.or_eq_true, Bool.or_eq_true] at hstop
    rcases hstop with (hstart | hdeeds) | hend
    · cases hstart
    · exact hdeeds
    · obtain ⟨deed, hd, hasks⟩ := List.any_eq_true.1 hend
      simp [(Deed.callsOff_eq_false.1 (htail deed hd).2).1] at hasks
  obtain ⟨deeds, hj, -, hsurf⟩ :=
    Run.perform_orders host e.config (fuel + 1) (r := e.started context world) ⟨rfl, rfl⟩
  have hnone : fatals deeds = [] := by
    refine fatals_eq_nil.2 fun deed hd => hcalm deed ?_
    rw [hj]
    exact List.mem_append_right _ hd
  obtain ⟨-, -, -, hbody⟩ :=
    Run.perform_apply host e.config (fuel + 1) (e.started context world)
  have hfinishes := Run.body_finishes hends
  rw [← hbody] at hfinishes
  rcases hx : (Run.perform host e.config (fuel + 1) (e.started context world)).1
    with _ | (text | _) | _
  all_goals rw [hx] at hfinishes hcrash hsurf
  · have hfatal := hsurf (by simp)
    rw [hnone] at hfatal
    cases hfatal
  · exact absurd rfl hfinishes
  · exact absurd rfl hcrash

end Journal

/-- What a run that ends well does after its ticks: leave is taken of whatever it holds then, and
nothing of it is closed again; what else is queued is only closed. All of it is recorded as it is
done. -/
theorem Sound.parted (hs : e.Sound) {fuel : Nat} {context : ExecutionContext} {world : W}
    (hdone : (Run.perform host e.config fuel (e.started context world)).1 = .done ()) :
    ∃ exit r deeds, Run.ticks host e.config fuel (Run.startPolicy host (e.started context world)) =
        (.done exit, r) ∧
      (Run.perform host e.config fuel (e.started context world)).2.session.journal =
        r.session.journal ++ deeds ∧
      r.scene.Enacted host deeds
        (Run.perform host e.config fuel (e.started context world)).2.scene ∧
      (∀ h, r.Holds exit h → r.Parted host h deeds) ∧
      ∀ h ∈ enrolling r.session.context.changes, ¬ r.Holds exit h →
        partings h deeds = [.closed] := by
  have hkeyed : (Run.startPolicy host (e.started context world)).registry.Keyed := hs.keyed
  obtain ⟨last, hbody, hj⟩ := Run.perform_done_journal host e.config fuel hs.keyed hdone
  obtain ⟨exit, r, hticks, hwind⟩ := Step.done_of_bind hbody
  have hended : r.Ended exit := (Run.ticks_follows e.config fuel).delivers_to hkeyed hticks
  have haccounted := hs.accounted host context world
  have hr := haccounted.moves hs.supply
    ((Run.ticks_follows e.config fuel).moves_to hkeyed hticks (by simp))
  have hlast := haccounted.moves hs.supply
    ((Run.body_follows host e.config fuel).moves_to hkeyed hbody (by simp))
  obtain ⟨deeds, hdeeds, -⟩ := Run.windDown_idle host exit hr.executing
  rw [hwind] at hdeeds
  have hfinal := (hj.trans (by rw [hdeeds])).trans (List.append_assoc _ _ _)
  have hplays := Run.Moves.plays_end hr hs.supply
    ((Run.windDown_follows exit).moves_to hended hwind (by simp))
    (Run.ends_of_body hs.keyed hbody) (by simp)
  refine ⟨exit, r, _, hticks, hfinal, hplays.enacted hfinal, fun h hh => ?_, fun h hq hh => ?_⟩
  · obtain ⟨deeds', hj', hparted⟩ := Run.windDown_parts hended
      (fun hexit => Run.ticks_drained hkeyed (by rw [hticks, hexit])) hh hwind
    obtain rfl : deeds' = deeds := List.append_cancel_left (hj'.symm.trans hdeeds)
    exact hparted.finished hs.supply hlast hdeeds
  · obtain ⟨error, rfl⟩ := Run.selectFailed_of_not_holds hq hh
    obtain ⟨deeds', hadv, hparted⟩ :=
      Run.windDown_unapplied hended (fun hmem => hh (.inl hmem)) hwind
    obtain rfl : deeds' = deeds := List.append_cancel_left (hadv.journal.symm.trans hdeeds)
    have hlasts : h ∈ enrolling last.session.context.changes := by
      rw [hadv.changes, enrolling_append]
      exact List.mem_append_left _ hq
    rw [partings_append, hparted, hlast.partings_unapplied hs.supply hlasts]
    rfl

end Reactor.Executor

/-! ## A host whose hooks ask for a stop -/

namespace Reactor.Halting

/-- A hook asks for a stop at one kind of event of the second socket, and registers an open socket
when one could not be opened. -/
def handlers : HandlerRules (List Recorder.Entry) Recorder.Endpoint EventKind where
  onEvent record kind event context :=
    { Recorder.hearing record event context with
      requests := if event.handle = ⟨2⟩ ∧ event.kind = kind then [.stop] else [] }
  onFault record _ fault context :=
    { Recorder.hearingFault record fault context with
      requests :=
        if fault.error = .notOpen then [.register ⟨3, true⟩ Sample.write .empty] else [] }

def host (result : Except IoError Readiness) :
    Host (List Recorder.Entry) Recorder.Endpoint EventKind Unit where
  sockets := Recorder.sockets
  handlers := handlers
  policy := .noLimit
  select record _ _ := ⟨result, record, false⟩

/-- An executor with a socket that can not be opened, for want of an address, and one that is
open. -/
def executor (kind : EventKind) : Executor Recorder.Endpoint EventKind Unit :=
  Recorder.executor ⟨1, false⟩ ⟨2, true⟩ kind

theorem executor_reachable (kind : EventKind) :
    (executor kind).Reachable (List Recorder.Entry) :=
  Recorder.executor_reachable _ _ _

end Reactor.Halting

namespace Reactor.Executor

variable {W S H P : Type} {e : Executor S H P}

/-- A stop is clean. After a hook has asked for one, no socket is called and nobody is told of a
connection or of traffic any more. If no hook fails the run, one more tick is enough for it to end
well; and of every socket that is registered when its ticks are over, or whose registration is
queued then and the ticks have not ended by a failed selection, leave is taken in full: the socket
is told of its disconnection if it is open or was announced, then it is closed, and then it has its
last event. After a failed selection a socket whose registration is queued is closed, and nothing
else. What the journal has of this was done, call by call, from the scene in which the ticks have
ended. -/
theorem execute_stops (he : e.Reachable W) (hidle : e.control.executing = false)
    (host : Host W S H P) (fuel : Nat) (context : ExecutionContext) (world : W) :
    (e.execute host fuel context world).journal.Pairwise
        (fun deed later => deed.asksStop = true → later.service? = none) ∧
      ((e.execute host fuel context world).journal.any Deed.asksStop = true →
        (∀ deed ∈ (e.execute host (fuel + 1) context world).journal, deed.fatal? = none) →
        (e.execute host (fuel + 1) context world).ending ≠ .crashed →
          (e.execute host (fuel + 1) context world).ending = .done () ∧
          ∃ exit r deeds, Run.ticks host e.config (fuel + 1)
              (Run.startPolicy host (e.started context world)) = (.done exit, r) ∧
            (e.execute host (fuel + 1) context world).journal = r.session.journal ++ deeds ∧
            r.scene.Enacted host deeds (e.execute host (fuel + 1) context world).scene ∧
            (∀ h, r.Holds exit h → r.Parted host h deeds) ∧
            ∀ h ∈ enrolling r.session.context.changes, ¬ r.Holds exit h →
              partings h deeds = [.closed]) := by
  refine ⟨execute_heeds_stop hidle fuel context world, fun hstop hcalm hcrash => ?_⟩
  have hdone := execute_done_of_stop hidle fuel context world hstop hcalm hcrash
  rw [ending_execute hidle, journal_execute hidle, scene_execute hidle, hdone]
  exact ⟨rfl, (he.sound hidle).parted hdone⟩

/-- A selector that finds the second socket ready. -/
abbrev halted : Host (List Recorder.Entry) Recorder.Endpoint EventKind Unit :=
  Halting.host (.ok ⟨[], [⟨2⟩]⟩)

/-- The ticks of a run in which a hook asks for a stop when it is told of a connection. -/
def haltedTicks :
    Ending RunFailure Exit × Run (List Recorder.Entry) Recorder.Endpoint EventKind Unit :=
  Run.ticks halted (Halting.executor .connected).config 2
    (Run.startPolicy halted ((Halting.executor .connected).started .empty []))

/-- A socket whose registration is queued when the ticks are over is taken leave of, too. -/
theorem execute_stops_connected :
    (Halting.executor .connected).Reachable (List Recorder.Entry) ∧
      ((Halting.executor .connected).execute halted 1 .empty []).journal.any Deed.asksStop = true ∧
      (∀ deed ∈ ((Halting.executor .connected).execute halted 2 .empty []).journal,
        deed.fatal? = none) ∧
      ((Halting.executor .connected).execute halted 2 .empty []).ending = .done () ∧
      haltedTicks.1 = .done .stopped ∧ ⟨3⟩ ∈ enrolling haltedTicks.2.session.context.changes ∧
      (∃ deeds, haltedTicks.2.scene.Enacted halted deeds
          ((Halting.executor .connected).execute halted 2 .empty []).scene ∧
        haltedTicks.2.Parted halted ⟨3⟩ deeds) ∧
      ((Halting.executor .connected).execute halted 2 .empty []).world.filter
          (Recorder.Entry.isAbout 3) =
        [.told ⟨3⟩ .disconnected, .closed 3, .told ⟨3⟩ .finalize] := by
  have he : (Halting.executor .connected).Reachable (List Recorder.Entry) :=
    Halting.executor_reachable _
  have hstop : ((Halting.executor .connected).execute halted 1 .empty []).journal.any
      Deed.asksStop = true := by decide +kernel
  have hcalm : ∀ deed ∈ ((Halting.executor .connected).execute halted 2 .empty []).journal,
      deed.fatal? = none := fatals_eq_nil.1 (by decide +kernel)
  have hcrash : ((Halting.executor .connected).execute halted 2 .empty []).ending ≠ .crashed := by
    decide +kernel
  have hexit : haltedTicks.1 = .done .stopped := by decide +kernel
  have hqueued : ⟨3⟩ ∈ enrolling haltedTicks.2.session.context.changes := by decide +kernel
  have hrecord : ((Halting.executor .connected).execute halted 2 .empty []).world.filter
      (Recorder.Entry.isAbout 3) = [.told ⟨3⟩ .disconnected, .closed 3, .told ⟨3⟩ .finalize] := by
    decide +kernel
  obtain ⟨hdone, exit, r, deeds, hticks, -, henacted, hparted, -⟩ :=
    (execute_stops he rfl halted 1 .empty []).2 hstop hcalm hcrash
  have hends : haltedTicks = (.done exit, r) := hticks
  rw [hends] at hexit hqueued ⊢
  cases hexit
  exact ⟨he, hstop, hcalm, hdone, rfl, hqueued,
    ⟨deeds, henacted, hparted ⟨3⟩ (.inr ⟨by simp, hqueued⟩)⟩, hrecord⟩

abbrev failing : Host (List Recorder.Entry) Recorder.Endpoint EventKind Unit :=
  Halting.host (.error (.kind .timedOut))

def failingTicks :
    Ending RunFailure Exit × Run (List Recorder.Entry) Recorder.Endpoint EventKind Unit :=
  Run.ticks failing (Halting.executor .disconnected).config 1
    (Run.startPolicy failing ((Halting.executor .disconnected).started .empty []))

/-- A failed selection leaves the queue as it is. A socket that was registered in the same tick is
closed without a word, though the run is asked to stop and ends well. -/
theorem execute_stop_unapplied :
    (Halting.executor .disconnected).Reachable (List Recorder.Entry) ∧
      ((Halting.executor .disconnected).execute failing 1 .empty []).journal.any
        Deed.asksStop = true ∧
      (∀ deed ∈ ((Halting.executor .disconnected).execute failing 1 .empty []).journal,
        deed.fatal? = none) ∧
      ((Halting.executor .disconnected).execute failing 1 .empty []).ending = .done () ∧
      failingTicks.1 = .done (.selectFailed (.kind .timedOut)) ∧
      ⟨3⟩ ∈ enrolling failingTicks.2.session.context.changes ∧
      partings ⟨3⟩ ((Halting.executor .disconnected).execute failing 1 .empty []).journal =
        [.closed] ∧
      ((Halting.executor .disconnected).execute failing 1 .empty []).world.filter
        (Recorder.Entry.isAbout 3) = [.closed 3] := by
  refine ⟨Halting.executor_reachable _, by decide +kernel, fatals_eq_nil.1 (by decide +kernel),
    by decide +kernel, by decide +kernel, by decide +kernel, by decide +kernel, by decide +kernel⟩

end Reactor.Executor
