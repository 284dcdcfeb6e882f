import Reactor.Proofs.Executor.Lifecycle
import Reactor.Proofs.Executor.Stop
import Reactor.Proofs.Executor.Teardown
import Reactor.Proofs.Run.Enrolment

/-! Which of the sockets that hooks register take part in the run: those that are registered before
nothing is left to do, and no others. -/

namespace Reactor.Executor

variable {W S H P : Type} {e : Executor S H P} {host : Host W S H P} {fuel : Nat}
  {context : ExecutionContext} {world : W}

/-- A socket of which the hooks have not heard in a run that ends well has never been registered. -/
theorem Sound.unregistered (hs : e.Sound)
    (hdone : (Run.perform host e.config fuel (e.started context world)).1 = .done ())
    {h : SocketHandle} (hh : notices h
      (Run.perform host e.config fuel (e.started context world)).2.session.journal = []) :
    ¬ (Run.startPolicy host (e.started context world)).Registered host e.config h := by
  intro hreg
  have hlast := hs.finalized hdone hreg
  rw [hh] at hlast
  cases hlast

theorem notices_of_concerning {h : SocketHandle} {journal : List (Deed S H)}
    (hc : concerning h journal = [.closed h]) : notices h journal = [] := by
  have hsame : notices h journal = notices h (concerning h journal) := by
    rw [notices, notices, concerning, List.filterMap_filter]
    refine List.filterMap_congr fun deed _ => ?_
    cases deed <;> simp [Deed.notice?, Deed.handle?]
  rw [hsame, hc]
  rfl

theorem concerning_closed (h : SocketHandle) (handles : List SocketHandle) :
    concerning h (handles.map .closed : List (Deed S H)) =
      List.replicate (handles.count h) (.closed h) := by
  induction handles with
  | nil => rfl
  | cons k rest ih =>
      rw [List.map_cons, concerning, List.filter_cons, ← concerning, ih, List.count_cons]
      by_cases hk : k = h
      · simp [hk, Deed.handle?, List.replicate_succ]
      · simp [hk, Deed.handle?]

/-- What hooks ask for while leave is taken of the last sockets comes too late. -/
theorem Sound.forgotten (hs : e.Sound) {r last : Run W S H P}
    (hr : (Run.startPolicy host (e.started context world)).Moves host r)
    (hpart : Run.part host r.leavingOff = (.done (), last)) {h : SocketHandle}
    (hh : Run.Handed r.session last.session h) :
    concerning h (last.session.journal ++ .policyFinished ::
      (enrolling last.session.context.changes).map .closed) = [.closed h] := by
  have hkeyed : (Run.startPolicy host (e.started context world)).registry.Keyed := hs.keyed
  have hleft : (Run.startPolicy host (e.started context world)).Moves host r.leavingOff :=
    hr.tail .leavingOff
  have hserves := Run.part_serves (Run.keyed_of_moves hkeyed hleft) hpart
  have hmoves : (Run.startPolicy host (e.started context world)).Moves host last :=
    hleft.trans (Relation.ReflTransGen.mono (fun _ _ => .served) _ _ hserves)
  have haccounted := (hs.accounted host context world).moves hs.supply hmoves
  obtain ⟨deeds, hadv⟩ := Run.advances_of_serves hserves
  have hqueued := Run.mem_enrolling_of_handed hadv hh
  have hacquainted : (Run.startPolicy host (e.started context world)).Acquainted := by
    intro deed hd k hk
    obtain rfl := List.mem_singleton.1 hd
    cases hk
  have hone := haccounted.total_le_one hs.supply h
  have hpos := List.count_pos_iff.2 hqueued
  have hcount : (enrolling last.session.context.changes).count h = 1 := by omega
  rw [concerning_append, (hacquainted.moves hkeyed hmoves).concerning_queued haccounted hs.supply
    hqueued, List.nil_append]
  show concerning h ((enrolling last.session.context.changes).map .closed) = _
  rw [concerning_closed, hcount]
  rfl

/-- The sockets of a run are those that it began with and those whose handles it has given out. -/
theorem Sound.owns_iff (hs : e.Sound) {r : Run W S H P}
    (hr : (Run.startPolicy host (e.started context world)).Moves host r) (h : SocketHandle) :
    e.Owns r.session.journal h ↔ h ∈ e.registry.keys ∨
      Run.Handed (Run.startPolicy host (e.started context world)).session r.session h := by
  have haccounted := (hs.accounted host context world).moves hs.supply hr
  unfold Owns Run.Handed
  rw [haccounted.supply]
  rfl

/-- A run that ends well, is not asked to stop, and of which no selection fails, takes leave of what
is left when its ticks are over, and closes what has been registered meanwhile. -/
theorem Sound.drained (hs : e.Sound)
    (hdone : (Run.perform host e.config fuel (e.started context world)).1 = .done ())
    (hstop : (Run.perform host e.config fuel
      (e.started context world)).2.session.context.control.stopRequested = false)
    (hselect : ∀ deed ∈ (Run.perform host e.config fuel
      (e.started context world)).2.session.journal, deed.selectFails = false) :
    ∃ r last, Run.ticks host e.config fuel (Run.startPolicy host (e.started context world)) =
        (.done .drained, r) ∧
      (Run.startPolicy host (e.started context world)).Moves host r ∧
      Run.part host r.leavingOff = (.done (), last) ∧
      (Run.perform host e.config fuel (e.started context world)).2.session.journal =
        last.session.journal ++ .policyFinished ::
          (enrolling last.session.context.changes).map .closed := by
  have hkeyed : (Run.startPolicy host (e.started context world)).registry.Keyed := hs.keyed
  have hactive : (e.started context world).session.Active := ⟨rfl, rfl⟩
  obtain ⟨r, hticks⟩ := Run.perform_drained hs.keyed hactive hdone hstop hselect
  obtain ⟨last, hbody, hj⟩ := Run.perform_done_journal host e.config fuel hs.keyed hdone
  rw [Run.body, Step.bind_of_done hticks, Run.windDown_drained] at hbody
  exact ⟨r, last, hticks, (Run.ticks_follows e.config fuel).moves_to hkeyed hticks (by simp),
    hbody, hj⟩

/-- A run that ends well, is not asked to stop, and of which no selection fails, ticks until nothing
is left to do. Whatever its hooks have registered by then is queued when some tick has ended, and is
in the registry when the next one begins. What they register later, while leave is taken of sockets
that were left behind with nothing to do, never gets there: it is closed, and nothing else is done
with it. If no socket was left behind, nothing is registered later. -/
theorem execute_enrols (he : e.Reachable W) (hidle : e.control.executing = false)
    (host : Host W S H P) (fuel : Nat) (context : ExecutionContext) (world : W)
    (hdone : (e.execute host fuel context world).ending = .done ())
    (hstop : (Run.perform host e.config fuel
      (e.started context world)).2.session.context.control.stopRequested = false)
    (hselect : ∀ deed ∈ (e.execute host fuel context world).journal, deed.selectFails = false) :
    ∃ r deeds, Run.ticks host e.config fuel (Run.startPolicy host (e.started context world)) =
        (.done .drained, r) ∧
      (e.execute host fuel context world).journal = r.session.journal ++ deeds ∧
      (∀ h, e.Owns r.session.journal h → h ∈ e.registry.keys ∨
        Run.Enrolled host e.config (Run.startPolicy host (e.started context world)) fuel h) ∧
      (∀ h, e.Owns (e.execute host fuel context world).journal h → ¬ e.Owns r.session.journal h →
        ¬ (Run.startPolicy host (e.started context world)).Registered host e.config h ∧
          concerning h (e.execute host fuel context world).journal = [.closed h]) ∧
      (r.registry = .empty → requested deeds = []) := by
  have hs := he.sound hidle
  have hkeyed : (Run.startPolicy host (e.started context world)).registry.Keyed := hs.keyed
  rw [ending_execute hidle] at hdone
  replace hdone := done_of_outcome hdone
  rw [journal_execute hidle] at hselect ⊢
  obtain ⟨r, last, hticks, hr, hpart, hj⟩ := hs.drained hdone hstop hselect
  have hleft := hr.tail .leavingOff
  have hserves := Run.part_serves (Run.keyed_of_moves hkeyed hleft) hpart
  have hlast : (Run.startPolicy host (e.started context world)).Moves host last :=
    hleft.trans (Relation.ReflTransGen.mono (fun _ _ => .served) _ _ hserves)
  obtain ⟨made, hadv⟩ := Run.advances_of_serves hserves
  have hmade : last.session.journal = r.session.journal ++ made := hadv.journal
  have htail : requested (.policyFinished :: (enrolling last.session.context.changes).map .closed :
      List (Deed S H)) = [] := by
    rw [Run.requested_finished, Run.requested_closed]
  refine ⟨r, made ++ .policyFinished :: (enrolling last.session.context.changes).map .closed,
    hticks, ?_, fun h howns => ?_, fun h howns hlate => ?_, fun hempty => ?_⟩
  · rw [hj, hmade, List.append_assoc]
  · exact ((hs.owns_iff hr h).1 howns).imp_right fun hh => Run.ticks_enrol hkeyed hticks (.inr hh)
  · have hhanded : Run.Handed r.session last.session h := by
      unfold Owns at howns
      rw [hj, requested_append, htail, List.append_nil, ← Owns, hs.owns_iff hlast] at howns
      rw [hs.owns_iff hr] at hlate
      have hgiven := howns.resolve_left fun hmem => hlate (.inl hmem)
      exact ⟨Nat.le_of_not_lt fun hlt => hlate (.inr ⟨hgiven.1, hlt⟩), hgiven.2⟩
    have hclosed := hs.forgotten hr hpart hhanded
    rw [← hj] at hclosed
    exact ⟨hs.unregistered hdone (notices_of_concerning hclosed), hclosed⟩
  · have hempty' : r.leavingOff.registry = .empty := hempty
    rw [Run.part_empty hempty'] at hpart
    cases hpart
    have hnone : made = [] := List.self_eq_append_right.1 hmade
    rw [hnone, List.nil_append, htail]

/-- Two sockets, and a hook that registers a third at the last event of the last one. -/
def renewing : Executor Unit Sample.Hook Unit :=
  Sample.executor PolicyRules.noLimit ()
    (Sample.on ⟨2⟩ .finalize 1 (.done ()))

def renewingTicks : Ending RunFailure Exit × Run Unit Unit Sample.Hook Unit :=
  Run.ticks (Sample.host .noLimit) renewing.config 5
    (Run.startPolicy (Sample.host .noLimit) (renewing.started .empty ()))

/-- A socket that is registered in a tick, after all others have gone, takes part. -/
theorem execute_enrols_renewing :
    renewing.Reachable Unit ∧ renewing.control.executing = false ∧
      (renewing.execute (Sample.host .noLimit) 5 .empty ()).ending = .done () ∧
      (Run.perform (Sample.host .noLimit) renewing.config 5
        (renewing.started .empty ())).2.session.context.control.stopRequested = false ∧
      (∀ deed ∈ (renewing.execute (Sample.host .noLimit) 5 .empty ()).journal,
        deed.selectFails = false) ∧
      Run.Enrolled (Sample.host .noLimit) renewing.config
        (Run.startPolicy (Sample.host .noLimit) (renewing.started .empty ())) 5 ⟨3⟩ := by
  have he : renewing.Reachable Unit := Sample.executor_reachable _ _ _
  have hdone : (renewing.execute (Sample.host .noLimit) 5 .empty ()).ending = .done () := by
    decide +kernel
  have hstop : (Run.perform (Sample.host .noLimit) renewing.config 5
      (renewing.started .empty ())).2.session.context.control.stopRequested = false := by
    decide +kernel
  have hselect : ∀ deed ∈ (renewing.execute (Sample.host .noLimit) 5 .empty ()).journal,
      deed.selectFails = false := by
    decide +kernel
  obtain ⟨r, deeds, hticks, -, henrolled, -, -⟩ :=
    execute_enrols he rfl (Sample.host .noLimit) 5 .empty () hdone hstop hselect
  have howns : renewing.Owns renewingTicks.2.session.journal ⟨3⟩ := by decide +kernel
  have hr : renewingTicks = (.done .drained, r) := hticks
  rw [hr] at howns
  exact ⟨he, rfl, hdone, hstop, hselect, (henrolled ⟨3⟩ howns).resolve_left (by decide +kernel)⟩

end Reactor.Executor

/-! ## A host whose hook registers a socket too late -/

namespace Reactor.Reconnecting

/-- The hook of the first socket gives it up as soon as it is connected, and registers another one
when it has been disconnected. -/
def handlers : HandlerRules Unit Unit Unit where
  onEvent world _ event context :=
    { EventReaction.nothing world event context with
      requests :=
        if event.handle ≠ ⟨1⟩ then []
        else match event.kind with
          | .connected => [.deregister ⟨1⟩]
          | .disconnected => [.register () Sample.write .empty]
          | _ => [] }
  onFault world _ _ context := .nothing world context

/-- Sockets that never have anything to read. -/
def sockets : SocketRules Unit Unit :=
  { Sample.sockets with
    read := fun world socket picker _ _ =>
      (⟨.done (.pending ⟨⟨[], ""⟩⟩), socket, world, false⟩, picker) }

def host : Host Unit Unit Unit Unit where
  sockets := sockets
  handlers := handlers
  policy := .noLimit
  select := pollingSelector Sample.poll

def idle : Executor Unit Unit Unit where
  config := .default
  registry := .empty
  handlers := []
  admission := ⟨(), false⟩
  control := .idle
  changes := []
  nextHandle := ⟨1⟩

/-- An executor with a socket that waits for something to read. -/
def executor : Executor Unit Unit Unit :=
  (idle.register () (.read ⟨.raw .new, false⟩) .empty).2.addHandler ()

theorem executor_reachable : executor.Reachable Unit := by
  have hnew : Executor.new .default ⟨(), false⟩ ⟨1⟩ = .ok idle := rfl
  exact .addHandler (.register (.new hnew) () _ .empty) ()

/-- The run ends well, is not asked to stop, and no selection fails. All the same the socket that
its hook has registered is never in the registry: the hooks do not hear of it, and it is closed. -/
theorem reconnection_forgotten :
    (executor.execute host 5 .empty ()).ending = .done () ∧
      (Run.perform host executor.config 5
        (executor.started .empty ())).2.session.context.control.stopRequested = false ∧
      (∀ deed ∈ (executor.execute host 5 .empty ()).journal, deed.selectFails = false) ∧
      executor.Owns (executor.execute host 5 .empty ()).journal ⟨2⟩ ∧
      ¬ (Run.startPolicy host (executor.started .empty ())).Registered host executor.config ⟨2⟩ ∧
      notices ⟨2⟩ (executor.execute host 5 .empty ()).journal = [] ∧
      closings ⟨2⟩ (executor.execute host 5 .empty ()).journal = 1 := by
  have hs : executor.Sound := executor_reachable.sound rfl
  have hdone : (Run.perform host executor.config 5 (executor.started .empty ())).1 = .done () := by
    decide +kernel
  have hunheard : notices ⟨2⟩ (executor.execute host 5 .empty ()).journal = [] := by
    decide +kernel
  refine ⟨by decide +kernel, by decide +kernel, by decide +kernel, by decide +kernel,
    hs.unregistered hdone ?_, hunheard, by decide +kernel⟩
  rw [← Executor.journal_execute rfl]
  exact hunheard

end Reactor.Reconnecting
