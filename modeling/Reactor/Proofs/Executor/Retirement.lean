import Reactor.Proofs.Executor.Pipes
import Reactor.Proofs.Run.Instants

/-! A socket that has nothing left to do is not served any more, unless the hooks have completed it
when they were told of its connection. -/

namespace Reactor.Executor

variable {W S H P : Type} {e : Executor S H P}

/-- Every run goes through instants, down to the single acts in the work on a socket. Take any of
them at which a socket has nothing left to do, and let no hook take that back. Then the socket has
nothing left to do at any later instant either, and of what is done later no call of it and no event
of its connection or its traffic is about it, except for what was under way when the hooks completed
it as they were told of its connection. If no work on the socket goes on, not even that is left. -/
theorem execute_retires (he : e.Reachable W) (hidle : e.control.executing = false)
    (host : Host W S H P) (hk : host.KeepsCompletion) (context : ExecutionContext) (world : W) :
    (∀ fuel, ∃ last, (Run.startPolicy host (e.started context world)).Instants host last ∧
        last.Ends host (Run.perform host e.config fuel (e.started context world)).1
          (Run.perform host e.config fuel (e.started context world)).2) ∧
      ∀ r, (Run.startPolicy host (e.started context world)).Instants host r →
        ∀ h d, r.registry.get? h = some d → d.isComplete = true →
          (∀ s, r.Instants host s →
            (∀ d', s.registry.get? h = some d' → d'.isComplete = true) ∧
              ∃ deeds, s.session.journal = r.session.journal ++ deeds ∧
                OnlyUnderWay host h r.session.journal deeds) ∧
          ∀ s, r.Moves host s → ∃ deeds, s.session.journal = r.session.journal ++ deeds ∧
            ∀ deed ∈ deeds, ¬ deed.Serves h := by
  have hs := he.sound hidle
  refine ⟨fun fuel => ?_, fun r hr h d hd hc => ?_⟩
  · obtain ⟨last, hm, -, hend⟩ := hs.ends host fuel context world
    exact ⟨last, Run.instants_of_moves hm, hend⟩
  have ha := (hs.accounted host context world).instants hs.supply hr
  have hretired := ha.retired hs.supply hd hc
  refine ⟨fun s hrs => ?_, fun s hrs => hretired.moves hk ha hs.supply hrs⟩
  obtain ⟨hlast, hdeeds⟩ := hretired.instants hk ha hs.supply hrs
  exact ⟨hlast.complete, hdeeds⟩

/-- A handler that completes the socket as soon as it is told of the connection. -/
def curt : Pipes.Hook := ⟨id, [.connected]⟩

theorem curt_keepsCompletion : (Pipes.host curt).KeepsCompletion := by
  rintro v payload (_ | _ | _) hc
  · exact Bool.or_eq_true_iff.2 (.inl hc)
  · exact Bool.or_eq_true_iff.2 (.inl hc)
  · exact hc

/-- A pipe that two bytes come in by, and a run in which it is to be read. -/
def curtStart : Run Pipes.Polls Pipes.Pipe Unit Unit :=
  Pipes.start curt (.new [[97, 98]] []) (.read ⟨.raw .new, false⟩) []

/-- The visit of the pipe when it has been admitted and is going to be read. -/
def curtVisit : Visit Pipes.Polls Pipes.Pipe Unit Unit :=
  ⟨{ Descriptor.new ⟨1⟩ (.new [[97, 98]] []) (.read ⟨.raw .new, false⟩) .empty with
      running := true }, (curtStart.admitted (Pipes.host curt)).session⟩

/-- The visit once the connection has been announced. -/
def curtGreeted : Visit Pipes.Polls Pipes.Pipe Unit Unit :=
  (Visit.ensureConnected (Pipes.host curt) curtVisit).2

/-- The visit once the pipe has been read, and the message announced. -/
def curtRead : Visit Pipes.Polls Pipes.Pipe Unit Unit :=
  ((do Visit.finishRead (Pipes.host curt)
        (← (Visit.readSocket (Pipes.host curt) ⟨.raw .new, false⟩).attempt)) curtGreeted).2

theorem execute_retires_curt :
    (Pipes.executor (.new [[97, 98]] []) (.read ⟨.raw .new, false⟩)).Reachable Pipes.Polls ∧
      (Pipes.host curt).KeepsCompletion ∧
      curtStart.Instants (Pipes.host curt)
        ((curtStart.admitted (Pipes.host curt)).during ⟨1⟩ curtGreeted) ∧
      curtGreeted.descriptor.isComplete = true ∧
      ((curtStart.admitted (Pipes.host curt)).during ⟨1⟩ curtGreeted).Instants (Pipes.host curt)
        ((curtStart.admitted (Pipes.host curt)).during ⟨1⟩ curtRead) ∧
      curtRead.descriptor.isComplete = true ∧
      ∃ deeds, curtRead.session.journal = curtGreeted.session.journal ++ deeds ∧
        deeds.length = 3 ∧
        OnlyUnderWay (Pipes.host curt) ⟨1⟩ curtGreeted.session.journal deeds := by
  have he := Pipes.executor_reachable (.new [[97, 98]] []) (.read ⟨.raw .new, false⟩)
  have hk := curt_keepsCompletion
  have hget : (curtStart.admitted (Pipes.host curt)).registry.get? ⟨1⟩ =
      some curtVisit.descriptor := rfl
  have hgreet : curtVisit.Acts (Pipes.host curt) curtGreeted :=
    Visit.ensureConnected_acts.acts rfl
  have hr : curtStart.Instants (Pipes.host curt)
      ((curtStart.admitted (Pipes.host curt)).during ⟨1⟩ curtGreeted) :=
    .head (.pass .admitted) (Run.instants_of_acts hget hgreet)
  have hable : curtGreeted.Able (Pipes.host curt) := by
    have hdone : (Visit.ensureConnected (Pipes.host curt) curtVisit).1 = .done true := by
      decide +kernel
    exact Visit.ensureConnected_acts.delivers rfl hdone
  have hread : curtGreeted.Acts (Pipes.host curt) curtRead :=
    Step.ActsFrom.acts ((Visit.readSocket_acts ⟨.raw .new, false⟩).bind Visit.finishRead_acts) hable
  have hgot := Run.get?_during hget curtGreeted
  have hsame : ((curtStart.admitted (Pipes.host curt)).during ⟨1⟩ curtGreeted).during ⟨1⟩
      curtRead = (curtStart.admitted (Pipes.host curt)).during ⟨1⟩ curtRead := by
    simp only [Run.during, HandleMap.modify_modify]
  have hs := Run.instants_of_acts hgot hread
  rw [hsame] at hs
  have hc : curtGreeted.descriptor.isComplete = true := by
    decide +kernel
  obtain ⟨-, hretires⟩ := execute_retires he rfl (Pipes.host curt) hk .empty []
  obtain ⟨hlater, -⟩ := hretires _ hr ⟨1⟩ _ hgot hc
  obtain ⟨hstill, deeds, hj, hunder⟩ := hlater _ hs
  have hcount : curtRead.session.journal.length = curtGreeted.session.journal.length + 3 := by
    decide +kernel
  have hlength : curtRead.session.journal = curtGreeted.session.journal ++ deeds := hj
  refine ⟨he, hk, hr, hc, hs, hstill _ (Run.get?_during hget curtRead), deeds, hj, ?_, hunder⟩
  rw [hlength, List.length_append] at hcount
  exact Nat.add_left_cancel hcount

/-- A socket that the hooks complete as they are told of its connection is read all the same, and
its message is announced. -/
theorem curt_serves :
    ((Pipes.executor (.new [[97, 98]] []) (.read ⟨.raw .new, false⟩)).execute (Pipes.host curt) 5
        .empty []).ending = .done () ∧
      ((Pipes.executor (.new [[97, 98]] []) (.read ⟨.raw .new, false⟩)).execute (Pipes.host curt) 5
        .empty []).journal.any (fun
          | .called _ standing (.read _) => standing.complete
          | _ => false) = true ∧
      ((Pipes.executor (.new [[97, 98]] []) (.read ⟨.raw .new, false⟩)).execute (Pipes.host curt) 5
        .empty []).journal.any (fun
          | .raised _ standing (.read _ _) => standing.complete
          | _ => false) = true := by
  decide +kernel

end Reactor.Executor
