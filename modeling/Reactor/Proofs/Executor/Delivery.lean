import Reactor.Proofs.Executor.Pipes
import Reactor.Proofs.Run.Delivery

/-! Every payload is delivered exactly: announced once, offered piece by piece without a gap or an
overlap, and done with when the last of it has been taken. -/

namespace Reactor.Executor

variable {W S H P : Type} {e : Executor S H P}

/-- From any moment of a run at which a write waits, undisturbed ticks are a stretch of turns of the
socket, and in every such stretch in which the hooks comply the write is delivered step by step: it
is announced once; then every call offers what the calls before it have left of the payload that the
hooks left, with their flag; and just when nothing is left the socket goes on with the operation
that they left, or is completed. -/
theorem execute_delivers (he : e.Reachable W) (hidle : e.control.executing = false)
    (host : Host W S H P) (context : ExecutionContext) (world : W) {r : Run W S H P}
    (hr : (Run.startPolicy host (e.started context world)).Moves host r) {h : SocketHandle}
    {d : Descriptor S H} {w : WriteOperation} (hd : r.registry.get? h = some d)
    (ho : d.operation = some (.write w)) (hb : d.backlog = none) (hc : d.isComplete = false) :
    (∀ n s, Run.ticks host e.config n r = (.cut .unfinished, s) →
        (∀ c ∈ r.session.context.changes, c.handle ≠ h) → r.Undisturbed h s →
          ∃ turns, r.Passage host h turns s) ∧
      ∀ turns s, r.Passage host h turns s → (∀ t ∈ turns, t.Compliant host) →
        r.Delivery host h w turns s := by
  have hs := he.sound hidle
  have hk := Run.keyed_of_moves hs.keyed hr
  refine ⟨fun n s hticks hqueue hu => ?_, fun turns s hp ht => ?_⟩
  · have ha := (hs.accounted host context world).moves hs.supply hr
    have hissued := ha.lt_nextHandle hs.supply (HandleMap.mem_keys.2 ⟨d, hd⟩)
    exact Run.ticks_passage hk ⟨hissued, hqueue⟩ hticks hu
  · exact hp.delivery hd (hk h d hd) ho hb hc ht

/-- Two bytes are taken first, and then more than there are left. -/
def portioned : Pipes.Pipe := .new [] [2, 9]

/-- A handler that makes five bytes of every payload, to be followed by a read. -/
def enlarging : Pipes.Hook where
  rewrite
    | .write _ _ => .write ⟨[1, 2, 3, 4, 5], false⟩ (some (.read ⟨.raw .new, false⟩))
    | other => other
  completes := []

theorem enlarging_complies : (Pipes.host enlarging).Complies := by
  rintro v payload (_ | _ | _) hp
  all_goals
    refine ⟨?_, ?_⟩
    · simp [Visit.askAbout, Pipes.host, Pipes.handlers, enlarging, PolicyRules.noLimit,
        EventReaction.nothing]
    · rcases payload with _ | _ | _ | _ | _ | _ <;> rfl

/-- The run of one pipe after so many ticks. -/
def portionedTicks (n : Nat) : Ending RunFailure Exit × Run Pipes.Polls Pipes.Pipe Unit Unit :=
  Run.ticks (Pipes.host enlarging) .default n
    (Pipes.start enlarging portioned (.write ⟨[0], false⟩) [])

theorem execute_delivers_portions :
    ∃ turns, (Pipes.start enlarging portioned (.write ⟨[0], false⟩) []).Passage
        (Pipes.host enlarging) ⟨1⟩ turns (portionedTicks 2).2 ∧
      (Pipes.start enlarging portioned (.write ⟨[0], false⟩) []).Delivery
        (Pipes.host enlarging) ⟨1⟩ ⟨[0], false⟩ turns (portionedTicks 2).2 ∧
      writeRecords ⟨1⟩ (portionedTicks 2).2.session.journal =
        [.announced ⟨[0], false⟩, .offered ⟨[1, 2, 3, 4, 5], false, some 2⟩,
          .offered ⟨[3, 4, 5], false, some 9⟩] := by
  have he := Pipes.executor_reachable portioned (.write ⟨[0], false⟩)
  obtain ⟨hticks, hdelivery⟩ := execute_delivers he rfl (Pipes.host enlarging) .empty []
    .refl (Pipes.start_get? enlarging portioned (.write ⟨[0], false⟩) []) rfl rfl rfl
  have hend : (portionedTicks 2).1 = .cut .unfinished := by
    decide +kernel
  have hx : portionedTicks 2 = (.cut .unfinished, (portionedTicks 2).2) := by rw [← hend]
  have hm := (Run.ticks_follows .default 2).moves_to (he.sound rfl).keyed hx (by simp)
  have hu : (Pipes.start enlarging portioned (.write ⟨[0], false⟩) []).Undisturbed ⟨1⟩
      (portionedTicks 2).2 := by
    refine .of_moves hm ?_
    decide +kernel
  obtain ⟨turns, hp⟩ := hticks 2 _ hx (fun c hc => absurd hc List.not_mem_nil) hu
  have ht : ∀ t ∈ turns, t.Compliant (Pipes.host enlarging) :=
    fun t ht => enlarging_complies.compliant (hp.active t ht)
  refine ⟨turns, hp, hdelivery turns _ hp ht, ?_⟩
  decide +kernel

end Reactor.Executor
