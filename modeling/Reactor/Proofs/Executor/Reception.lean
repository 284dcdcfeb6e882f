import Reactor.Proofs.Executor.Pipes
import Reactor.Proofs.Run.Reception

/-! Every stream is received exactly: the hooks are told of the messages that the pickers define on
the stream as a whole, in order and once each, wherever the chunks and the ticks cut it. -/

namespace Reactor.Executor

variable {W S H P : Type} {e : Executor S H P}

/-- From any moment of a run at which an operation waits, undisturbed ticks are a stretch of turns
of the socket, and in every such stretch what the hooks are told of is what the decoder makes of the
stream, which is given the whole of it at once: each read cuts off the message that its picker
defines on what the messages before it have left. The rest is kept for the operations that are still
to come, and no byte of it is dropped. -/
theorem execute_receives (he : e.Reachable W) (hidle : e.control.executing = false)
    (host : Host W S H P) (context : ExecutionContext) (world : W) {r : Run W S H P}
    (hr : (Run.startPolicy host (e.started context world)).Moves host r) {σ : Type} [ChunkSource σ]
    (A : host.sockets.Assembling σ) {h : SocketHandle} {d : Descriptor S H} {first : Operation}
    (hd : r.registry.get? h = some d) (hi : A.Is d.socket) (ho : d.operation = some first)
    (hb : d.backlog = none) (hc : d.isComplete = false) :
    (∀ n s, Run.ticks host e.config n r = (.cut .unfinished, s) →
        (∀ c ∈ r.session.context.changes, c.handle ≠ h) → r.Undisturbed h s →
          ∃ turns, r.Passage host h turns s) ∧
      ∀ turns s, r.Passage host h turns s → (∀ t ∈ turns, t.Compliant host) →
        (∀ o ∈ operations host first turns, o.Framed) →
          Run.Reception A h first (A.assembler d.socket) r turns s := by
  have hs := he.sound hidle
  have hk := Run.keyed_of_moves hs.keyed hr
  refine ⟨fun n s hticks hqueue hu => ?_, fun turns s hp ht hf => ?_⟩
  · have ha := (hs.accounted host context world).moves hs.supply hr
    have hissued := ha.lt_nextHandle hs.supply (HandleMap.mem_keys.2 ⟨d, hd⟩)
    exact Run.ticks_passage hk ⟨hissued, hqueue⟩ hticks hu
  · exact hp.reception hd (hk h d hd) hi ho hb hc ht hf

/-- A handler that answers each message with a byte, and then has three more bytes read. -/
def answering : Pipes.Hook where
  rewrite
    | .read frame _ => .read frame (some (.write ⟨[33], false⟩))
    | .write w _ => .write w (some (.read ⟨.fixedLength (.new 3), false⟩))
    | other => other
  completes := []

theorem answering_complies : (Pipes.host answering).Complies := by
  rintro v payload (_ | _ | _) hp
  all_goals
    refine ⟨?_, ?_⟩
    · simp [Visit.askAbout, Pipes.host, Pipes.handlers, answering, PolicyRules.noLimit,
        EventReaction.nothing]
    · rcases payload with _ | _ | _ | _ | _ | _ <;> rfl

theorem answering_frames : (Pipes.host answering).Frames := by
  have hrewrite : ∀ payload o, (answering.rewrite payload).next? = some o → o.Framed := by
    intro payload o ho
    cases payload with
    | read =>
        obtain rfl := Option.some.inj ho
        exact .write _
    | write =>
        obtain rfl := Option.some.inj ho
        exact .read (.fixedLength 3)
    | _ => cases ho
  rintro v payload (_ | _ | _) hp o ho
  · exact hrewrite payload o ho
  · exact hrewrite payload o ho
  · exact hp o ho

/-- The first read looks for a message in angle brackets. -/
def bracketed : Operation :=
  .read ⟨.marker (.new (some [60]) (some [62]) true), false⟩

/-- The bytes of "a<bc>defgh" come in three chunks, with a pause after the first. -/
def chunked : Pipes.Pipe where
  fd := none
  assembler := .empty
  incoming := ⟨[.ok (.data [97, 60, 98] ""), .ok .wouldBlock, .ok (.data [99, 62, 100, 101] ""),
    .ok (.data [102, 103, 104] "")], 0⟩
  portions := []

def chunkedTicks (n : Nat) : Ending RunFailure Exit × Run Pipes.Polls Pipes.Pipe Unit Unit :=
  Run.ticks (Pipes.host answering) .default n (Pipes.start answering chunked bracketed [])

theorem execute_receives_chunked :
    ∃ turns, (Pipes.start answering chunked bracketed []).Passage (Pipes.host answering) ⟨1⟩ turns
        (chunkedTicks 6).2 ∧
      Run.Reception (Pipes.assembling answering) ⟨1⟩ bracketed .empty
        (Pipes.start answering chunked bracketed []) turns (chunkedTicks 6).2 ∧
      announcements ⟨1⟩ (chunkedTicks 6).2.session.journal =
        [.read [60, 98, 99, 62], .write ⟨[33], false⟩, .read [100, 101, 102],
          .write ⟨[33], false⟩] := by
  have he := Pipes.executor_reachable chunked bracketed
  obtain ⟨hticks, hreception⟩ := execute_receives he rfl (Pipes.host answering) .empty []
    .refl (Pipes.assembling answering) (Pipes.start_get? answering chunked bracketed []) trivial
    rfl rfl rfl
  have hend : (chunkedTicks 6).1 = .cut .unfinished := by
    decide +kernel
  have hx : chunkedTicks 6 = (.cut .unfinished, (chunkedTicks 6).2) := by rw [← hend]
  have hm := (Run.ticks_follows .default 6).moves_to (he.sound rfl).keyed hx (by simp)
  have hu : (Pipes.start answering chunked bracketed []).Undisturbed ⟨1⟩ (chunkedTicks 6).2 := by
    refine .of_moves hm ?_
    decide +kernel
  obtain ⟨turns, hp⟩ := hticks 6 _ hx (fun c hc => absurd hc List.not_mem_nil) hu
  have ht : ∀ t ∈ turns, t.Compliant (Pipes.host answering) :=
    fun t ht => answering_complies.compliant (hp.active t ht)
  have hf : ∀ o ∈ operations (Pipes.host answering) bracketed turns, o.Framed := by
    intro o ho
    rcases List.mem_cons.1 ho with rfl | ho
    · exact .read (.marker _ _ _ (.inl rfl))
    · obtain ⟨t, -, hchoice⟩ := List.mem_filterMap.1 ho
      exact answering_frames.turn hchoice
  refine ⟨turns, hp, hreception turns _ hp ht hf, ?_⟩
  decide +kernel

end Reactor.Executor
