import Reactor.Proofs.Run.Traffic

/-! The reception of a stream. In every stretch of a run the hooks are told of exactly the messages
that a decoder finds in the stream, which is given all of it at once. -/

namespace Reactor

variable {W S H P σ : Type} [ChunkSource σ] {host : Host W S H P} {h : SocketHandle}

/-- The operations of a stretch of a run: the one with which it begins, and then those that the
hooks have chosen. -/
def operations (host : Host W S H P) (first : Operation) (turns : List (Turn W S H P)) :
    List Operation :=
  first :: turns.filterMap (Turn.choice? host)

/-- The stream of a socket in a stretch of a run: what its assembler has kept at the beginning, and
then what it pulls in the turns. -/
def streamOf (A : host.sockets.Assembling σ) (kept : FrameAssembler)
    (turns : List (Turn W S H P)) : Bytes :=
  kept.unhandled ++ turns.flatMap (·.received A)

theorem operations_snoc (first : Operation) (turns : List (Turn W S H P)) (t : Turn W S H P) :
    operations host first (turns ++ [t]) =
      operations host first turns ++ (t.choice? host).toList := by
  simp only [operations, List.filterMap_append, List.cons_append]
  congr 2

namespace Run

/-- In the stretch the hooks were told of exactly what the decoder makes of the operations, up to
those that are still to come, and of the stream, up to the rest. -/
def Decodes (A : host.sockets.Assembling σ) (h : SocketHandle) (first : Operation)
    (kept : FrameAssembler) (r : Run W S H P) (turns : List (Turn W S H P)) (s : Run W S H P)
    (upcoming : List Operation) (rest : Bytes) : Prop :=
  ∃ deeds served, s.session.journal = r.session.journal ++ deeds ∧
    operations host first turns = served ++ upcoming ∧
    decode served (streamOf A kept turns) = some (announcements h deeds, rest)

/-- How far the reception of a stream has come in a stretch of a run. -/
inductive Reception (A : host.sockets.Assembling σ) (h : SocketHandle) (first : Operation)
    (kept : FrameAssembler) (r : Run W S H P) (turns : List (Turn W S H P)) (s : Run W S H P) :
    Prop where
  /-- The socket stands before the operations that are still to come, and no byte of the rest is
  lost. -/
  | going {d : Descriptor S H} {upcoming : List Operation} {rest : Bytes}
      (hd : s.registry.get? h = some d) (hh : d.handle = h) (hi : A.Is d.socket)
      (hc : d.isComplete = false) (ha : d.Awaits A upcoming rest)
      (hr : Decodes A h first kept r turns s upcoming rest)
  /-- The socket has been completed, and the rest is left over. -/
  | completed {early late : List (Turn W S H P)} {m : Run W S H P} {d : Descriptor S H}
      {upcoming : List Operation} {rest : Bytes} (hp : Passage host h r early m)
      (hq : Passage host h m late s) (ht : turns = early ++ late)
      (hd : m.registry.get? h = some d) (hc : d.isComplete = true)
      (ha : (A.assembler d.socket).unhandled = rest)
      (hr : Decodes A h first kept r early m upcoming rest)

section Passage

variable {A : host.sockets.Assembling σ} {first : Operation} {kept : FrameAssembler}
  {r s t : Run W S H P} {turns : List (Turn W S H P)} {upcoming : List Operation} {rest : Bytes}
  {d : Descriptor S H}

/-- What leaves the socket alone tells its hooks nothing. -/
theorem Decodes.aside (hr : Decodes A h first kept r turns s upcoming rest)
    (ha : s.Bypasses h t) : Decodes A h first kept r turns t upcoming rest := by
  obtain ⟨deeds, served, hj, hops, hdecode⟩ := hr
  obtain ⟨later, hlater, hidle⟩ := ha.idle
  refine ⟨deeds ++ later, served, ?_, hops, ?_⟩
  · rw [hlater, hj, List.append_assoc]
  · rw [announcements_append, announcements_eq_nil fun deed hd => Deed.not_transfer (hidle deed hd),
      List.append_nil]
    exact hdecode

/-- A turn goes on where the decoder has come to. -/
theorem Decodes.turn {turn : Turn W S H P} {v : Visit W S H P}
    (hr : Decodes A turn.before.descriptor.handle first kept r turns s upcoming rest)
    (hf : ∀ o ∈ operations host first turns, o.Framed)
    (hbefore : turn.before.session = s.session) (hafter : t.session = v.session)
    (hs : turn.Serves A upcoming rest v) : ∃ upcoming' rest',
      Decodes A turn.before.descriptor.handle first kept r (turns ++ [turn]) t upcoming' rest' ∧
        v.descriptor.Proceeds A upcoming' rest' := by
  obtain ⟨deeds, served, hj, hops, hdecode⟩ := hr
  obtain ⟨more, upcoming', rest', later, hlater, hchosen, hserved, -, -, hproceeds⟩ := hs
  refine ⟨upcoming', rest', ⟨deeds ++ later, served ++ more, ?_, ?_, ?_⟩, hproceeds⟩
  · rw [hafter, hlater, hbefore, hj, List.append_assoc]
  · rw [operations_snoc, hops, List.append_assoc, hchosen, List.append_assoc]
  · have hall : streamOf A kept (turns ++ [turn]) = streamOf A kept turns ++ turn.received A := by
      simp [streamOf]
    have hframed : ∀ o ∈ served, o.Framed := fun o ho =>
      hf o (hops ▸ List.mem_append_left _ ho)
    rw [hall, announcements_append]
    exact decode_append hserved (decode_append_stream hframed _ hdecode)

/-- In every stretch of a run the reception has come to one of its stages, if all operations frame
messages and the hooks neither complete the socket at its connection or at a write nor make another
event of a write. -/
theorem Passage.reception (hp : Passage host h r turns s) (hd : r.registry.get? h = some d)
    (hh : d.handle = h) (hi : A.Is d.socket) (ho : d.operation = some first)
    (hb : d.backlog = none) (hc : d.isComplete = false) (hk : ∀ t ∈ turns, t.Compliant host)
    (hf : ∀ o ∈ operations host first turns, o.Framed) :
    Reception A h first (A.assembler d.socket) r turns s := by
  induction hp with
  | start =>
      have hawaits : d.Awaits A [first] (A.assembler d.socket).unhandled := by
        cases hf first List.mem_cons_self with
        | read hp => exact .reading ho hb (.unused hp rfl) rfl
        | write w => exact .writing ho hb rfl
      refine .going hd hh hi hc hawaits ⟨[], [], (List.append_nil _).symm, rfl, ?_⟩
      simp [streamOf, decode, announcements]
  | @turn turns s t d' hp duty hd' hc' hx hblame ih =>
      rw [operations_snoc] at hf
      have hsub := fun o ho => hf o (List.mem_append_left _ ho)
      have hrec := ih (fun turn hturn => hk turn (List.mem_append_left _ hturn)) hsub
      obtain ⟨v, hv, hafter, hsession⟩ := visit_done hd' hx
      cases hrec with
      | completed hfirst hq ht hd hc ha hr =>
          subst ht
          exact .completed hfirst (hq.turn duty hd' hc' hx hblame) (List.append_assoc _ _ _)
            hd hc ha hr
      | @going d₀ upcoming rest hd hh hi hc hawaits hr =>
          obtain rfl : d₀ = d' := Option.some.inj (hd.symm.trans hd')
          subst hh
          have hserves : (⟨duty, ⟨d₀, s.session⟩⟩ : Turn W S H P).Serves A upcoming rest v :=
            Turn.serves hv (hsession ▸ hblame) (hk _ (by simp)) hc hi hawaits
              fun o ho => hf o (by simp [ho])
          obtain ⟨hhandle, hiv⟩ : v.descriptor.handle = d₀.handle ∧ A.Is v.descriptor.socket := by
            obtain ⟨-, -, -, -, -, -, -, hhandle, hiv, -⟩ := hserves
            exact ⟨hhandle, hiv⟩
          obtain ⟨upcoming', rest', hr', ⟨hcv, hawaits'⟩ | ⟨hcv, hleft⟩⟩ :=
            hr.turn hsub rfl hsession hserves
          · exact .going hafter hhandle hiv hcv hawaits' hr'
          · exact .completed (hp.turn duty hd' hc' hx hblame) .start (List.append_nil _).symm
              hafter hcv hleft hr'
  | @aside turns s t hp ha ih =>
      have hrec := ih hk hf
      cases hrec with
      | completed hfirst hq ht hd hc ha' hr => exact .completed hfirst (hq.aside ha) ht hd hc ha' hr
      | going hd hh hi hc hawaits hr =>
          obtain ⟨d', hd', running, postponed, rfl, -⟩ := ha.kept _ hd hc
          exact .going hd' hh hi hc (hawaits.of_same rfl rfl rfl) (hr.aside ha)

end Passage

end Run

end Reactor
