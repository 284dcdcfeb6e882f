import Reactor.Proofs.Run.Limit

/-! What becomes of the places of the policy while a socket is worked on and while leave is taken of
it. -/

namespace Reactor

variable {W S H : Type} {host : Host W S H ConstantLimitPolicy}

namespace Session

/-- No place was taken, given back or lost. -/
structure Steady (s s' : Session W S H ConstantLimitPolicy) : Prop where
  policy : s'.policy = s.policy
  observing : s'.observing = s.observing
  lost : lost s'.journal = lost s.journal

/-- This number of places was given back, or else lost. -/
structure Vacates (n : Nat) (s s' : Session W S H ConstantLimitPolicy) : Prop where
  limit : s'.policy.limit = s.policy.limit
  observing : s'.observing = s.observing
  fate : s'.policy.inFlight = s.policy.inFlight - n ∧ lost s'.journal = lost s.journal ∨
    s'.policy.inFlight = s.policy.inFlight ∧ lost s'.journal = lost s.journal + n

variable {s s' s'' : Session W S H ConstantLimitPolicy} {n : Nat}

theorem Steady.refl (s : Session W S H ConstantLimitPolicy) : s.Steady s := ⟨rfl, rfl, rfl⟩

theorem Steady.trans (h : s.Steady s') (h' : s'.Steady s'') : s.Steady s'' :=
  ⟨h'.policy.trans h.policy, h'.observing.trans h.observing, h'.lost.trans h.lost⟩

theorem Vacates.steady (h : s.Vacates n s') (h' : s'.Steady s'') : s.Vacates n s'' := by
  refine ⟨?_, h'.observing.trans h.observing, ?_⟩
  · rw [h'.policy]
    exact h.limit
  · rw [h'.policy, h'.lost]
    exact h.fate

theorem Steady.vacates (h : s.Steady s') (h' : s'.Vacates n s'') : s.Vacates n s'' := by
  refine ⟨?_, h'.observing.trans h.observing, ?_⟩
  · rw [← h.policy]
    exact h'.limit
  · rw [← h.policy, ← h.lost]
    exact h'.fate

/-- A deed of which the hooks do not hear leaves the places alone. -/
theorem steady_note (s : Session W S H ConstantLimitPolicy) (world : W) (stop : Bool)
    {deed : Deed S H} (hh : deed.isHeard = false) (hd : deed.parts = false) :
    s.Steady (({ s with world := world }.stopIf stop).note deed) := by
  have hj : (({ s with world := world }.stopIf stop).note deed).journal =
      s.journal ++ [deed] := by
    simp [note]
  refine ⟨?_, ?_, ?_⟩
  · simp [note]
  · cases stop <;> rfl
  · rw [hj]
    refine lost_append _ ?_ ?_
    · rintro _ ⟨⟩
      exact hh
    · intro deed' hmem
      rw [List.mem_singleton.1 hmem]
      exact hd

end Session

namespace Visit

variable {v v' : Visit W S H ConstantLimitPolicy}

theorem dispatch_session (payload : Payload S) (v : Visit W S H ConstantLimitPolicy) :
    (dispatch host payload v).2.session =
      (hearAll host v.links payload (v.opened fun h st => .raised h st payload)).2.session := by
  rw [dispatch_apply]
  obtain ⟨own, hown⟩ := reattached_eq v.descriptor.handler
    (hearAll host v.links payload (v.opened fun h st => .raised h st payload))
  simp only [hown]
  rfl

/-- Either the policy hears of an event, or a place that should be given back is lost. -/
theorem dispatch_places (hp : host.policy = .constantLimit) (hk : host.handlers.KeepsFinalize)
    (ho : v.session.observing = true) (payload : Payload S) :
    (dispatch host payload v).2.session.policy =
          v.session.policy.told payload.kind v.descriptor.running ∧
        lost (dispatch host payload v).2.session.journal = lost v.session.journal ∨
      (dispatch host payload v).2.session.policy = v.session.policy ∧
        lost (dispatch host payload v).2.session.journal = lost v.session.journal +
          if payload.kind = .finalize ∧ v.descriptor.running = true then 1 else 0 := by
  obtain ⟨links, hl, hlinks⟩ := links_eq ho
  have hpolicy := hearAll_policy hp hk hl payload (v.opened fun h st => .raised h st payload)
  have hlosses := losses_hearAll host v.links payload
    (v.opened fun h st => .raised h st payload)
  have hbegun : losses (v.opened fun h st => .raised h st payload).session.journal =
      ⟨lost v.session.journal, v.descriptor.running && payload.kind = .finalize⟩ :=
    losses_append _ _
  rw [← hlinks] at hpolicy
  rw [hbegun] at hlosses
  rw [dispatch_session]
  rcases hx : hearAll host v.links payload (v.opened fun h st => .raised h st payload)
    with ⟨p | e | _, t⟩
  all_goals rw [hx] at hpolicy hlosses
  · refine .inl ⟨hpolicy, ?_⟩
    rw [lost, hlosses]
  · refine .inr ⟨hpolicy, ?_⟩
    rw [lost, hlosses]
    simp [Losses.missed, and_comm]
  · refine .inr ⟨hpolicy, ?_⟩
    rw [lost, hlosses]
    simp [Losses.missed, and_comm]

theorem dispatch_observing (payload : Payload S) (v : Visit W S H ConstantLimitPolicy) :
    (dispatch host payload v).2.session.observing = v.session.observing := by
  obtain ⟨hearings, -, hadv, -⟩ := dispatch_advances host payload v
  exact hadv.observing

theorem dispatch_steady (hp : host.policy = .constantLimit) (hk : host.handlers.KeepsFinalize)
    (ho : v.session.observing = true) {payload : Payload S} (hne : payload.kind ≠ .finalize) :
    v.session.Steady (dispatch host payload v).2.session := by
  have hno : ¬ (payload.kind = .finalize ∧ v.descriptor.running = true) := fun h => hne h.1
  have htold : v.session.policy.told payload.kind v.descriptor.running = v.session.policy :=
    if_neg hno
  rcases dispatch_places hp hk ho payload with ⟨hpolicy, hlost⟩ | ⟨hpolicy, hlost⟩
  · exact ⟨hpolicy.trans htold, dispatch_observing payload v, hlost⟩
  · rw [if_neg hno] at hlost
    exact ⟨hpolicy, dispatch_observing payload v, hlost⟩

theorem dispatch_vacates (hp : host.policy = .constantLimit) (hk : host.handlers.KeepsFinalize)
    (ho : v.session.observing = true) {payload : Payload S} (hf : payload.kind = .finalize) :
    v.session.Vacates (if v.descriptor.running then 1 else 0)
      (dispatch host payload v).2.session := by
  rcases dispatch_places hp hk ho payload with ⟨hpolicy, hlost⟩ | ⟨hpolicy, hlost⟩
  · rw [hf] at hpolicy
    refine ⟨?_, dispatch_observing payload v, .inl ⟨?_, hlost⟩⟩
    · rw [hpolicy, ConstantLimitPolicy.told]
      split <;> rfl
    · rw [hpolicy, ConstantLimitPolicy.told]
      cases v.descriptor.running <;> rfl
  · simp only [hf, true_and] at hlost
    refine ⟨?_, dispatch_observing payload v, .inr ⟨?_, hlost⟩⟩
    · rw [hpolicy]
    · rw [hpolicy]

theorem hearFaultAll_policy (hp : host.policy = .constantLimit) (error : SocketError)
    (event : Option EventKind) (links : List (Link H)) :
    ∀ v : Visit W S H ConstantLimitPolicy,
      (hearFaultAll host error event links v).2.session.policy = v.session.policy := by
  induction links with
  | nil => exact fun _ => rfl
  | cons link links ih =>
      intro v
      have hone : (hearFault host link error event v).2.session.policy = v.session.policy := by
        cases link with
        | own handler | shared handler => rfl
        | policy =>
            simp only [hearFault, askAboutFault, hp]
            rfl
      rw [hearFaultAll]
      rcases hx : hearFault host link error event v with ⟨_ | e | _, t⟩
      all_goals rw [hx] at hone
      · rw [Step.bind_of_done hx, ih t]
        exact hone
      · rw [Step.bind_of_cut hx]
        exact hone
      · rw [Step.bind_of_crashed hx]
        exact hone

/-- Faults are of no account to the policy. -/
theorem report_steady (hp : host.policy = .constantLimit) (error : SocketError)
    (event : Option EventKind) (v : Visit W S H ConstantLimitPolicy) :
    v.session.Steady (dispatchFault host error event v).2.session := by
  obtain ⟨hearings, hh, hadv, -⟩ := dispatchFault_advances host error event v
  refine ⟨?_, hadv.observing, ?_⟩
  · rw [dispatchFault_apply]
    obtain ⟨own, hown⟩ := reattached_eq v.descriptor.handler
      (hearFaultAll host error event v.links (v.opened fun h st => .reported h st error event))
    simp only [hown]
    exact hearFaultAll_policy hp error event v.links _
  · rw [hadv.journal]
    refine lost_append _ ?_ ?_
    · rintro deed ⟨⟩
      rfl
    · intro deed hd
      rcases List.mem_cons.1 hd with rfl | hd
      · rfl
      · have := hh deed hd
        cases deed with
        | heard => rfl
        | _ => exact this.elim

theorem Quiet.steady (h : v.Quiet host v') : v.session.Steady v'.session := by
  cases h with
  | rework => exact .refl _
  | call => exact v.session.steady_note _ _ rfl rfl
  | dismiss => exact v.session.steady_note _ false rfl rfl

theorem Move.steady (hp : host.policy = .constantLimit) (hk : host.handlers.KeepsFinalize)
    (ho : v.session.observing = true) (h : v.Move host v') : v.session.Steady v'.session := by
  cases h with
  | quiet h => exact h.steady
  | announce hc =>
      have hne : (Payload.connected : Payload S).kind ≠ .finalize := by simp [Payload.kind]
      exact dispatch_steady (v := { v with descriptor := v.descriptor.mapMetadata fun m =>
        { m with connectFinish := true } }) hp hk ho hne
  | raise payload hkind _ =>
      refine dispatch_steady hp hk ho fun hf => ?_
      rw [hf] at hkind
      cases hkind
  | report error event => exact report_steady hp error event v

/-- Work on a socket takes no place and gives none back. -/
theorem Moves.steady (hp : host.policy = .constantLimit) (hk : host.handlers.KeepsFinalize)
    (ho : v.session.observing = true) (h : v.Moves host v') : v.session.Steady v'.session := by
  induction h with
  | refl => exact .refl _
  | tail _ hmove ih => exact ih.trans (hmove.steady hp hk (ih.observing.trans ho))

theorem notify_steady (hp : host.policy = .constantLimit) (hk : host.handlers.KeepsFinalize)
    (ho : v.session.observing = true) {payload : Payload S} (hne : payload.kind ≠ .finalize) :
    v.session.Steady (notify host payload v).2.session := by
  have hd := dispatch_steady hp hk ho hne
  rcases notify_apply host payload v with ⟨error, -, heq⟩ | ⟨ending, -, heq⟩
  · rw [heq]
    dsimp only
    exact hd.trans (report_steady hp error (some payload.kind) _)
  · rw [heq]
    exact hd

theorem notify_vacates (hp : host.policy = .constantLimit) (hk : host.handlers.KeepsFinalize)
    (ho : v.session.observing = true) {payload : Payload S} (hf : payload.kind = .finalize) :
    v.session.Vacates (if v.descriptor.running then 1 else 0)
      (notify host payload v).2.session := by
  have hd := dispatch_vacates hp hk ho hf
  rcases notify_apply host payload v with ⟨error, -, heq⟩ | ⟨ending, -, heq⟩
  · rw [heq]
    dsimp only
    exact hd.steady (report_steady hp error (some payload.kind) _)
  · rw [heq]
    exact hd

/-- A socket of which leave is taken gives back its place, or loses it. -/
theorem takeLeave_vacates (hp : host.policy = .constantLimit) (hk : host.handlers.KeepsFinalize)
    (ho : v.session.observing = true) (hc : (takeLeave host v).1 ≠ .crashed) :
    v.session.Vacates (if v.descriptor.running then 1 else 0)
      (takeLeave host v).2.session := by
  have hfarewell : v.session.Steady (v.farewell host).2.session ∧
      (v.farewell host).2.descriptor.running = v.descriptor.running := by
    unfold farewell
    split
    · obtain ⟨-, -, -, m, own, hd⟩ := notify_deeds host .disconnected v
      exact ⟨notify_steady hp hk ho (by simp [Payload.kind]), by rw [hd]⟩
    · exact ⟨.refl _, rfl⟩
  have hclosed : v.session.Steady ((v.farewell host).2.closed host).session :=
    hfarewell.1.trans ((v.farewell host).2.session.steady_note _ false rfl rfl)
  have hfinale := notify_vacates (v := (v.farewell host).2.closed host) hp hk
    (hclosed.observing.trans ho) (by rfl : (Payload.finalize : Payload S).kind = .finalize)
  have hrunning : ((v.farewell host).2.closed host).descriptor.running = v.descriptor.running :=
    hfarewell.2
  rw [hrunning] at hfinale
  have hdone : (v.farewell host).1 ≠ .crashed := by
    intro hcrash
    rw [takeLeave_of_crashed hcrash] at hc
    exact hc hcrash
  rw [takeLeave_apply hdone, finale]
  exact hclosed.vacates hfinale

end Visit

end Reactor
