import Reactor.Proofs.Run.Turns

/-! What becomes of a client that a listener yields. The hooks may take it; one that they leave is
closed on behalf of the listener, but only if all of them have had their say. The listener waits for
its next client in any case, unless it has failed itself. -/

namespace Reactor

variable {W S H P : Type} {host : Host W S H P}

/-! ## Clients that nobody has taken -/

def Deed.dismisses (h : SocketHandle) : Deed S H → Bool
  | .dismissed k => k = h
  | _ => false

/-- How many clients of the listener have been closed on its behalf. -/
def dismissals (h : SocketHandle) (deeds : List (Deed S H)) : Nat :=
  deeds.countP (Deed.dismisses h)

section Dismissals

variable {h : SocketHandle} {deeds more : List (Deed S H)}

@[simp] theorem dismissals_append :
    dismissals h (deeds ++ more) = dismissals h deeds + dismissals h more := by
  simp [dismissals]

theorem dismissals_eq_zero (hd : ∀ deed ∈ deeds, deed.dismisses h = false) :
    dismissals h deeds = 0 := by
  rw [dismissals, List.countP_eq_zero]
  intro deed hmem
  simp [hd deed hmem]

@[simp] theorem dismissals_dismissed : dismissals h [(.dismissed h : Deed S H)] = 1 := by
  simp [dismissals, Deed.dismisses]

end Dismissals

theorem Deed.IsGreeting.dismisses {h k : SocketHandle} {deed : Deed S H} (hd : deed.IsGreeting k) :
    deed.dismisses h = false := by
  cases deed with
  | dismissed => exact hd.elim
  | _ => rfl

theorem Deed.IsHearing.dismisses {h k : SocketHandle} {deed : Deed S H}
    (hd : deed.IsHearing host k) : deed.dismisses h = false := by
  cases deed with
  | heard => rfl
  | _ => exact hd.elim

/-- A listener with a read operation of which nothing has been collected yet. -/
structure Descriptor.Listens (d : Descriptor S H) (r : ReadOperation) (picker : Picker) : Prop where
  operation : d.operation = some (.read { r with picker := picker.reset })
  previous : d.previous = none

theorem Descriptor.listens_restartRead {d : Descriptor S H} {r : ReadOperation} {picker : Picker}
    (hd : d.operation = some (.read { r with picker := picker })) :
    d.restartRead.Listens r picker :=
  ⟨by rw [restartRead, hd]; rfl, rfl⟩

namespace Visit

/-- The payload as the hooks leave it, also if the last one that is reached has failed. -/
def leftBy (host : Host W S H P) : List (Link H) → Payload S → Visit W S H P → Payload S
  | [], payload, _ => payload
  | link :: links, payload, v =>
      match hear host link payload v with
      | (.done payload, v) => leftBy host links payload v
      | _ => (v.askAbout host payload link).2.payload

/-- The client that nobody has taken when the hooks have been told of it. -/
def untaken? (host : Host W S H P) (client : S) (address : String) (v : Visit W S H P) : Option S :=
  let payload := .accept (some client) address
  (leftBy host v.links payload (v.opened fun h st => .raised h st payload)).client?

theorem hearAll_left {links : List (Link H)} :
    ∀ {payload left : Payload S} {v t : Visit W S H P},
      hearAll host links payload v = (.done left, t) → leftBy host links payload v = left := by
  induction links with
  | nil =>
      rintro payload left v t ⟨⟩
      rfl
  | cons link links ih =>
      intro payload left v t hx
      obtain ⟨payload', u, hfirst, hrest⟩ := Step.done_of_bind hx
      rw [leftBy, hfirst]
      exact ih hrest

/-- A dispatch that succeeds yields what all of the hooks have left. -/
theorem dispatch_left {payload left : Payload S} {v t : Visit W S H P}
    (hx : dispatch host payload v = (.done left, t)) :
    leftBy host v.links payload (v.opened fun h st => .raised h st payload) = left := by
  rw [dispatch_apply] at hx
  dsimp only at hx
  rcases hh : hearAll host v.links payload (v.opened fun h st => .raised h st payload)
    with ⟨p | (e | e) | _, u⟩
  all_goals
    rw [hh] at hx
    have hend := congrArg Prod.fst hx
    simp only [dispatchEnding] at hend
  · split at hend
    · cases hend
    · cases hend
      exact hearAll_left hh
  all_goals cases hend

/-- The visit once its listener has an unused picker. -/
def rearmed (v : Visit W S H P) : Visit W S H P :=
  { v with descriptor := v.descriptor.restartRead }

/-! ## The welcome of a client -/

section Welcome

variable {client : S} {address : String} {w t : Visit W S H P}

/-- A client that the hooks have left is closed. -/
theorem welcome_of_left {payload : Payload S} {untaken : S}
    (hd : dispatch host (.accept (some client) address) w = (.done payload, t))
    (hl : payload.client? = some untaken) :
    welcome host client address w = dismiss host untaken t.rearmed := by
  rw [welcome, Step.bind_of_done (Step.attempt_of_done hd), modifyDescriptor_bind]
  simp only [hl]
  rfl

theorem welcome_of_taken {payload : Payload S}
    (hd : dispatch host (.accept (some client) address) w = (.done payload, t))
    (hl : payload.client? = none) : welcome host client address w = (.done (), t.rearmed) := by
  rw [welcome, Step.bind_of_done (Step.attempt_of_done hd), modifyDescriptor_bind]
  simp only [hl]
  rfl

/-- If the hooks are cut short, the client is let go of as they have left it. -/
theorem welcome_of_cut {interrupt : Interrupt}
    (hd : dispatch host (.accept (some client) address) w = (.cut interrupt, t)) :
    welcome host client address w = (.cut interrupt, t.rearmed) := by
  rw [welcome, Step.bind_of_done (Step.attempt_of_cut hd)]
  rfl

theorem welcome_of_crashed
    (hd : dispatch host (.accept (some client) address) w = (.crashed, t)) :
    welcome host client address w = (.crashed, t) := by
  rw [welcome, Step.bind_of_crashed (Step.attempt_of_crashed hd)]

end Welcome

section Settling

variable {work : Step (Visit W S H P) Interrupt Unit} {v t : Visit W S H P}

/-- What is done about a failure depends on how the work has ended alone. -/
theorem settle_congr {work' : Step (Visit W S H P) Interrupt Unit} {v' : Visit W S H P}
    (hx : work v = work' v') : settle host work v = settle host work' v' := by
  show Step.bind work.attempt _ v = Step.bind work'.attempt _ v'
  simp only [Step.bind, Step.attempt, hx]

theorem settle_of_done (hx : work v = (.done (), t)) : settle host work v = (.done (), t) := by
  rw [settle, Step.bind_of_done (Step.attempt_of_done hx)]
  rfl

theorem settle_of_halt {halt : Halt} (hx : work v = (.cut (.halt halt), t)) :
    settle host work v = (.cut halt, t) := by
  rw [settle, Step.bind_of_done (Step.attempt_of_cut hx)]
  rfl

theorem settle_of_fault {error : SocketError} {event : Option EventKind}
    (hx : work v = (.cut (.fault error event), t)) :
    settle host work v = fail host error event t := by
  rw [settle, Step.bind_of_done (Step.attempt_of_cut hx)]

theorem settle_of_crashed (hx : work v = (.crashed, t)) : settle host work v = (.crashed, t) := by
  rw [settle, Step.bind_of_crashed (Step.attempt_of_crashed hx)]

end Settling

/-- The session after the report of a failure is that of the dispatch. -/
theorem session_fail (host : Host W S H P) (error : SocketError) (event : Option EventKind)
    (v : Visit W S H P) :
    (fail host error event v).2.session = (dispatchFault host error event v).2.session := by
  rw [fail]
  rcases hd : dispatchFault host error event v with ⟨_ | halt | _, t⟩
  · rw [Step.bind_of_done (Step.attempt_of_done hd)]
    rfl
  · rw [Step.bind_of_done (Step.attempt_of_cut hd)]
    rfl
  · rw [Step.bind_of_crashed (Step.attempt_of_crashed hd)]

/-! ## A turn of a listener -/

section Turn

variable {v u w : Visit W S H P} {r : ReadOperation} {client : S} {address : String}

/-- A turn to read that yields a client is the welcome of it. -/
theorem serveRead_accepted (hc : ensureConnected host v = (.done true, u))
    (ho : u.descriptor.operation = some (.read r))
    (hr : readSocket host r u.tried = (.done (.accepted client address), w)) :
    serveRead host v = welcome host client address w := by
  rw [serveRead, Step.bind_of_done hc, if_pos rfl, getDescriptor_bind, ho]
  dsimp only
  rw [markIo_bind, Step.bind_of_done (Step.attempt_of_done hr)]
  rfl

/-- Nothing is dismissed before the hooks have been told of the client. -/
theorem journal_accepted (hc : ensureConnected host v = (.done true, u))
    (hr : readSocket host r u.tried = (.done (.accepted client address), w)) :
    w.descriptor.handle = v.descriptor.handle ∧ ∃ deeds : List (Deed S H),
      w.session.journal = v.session.journal ++ deeds ∧
        ∀ h, dismissals h deeds = 0 := by
  have hgreeted := ensureConnected_done hc
  obtain ⟨deeds, hadv, hgreeting⟩ := hgreeted.advances
  have hw : (readSocket host r u.tried).2 = w := congrArg Prod.snd hr
  have hj := journal_readSocket host r u.tried
  have hu : u.tried.session.journal = v.session.journal ++ deeds := hadv.journal
  rw [hw, hu, List.append_assoc] at hj
  refine ⟨?_, _, hj, fun h => ?_⟩
  · rw [← hw, ← hgreeted.handle]
    rfl
  · rw [dismissals_append, dismissals_eq_zero fun deed hd => (hgreeting deed hd).dismisses]
    rfl

theorem operation_accepted
    (hr : readSocket host r u.tried = (.done (.accepted client address), w)) :
    ∃ picker, w.descriptor.operation = some (.read { r with picker := picker }) := by
  have hw : (readSocket host r u.tried).2 = w := congrArg Prod.snd hr
  rw [← hw]
  exact ⟨_, rfl⟩

/-- Nor is anything dismissed while they are told of it. -/
theorem journal_dispatch (host : Host W S H P) (payload : Payload S) (v : Visit W S H P) :
    ∃ deeds : List (Deed S H),
      (dispatch host payload v).2.session.journal = v.session.journal ++ deeds ∧
        ∀ h, dismissals h deeds = 0 := by
  obtain ⟨hearings, hh, hadv, -⟩ := dispatch_advances host payload v
  refine ⟨_, hadv.journal, fun h => dismissals_eq_zero fun deed hd => ?_⟩
  rcases List.mem_cons.1 hd with rfl | hd
  · rfl
  · exact (hh deed hd).dismisses

theorem journal_fail (host : Host W S H P) (error : SocketError) (event : Option EventKind)
    (v : Visit W S H P) : ∃ deeds : List (Deed S H),
      (fail host error event v).2.session.journal = v.session.journal ++ deeds ∧
        ∀ h, dismissals h deeds = 0 := by
  obtain ⟨hearings, hh, hadv, -⟩ := dispatchFault_advances host error event v
  rw [session_fail]
  refine ⟨_, hadv.journal, fun h => dismissals_eq_zero fun deed hd => ?_⟩
  rcases List.mem_cons.1 hd with rfl | hd
  · rfl
  · exact (hh deed hd).dismisses

/-- Telling the hooks of the client changes neither the listener nor its operation. -/
theorem descriptor_dispatch (host : Host W S H P) (payload : Payload S) (v : Visit W S H P) :
    (dispatch host payload v).2.descriptor.handle = v.descriptor.handle ∧
      (dispatch host payload v).2.descriptor.operation = v.descriptor.operation := by
  obtain ⟨-, -, -, m, own, hd⟩ := dispatch_advances host payload v
  rw [hd]
  exact ⟨rfl, rfl⟩

end Turn

/-- What has become of the client that a listener has yielded, once its turn is over: `told` is how
the hooks were told of it, `left` the client if none of them has taken it. -/
structure Offered (host : Host W S H P) (told : Ending Interrupt (Payload S) × Visit W S H P)
    (left : Option S) (r : ReadOperation) (v : Visit W S H P)
    (x : Ending Halt Unit × Visit W S H P) : Prop where
  /-- If the hooks have had their say, what they have left is closed, and closed once. -/
  closes : ∀ payload, told.1 = .done payload →
    (∃ deeds, x.2.session.journal = v.session.journal ++ deeds ∧
      dismissals v.descriptor.handle deeds = left.toList.length) ∧
    ∀ untaken, left = some untaken →
      x.2.session.world = (host.sockets.close told.2.session.world untaken).2
  /-- If they were cut short, nothing is closed, whether one of them has taken the client or not. -/
  abandons : (∀ payload, told.1 ≠ .done payload) →
    ∃ deeds, x.2.session.journal = v.session.journal ++ deeds ∧
      dismissals v.descriptor.handle deeds = 0
  /-- Unless the listener has failed, it waits for the next client. -/
  listens : told.1 ≠ .crashed → (∀ error event, told.1 ≠ .cut (.fault error event)) →
    ∃ picker, told.2.descriptor.operation = some (.read { r with picker := picker }) ∧
      x.2.descriptor.Listens r picker

section Offered

variable {client : S} {address : String} {left : Option S} {r : ReadOperation} {v w t : Visit W S H P}
  {deeds : List (Deed S H)}

theorem offered_of_done {payload : Payload S} {picker : Picker}
    (hd : dispatch host (.accept (some client) address) w = (.done payload, t))
    (ho : t.descriptor.operation = some (.read { r with picker := picker }))
    (hh : t.descriptor.handle = v.descriptor.handle)
    (hj : t.session.journal = v.session.journal ++ deeds)
    (hnone : dismissals v.descriptor.handle deeds = 0) :
    Offered host (.done payload, t) payload.client? r v
      (settle host (welcome host client address) w) := by
  have hlistens : t.rearmed.descriptor.Listens r picker := Descriptor.listens_restartRead ho
  refine ⟨fun _ _ => ?_, fun hnot => absurd rfl (hnot payload), fun _ _ => ⟨picker, ho, ?_⟩⟩
  · rcases hl : payload.client? with _ | untaken
    · rw [settle_of_done (welcome_of_taken hd hl)]
      exact ⟨⟨deeds, hj, hnone⟩, fun _ hsome => by cases hsome⟩
    · rw [settle_of_done (welcome_of_left hd hl)]
      refine ⟨⟨deeds ++ [.dismissed v.descriptor.handle], ?_, ?_⟩, ?_⟩
      · show t.session.journal ++ [.dismissed t.descriptor.handle] = _
        rw [hh, hj, List.append_assoc]
      · rw [dismissals_append, hnone, dismissals_dismissed]
        rfl
      · rintro _ ⟨⟩
        rfl
  · rcases hl : payload.client? with _ | untaken
    · rw [settle_of_done (welcome_of_taken hd hl)]
      exact hlistens
    · rw [settle_of_done (welcome_of_left hd hl)]
      exact hlistens

theorem offered_of_halt {halt : Halt} {picker : Picker}
    (hd : dispatch host (.accept (some client) address) w = (.cut (.halt halt), t))
    (ho : t.descriptor.operation = some (.read { r with picker := picker }))
    (hj : t.session.journal = v.session.journal ++ deeds)
    (hnone : dismissals v.descriptor.handle deeds = 0) :
    Offered host (.cut (.halt halt), t) left r v
      (settle host (welcome host client address) w) := by
  rw [settle_of_halt (welcome_of_cut hd)]
  exact ⟨fun _ hdone => (by cases hdone), fun _ => ⟨deeds, hj, hnone⟩,
    fun _ _ => ⟨picker, ho, Descriptor.listens_restartRead ho⟩⟩

theorem offered_of_fault {error : SocketError} {event : Option EventKind}
    (hd : dispatch host (.accept (some client) address) w = (.cut (.fault error event), t))
    (hj : t.session.journal = v.session.journal ++ deeds)
    (hnone : dismissals v.descriptor.handle deeds = 0) :
    Offered host (.cut (.fault error event), t) left r v
      (settle host (welcome host client address) w) := by
  obtain ⟨more, hm, hnone'⟩ := journal_fail host error event t.rearmed
  rw [settle_of_fault (welcome_of_cut hd)]
  refine ⟨fun _ hdone => (by cases hdone), fun _ => ⟨deeds ++ more, ?_, ?_⟩,
    fun _ hnot => absurd rfl (hnot error event)⟩
  · have ht : t.rearmed.session.journal = v.session.journal ++ deeds := hj
    rw [hm, ht, List.append_assoc]
  · rw [dismissals_append, hnone, hnone']

theorem offered_of_crashed
    (hd : dispatch host (.accept (some client) address) w = (.crashed, t))
    (hj : t.session.journal = v.session.journal ++ deeds)
    (hnone : dismissals v.descriptor.handle deeds = 0) :
    Offered host (.crashed, t) left r v (settle host (welcome host client address) w) := by
  rw [settle_of_crashed (welcome_of_crashed hd)]
  exact ⟨fun _ hdone => (by cases hdone), fun _ => ⟨deeds, hj, hnone⟩,
    fun hne => absurd rfl hne⟩

end Offered

end Visit

end Reactor
