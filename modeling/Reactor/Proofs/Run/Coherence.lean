import Reactor.Proofs.Run.Order

/-! The parts of a descriptor agree with each other, whatever is done with it and however that ends.
-/

namespace Reactor

variable {W S H P : Type} {host : Host W S H P}

namespace Descriptor

/-- The parts of the descriptor agree with each other: only with an operation there is something
left to do; nobody takes part and is held back; a backlog is what is left of the payload of a write
in progress, on an established connection; and what has been collected of a message belongs to a
read. -/
structure Coherent (d : Descriptor S H) : Prop where
  idle : d.operation = none → d.isComplete = true
  admitted : d.running = true → d.postponed = false
  backlog : ∀ b, d.backlog = some b → d.isComplete = false ∧ d.running = true ∧
    d.metadata.connectFinish = true ∧ ∃ w, d.operation = some (.write w) ∧ b.data ≠ [] ∧
      b.data <:+ w.data ∧ b.outOfBand = w.outOfBand
  previous : d.isComplete = false → d.previous ≠ none → ∃ r, d.operation = some (.read r)

/-- The descriptor is at work on an operation, and has no backlog. Nothing depends on its metadata,
which the hooks may change. -/
structure Engaged (d : Descriptor S H) : Prop where
  running : d.running = true
  admitted : d.postponed = false
  occupied : d.operation ≠ none
  unladen : d.backlog = none
  previous : d.previous ≠ none → ∃ r, d.operation = some (.read r)

structure Receiving (d : Descriptor S H) : Prop extends d.Engaged where
  reads : ∃ r, d.operation = some (.read r)

/-- The descriptor is at work on a write, on an established connection. -/
structure Sending (d : Descriptor S H) : Prop extends d.Engaged where
  writes : ∃ w, d.operation = some (.write w)
  connected : d.metadata.connectFinish = true

/-- The descriptor is at work on this very write, and is to go on with it. -/
structure Committed (w : WriteOperation) (d : Descriptor S H) : Prop extends d.Engaged where
  writes : d.operation = some (.write w)
  connected : d.metadata.connectFinish = true
  active : d.isComplete = false

/-- The descriptor is committed to a write, of which this backlog is left. -/
def Owes (b : WriteBacklog) (d : Descriptor S H) : Prop :=
  ∃ w, d.Committed w ∧ b.data <:+ w.data ∧ b.outOfBand = w.outOfBand

/-- The descriptors differ in the socket, in the handler, and in the metadata apart from the mark of
an established connection. -/
structure Alike (d d' : Descriptor S H) : Prop where
  operation : d'.operation = d.operation
  running : d'.running = d.running
  postponed : d'.postponed = d.postponed
  previous : d'.previous = d.previous
  backlog : d'.backlog = d.backlog
  connectFinish : d'.metadata.connectFinish = d.metadata.connectFinish

/-- The descriptors are alike, and as much is left to do. -/
structure Akin (d d' : Descriptor S H) : Prop extends d.Alike d' where
  complete : d'.isComplete = d.isComplete

section Facts

variable {d d' : Descriptor S H} {w : WriteOperation}

theorem Engaged.coherent (h : d.Engaged) : d.Coherent where
  idle hnone := absurd hnone h.occupied
  admitted _ := h.admitted
  backlog b hb := by
    rw [h.unladen] at hb
    cases hb
  previous _ := h.previous

/-- While a payload is written nothing is collected. -/
theorem Sending.previous_eq_none (h : d.Sending) : d.previous = none := by
  by_contra hsome
  obtain ⟨r, hr⟩ := h.previous hsome
  obtain ⟨w, hw⟩ := h.writes
  rw [hr] at hw
  cases hw

/-- What is left of the payload becomes the backlog. -/
theorem Committed.coherent_backlog (h : d.Committed w) {rest : Bytes} (hne : rest ≠ [])
    (hs : rest <:+ w.data) (next : Option Operation) :
    { d with backlog := some ⟨rest, w.outOfBand, next⟩ : Descriptor S H }.Coherent where
  idle hnone := absurd hnone h.occupied
  admitted _ := h.admitted
  backlog b hb := by
    obtain rfl := Option.some.inj hb
    exact ⟨h.active, h.running, h.connected, w, h.writes, hne, hs, rfl⟩
  previous _ := h.previous

/-- A descriptor with something left to do that takes part is at work on it, or has a backlog. -/
theorem Coherent.engaged (h : d.Coherent) (hc : d.isComplete = false) (hr : d.running = true)
    (hb : d.backlog = none) : d.Engaged where
  running := hr
  admitted := h.admitted hr
  occupied hnone := by
    rw [h.idle hnone] at hc
    cases hc
  unladen := hb
  previous := h.previous hc

/-- Whoever has a backlog is at work on the write that it comes from. -/
theorem Coherent.owes {b : WriteBacklog} (h : d.Coherent) (hb : d.backlog = some b) :
    ({ d with backlog := none } : Descriptor S H).Owes b := by
  obtain ⟨hc, hr, hf, w, hw, -, hs, ho⟩ := h.backlog b hb
  have hoccupied : d.operation ≠ none := by
    rw [hw]
    simp
  exact ⟨w, ⟨⟨hr, h.admitted hr, hoccupied, rfl, h.previous hc⟩, hw, hf, hc⟩, hs, ho⟩

theorem Owes.coherent {b : WriteBacklog} (h : d.Owes b) : d.Coherent := by
  obtain ⟨w, hw, -⟩ := h
  exact hw.coherent

theorem coherent_new (handle : SocketHandle) (socket : S) (operation : Operation)
    (metadata : Metadata) : (new handle socket operation metadata : Descriptor S H).Coherent where
  idle hnone := by cases hnone
  admitted _ := rfl
  backlog b hb := by cases hb
  previous _ hsome := absurd rfl hsome

/-- A new operation begins with nothing collected and nothing left over. -/
theorem coherent_setOperation (ha : d.running = true → d.postponed = false)
    (operation : Operation) : (d.setOperation operation).Coherent where
  idle hnone := by cases hnone
  admitted := ha
  backlog b hb := by cases hb
  previous _ hsome := absurd rfl hsome

theorem Coherent.markComplete (h : d.Coherent) : d.markComplete.Coherent where
  idle _ := rfl
  admitted := h.admitted
  backlog b hb := by cases hb
  previous hc := by cases hc

theorem Coherent.adoptNext (h : d.Coherent) (next : Option Operation) :
    (d.adoptNext next).Coherent := by
  unfold Descriptor.adoptNext
  split
  · split
    · exact h.markComplete
    · exact coherent_setOperation
        (d := { d with metadata := { d.metadata with lastIoStart := false } }) h.admitted _
  · exact h.markComplete

/-- The policy may decide as it likes about whoever does not take part yet. -/
theorem Coherent.judged (h : d.Coherent) (hr : d.running = false) {running postponed : Bool}
    (hw : running = true → postponed = false) :
    { d with running := running, postponed := postponed : Descriptor S H }.Coherent where
  idle := h.idle
  admitted := hw
  backlog b hb := by
    obtain ⟨-, hrunning, -⟩ := h.backlog b hb
    rw [hr] at hrunning
    cases hrunning
  previous := h.previous

theorem Engaged.restartRead (h : d.Engaged) : d.restartRead.Engaged where
  running := h.running
  admitted := h.admitted
  occupied hnone := h.occupied (Option.map_eq_none_iff.1 hnone)
  unladen := h.unladen
  previous hsome := absurd rfl hsome

theorem Engaged.alike (h : d.Engaged) (ha : d.Alike d') : d'.Engaged where
  running := ha.running.trans h.running
  admitted := ha.postponed.trans h.admitted
  occupied := by rw [ha.operation]; exact h.occupied
  unladen := ha.backlog.trans h.unladen
  previous := by rw [ha.previous, ha.operation]; exact h.previous

theorem Receiving.alike (h : d.Receiving) (ha : d.Alike d') : d'.Receiving :=
  ⟨h.toEngaged.alike ha, by rw [ha.operation]; exact h.reads⟩

theorem Sending.alike (h : d.Sending) (ha : d.Alike d') : d'.Sending :=
  ⟨h.toEngaged.alike ha, by rw [ha.operation]; exact h.writes, ha.connectFinish.trans h.connected⟩

theorem Committed.akin (h : d.Committed w) (ha : d.Akin d') : d'.Committed w :=
  ⟨h.toEngaged.alike ha.toAlike, ha.operation.trans h.writes, ha.connectFinish.trans h.connected,
    ha.complete.trans h.active⟩

theorem Owes.akin {b : WriteBacklog} (h : d.Owes b) (ha : d.Akin d') : d'.Owes b := by
  obtain ⟨w, hw, hrest⟩ := h
  exact ⟨w, hw.akin ha, hrest⟩

theorem Coherent.akin (h : d.Coherent) (ha : d.Akin d') : d'.Coherent where
  idle := by rw [ha.operation, ha.complete]; exact h.idle
  admitted := by rw [ha.running, ha.postponed]; exact h.admitted
  backlog := by
    rw [ha.backlog, ha.complete, ha.running, ha.connectFinish, ha.operation]
    exact h.backlog
  previous := by rw [ha.complete, ha.previous, ha.operation]; exact h.previous

end Facts

end Descriptor

/-! ## The work on a socket -/

namespace Visit

open Descriptor

/-- Work that begins with such a descriptor, and changes it so that its parts always agree with each
other. -/
abbrev TidiesFrom {ε α : Type} (A : Descriptor S H → Prop) (x : Step (Visit W S H P) ε α)
    (B : α → Descriptor S H → Prop) : Prop :=
  Step.Follows (fun _ v => v.descriptor.Coherent) (fun _ _ => False)
    (fun v => A v.descriptor) x fun a v => B a v.descriptor

section Rules

variable {ε ε' α : Type} {A : Descriptor S H → Prop} {B : α → Descriptor S H → Prop}
  {x : Step (Visit W S H P) ε α}

theorem TidiesFrom.coherent (h : TidiesFrom A x B) {v : Visit W S H P}
    (hv : A v.descriptor) (hc : v.descriptor.Coherent) : (x v).2.descriptor.Coherent := by
  obtain ⟨⟨t, hm, rfl | ⟨-, hfalse⟩⟩, -⟩ := h v hv
  · exact Step.kept_of_moves (I := fun v : Visit W S H P => v.descriptor.Coherent)
      (fun _ _ _ ht => ht) hc hm
  · exact hfalse.elim

theorem TidiesFrom.forget (h : TidiesFrom A x B) : TidiesFrom A x fun _ _ => True :=
  h.weaken (fun _ hv => hv) fun _ _ _ => trivial

/-- Work of which every end leaves a descriptor of some kind. -/
theorem tidies_of_leaves {Q : Descriptor S H → Prop} (hq : ∀ d, Q d → d.Coherent)
    (h : ∀ v : Visit W S H P, A v.descriptor → Q (x v).2.descriptor) :
    TidiesFrom A x fun _ => Q :=
  .single (fun v hv => hq _ (h v hv)) fun v _ hv _ => h v hv

/-- Work of which every end leaves a descriptor of some kind leaves it after an attempt, too. -/
theorem tidies_attempt_of_leaves {Q : Descriptor S H → Prop} (hq : ∀ d, Q d → d.Coherent)
    (h : ∀ v : Visit W S H P, A v.descriptor → Q (x v).2.descriptor) :
    TidiesFrom A (x.attempt : Step (Visit W S H P) ε' (Except ε α)) fun _ => Q :=
  ((tidies_of_leaves hq h).attempt_of_kept (I := fun v => Q v.descriptor)
    fun v hv _ => h v hv).weaken (fun _ hv => hv) fun _ _ hv => hv.1

theorem modifyDescriptor_tidies {Q : Descriptor S H → Prop} {f : Descriptor S H → Descriptor S H}
    (hq : ∀ d, Q d → d.Coherent) (h : ∀ d, A d → Q (f d)) :
    TidiesFrom A (modifyDescriptor f : Step (Visit W S H P) ε Unit) fun _ => Q :=
  tidies_of_leaves hq fun v hv => h v.descriptor hv

/-- A condition that holds of all akin descriptors. -/
def Shared (A : Descriptor S H → Prop) : Prop := ∀ d d', d.Akin d' → A d → A d'

theorem callSocket_tidies (hs : Shared A) (hc : ∀ d, A d → d.Coherent)
    (call : W → S → SocketAnswer W S α) (record : Ending SocketError α → SocketCall) :
    TidiesFrom A (callSocket call record : Step (Visit W S H P) SocketError α) fun _ => A :=
  tidies_of_leaves hc fun v hv => hs v.descriptor _ ⟨⟨rfl, rfl, rfl, rfl, rfl, rfl⟩, rfl⟩ hv

theorem markIo_tidies (hs : Shared A) (hc : ∀ d, A d → d.Coherent) :
    TidiesFrom A (markIo : Step (Visit W S H P) ε Unit) fun _ => A :=
  modifyDescriptor_tidies hc fun d hd => hs d _ ⟨⟨rfl, rfl, rfl, rfl, rfl, rfl⟩, rfl⟩ hd

end Rules

theorem shared_coherent : Shared (Coherent : Descriptor S H → Prop) := fun _ _ ha h => h.akin ha

/-- A fault that is given to the hooks changes nothing that matters. -/
theorem dispatchFault_akin (host : Host W S H P) (error : SocketError) (event : Option EventKind)
    (v : Visit W S H P) : v.descriptor.Akin (dispatchFault host error event v).2.descriptor := by
  obtain ⟨hearings, -, -, own, hd⟩ := dispatchFault_advances host error event v
  rw [hd]
  exact ⟨⟨rfl, rfl, rfl, rfl, rfl, rfl⟩, rfl⟩

theorem report_tidies {ε : Type} (error : SocketError) (event : Option EventKind) :
    TidiesFrom Coherent ((dispatchFault host error event).attempt : Step (Visit W S H P) ε _)
      fun _ => Coherent :=
  tidies_attempt_of_leaves (fun _ h => h) fun v hv => hv.akin (dispatchFault_akin host _ _ v)

theorem markComplete_tidies {ε : Type} :
    TidiesFrom Coherent (modifyDescriptor Descriptor.markComplete : Step (Visit W S H P) ε Unit)
      fun _ => Coherent :=
  modifyDescriptor_tidies (fun _ h => h) fun _ h => h.markComplete

theorem fail_tidies (error : SocketError) (event : Option EventKind) :
    TidiesFrom Coherent (fail host error event) fun _ _ => True := by
  refine (report_tidies error event).bind fun result => markComplete_tidies.bind fun _ => ?_
  cases result with
  | ok => exact .pure fun _ _ => trivial
  | error halt => exact .cut

/-- Whoever is told that the selection failed is complete, or else the run has failed. -/
theorem reportFailure_tidies (error : IoError) :
    TidiesFrom Coherent (reportFailure host error) fun _ _ => True := by
  refine (report_tidies (.io error) none).bind fun result => ?_
  split
  · exact .cut
  · exact markComplete_tidies.forget

theorem settle_tidies {A : Descriptor S H → Prop} {work : Step (Visit W S H P) Interrupt Unit}
    (hw : TidiesFrom A work fun _ _ => True) (hc : ∀ d, A d → d.Coherent) :
    TidiesFrom A (settle host work) fun _ _ => True := by
  refine (hw.attempt_keeping (I := fun v => v.descriptor.Coherent) (fun _ _ _ ht => ht)
    fun v hv => hc _ hv).bind fun result => ?_
  rcases result with (⟨error, event⟩ | halt) | _
  · exact (fail_tidies error event).weaken (fun _ hv => hv.1) fun _ _ h => h
  · exact .cut
  · exact .pure fun _ _ => trivial

theorem connect_tidies : TidiesFrom Coherent (connect host) fun _ _ => True := by
  unfold connect
  refine (getDescriptor_follows.weaken (fun _ h => h) fun _ _ h => h.2).bind fun d => ?_
  split
  · exact .pure fun _ _ => trivial
  refine (modifyDescriptor_tidies (fun _ h => h) fun d hd => hd.akin
    ⟨⟨rfl, rfl, rfl, rfl, rfl, rfl⟩, rfl⟩).bind fun _ => ?_
  refine (Step.Follows.get.weaken (fun _ h => h) fun _ _ h => h.2).bind fun v => ?_
  split
  · exact .pure fun _ _ => trivial
  split
  · exact .cut
  · exact (callSocket_tidies shared_coherent (fun _ h => h) _ _).forget

theorem connectOrFail_tidies : TidiesFrom Coherent (connectOrFail host) fun _ _ => True :=
  settle_tidies connect_tidies.mapCut fun _ h => h

theorem readSocket_tidies (r : ReadOperation) :
    TidiesFrom Engaged ((readSocket host r).attempt : Step (Visit W S H P) Interrupt _)
      fun _ => Receiving := by
  refine tidies_attempt_of_leaves (Q := Receiving) (fun _ h => h.coherent)
    fun v hv => ⟨?_, _, rfl⟩
  exact ⟨hv.running, hv.admitted, fun hnone => (by cases hnone), hv.unladen, fun _ => ⟨_, rfl⟩⟩

theorem writeSocket_tidies {A : Descriptor S H → Prop} (hs : Shared A)
    (hc : ∀ d, A d → d.Coherent) (data : Bytes) (outOfBand : Bool) :
    TidiesFrom A (writeSocket host data outOfBand) fun _ => A :=
  (callSocket_tidies hs hc _ _).mapCut

theorem adoptNext_tidies (next : Option Operation) :
    TidiesFrom Coherent
      (modifyDescriptor (·.adoptNext next) : Step (Visit W S H P) Interrupt Unit)
        fun _ _ => True :=
  (modifyDescriptor_tidies (fun _ h => h) fun _ h => h.adoptNext next).forget

/-- More of a backlog is written, and what is left of it is kept. -/
theorem flush_tidies (b : WriteBacklog) :
    TidiesFrom (fun d => d.Coherent ∧ d.backlog = some b) (flush host b) fun _ _ => True := by
  have hcoherent : ∀ d : Descriptor S H, d.Owes b → d.Coherent := fun _ h => h.coherent
  have hshared : Shared (Owes b : Descriptor S H → Prop) := fun _ _ ha h => h.akin ha
  refine (modifyDescriptor_tidies (A := fun d => d.Coherent ∧ d.backlog = some b) hcoherent
    fun d hd => hd.1.owes hd.2).bind fun _ => ?_
  refine (markIo_tidies hshared hcoherent).bind fun _ => ?_
  refine (writeSocket_tidies hshared hcoherent _ _).bind fun written => ?_
  dsimp only
  split
  · exact (adoptNext_tidies _).weaken (fun v hv => hcoherent _ hv) fun _ _ h => h
  · rename_i hne
    refine (modifyDescriptor_tidies (fun _ h => h) fun d hd => ?_).forget
    obtain ⟨w, hw, hs, ho⟩ := hd
    have hleft : (b.drain written) = ⟨b.data.drop written, w.outOfBand, b.next⟩ := by
      rw [WriteBacklog.drain, ho]
    rw [hleft] at hne ⊢
    refine hw.coherent_backlog (by simpa using hne) ?_ b.next
    exact (List.drop_suffix written b.data).trans hs

/-- What of the payload is not accepted becomes the backlog. -/
theorem writePayload_tidies (next : Option Operation) :
    TidiesFrom (fun d => d.Sending ∧ d.isComplete = false) (writePayload host next)
      fun _ _ => True := by
  have hmark : TidiesFrom (fun d => d.Sending ∧ d.isComplete = false)
      (markIo : Step (Visit W S H P) Interrupt Unit) fun _ d => d.Sending ∧ d.isComplete = false :=
    markIo_tidies (fun _ _ ha h => ⟨h.1.alike ha.toAlike, ha.complete.trans h.2⟩)
      fun _ h => h.1.coherent
  refine hmark.bind fun _ => getDescriptor_follows.bind fun d => ?_
  split
  · rename_i w hop
    have hfinish : ∀ written : Nat, TidiesFrom (Committed w)
        (if written < w.data.length then
          modifyDescriptor fun d =>
            { d with backlog := some ⟨w.data.drop written, w.outOfBand, next⟩ }
        else modifyDescriptor (·.adoptNext next) : Step (Visit W S H P) Interrupt Unit)
          fun _ _ => True := by
      intro written
      split
      · rename_i hlt
        refine (modifyDescriptor_tidies (fun _ h => h) fun d hd => ?_).forget
        refine hd.coherent_backlog (fun hnil => ?_) (List.drop_suffix _ _) next
        rw [List.drop_eq_nil_iff] at hnil
        omega
      · exact (adoptNext_tidies next).weaken (fun _ h => h.coherent) fun _ _ h => h
    have hcommitted : ∀ v : Visit W S H P, (d = v.descriptor ∧ v.descriptor.Sending ∧
        v.descriptor.isComplete = false) → v.descriptor.Committed w := by
      rintro v ⟨rfl, hv, hc⟩
      exact ⟨hv.toEngaged, hop, hv.connected, hc⟩
    dsimp only
    split
    · have hwrite : TidiesFrom (Committed w) (writeSocket host w.data w.outOfBand)
          fun _ => Committed w :=
        writeSocket_tidies (fun _ _ ha h => h.akin ha) (fun _ h => h.coherent) _ _
      exact (hwrite.bind fun written => hfinish written).weaken hcommitted fun _ _ h => h
    · exact (hfinish 0).weaken hcommitted fun _ _ h => h
  · exact (adoptNext_tidies next).weaken (fun _ h => h.2.1.coherent) fun _ _ h => h

section Events

variable (hm : host.KeepsConnection)

include hm

/-- The hooks leave the descriptor alike. -/
theorem dispatch_alike (payload : Payload S) (v : Visit W S H P) :
    v.descriptor.Alike (dispatch host payload v).2.descriptor := by
  have hconnected := dispatch_connectFinish hm payload v
  obtain ⟨hearings, -, -, m, own, hd⟩ := dispatch_advances host payload v
  rw [hd] at hconnected ⊢
  exact ⟨rfl, rfl, rfl, rfl, rfl, hconnected⟩

theorem dispatch_tidies {A Q : Descriptor S H → Prop} (hq : ∀ d, Q d → d.Coherent)
    (h : ∀ d d', d.Alike d' → A d → Q d') (payload : Payload S) :
    TidiesFrom A (dispatch host payload) fun _ => Q :=
  tidies_of_leaves hq fun v hv => h _ _ (dispatch_alike hm payload v) hv

/-- Whoever is told that the connection is established is at work on it, or has a backlog. -/
theorem ensureConnected_tidies :
    TidiesFrom (fun d => d.Coherent ∧ d.isComplete = false ∧ d.running = true)
      (ensureConnected host) fun connected d => connected = true →
        d.metadata.connectFinish = true ∧
          (d.Engaged ∨ d.Coherent ∧ d.backlog ≠ none) := by
  unfold ensureConnected
  refine getDescriptor_follows.bind fun d => ?_
  split
  · rename_i hd
    refine .pure fun v hv _ => ?_
    obtain ⟨rfl, hcoherent, hc, hr⟩ := hv
    refine ⟨hd, ?_⟩
    by_cases hb : v.descriptor.backlog = none
    · exact .inl (hcoherent.engaged hc hr hb)
    · exact .inr ⟨hcoherent, hb⟩
  rename_i hd
  have hcall : TidiesFrom Engaged
      ((callSocket host.sockets.pollConnect fun _ => .pollConnect).mapCut (.fault · none) :
        Step (Visit W S H P) Interrupt Bool) fun _ => Engaged :=
    (callSocket_tidies (fun _ _ ha h => h.alike ha.toAlike) (fun _ h => h.coherent) _ _).mapCut
  refine (hcall.weaken ?_ fun _ _ h => h).bind fun established => ?_
  · -- a backlog would have come of a write on an established connection
    rintro v ⟨rfl, hcoherent, hc, hr⟩
    refine hcoherent.engaged hc hr (Option.eq_none_iff_forall_not_mem.2 fun b hb => ?_)
    obtain ⟨-, -, hconnected, -⟩ := hcoherent.backlog b hb
    exact hd hconnected
  split
  · refine (modifyDescriptor_tidies (Q := fun d => d.Engaged ∧ d.metadata.connectFinish = true)
      (fun _ h => h.1.coherent) fun d h => ⟨⟨h.running, h.admitted, h.occupied, h.unladen,
        h.previous⟩, rfl⟩).bind fun _ => ?_
    have hconnected : TidiesFrom (fun d => d.Engaged ∧ d.metadata.connectFinish = true)
        (dispatch host .connected) fun _ d => d.Engaged ∧ d.metadata.connectFinish = true :=
      dispatch_tidies hm (fun _ h => h.1.coherent)
        (fun _ _ ha h => ⟨h.1.alike ha, ha.connectFinish.trans h.2⟩) _
    exact hconnected.bind fun _ => .pure fun v hv _ => ⟨hv.2, .inl hv.1⟩
  · rename_i he
    exact .pure fun v _ h => absurd h he

/-! ## Reads -/

theorem welcome_tidies (client : S) (address : String) :
    TidiesFrom Receiving (welcome host client address) fun _ _ => True := by
  have hdispatch : TidiesFrom Receiving
      ((dispatch host (.accept (some client) address)).attempt : Step _ Interrupt _)
        fun _ => Engaged :=
    tidies_attempt_of_leaves (fun _ h => h.coherent)
      fun v hv => hv.toEngaged.alike (dispatch_alike hm _ v)
  refine hdispatch.bind fun result => ?_
  refine (modifyDescriptor_tidies (fun _ h => h.coherent) fun d h => h.restartRead).bind
    fun _ => ?_
  cases result with
  | error interrupt => exact .cut
  | ok payload =>
      dsimp only
      split
      · exact (tidies_of_leaves (fun _ h => h.coherent) fun v hv => hv).forget
      · exact .pure fun _ _ => trivial

theorem finishRead_tidies (outcome : Except SocketError (ReadOutcome S)) :
    TidiesFrom Receiving (finishRead host outcome) fun _ _ => True := by
  rcases outcome with error | (snapshot | frame | ⟨client, address⟩)
  · cases error with
    | accept cause =>
        have hreport : TidiesFrom Receiving
            ((dispatchFault host (.accept cause) none).mapCut .halt : Step _ Interrupt _)
              fun _ => Engaged :=
          (tidies_of_leaves (fun _ h => h.coherent) fun v hv =>
            hv.toEngaged.alike (dispatchFault_akin host _ _ v).toAlike).mapCut
        refine hreport.bind fun _ => ?_
        exact (modifyDescriptor_tidies (fun _ h => h.coherent) fun d h => h.restartRead).forget
    | _ => exact .cut
  · -- what has been collected belongs to the read
    refine (modifyDescriptor_tidies (Q := Coherent) (fun _ h => h) fun d h => ?_).forget
    exact Engaged.coherent ⟨h.running, h.admitted, h.occupied, h.unladen, fun _ => h.reads⟩
  · refine (modifyDescriptor_tidies (Q := Engaged) (fun _ h => h.coherent) fun d h =>
      ⟨h.running, h.admitted, h.occupied, h.unladen, fun hsome => absurd rfl hsome⟩).bind
        fun _ => ?_
    refine (dispatch_tidies hm (Q := Engaged) (fun _ h => h.coherent)
      (fun _ _ ha h => h.alike ha) _).bind fun payload => ?_
    exact (modifyDescriptor_tidies (fun _ h => h) fun d h => h.coherent.adoptNext _).forget
  · exact welcome_tidies hm client address

theorem serveRead_tidies :
    TidiesFrom (fun d => d.Coherent ∧ d.isComplete = false ∧ d.running = true) (serveRead host)
      fun _ _ => True := by
  refine (ensureConnected_tidies hm).bind fun connected => ?_
  split
  · refine getDescriptor_follows.bind fun d => ?_
    split
    · rename_i hc _ r hop
      refine ((markIo_tidies (A := Engaged) (fun _ _ ha h => h.alike ha.toAlike)
        fun _ h => h.coherent).weaken ?_ fun _ _ h => h).bind fun _ => ?_
      · rintro v ⟨rfl, hv⟩
        obtain ⟨-, hengaged | ⟨hcoherent, hb⟩⟩ := hv hc
        · exact hengaged
        · obtain ⟨b, hb⟩ := Option.ne_none_iff_exists'.1 hb
          obtain ⟨w, hw, -⟩ := hcoherent.owes hb
          cases hw.writes.symm.trans hop
      · exact (readSocket_tidies r).bind fun outcome => finishRead_tidies hm outcome
    · exact .pure fun _ _ => trivial
  · exact .pure fun _ _ => trivial

/-! ## Writes -/

theorem announceWrite_tidies (w : WriteOperation) :
    TidiesFrom Sending (announceWrite host w) fun _ _ => True := by
  refine (modifyDescriptor_tidies (Q := Sending) (fun _ h => h.coherent) fun d hd => ?_).bind
    fun _ => ?_
  · refine ⟨⟨hd.running, hd.admitted, fun hnone => (by cases hnone), hd.unladen, fun h => ?_⟩,
      ⟨_, rfl⟩, hd.connected⟩
    exact absurd hd.previous_eq_none h
  refine (dispatch_tidies hm (Q := Sending) (fun _ h => h.coherent)
    (fun _ _ ha h => h.alike ha) _).bind fun payload => ?_
  split
  · rename_i payload next
    refine getDescriptor_follows.bind fun d => ?_
    split
    · exact .pure fun _ _ => trivial
    · rename_i hc
      refine ((modifyDescriptor_tidies (A := fun d => d.Sending ∧ d.isComplete = false)
        (Q := fun d => d.Sending ∧ d.isComplete = false) (fun _ h => h.1.coherent) fun d hd =>
          ?_).bind fun _ => writePayload_tidies next).weaken ?_ fun _ _ h => h
      · have hprevious := hd.1.previous_eq_none
        obtain ⟨⟨hengaged, ⟨w', hw'⟩, hconnected⟩, hactive⟩ := hd
        have hrestored : restorePayload payload d =
            { d with operation := some (.write payload) } := by
          simp only [restorePayload, hw']
        rw [hrestored]
        exact ⟨⟨⟨hengaged.running, hengaged.admitted, fun hnone => (by cases hnone),
          hengaged.unladen, fun h => absurd hprevious h⟩, ⟨_, rfl⟩, hconnected⟩, hactive⟩
      · rintro v ⟨rfl, hv⟩
        exact ⟨hv, Bool.eq_false_iff.2 hc⟩
  · exact .pure fun _ _ => trivial

theorem serveWrite_tidies :
    TidiesFrom (fun d => d.Coherent ∧ d.isComplete = false ∧ d.running = true) (serveWrite host)
      fun _ _ => True := by
  refine (ensureConnected_tidies hm).bind fun connected => ?_
  split
  · rename_i hc
    refine getDescriptor_follows.bind fun d => ?_
    split
    · rename_i b hb
      refine (flush_tidies b).weaken ?_ fun _ _ h => h
      rintro v ⟨rfl, hv⟩
      obtain ⟨-, hengaged | ⟨hcoherent, -⟩⟩ := hv hc
      · rw [hengaged.unladen] at hb
        cases hb
      · exact ⟨hcoherent, hb⟩
    · rename_i w hb hop
      refine (announceWrite_tidies hm w).weaken ?_ fun _ _ h => h
      rintro v ⟨rfl, hv⟩
      obtain ⟨hconnected, hengaged | ⟨-, hladen⟩⟩ := hv hc
      · exact ⟨hengaged, ⟨w, hop⟩, hconnected⟩
      · exact absurd hb hladen
    · exact .pure fun _ _ => trivial
  · exact .pure fun _ _ => trivial

/-- Whatever a tick does for a socket that takes part in it. -/
theorem duty_tidies (duty : Duty) :
    TidiesFrom (fun d => d.Coherent ∧ d.isComplete = false ∧ d.running = true) (duty.work host)
      fun _ _ => True := by
  cases duty with
  | opening => exact connectOrFail_tidies.weaken (fun _ h => h.1) fun _ _ h => h
  | reading => exact settle_tidies (serveRead_tidies hm) fun _ h => h.1
  | writing => exact settle_tidies (serveWrite_tidies hm) fun _ h => h.1

end Events

end Visit

end Reactor
