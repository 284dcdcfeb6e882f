import Reactor.Proofs.Run.Chain
import Reactor.Run.Io

/-! The work on a registered socket, as a chain of moves. Whatever holds along every move holds
after any work, however it ends. -/

namespace Reactor

variable {W S H P : Type} {host : Host W S H P}

/-- The descriptor has been given other work, or has another handler; what it is and whether it
takes part have not changed. -/
structure Descriptor.Reworked (d d' : Descriptor S H) : Prop where
  handle : d'.handle = d.handle
  socket : d'.socket = d.socket
  running : d'.running = d.running
  postponed : d'.postponed = d.postponed
  connectFinish : d'.metadata.connectFinish = d.metadata.connectFinish

theorem Descriptor.reworked_markComplete (d : Descriptor S H) : d.Reworked d.markComplete :=
  ⟨rfl, rfl, rfl, rfl, rfl⟩

theorem Descriptor.reworked_restartRead (d : Descriptor S H) : d.Reworked d.restartRead :=
  ⟨rfl, rfl, rfl, rfl, rfl⟩

theorem Descriptor.reworked_adoptNext (d : Descriptor S H) (next : Option Operation) :
    d.Reworked (d.adoptNext next) := by
  unfold adoptNext
  split
  · split <;> exact ⟨rfl, rfl, rfl, rfl, rfl⟩
  · exact d.reworked_markComplete

def EventKind.isTraffic : EventKind → Bool
  | read | write | accept => true
  | _ => false

namespace Visit

/-- The connection of the visited socket is established, or has at least been announced. -/
def Announced (v : Visit W S H P) : Prop :=
  v.descriptor.metadata.connectFinish = true ∨
    ∃ standing, .raised v.descriptor.handle standing .connected ∈ v.session.journal

/-- A move of which the hooks hear nothing: other work, a call of the socket, the closing of a
client. -/
inductive Quiet (host : Host W S H P) : Visit W S H P → Visit W S H P → Prop where
  | rework (v : Visit W S H P) {d : Descriptor S H} (h : v.descriptor.Reworked d) :
      Quiet host v { v with descriptor := d }
  | call (v : Visit W S H P) {α : Type} {call : SocketCall} {answer : SocketAnswer W S α}
      (operation : Option Operation)
      (h : host.sockets.Answers v.session.world v.descriptor.socket call answer) :
      Quiet host v ⟨{ v.descriptor with socket := answer.socket, operation := operation },
        ({ v.session with world := answer.world }.stopIf answer.stop).note
          (.called v.descriptor.handle v.descriptor.standing call)⟩
  | dismiss (v : Visit W S H P) (client : S) :
      Quiet host v ⟨v.descriptor,
        ({ v.session with
            world := (host.sockets.close v.session.world client).2 }.stopIf false).note
          (.dismissed v.descriptor.handle)⟩

/-- One move in the work on a socket. -/
inductive Move (host : Host W S H P) : Visit W S H P → Visit W S H P → Prop where
  | quiet {v v' : Visit W S H P} (h : v.Quiet host v') : Move host v v'
  /-- The connection is established and announced at once. -/
  | announce (v : Visit W S H P) (h : v.descriptor.metadata.connectFinish = false) :
      Move host v (dispatch host .connected
        { v with descriptor := v.descriptor.mapMetadata fun m => { m with connectFinish := true } }).2
  | raise (v : Visit W S H P) (payload : Payload S) (hk : payload.kind.isTraffic = true)
      (h : v.Announced) : Move host v (dispatch host payload v).2
  | report (v : Visit W S H P) (error : SocketError) (event : Option EventKind) :
      Move host v (dispatchFault host error event v).2

abbrev Moves (host : Host W S H P) : Visit W S H P → Visit W S H P → Prop :=
  Relation.ReflTransGen (Move host)

theorem Announced.quiet {v v' : Visit W S H P} (hv : v.Announced) (h : v.Quiet host v') :
    v'.Announced := by
  cases h with
  | rework h =>
      rcases hv with hv | ⟨standing, hv⟩
      · exact .inl (h.connectFinish.trans hv)
      · exact .inr ⟨standing, by rw [h.handle]; exact hv⟩
  | call => exact hv.imp id fun ⟨standing, hs⟩ => ⟨standing, by simp [Session.note, hs]⟩
  | dismiss => exact hv.imp id fun ⟨standing, hs⟩ => ⟨standing, by simp [Session.note, hs]⟩

end Visit

/-- Work that makes moves only, if it begins where `Pre` holds. -/
abbrev Step.WorksFrom {ε α : Type} (host : Host W S H P) (Pre : Visit W S H P → Prop)
    (x : Step (Visit W S H P) ε α) (Post : α → Visit W S H P → Prop) : Prop :=
  Step.Follows (Visit.Move host) (fun _ _ => False) Pre x Post

abbrev Step.Works {ε α : Type} (host : Host W S H P) (x : Step (Visit W S H P) ε α) : Prop :=
  Step.WorksFrom host (fun _ => True) x fun _ _ => True

namespace Visit

section Parts

variable {ε α : Type} {Pre : Visit W S H P → Prop}

/-- A condition that quiet moves do not break. -/
def Lasting (host : Host W S H P) (Pre : Visit W S H P → Prop) : Prop :=
  ∀ v v', Quiet host v v' → Pre v → Pre v'

theorem lasting_true : Lasting host fun _ : Visit W S H P => True := fun _ _ _ _ => trivial

theorem lasting_announced : Lasting host (Announced : Visit W S H P → Prop) :=
  fun _ _ h hv => hv.quiet h

theorem getDescriptor_follows {M C : Visit W S H P → Visit W S H P → Prop} :
    Step.Follows M C Pre (getDescriptor : Step (Visit W S H P) ε _) fun d v =>
      d = v.descriptor ∧ Pre v := by
  intro v hv
  refine ⟨⟨v, .refl, .inl rfl⟩, ?_⟩
  rintro d ⟨⟩
  exact ⟨rfl, hv⟩

theorem modifyDescriptor_works (hPre : Lasting host Pre) {f : Descriptor S H → Descriptor S H}
    (hf : ∀ d : Descriptor S H, d.Reworked (f d)) :
    Step.WorksFrom host Pre (modifyDescriptor f : Step (Visit W S H P) ε Unit) fun _ => Pre :=
  .modify (fun v _ => .quiet (.rework v (hf _))) fun v hv => hPre _ _ (.rework v (hf _)) hv

theorem callSocket_works (hPre : Lasting host Pre) {call : W → S → SocketAnswer W S α}
    {record : Ending SocketError α → SocketCall}
    (h : ∀ world socket,
      host.sockets.Answers world socket (record (call world socket).ending) (call world socket)) :
    Step.WorksFrom host Pre (callSocket call record) fun _ => Pre := by
  have hq : ∀ v : Visit W S H P, Quiet host v (callSocket call record v).2 := fun v =>
    .call v v.descriptor.operation (h _ _)
  exact .single (fun v _ => .quiet (hq v)) fun v _ hv _ => hPre _ _ (hq v) hv

theorem markIo_works (hPre : Lasting host Pre) :
    Step.WorksFrom host Pre (markIo : Step (Visit W S H P) ε Unit) fun _ => Pre :=
  modifyDescriptor_works hPre fun _ => ⟨rfl, rfl, rfl, rfl, rfl⟩

/-- A read leaves the condition in place even if it fails. -/
theorem readSocket_works (hPre : Lasting host Pre) (r : ReadOperation) :
    Step.WorksFrom host Pre ((readSocket host r).attempt : Step (Visit W S H P) ε _)
      fun _ => Pre := by
  have hq : ∀ v : Visit W S H P, Quiet host v (readSocket host r v).2 := fun v =>
    .call v (some _) (.read r.picker v.descriptor.previous r.outOfBand)
  have hread : Step.WorksFrom host Pre (readSocket host r) fun _ _ => True :=
    .single (fun v _ => .quiet (hq v)) fun _ _ _ _ => trivial
  exact (hread.attempt_of_kept fun v hv _ => hPre _ _ (hq v) hv).weaken (fun _ h => h)
    fun _ _ h => h.1

theorem dismiss_works (client : S) :
    Step.WorksFrom host Pre (dismiss host client : Step (Visit W S H P) ε Unit) fun _ _ => True :=
  .modify (fun v _ => .quiet (.dismiss v client)) fun _ _ => trivial

theorem raise_works {payload : Payload S} (hk : payload.kind.isTraffic = true) :
    Step.WorksFrom host Announced (dispatch host payload) fun _ _ => True :=
  .single (fun v hv => .raise v payload hk hv) fun _ _ _ _ => trivial

theorem report_works (error : SocketError) (event : Option EventKind) :
    Step.WorksFrom host Pre (dispatchFault host error event) fun _ _ => True :=
  .single (fun v _ => .report v error event) fun _ _ _ _ => trivial

end Parts

theorem fail_works (error : SocketError) (event : Option EventKind) :
    Step.Works host (fail host error event) := by
  refine .seq (report_works error event).attempt fun result => ?_
  refine .bind (modifyDescriptor_works lasting_true Descriptor.reworked_markComplete) fun _ => ?_
  cases result with
  | ok => exact .pure fun _ _ => trivial
  | error halt => exact .cut

theorem settle_works {work : Step (Visit W S H P) Interrupt Unit} (h : Step.Works host work) :
    Step.Works host (settle host work) := by
  refine .seq h.attempt fun result => ?_
  rcases result with (error | halt) | _
  · exact fail_works error _
  · exact .cut
  · exact .pure fun _ _ => trivial

theorem unlessComplete_works {ε : Type} {work : Step (Visit W S H P) ε Unit}
    (h : Step.Works host work) : Step.Works host (unlessComplete work) := by
  unfold unlessComplete
  refine .seq getDescriptor_follows fun d => ?_
  split
  · exact .pure fun _ _ => trivial
  · exact h

theorem connect_works : Step.Works host (connect host) := by
  unfold connect
  refine .seq getDescriptor_follows fun d => ?_
  split
  · exact .pure fun _ _ => trivial
  refine .bind (modifyDescriptor_works lasting_true fun _ => ⟨rfl, rfl, rfl, rfl, rfl⟩) fun _ => ?_
  refine .seq .get fun v => ?_
  split
  · exact .pure fun _ _ => trivial
  split
  · exact .cut
  · exact callSocket_works lasting_true fun _ _ => .connect _

theorem connectOrFail_works : Step.Works host (connectOrFail host) :=
  settle_works connect_works.mapCut

theorem lasting_unconnected :
    Lasting host fun v : Visit W S H P => v.descriptor.metadata.connectFinish = false := by
  intro v v' h hv
  cases h with
  | rework h => exact h.connectFinish.trans hv
  | call => exact hv
  | dismiss => exact hv

/-- The connection is marked and announced in one move. -/
theorem announce_works :
    Step.WorksFrom host (fun v => v.descriptor.metadata.connectFinish = false)
      (do
        modifyDescriptor fun d => d.mapMetadata fun m => { m with connectFinish := true }
        dispatch host .connected) fun _ => Announced := by
  refine .single (fun v hv => .announce v hv) fun v _ _ _ => ?_
  let w : Visit W S H P :=
    { v with descriptor := v.descriptor.mapMetadata fun m => { m with connectFinish := true } }
  obtain ⟨hearings, -, hadv, m, own, hd⟩ := dispatch_advances host .connected w
  refine .inr ⟨w.descriptor.standing, ?_⟩
  show _ ∈ (dispatch host .connected w).2.session.journal
  rw [hadv.journal]
  simp [modifyDescriptor, Step.modify_bind, w, hd]

/-- Whoever is told that the connection is established may announce traffic. -/
theorem ensureConnected_works :
    Step.WorksFrom host (fun _ => True) (ensureConnected host) fun connected v =>
      connected = true → v.Announced := by
  unfold ensureConnected
  refine .bind getDescriptor_follows fun d => ?_
  split
  · rename_i hd
    exact .pure fun v hv _ => .inl (by rw [← hv.1]; exact hd)
  rename_i hd
  have hcall : Step.WorksFrom host (fun v => v.descriptor.metadata.connectFinish = false)
      (callSocket host.sockets.pollConnect fun _ => .pollConnect) fun _ v =>
        v.descriptor.metadata.connectFinish = false :=
    callSocket_works lasting_unconnected fun _ _ => .pollConnect
  refine (hcall.mapCut.weaken ?_ fun _ _ h => h).bind fun established => ?_
  · intro v hv
    rw [← hv.1]
    simpa using hd
  split
  · rw [← bind_assoc]
    exact announce_works.bind fun _ => .pure fun v hv _ => hv
  · rename_i he
    exact .pure fun v _ h => absurd h he

theorem welcome_works (client : S) (address : String) :
    Step.WorksFrom host Announced (welcome host client address) fun _ _ => True := by
  refine .seq (raise_works rfl).attempt fun result => ?_
  refine .bind (modifyDescriptor_works lasting_true Descriptor.reworked_restartRead) fun _ => ?_
  cases result with
  | error interrupt => exact .cut
  | ok payload =>
      dsimp only
      split
      · exact dismiss_works _
      · exact .pure fun _ _ => trivial

theorem adoptNext_works (next : Option Operation) {ε : Type} :
    Step.Works host (modifyDescriptor (·.adoptNext next) : Step (Visit W S H P) ε Unit) :=
  modifyDescriptor_works lasting_true fun d => d.reworked_adoptNext next

/-- A message is announced only on an announced connection. -/
theorem finishRead_works (outcome : Except SocketError (ReadOutcome S)) :
    Step.WorksFrom host Announced (finishRead host outcome) fun _ _ => True := by
  rcases outcome with error | (snapshot | frame | ⟨client, address⟩)
  · cases error with
    | accept cause =>
        refine .seq (report_works _ none).mapCut fun _ => ?_
        exact modifyDescriptor_works lasting_true Descriptor.reworked_restartRead
    | _ => exact .cut
  · have hkeep : Step.Works host (modifyDescriptor fun d => { d with previous := some snapshot } :
        Step (Visit W S H P) Interrupt Unit) :=
      modifyDescriptor_works lasting_true fun _ => ⟨rfl, rfl, rfl, rfl, rfl⟩
    exact hkeep.weaken (fun _ _ => trivial) fun _ _ h => h
  · refine .bind (modifyDescriptor_works lasting_announced fun _ => ⟨rfl, rfl, rfl, rfl, rfl⟩)
      fun _ => ?_
    exact .seq (raise_works rfl) fun payload => adoptNext_works _
  · exact welcome_works client address

/-- What is done on an announced connection, given the descriptor. -/
theorem onAnnounced_works {work : Descriptor S H → Step (Visit W S H P) Interrupt Unit}
    (h : ∀ d, Step.WorksFrom host Announced (work d) fun _ _ => True) :
    Step.Works host (do
      if ← ensureConnected host then
        work (← getDescriptor)) := by
  refine .bind ensureConnected_works fun connected => ?_
  split
  · rename_i hc
    refine (getDescriptor_follows.weaken (fun v hv => hv hc) fun _ _ h => h.2).bind fun d => h d
  · exact .pure fun _ _ => trivial

theorem serveRead_works : Step.Works host (serveRead host) := by
  refine onAnnounced_works fun d => ?_
  split
  · refine .bind (markIo_works lasting_announced) fun _ => ?_
    exact (readSocket_works lasting_announced _).bind fun outcome => finishRead_works outcome
  · exact .pure fun _ _ => trivial

theorem writeSocket_works (data : Bytes) (outOfBand : Bool) :
    Step.Works host (writeSocket host data outOfBand) :=
  (callSocket_works lasting_true fun _ _ => .write data outOfBand).mapCut

theorem flush_works (backlog : WriteBacklog) : Step.Works host (flush host backlog) := by
  refine .bind (modifyDescriptor_works lasting_true fun _ => ⟨rfl, rfl, rfl, rfl, rfl⟩) fun _ => ?_
  refine .bind (markIo_works lasting_true) fun _ => ?_
  refine .bind (writeSocket_works _ _) fun written => ?_
  dsimp only
  split
  · exact adoptNext_works _
  · exact modifyDescriptor_works lasting_true fun _ => ⟨rfl, rfl, rfl, rfl, rfl⟩

theorem finishWrite_works (w : WriteOperation) (next : Option Operation) (written : Nat) :
    Step.Works host (if written < w.data.length then
        modifyDescriptor fun d =>
          { d with backlog := some ⟨w.data.drop written, w.outOfBand, next⟩ }
      else modifyDescriptor (·.adoptNext next) : Step (Visit W S H P) Interrupt Unit) := by
  split
  · exact modifyDescriptor_works lasting_true fun _ => ⟨rfl, rfl, rfl, rfl, rfl⟩
  · exact adoptNext_works _

theorem writePayload_works (next : Option Operation) :
    Step.Works host (writePayload host next) := by
  refine .bind (markIo_works lasting_true) fun _ => ?_
  refine .seq getDescriptor_follows fun d => ?_
  split
  · rename_i w _
    dsimp only
    split
    · exact (writeSocket_works _ _).bind fun written => finishWrite_works w next written
    · exact finishWrite_works w next 0
  · exact adoptNext_works _

theorem reworked_restorePayload (w : WriteOperation) (d : Descriptor S H) :
    d.Reworked (restorePayload w d) := by
  unfold restorePayload
  split <;> exact ⟨rfl, rfl, rfl, rfl, rfl⟩

theorem announceWrite_works (w : WriteOperation) :
    Step.WorksFrom host Announced (announceWrite host w) fun _ _ => True := by
  refine .bind (modifyDescriptor_works lasting_announced fun _ => ⟨rfl, rfl, rfl, rfl, rfl⟩)
    fun _ => ?_
  refine .seq (raise_works rfl) fun payload => ?_
  split
  · refine unlessComplete_works ?_
    refine .bind (modifyDescriptor_works lasting_true (reworked_restorePayload _)) fun _ => ?_
    exact writePayload_works _
  · exact .pure fun _ _ => trivial

theorem serveWrite_works : Step.Works host (serveWrite host) := by
  refine onAnnounced_works fun d => ?_
  split
  · exact (flush_works _).weaken (fun _ _ => trivial) fun _ _ h => h
  · exact announceWrite_works _
  · exact .pure fun _ _ => trivial

end Visit

end Reactor
