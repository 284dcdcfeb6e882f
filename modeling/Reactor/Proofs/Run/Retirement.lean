import Reactor.Proofs.Run.Passage

/-! A socket that has nothing left to do. It is not served any more, but for one thing: if the hooks
complete it when they are told of its connection, what it was being served for is done once more. -/

namespace Reactor

variable {W S H P : Type} {host : Host W S H P} {h : SocketHandle}

/-- No hook takes back that a socket has nothing left to do. -/
def Host.KeepsCompletion (host : Host W S H P) : Prop :=
  ∀ (v : Visit W S H P) payload link, v.descriptor.isComplete = true →
    (v.askAbout host payload link).2.metadata.requestComplete = true

/-- The last thing that was done is that the hooks were told of the connection of the socket, which
had something left to do then. -/
def Welcomed (host : Host W S H P) (h : SocketHandle) (journal : List (Deed S H)) : Prop :=
  ∃ earlier standing hearings, journal = earlier ++ .raised h standing .connected :: hearings ∧
    standing.complete = false ∧ ∀ deed ∈ hearings, deed.IsHearing host h

/-- The last thing that was done is one read of the socket, right after the hooks were told of its
connection. -/
def WelcomedAndRead (host : Host W S H P) (h : SocketHandle) (journal : List (Deed S H)) : Prop :=
  ∃ earlier standing outOfBand, journal = earlier ++ [.called h standing (.read outOfBand)] ∧
    Welcomed host h earlier

/-- The deed is what the socket was being served for when the hooks were told of its connection: a
call to read or to write or the event of a write comes right after that, and the event of what was
read after the call that read it. -/
def Deed.UnderWay (host : Host W S H P) (journal : List (Deed S H)) : Deed S H → Prop
  | .called h _ _ | .raised h _ (.write _ _) => Welcomed host h journal
  | .raised h _ (.read _ _) | .raised h _ (.accept _ _) => WelcomedAndRead host h journal
  | _ => False

/-- Whatever of the deeds after the journal serves the socket was under way. -/
def OnlyUnderWay (host : Host W S H P) (h : SocketHandle) (journal deeds : List (Deed S H)) :
    Prop :=
  ∀ before deed after, deeds = before ++ deed :: after → deed.Serves h →
    deed.UnderWay host (journal ++ before)

section Deeds

variable {journal deeds more : List (Deed S H)}

theorem OnlyUnderWay.of_idle (hd : ∀ deed ∈ deeds, ¬ deed.Serves h) :
    OnlyUnderWay host h journal deeds := by
  rintro before deed after rfl hserves
  exact absurd hserves (hd deed (by simp))

theorem OnlyUnderWay.append (hd : OnlyUnderWay host h journal deeds)
    (hm : OnlyUnderWay host h (journal ++ deeds) more) :
    OnlyUnderWay host h journal (deeds ++ more) := by
  intro before deed after heq hserves
  rcases List.append_eq_append_iff.1 heq with ⟨rest, rfl, hrest⟩ | ⟨rest, rfl, hrest⟩
  · have hunder := hm rest deed after hrest hserves
    rwa [List.append_assoc] at hunder
  · rcases rest with _ | ⟨first, rest⟩
    · have hunder := hm [] deed after hrest.symm hserves
      simpa only [List.append_nil] using hunder
    · cases hrest
      exact hd before deed rest rfl hserves

/-- Only the first of the deeds serves the socket. -/
theorem OnlyUnderWay.cons {deed : Deed S H} (hfirst : deed.Serves h → deed.UnderWay host journal)
    (hd : ∀ deed ∈ deeds, ¬ deed.Serves h) : OnlyUnderWay host h journal (deed :: deeds) := by
  intro before deed' after heq hserves
  rcases before with _ | ⟨first, before⟩
  · cases heq
    rw [List.append_nil]
    exact hfirst hserves
  · cases heq
    exact absurd hserves (hd deed' (by simp))

end Deeds

theorem Deed.IsHearing.not_serves {k : SocketHandle} {deed : Deed S H}
    (hd : deed.IsHearing host k) : ¬ deed.Serves h := Deed.not_serves hd.service?

namespace Visit

/-! ## The acts of a visit -/

/-- The visited socket has something left to do, or what it is being served for is under way. -/
def Able (host : Host W S H P) (v : Visit W S H P) : Prop :=
  v.descriptor.isComplete = false ∨ Welcomed host v.descriptor.handle v.session.journal

/-- The visited socket has something left to do, or has just been read. -/
def Fed (host : Host W S H P) (v : Visit W S H P) : Prop :=
  v.descriptor.isComplete = false ∨ WelcomedAndRead host v.descriptor.handle v.session.journal

def MayRaise (host : Host W S H P) (v : Visit W S H P) : EventKind → Prop
  | .connected => v.descriptor.isComplete = false
  | .write => v.Able host
  | .read | .accept => v.Fed host
  | _ => False

/-- A single act in the work on a socket. -/
inductive Act (host : Host W S H P) (v : Visit W S H P) : Visit W S H P → Prop where
  | rework {d : Descriptor S H} (hh : d.handle = v.descriptor.handle)
      (hc : v.descriptor.isComplete = true → d.isComplete = true) :
      Act host v { v with descriptor := d }
  | call (socket : S) (operation : Option Operation) (world : W) (stop : Bool) (call : SocketCall)
      (hv : v.Able host) :
      Act host v ⟨{ v.descriptor with socket := socket, operation := operation },
        ({ v.session with world := world }.stopIf stop).note
          (.called v.descriptor.handle v.descriptor.standing call)⟩
  | dismiss (world : W) :
      Act host v { v with session :=
        ({ v.session with world := world }.stopIf false).note (.dismissed v.descriptor.handle) }
  | raise (payload : Payload S) (hv : v.MayRaise host payload.kind) :
      Act host v (dispatch host payload v).2
  | report (error : SocketError) (event : Option EventKind) :
      Act host v (dispatchFault host error event v).2

abbrev Acts (host : Host W S H P) : Visit W S H P → Visit W S H P → Prop :=
  Relation.ReflTransGen (Act host)

theorem MayRaise.isWork {v : Visit W S H P} {kind : EventKind} (hv : v.MayRaise host kind) :
    kind = .connected ∨ kind.isTraffic = true := by
  cases kind with
  | connected => exact .inl rfl
  | read | write | accept => exact .inr rfl
  | _ => exact hv.elim

/-- What is raised for a socket that has nothing left to do was under way. -/
theorem MayRaise.underWay {v : Visit W S H P} {payload : Payload S}
    (hv : v.MayRaise host payload.kind) (hc : v.descriptor.isComplete = true)
    (standing : Standing) :
    (Deed.raised v.descriptor.handle standing payload).UnderWay host v.session.journal := by
  cases payload with
  | connected => exact absurd hv (by simp [MayRaise, Payload.kind, hc])
  | read | write | accept => exact hv.resolve_left (by simp [hc])
  | _ => exact hv.elim

/-- What an act records, and that the socket remains the same. -/
theorem Act.advances {v v' : Visit W S H P} (ha : v.Act host v') :
    ∃ deeds, v.session.Advances deeds v'.session ∧
      (∀ deed ∈ deeds, deed.IsWork host v.descriptor.handle v.descriptor.running) ∧
      v'.descriptor.handle = v.descriptor.handle ∧
      (v.descriptor.isComplete = true →
        OnlyUnderWay host v.descriptor.handle v.session.journal deeds) := by
  cases ha with
  | rework hh => exact ⟨[], .refl _, by simp, hh, fun _ => .of_idle (by simp)⟩
  | call socket operation world stop call hv =>
      refine ⟨_, v.session.advances_note world stop _ rfl, ?_, rfl, fun hc => ?_⟩
      · intro deed hd
        obtain rfl := List.mem_singleton.1 hd
        exact ⟨rfl, rfl⟩
      · exact .cons (fun _ => hv.resolve_left (by simp [hc])) (by simp)
  | dismiss world =>
      refine ⟨_, v.session.advances_note world false _ rfl, ?_, rfl, fun hc => ?_⟩
      · intro deed hd
        obtain rfl := List.mem_singleton.1 hd
        rfl
      · refine .of_idle fun deed hd => ?_
        obtain rfl := List.mem_singleton.1 hd
        exact Deed.not_serves rfl
  | raise payload hv =>
      obtain ⟨hearings, hh, hadv, m, own, hd⟩ := dispatch_advances host payload v
      refine ⟨_, hadv, fun deed hdeed => ?_, by rw [hd], fun hc => ?_⟩
      · rcases List.mem_cons.1 hdeed with rfl | hdeed
        · exact ⟨rfl, rfl, hv.isWork⟩
        · exact (hh deed hdeed).isWork
      · exact .cons (fun _ => hv.underWay hc _) fun deed hdeed => (hh deed hdeed).not_serves
  | report error event =>
      obtain ⟨hearings, hh, hadv, own, hd⟩ := dispatchFault_advances host error event v
      refine ⟨_, hadv, fun deed hdeed => ?_, by rw [hd], fun _ => .of_idle fun deed hdeed => ?_⟩
      · rcases List.mem_cons.1 hdeed with rfl | hdeed
        · exact ⟨rfl, rfl⟩
        · exact (hh deed hdeed).isWork
      · rcases List.mem_cons.1 hdeed with rfl | hdeed
        · exact Deed.not_serves rfl
        · exact (hh deed hdeed).not_serves

/-- Nothing but a hook can take back that nothing is left to do. -/
theorem Act.complete (hk : host.KeepsCompletion) {v v' : Visit W S H P} (ha : v.Act host v')
    (hc : v.descriptor.isComplete = true) : v'.descriptor.isComplete = true := by
  cases ha with
  | rework _ hkeep => exact hkeep hc
  | call | dismiss => exact hc
  | raise payload =>
      exact dispatch_metadata (I := fun m => m.requestComplete = true) hk payload hc
  | report error event =>
      obtain ⟨-, -, -, own, hd⟩ := dispatchFault_advances host error event v
      rw [hd]
      exact hc

end Visit

/-! ## The work on a socket goes by acts -/

/-- Work that consists of acts, if it begins where `Pre` holds. -/
abbrev Step.ActsFrom {ε α : Type} (host : Host W S H P) (Pre : Visit W S H P → Prop)
    (x : Step (Visit W S H P) ε α) (Post : α → Visit W S H P → Prop) : Prop :=
  Step.Follows (Visit.Act host) (fun _ _ => False) Pre x Post

namespace Visit

section Parts

variable {ε : Type} {Pre : Visit W S H P → Prop}

def Active (v : Visit W S H P) : Prop := v.descriptor.isComplete = false

theorem Active.able {v : Visit W S H P} (hv : v.Active) : v.Able host := .inl hv

/-- The descriptor has not changed as to which socket it is and whether that has something left to
do. -/
def Tied (d d' : Descriptor S H) : Prop := d'.handle = d.handle ∧ d'.isComplete = d.isComplete

/-- A condition on the descriptor that is about no more than which socket it is and whether that
has something left to do. -/
def Firm (Pre : Visit W S H P → Prop) : Prop :=
  ∀ (v : Visit W S H P) d, Tied v.descriptor d → Pre v → Pre { v with descriptor := d }

theorem firm_active : Firm (Active : Visit W S H P → Prop) := fun _ _ ht hv => ht.2.trans hv

theorem firm_able : Firm (Able host : Visit W S H P → Prop) := fun _ _ ht hv =>
  hv.imp (ht.2.trans ·) fun hw => ht.1.symm ▸ hw

theorem firm_fed : Firm (Fed host : Visit W S H P → Prop) := fun _ _ ht hv =>
  hv.imp (ht.2.trans ·) fun hw => ht.1.symm ▸ hw

theorem getDescriptor_acts :
    Step.ActsFrom host Pre (getDescriptor : Step (Visit W S H P) ε _) fun _ => Pre :=
  getDescriptor_follows.weaken (fun _ hv => hv) fun _ _ hv => hv.2

theorem modifyDescriptor_acts (hPre : Firm Pre) {f : Descriptor S H → Descriptor S H}
    (hf : ∀ d, Tied d (f d)) :
    Step.ActsFrom host Pre (modifyDescriptor f : Step (Visit W S H P) ε Unit) fun _ => Pre :=
  .modify (fun _ _ => .rework (hf _).1 fun hc => (hf _).2.trans hc) fun v hv => hPre v _ (hf _) hv

/-- A change that may complete the socket. -/
theorem rework_acts {f : Descriptor S H → Descriptor S H} (hh : ∀ d, (f d).handle = d.handle)
    (hc : ∀ d, d.isComplete = true → (f d).isComplete = true) :
    Step.ActsFrom host Pre (modifyDescriptor f : Step (Visit W S H P) ε Unit) fun _ _ => True :=
  .modify (fun _ _ => .rework (hh _) (hc _)) fun _ _ => trivial

theorem adoptNext_acts (next : Option Operation) :
    Step.ActsFrom host Pre (modifyDescriptor (·.adoptNext next) : Step (Visit W S H P) ε Unit)
      fun _ _ => True := by
  refine rework_acts (fun d => d.handle_adoptNext next) fun d hc => ?_
  cases next with
  | none => rfl
  | some operation => simp [Descriptor.adoptNext, hc]

theorem markComplete_acts :
    Step.ActsFrom host Pre (modifyDescriptor Descriptor.markComplete : Step (Visit W S H P) ε Unit)
      fun _ _ => True := rework_acts (fun _ => rfl) fun _ _ => rfl

theorem markIo_acts (hPre : Firm Pre) :
    Step.ActsFrom host Pre (markIo : Step (Visit W S H P) ε Unit) fun _ => Pre :=
  modifyDescriptor_acts hPre fun _ => ⟨rfl, rfl⟩

theorem callSocket_acts {α : Type} (call : W → S → SocketAnswer W S α)
    (record : Ending SocketError α → SocketCall) :
    Step.ActsFrom host (Able host) (callSocket call record) fun _ _ => True :=
  .single (fun v hv => .call _ v.descriptor.operation _ _ _ hv) fun _ _ _ _ => trivial

theorem raise_acts (payload : Payload S) :
    Step.ActsFrom host (MayRaise host · payload.kind) (dispatch host payload) fun _ _ => True :=
  .single (fun _ hv => .raise payload hv) fun _ _ _ _ => trivial

theorem report_acts (error : SocketError) (event : Option EventKind) :
    Step.ActsFrom host Pre (dispatchFault host error event) fun _ _ => True :=
  .single (fun _ _ => .report error event) fun _ _ _ _ => trivial

/-- Whether or not a read delivers anything, the socket has been read then. -/
theorem readSocket_acts (r : ReadOperation) :
    Step.ActsFrom host (Able host) ((readSocket host r).attempt : Step (Visit W S H P) ε _)
      fun _ => Fed host := by
  have hread : Step.ActsFrom host (Able host) (readSocket host r) fun _ _ => True :=
    .single (fun v hv => .call _ (some _) _ _ _ hv) fun _ _ _ _ => trivial
  refine (hread.attempt_of_kept (I := Fed host) fun v hv _ => ?_).weaken (fun _ h => h)
    fun _ _ h => h.1
  exact hv.imp id fun hw => ⟨_, _, _, journal_readSocket host r v, hw⟩

end Parts

theorem fail_acts (error : SocketError) (event : Option EventKind) :
    Step.ActsFrom host (fun _ => True) (fail host error event) fun _ _ => True := by
  refine .seq (report_acts error event).attempt fun result => ?_
  refine .bind markComplete_acts fun _ => ?_
  cases result with
  | ok => exact .pure fun _ _ => trivial
  | error halt => exact .cut

theorem settle_acts {work : Step (Visit W S H P) Interrupt Unit}
    (hw : Step.ActsFrom host Active work fun _ _ => True) :
    Step.ActsFrom host Active (settle host work) fun _ _ => True := by
  refine .seq hw.attempt fun result => ?_
  rcases result with (error | halt) | _
  · exact fail_acts error _
  · exact .cut
  · exact .pure fun _ _ => trivial

theorem connect_acts : Step.ActsFrom host Active (connect host) fun _ _ => True := by
  refine getDescriptor_acts.bind fun d => ?_
  split
  · exact .pure fun _ _ => trivial
  refine .bind (modifyDescriptor_acts firm_active fun _ => ⟨rfl, rfl⟩) fun _ => ?_
  refine Step.Follows.get.bind fun v => ?_
  split
  · exact .pure fun _ _ => trivial
  split
  · exact .cut
  · exact (callSocket_acts _ _).weaken (fun _ hv => hv.2.able) fun _ _ h => h

/-- After the hooks were told of the connection, what the socket is being served for goes on. -/
theorem announce_acts :
    Step.ActsFrom host Active (dispatch host .connected) fun _ => Able host := by
  refine .single (fun v hv => .raise .connected hv) fun v _ hv _ => ?_
  obtain ⟨hearings, hh, hadv, m, own, hd⟩ := dispatch_advances host .connected v
  have hhandle : (dispatch host .connected v).2.descriptor.handle = v.descriptor.handle := by
    rw [hd]
  exact .inr (hhandle.symm ▸ ⟨_, _, hearings, hadv.journal, hv, hh⟩)

theorem ensureConnected_acts :
    Step.ActsFrom host Active (ensureConnected host) fun _ => Able host := by
  refine getDescriptor_acts.bind fun d => ?_
  split
  · exact .pure fun _ hv => hv.able
  have hpoll : Step.ActsFrom host Active
      (callSocket host.sockets.pollConnect fun _ => .pollConnect) fun _ => Active :=
    .single (fun v hv => .call _ v.descriptor.operation _ _ _ (.inl hv)) fun _ _ hv _ => hv
  refine hpoll.mapCut.bind fun established => ?_
  split
  · refine .bind (modifyDescriptor_acts firm_active fun _ => ⟨rfl, rfl⟩) fun _ => ?_
    exact announce_acts.bind fun _ => .pure fun _ hv => hv
  · exact .pure fun _ hv => hv.able

theorem welcome_acts (client : S) (address : String) :
    Step.ActsFrom host (Fed host) (welcome host client address) fun _ _ => True := by
  refine (raise_acts (.accept (some client) address)).attempt.bind fun result => ?_
  refine .bind (rework_acts (fun _ => rfl) fun _ hc => hc) fun _ => ?_
  cases result with
  | error interrupt => exact .cut
  | ok payload =>
      dsimp only
      split
      · exact .modify (fun _ _ => .dismiss _) fun _ _ => trivial
      · exact .pure fun _ _ => trivial

theorem finishRead_acts (outcome : Except SocketError (ReadOutcome S)) :
    Step.ActsFrom host (Fed host) (finishRead host outcome) fun _ _ => True := by
  rcases outcome with error | (snapshot | frame | ⟨client, address⟩)
  · cases error with
    | accept cause =>
        refine .seq (report_acts _ none).mapCut fun _ => ?_
        exact rework_acts (fun _ => rfl) fun _ hc => hc
    | _ => exact .cut
  · exact rework_acts (fun _ => rfl) fun _ hc => hc
  · refine .bind (modifyDescriptor_acts firm_fed fun _ => ⟨rfl, rfl⟩) fun _ => ?_
    exact (raise_acts (.read frame none)).bind fun payload => adoptNext_acts _
  · exact welcome_acts client address

theorem writeSocket_acts (data : Bytes) (outOfBand : Bool) :
    Step.ActsFrom host (Able host) (writeSocket host data outOfBand) fun _ _ => True :=
  (callSocket_acts _ _).mapCut

theorem flush_acts (backlog : WriteBacklog) :
    Step.ActsFrom host (Able host) (flush host backlog) fun _ _ => True := by
  refine .bind (modifyDescriptor_acts firm_able fun _ => ⟨rfl, rfl⟩) fun _ => ?_
  refine .bind (markIo_acts firm_able) fun _ => ?_
  refine .bind (writeSocket_acts _ _) fun written => ?_
  dsimp only
  split
  · exact adoptNext_acts _
  · exact rework_acts (fun _ => rfl) fun _ hc => hc

theorem finishWrite_acts (w : WriteOperation) (next : Option Operation) (written : Nat)
    {Pre : Visit W S H P → Prop} :
    Step.ActsFrom host Pre (if written < w.data.length then
        modifyDescriptor fun d =>
          { d with backlog := some ⟨w.data.drop written, w.outOfBand, next⟩ }
      else modifyDescriptor (·.adoptNext next) : Step (Visit W S H P) Interrupt Unit)
      fun _ _ => True := by
  split
  · exact rework_acts (fun _ => rfl) fun _ hc => hc
  · exact adoptNext_acts _

theorem writePayload_acts (next : Option Operation) :
    Step.ActsFrom host Active (writePayload host next) fun _ _ => True := by
  refine .bind (markIo_acts firm_active) fun _ => ?_
  refine getDescriptor_acts.bind fun d => ?_
  split
  · rename_i w _
    dsimp only
    split
    · refine .bind ((writeSocket_acts _ _).weaken (fun _ hv => hv.able) fun _ _ h => h) fun written => ?_
      exact finishWrite_acts w next written
    · exact finishWrite_acts w next 0
  · exact adoptNext_acts _

theorem tied_restorePayload (w : WriteOperation) (d : Descriptor S H) :
    Tied d (restorePayload w d) := by
  unfold restorePayload
  split <;> exact ⟨rfl, rfl⟩

/-- Nothing is written if the hooks complete the socket when they are told of the write. -/
theorem announceWrite_acts (w : WriteOperation) :
    Step.ActsFrom host (Able host) (announceWrite host w) fun _ _ => True := by
  refine .bind (modifyDescriptor_acts firm_able fun _ => ⟨rfl, rfl⟩) fun _ => ?_
  refine .seq (raise_acts (.write w none)) fun payload => ?_
  split
  · refine getDescriptor_follows.bind fun d => ?_
    split
    · exact .pure fun _ _ => trivial
    · rename_i hd
      refine .bind ((modifyDescriptor_acts firm_active (tied_restorePayload _)).weaken ?_
        fun _ _ hv => hv) fun _ => writePayload_acts _
      rintro v ⟨rfl, -⟩
      simpa [Active] using hd
  · exact .pure fun _ _ => trivial

theorem serveRead_acts : Step.ActsFrom host Active (serveRead host) fun _ _ => True := by
  refine ensureConnected_acts.bind fun connected => ?_
  split
  · refine getDescriptor_acts.bind fun d => ?_
    split
    · refine .bind (markIo_acts firm_able) fun _ => ?_
      exact (readSocket_acts _).bind fun outcome => finishRead_acts outcome
    · exact .pure fun _ _ => trivial
  · exact .pure fun _ _ => trivial

theorem serveWrite_acts : Step.ActsFrom host Active (serveWrite host) fun _ _ => True := by
  refine ensureConnected_acts.bind fun connected => ?_
  split
  · refine getDescriptor_acts.bind fun d => ?_
    split
    · exact flush_acts _
    · exact announceWrite_acts _
    · exact .pure fun _ _ => trivial
  · exact .pure fun _ _ => trivial

theorem reportFailure_acts (error : IoError) :
    Step.ActsFrom host (fun _ => True) (reportFailure host error) fun _ _ => True := by
  refine .seq (report_acts _ none).attempt fun result => ?_
  split
  · exact .cut
  · exact markComplete_acts

end Visit

theorem Duty.work_acts (duty : Duty) :
    Step.ActsFrom host Visit.Active (duty.work host) fun _ _ => True := by
  cases duty with
  | opening => exact Visit.settle_acts Visit.connect_acts.mapCut
  | reading => exact Visit.settle_acts Visit.serveRead_acts
  | writing => exact Visit.settle_acts Visit.serveWrite_acts

theorem Step.ActsFrom.acts {ε α : Type} {Pre : Visit W S H P → Prop}
    {x : Step (Visit W S H P) ε α} {Post : α → Visit W S H P → Prop}
    (hx : Step.ActsFrom host Pre x Post) {v : Visit W S H P} (hv : Pre v) :
    v.Acts host (x v).2 := by
  obtain ⟨⟨t, hm, rfl | ⟨-, hc⟩⟩, -⟩ := hx v hv
  · exact hm
  · exact hc.elim

end Reactor
