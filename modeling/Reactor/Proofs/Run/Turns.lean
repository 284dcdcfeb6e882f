import Reactor.Proofs.Run.Moves

/-! The turns of a socket: what the work on it has done when it has come to its end without a
report of a failure. -/

namespace Reactor

variable {W S H P : Type} {host : Host W S H P}

def Deed.Blames (h : SocketHandle) : Deed S H → Prop
  | .reported k _ _ _ => k = h
  | _ => False

/-- The session has gone on without a report of a failure of the socket. -/
def Session.Blameless (h : SocketHandle) (s s' : Session W S H P) : Prop :=
  ∃ deeds, s'.journal = s.journal ++ deeds ∧ ∀ deed ∈ deeds, ¬ deed.Blames h

namespace Session.Blameless

variable {h : SocketHandle} {s s' : Session W S H P}

theorem not_mem (hb : s.Blameless h s') {deeds more : List (Deed S H)} {deed : Deed S H}
    (hj : s'.journal = s.journal ++ deeds ++ deed :: more) : ¬ deed.Blames h := by
  obtain ⟨all, hall, hnone⟩ := hb
  rw [hj, List.append_assoc] at hall
  refine hnone deed ?_
  rw [← List.append_cancel_left hall]
  simp

end Session.Blameless

/-- The deed belongs to the opening of the socket or to the announcement of its connection. -/
def Deed.IsGreeting (h : SocketHandle) : Deed S H → Prop
  | .called k _ (.connect _) | .called k _ .pollConnect | .raised k _ .connected
  | .heard k _ _ _ => k = h
  | _ => False

theorem Deed.IsHearing.isGreeting {h : SocketHandle} {deed : Deed S H}
    (hd : deed.IsHearing host h) : deed.IsGreeting h := by
  cases deed with
  | heard => exact hd.1
  | _ => exact hd.elim

namespace Visit

/-- A failure in the work on a socket is reported. -/
theorem settle_done {work : Step (Visit W S H P) Interrupt Unit} (hw : Step.Works host work)
    {v t : Visit W S H P} (h : settle host work v = (.done (), t))
    (hb : v.session.Blameless v.descriptor.handle t.session) : work v = (.done (), t) := by
  obtain ⟨result, u, hresult, hrest⟩ := Step.done_of_bind h
  obtain ⟨deeds, hdeeds⟩ := (hw.moves v).worked
  rcases Step.done_of_attempt hresult with ⟨_, rfl, hx⟩ | ⟨interrupt, rfl, hx⟩
  · cases hrest
    exact hx
  rw [hx] at hdeeds
  cases interrupt with
  | halt halt => cases hrest
  | fault error event =>
      obtain ⟨result, w, hreport, hfail⟩ := Step.done_of_bind hrest
      obtain ⟨hearings, -, hadv, -⟩ := dispatchFault_advances host error event u
      have hsession : t.session = (dispatchFault host error event u).2.session := by
        obtain ⟨_, w', hmark, hend⟩ := Step.done_of_bind hfail
        cases hmark
        rcases Step.done_of_attempt hreport with ⟨_, rfl, hx'⟩ | ⟨halt, rfl, hx'⟩
        · cases hend
          rw [hx']
        · cases hend
      have hj : t.session.journal = v.session.journal ++ deeds ++
          .reported u.descriptor.handle u.descriptor.standing error event :: hearings := by
        rw [hsession, hadv.journal, hdeeds.advances.journal]
      exact absurd hdeeds.handle (hb.not_mem hj)

/-- The visit once it is noted that the present operation has been tried. -/
def tried (v : Visit W S H P) : Visit W S H P :=
  { v with descriptor := v.descriptor.mapMetadata fun m => { m with lastIoStart := true } }

section Parts

variable {ε α : Type} (v : Visit W S H P)

theorem getDescriptor_bind (x : Descriptor S H → Step (Visit W S H P) ε α) :
    (getDescriptor >>= x) v = x v.descriptor v := rfl

theorem modifyDescriptor_bind (f : Descriptor S H → Descriptor S H)
    (x : Unit → Step (Visit W S H P) ε α) :
    (modifyDescriptor f >>= x) v = x () { v with descriptor := f v.descriptor } := rfl

theorem markIo_bind (x : Unit → Step (Visit W S H P) ε α) : (markIo >>= x) v = x () v.tried := rfl

end Parts

def withOperation (v : Visit W S H P) (operation : Option Operation) : Visit W S H P :=
  { v with descriptor := { v.descriptor with operation := operation } }

def withBacklog (v : Visit W S H P) (backlog : Option WriteBacklog) : Visit W S H P :=
  { v with descriptor := { v.descriptor with backlog := backlog } }

/-! ## The connection -/

/-- The socket was opened, or asked whether its connection is established; nothing has changed but
what the hooks and the socket itself may change about that. -/
structure Greeted (host : Host W S H P) (v v' : Visit W S H P) : Prop where
  advances : ∃ deeds, v.session.Advances deeds v'.session ∧
    ∀ deed ∈ deeds, deed.IsGreeting v.descriptor.handle
  descriptor : ∃ metadata handler socket, v'.descriptor = { v.descriptor with
    metadata := metadata, handler := handler, socket := socket }
  socket : v'.descriptor.socket = v.descriptor.socket ∨
    v'.descriptor.socket =
      (host.sockets.pollConnect v.session.world v.descriptor.socket).socket ∨
    host.sockets.isOpen v.session.world v.descriptor.socket = false ∧ ∃ address,
      v'.descriptor.socket =
        (host.sockets.connect v.session.world v.descriptor.socket address).socket

theorem Greeted.refl (v : Visit W S H P) : v.Greeted host v :=
  ⟨⟨[], .refl _, by simp⟩, ⟨_, _, _, rfl⟩, .inl rfl⟩

section Greeted

variable {v v' : Visit W S H P}

theorem Greeted.operation (h : v.Greeted host v') :
    v'.descriptor.operation = v.descriptor.operation := by
  obtain ⟨m, own, socket, hd⟩ := h.descriptor
  rw [hd]

theorem Greeted.backlog (h : v.Greeted host v') :
    v'.descriptor.backlog = v.descriptor.backlog := by
  obtain ⟨m, own, socket, hd⟩ := h.descriptor
  rw [hd]

theorem Greeted.handle (h : v.Greeted host v') :
    v'.descriptor.handle = v.descriptor.handle := by
  obtain ⟨m, own, socket, hd⟩ := h.descriptor
  rw [hd]

end Greeted

/-- Opening a socket calls it at most. -/
theorem connect_done {v t : Visit W S H P} (h : connect host v = (.done (), t)) :
    v.Greeted host t ∧ t.descriptor.isComplete = v.descriptor.isComplete := by
  rw [connect, getDescriptor_bind] at h
  split at h
  · cases h
    exact ⟨.refl v, rfl⟩
  rw [modifyDescriptor_bind, Step.get_bind] at h
  split at h
  · cases h
    exact ⟨⟨⟨[], .refl _, by simp⟩, ⟨_, _, _, rfl⟩, .inl rfl⟩, rfl⟩
  rename_i hclosed
  rcases ha : v.descriptor.metadata.address with _ | address
  all_goals rw [ha] at h
  · cases h
  obtain rfl := congrArg Prod.snd h
  refine ⟨⟨⟨_, v.session.advances_note _ _ _ rfl, ?_⟩, ⟨_, _, _, rfl⟩,
    .inr (.inr ⟨by simpa using hclosed, _, rfl⟩)⟩, rfl⟩
  intro deed hd
  obtain rfl := List.mem_singleton.1 hd
  exact rfl

/-- Ensuring the connection asks the socket and tells the hooks at most. -/
theorem ensureConnected_done {v u : Visit W S H P} {connected : Bool}
    (h : ensureConnected host v = (.done connected, u)) : v.Greeted host u := by
  rw [ensureConnected, getDescriptor_bind] at h
  split at h
  · cases h
    exact .refl v
  obtain ⟨established, w, hpoll, h⟩ := Step.done_of_bind h
  have hw : (callSocket host.sockets.pollConnect (fun _ => .pollConnect) v).2 = w :=
    congrArg Prod.snd (Step.done_of_mapCut hpoll)
  have hcalled : v.session.Advances
      [.called v.descriptor.handle v.descriptor.standing .pollConnect] w.session := by
    rw [← hw]
    exact v.session.advances_note _ _ _ rfl
  have hd : w.descriptor = { v.descriptor with
      socket := (host.sockets.pollConnect v.session.world v.descriptor.socket).socket } := by
    rw [← hw]
    rfl
  split at h
  · rw [modifyDescriptor_bind] at h
    obtain ⟨payload, y, hraise, h⟩ := Step.done_of_bind h
    cases h
    obtain ⟨hearings, hh, hadv, m, own, hd'⟩ := dispatch_advances host .connected { w with
      descriptor := w.descriptor.mapMetadata fun m => { m with connectFinish := true } }
    rw [hraise] at hadv hd'
    have hhandle : w.descriptor.handle = v.descriptor.handle := by rw [hd]
    refine ⟨⟨_, hcalled.trans hadv, ?_⟩, ⟨m, own, w.descriptor.socket, ?_⟩, .inr (.inl ?_)⟩
    · intro deed hdeed
      simp only [List.singleton_append, List.mem_cons] at hdeed
      rcases hdeed with rfl | rfl | hdeed
      · exact rfl
      · exact hhandle
      · have hg := (hh deed hdeed).isGreeting
        exact hhandle ▸ hg
    · rw [hd', hd]
      rfl
    · rw [hd', hd]
      rfl
  · cases h
    refine ⟨⟨_, hcalled, ?_⟩, ⟨v.descriptor.metadata, v.descriptor.handler, _, hd⟩,
      .inr (.inl (by rw [hd]))⟩
    intro deed hdeed
    obtain rfl := List.mem_singleton.1 hdeed
    exact rfl

/-! ## Reading -/

inductive ReadTurn (host : Host W S H P) (v : Visit W S H P) : Visit W S H P → Prop where
  /-- The connection is not established yet. -/
  | waiting {u : Visit W S H P} (hc : ensureConnected host v = (.done false, u)) :
      ReadTurn host v u
  /-- The operation is not one to read. -/
  | unwilling {u : Visit W S H P} (hc : ensureConnected host v = (.done true, u))
      (ho : ∀ r, u.descriptor.operation ≠ some (.read r)) : ReadTurn host v u
  | served {u w t : Visit W S H P} {r : ReadOperation} {outcome : ReadOutcome S}
      (hc : ensureConnected host v = (.done true, u))
      (ho : u.descriptor.operation = some (.read r))
      (hr : readSocket host r u.tried = (.done outcome, w))
      (hf : finishRead host (.ok outcome) w = (.done (), t)) : ReadTurn host v t

theorem Greeted.journal {v u : Visit W S H P} (h : v.Greeted host u) :
    ∃ deeds, u.session.journal = v.session.journal ++ deeds := by
  obtain ⟨deeds, hadv, -⟩ := h.advances
  exact ⟨deeds, hadv.journal⟩

theorem journal_readSocket (host : Host W S H P) (r : ReadOperation) (v : Visit W S H P) :
    (readSocket host r v).2.session.journal = v.session.journal ++
      [.called v.descriptor.handle v.descriptor.standing (.read r.outOfBand)] := by
  simp [readSocket, Session.note]

/-- A failure to accept a client is reported, although the work goes on. -/
theorem finishRead_error {error : SocketError} {w t : Visit W S H P}
    (h : finishRead host (.error error) w = (.done (), t)) :
    ∃ standing more, t.session.journal =
      w.session.journal ++ .reported w.descriptor.handle standing error none :: more := by
  cases error with
  | accept cause =>
      obtain ⟨_, x, hreport, h⟩ := Step.done_of_bind h
      cases h
      have hx : (dispatchFault host (.accept cause) none w).2 = x :=
        congrArg Prod.snd (Step.done_of_mapCut hreport)
      obtain ⟨hearings, -, hadv, -⟩ := dispatchFault_advances host (.accept cause) none w
      rw [hx] at hadv
      exact ⟨_, _, hadv.journal⟩
  | _ => cases h

theorem serveRead_done {v t : Visit W S H P} (h : serveRead host v = (.done (), t))
    (hb : v.session.Blameless v.descriptor.handle t.session) : v.ReadTurn host t := by
  obtain ⟨connected, u, hc, h⟩ := Step.done_of_bind h
  cases connected with
  | false =>
      cases h
      exact .waiting hc
  | true =>
      rw [if_pos rfl, getDescriptor_bind] at h
      rcases ho : u.descriptor.operation with _ | (r | w)
      all_goals rw [ho] at h
      · cases h
        exact .unwilling hc (by simp [ho])
      · dsimp only at h
        rw [markIo_bind] at h
        obtain ⟨result, w, hread, h⟩ := Step.done_of_bind h
        rcases Step.done_of_attempt hread with ⟨outcome, rfl, hr⟩ | ⟨error, rfl, hr⟩
        · exact .served hc ho hr h
        · have hgreeted := ensureConnected_done hc
          have hw : (readSocket host r u.tried).2 = w := congrArg Prod.snd hr
          obtain ⟨deeds, hj⟩ := hgreeted.journal
          obtain ⟨standing, more, hj'⟩ := finishRead_error h
          have hread := journal_readSocket host r u.tried
          have hhandle : w.descriptor.handle = v.descriptor.handle := by
            rw [← hw, ← hgreeted.handle]
            rfl
          have hu : u.tried.session.journal = v.session.journal ++ deeds := hj
          rw [hw, hu, List.append_assoc] at hread
          rw [hread] at hj'
          exact absurd hhandle (hb.not_mem hj')
      · cases h
        exact .unwilling hc (by simp [ho])

/-! ## Writing -/

end Visit

/-- Goes on after a write that has left so much: with the rest, or with the next operation once
nothing is left. -/
def Descriptor.carryOn (d : Descriptor S H) (left : WriteBacklog) : Descriptor S H :=
  if left.data.isEmpty then d.adoptNext left.next else { d with backlog := some left }

/-- A socket that has something left to do goes on with the next operation, or is completed if there
is none. -/
theorem Descriptor.adoptNext_of_active {d : Descriptor S H} (hc : d.isComplete = false)
    (next : Option Operation) : (d.adoptNext next).operation = next ∧
      (d.adoptNext next).backlog = none ∧ (d.adoptNext next).isComplete = next.isNone := by
  cases next with
  | none => exact ⟨rfl, rfl, rfl⟩
  | some o =>
      have heq : d.adoptNext (some o) =
          { d with metadata := { d.metadata with lastIoStart := false } }.setOperation o :=
        if_neg (by simp [hc])
      rw [heq]
      exact ⟨rfl, rfl, rfl⟩

namespace Visit

def carryOn (v : Visit W S H P) (left : WriteBacklog) : Visit W S H P :=
  { v with descriptor := v.descriptor.carryOn left }

inductive WriteTurn (host : Host W S H P) (v : Visit W S H P) : Visit W S H P → Prop where
  /-- The connection is not established yet. -/
  | waiting {u : Visit W S H P} (hc : ensureConnected host v = (.done false, u)) :
      WriteTurn host v u
  /-- The operation is not one to write. -/
  | unwilling {u : Visit W S H P} (hc : ensureConnected host v = (.done true, u))
      (hb : u.descriptor.backlog = none) (ho : ∀ w, u.descriptor.operation ≠ some (.write w)) :
      WriteTurn host v u
  | flushed {u x : Visit W S H P} {backlog : WriteBacklog} {n : Nat}
      (hc : ensureConnected host v = (.done true, u))
      (hb : u.descriptor.backlog = some backlog)
      (hw : writeSocket host backlog.data backlog.outOfBand (u.withBacklog none).tried =
        (.done n, x)) : WriteTurn host v (x.carryOn (backlog.drain n))
  /-- The hooks have made something else of the event, or completed the socket. -/
  | withdrawn {u x : Visit W S H P} {w : WriteOperation} {payload : Payload S}
      (hc : ensureConnected host v = (.done true, u)) (hb : u.descriptor.backlog = none)
      (ho : u.descriptor.operation = some (.write w))
      (hd : dispatch host (.write w none) (u.withOperation (some (.write .empty))) =
        (.done payload, x))
      (hx : x.descriptor.isComplete = true ∨ ∀ w next, payload ≠ .write w next) :
      WriteTurn host v x
  /-- There is nothing to write. -/
  | idle {u x : Visit W S H P} {w w' : WriteOperation} {next : Option Operation}
      (hc : ensureConnected host v = (.done true, u)) (hb : u.descriptor.backlog = none)
      (ho : u.descriptor.operation = some (.write w))
      (hd : dispatch host (.write w none) (u.withOperation (some (.write .empty))) =
        (.done (.write w' next), x))
      (hx : x.descriptor.isComplete = false) (hn : w'.data = []) :
      WriteTurn host v
        ((x.withOperation (some (.write w'))).tried.carryOn ⟨w'.data, w'.outOfBand, next⟩)
  | written {u x y : Visit W S H P} {w w' : WriteOperation} {next : Option Operation} {n : Nat}
      (hc : ensureConnected host v = (.done true, u)) (hb : u.descriptor.backlog = none)
      (ho : u.descriptor.operation = some (.write w))
      (hd : dispatch host (.write w none) (u.withOperation (some (.write .empty))) =
        (.done (.write w' next), x))
      (hx : x.descriptor.isComplete = false) (hn : w'.data ≠ [])
      (hw : writeSocket host w'.data w'.outOfBand (x.withOperation (some (.write w'))).tried =
        (.done n, y)) :
      WriteTurn host v (y.carryOn (WriteBacklog.drain ⟨w'.data, w'.outOfBand, next⟩ n))

/-- A call to write changes nothing of the descriptor but its socket. -/
theorem writeSocket_done {data : Bytes} {outOfBand : Bool} {v x : Visit W S H P} {n : Nat}
    (h : writeSocket host data outOfBand v = (.done n, x)) :
    v.session.Advances [.called v.descriptor.handle v.descriptor.standing
        (.write data outOfBand (some n))] x.session ∧
      x.descriptor = { v.descriptor with
        socket := (host.sockets.write v.session.world v.descriptor.socket data outOfBand).socket } := by
  have hcall := Step.done_of_mapCut h
  have hending : (host.sockets.write v.session.world v.descriptor.socket data outOfBand).ending =
      .done n := congrArg Prod.fst hcall
  obtain rfl := congrArg Prod.snd hcall
  refine ⟨?_, rfl⟩
  simp only [callSocket, hending]
  exact v.session.advances_note _ _ _ rfl

theorem flush_done {backlog : WriteBacklog} {v t : Visit W S H P}
    (h : flush host backlog v = (.done (), t)) :
    ∃ n x, writeSocket host backlog.data backlog.outOfBand (v.withBacklog none).tried =
      (.done n, x) ∧ t = x.carryOn (backlog.drain n) := by
  rw [flush, modifyDescriptor_bind, markIo_bind] at h
  obtain ⟨n, x, hw, h⟩ := Step.done_of_bind h
  refine ⟨n, x, hw, ?_⟩
  dsimp only at h
  unfold carryOn Descriptor.carryOn
  split at h
  · rename_i he
    cases h
    rw [if_pos he]
    rfl
  · rename_i he
    cases h
    rw [if_neg he]

/-- The end of a first write is that of a flush. -/
theorem finishWrite_apply (w : WriteOperation) (next : Option Operation) (n : Nat)
    (v : Visit W S H P) :
    (if n < w.data.length then
        modifyDescriptor fun d => { d with backlog := some ⟨w.data.drop n, w.outOfBand, next⟩ }
      else modifyDescriptor (·.adoptNext next) : Step (Visit W S H P) Interrupt Unit) v =
      (.done (), v.carryOn (WriteBacklog.drain ⟨w.data, w.outOfBand, next⟩ n)) := by
  unfold carryOn Descriptor.carryOn WriteBacklog.drain
  by_cases hn : n < w.data.length
  · have hne : (w.data.drop n).isEmpty = false := by
      simp only [List.isEmpty_eq_false_iff, ne_eq, List.drop_eq_nil_iff, Nat.not_le]
      exact hn
    rw [if_pos hn]
    simp only [hne, Bool.false_eq_true, ite_false]
    rfl
  · have he : (w.data.drop n).isEmpty = true := by
      simpa using Nat.le_of_not_lt hn
    rw [if_neg hn]
    simp only [he, ite_true]
    rfl

/-- The first write of a payload. -/
theorem writePayload_done {w : WriteOperation} {next : Option Operation} {v t : Visit W S H P}
    (hv : v.descriptor.operation = some (.write w))
    (h : writePayload host next v = (.done (), t)) :
    (w.data = [] ∧ t = v.tried.carryOn ⟨w.data, w.outOfBand, next⟩) ∨
      w.data ≠ [] ∧ ∃ n x, writeSocket host w.data w.outOfBand v.tried = (.done n, x) ∧
        t = x.carryOn (WriteBacklog.drain ⟨w.data, w.outOfBand, next⟩ n) := by
  have hop : v.tried.descriptor.operation = some (.write w) := hv
  rw [writePayload, markIo_bind, getDescriptor_bind, hop] at h
  dsimp only at h
  by_cases hd : w.data = []
  · have hno : w.hasData = false := by simp [WriteOperation.hasData, hd]
    rw [hno] at h
    have hend := (finishWrite_apply w next 0 v.tried).symm.trans h
    refine .inl ⟨hd, ?_⟩
    simpa [WriteBacklog.drain] using (congrArg Prod.snd hend).symm
  · have hyes : w.hasData = true := by simp [WriteOperation.hasData, hd]
    rw [hyes] at h
    obtain ⟨n, x, hw, h⟩ := Step.done_of_bind h
    rw [finishWrite_apply w next n x] at h
    cases h
    exact .inr ⟨hd, n, x, hw, rfl⟩

theorem announceWrite_done {w : WriteOperation} {v t : Visit W S H P}
    (h : announceWrite host w v = (.done (), t)) :
    ∃ payload x, dispatch host (.write w none) (v.withOperation (some (.write .empty))) =
        (.done payload, x) ∧
      ((t = x ∧ (x.descriptor.isComplete = true ∨ ∀ w next, payload ≠ .write w next)) ∨
        ∃ w' next, payload = .write w' next ∧ x.descriptor.isComplete = false ∧
          writePayload host next (x.withOperation (some (.write w'))) = (.done (), t)) := by
  rw [announceWrite, modifyDescriptor_bind] at h
  obtain ⟨payload, x, hraise, h⟩ := Step.done_of_bind h
  refine ⟨payload, x, hraise, ?_⟩
  cases payload with
  | write w' next =>
      dsimp only at h
      rw [Run.unlessComplete_apply] at h
      split at h
      · rename_i hc
        cases h
        exact .inl ⟨rfl, .inl hc⟩
      · rename_i hc
        obtain ⟨-, -, -, m, own, hd⟩ := dispatch_advances host (.write w none)
          (v.withOperation (some (.write .empty)))
        have hx : x.descriptor.operation = some (.write .empty) := by
          have hsame : (dispatch host (.write w none)
            (v.withOperation (some (.write .empty)))).2 = x := congrArg Prod.snd hraise
          rw [← hsame, hd]
          rfl
        rw [modifyDescriptor_bind, restorePayload, hx] at h
        exact .inr ⟨w', next, rfl, by simpa using hc, h⟩
  | _ =>
      cases h
      exact .inl ⟨rfl, .inr fun _ _ hp => by cases hp⟩

theorem serveWrite_done {v t : Visit W S H P} (h : serveWrite host v = (.done (), t)) :
    v.WriteTurn host t := by
  obtain ⟨connected, u, hc, h⟩ := Step.done_of_bind h
  cases connected with
  | false =>
      cases h
      exact .waiting hc
  | true =>
      rw [if_pos rfl, getDescriptor_bind] at h
      rcases hb : u.descriptor.backlog with _ | backlog
      · rcases ho : u.descriptor.operation with _ | (r | w)
        all_goals rw [hb, ho] at h
        · cases h
          exact .unwilling hc hb (by simp [ho])
        · cases h
          exact .unwilling hc hb (by simp [ho])
        · obtain ⟨payload, x, hd, ⟨rfl, hx⟩ | ⟨w', next, rfl, hx, hwrite⟩⟩ :=
            announceWrite_done h
          · exact .withdrawn hc hb ho hd hx
          · rcases writePayload_done rfl hwrite with ⟨hn, rfl⟩ | ⟨hn, n, y, hw, rfl⟩
            · exact .idle hc hb ho hd hx hn
            · exact .written hc hb ho hd hx hn hw
      · rw [hb] at h
        obtain ⟨n, x, hw, rfl⟩ := flush_done h
        exact .flushed hc hb hw

end Visit

end Reactor
