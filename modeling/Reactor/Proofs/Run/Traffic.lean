import Reactor.Proofs.Frame.Assembler
import Reactor.Proofs.Run.Decoder
import Reactor.Proofs.Run.Delivery
import Reactor.Proofs.Transport.Assembling

/-! What one turn of a socket does for the operations that it is given: it serves the first of them,
if it can, exactly as a decoder would that is given the whole stream at once. -/

namespace Reactor

variable {W S H P σ : Type} [ChunkSource σ] {host : Host W S H P}

/-! ## What a turn chooses and receives -/

namespace Visit

def withoutPrevious (v : Visit W S H P) : Visit W S H P :=
  { v with descriptor := { v.descriptor with previous := none } }

/-- The operation that the hooks leave in an event for the socket to go on with. -/
def choice? (host : Host W S H P) (payload : Payload S) (v : Visit W S H P) : Option Operation :=
  match dispatch host payload v with
  | (.done payload, _) => payload.next?
  | _ => none

end Visit

namespace Turn

/-- The operation that the hooks choose in the turn, when they are told of a message or of a
write. -/
def choice? (host : Host W S H P) (t : Turn W S H P) : Option Operation :=
  match Visit.ensureConnected host t.before with
  | (.done true, u) =>
      match t.duty, u.descriptor.backlog, u.descriptor.operation with
      | .reading, _, some (.read r) =>
          match Visit.readSocket host r u.tried with
          | (.done (.frame frame), w) => w.withoutPrevious.choice? host (.read frame none)
          | _ => none
      | .writing, none, some (.write w) =>
          (u.withOperation (some (.write .empty))).choice? host (.write w none)
      | _, _, _ => none
  | _ => none

/-- The bytes that the assembler of the socket pulls in the turn. -/
def received (t : Turn W S H P) (A : host.sockets.Assembling σ) : Bytes :=
  match Visit.ensureConnected host t.before with
  | (.done true, u) =>
      match t.duty, u.descriptor.operation with
      | .reading, some (.read r) =>
          (A.assembler u.descriptor.socket).received r.picker
            (A.source u.session.world u.descriptor.socket)
      | _, _ => []
  | _ => []

end Turn

/-- No hook chooses an operation that does not frame messages. -/
def Host.Frames (host : Host W S H P) : Prop :=
  ∀ (v : Visit W S H P) (payload : Payload S) (link : Link H),
    (∀ o, payload.next? = some o → o.Framed) →
      ∀ o, (v.askAbout host payload link).2.payload.next? = some o → o.Framed

theorem Host.Frames.visit (hk : host.Frames) {v : Visit W S H P} {payload : Payload S}
    (hp : payload.next? = none) {o : Operation} (ho : v.choice? host payload = some o) :
    o.Framed := by
  rcases hx : Visit.dispatch host payload v with ⟨payload' | _ | _, x⟩
  all_goals
    simp only [Visit.choice?, hx] at ho
  · have hkeeps := Visit.dispatch_keeps
      (I := fun q _ => ∀ o, q.next? = some o → o.Framed) (fun v q link hq => hk v q link hq)
      (fun o ho => by rw [hp] at ho; cases ho) hx
    exact hkeeps o ho
  all_goals cases ho

theorem Host.Frames.turn (hk : host.Frames) {t : Turn W S H P} {o : Operation}
    (ho : t.choice? host = some o) : o.Framed := by
  unfold Turn.choice? at ho
  split at ho
  · split at ho
    · split at ho
      · exact hk.visit rfl ho
      · cases ho
    · exact hk.visit rfl ho
    · cases ho
  · cases ho

/-- Where a socket stands with its operations: which of them are still to come, and which bytes of
its stream are still to be used. -/
inductive Descriptor.Awaits (A : host.sockets.Assembling σ) (d : Descriptor S H) :
    List Operation → Bytes → Prop where
  /-- A message is being read. -/
  | reading {p q : Picker} {rest : Bytes} (ho : d.operation = some (.read ⟨p, false⟩))
      (hb : d.backlog = none) (hg : (A.assembler d.socket).Gathers p rest)
      (hp : p.cut? = q.cut?) : Awaits A d [.read ⟨q, false⟩] rest
  /-- The hooks have not been told of a write yet. -/
  | writing {w : WriteOperation} {rest : Bytes} (ho : d.operation = some (.write w))
      (hb : d.backlog = none) (hr : (A.assembler d.socket).unhandled = rest) :
      Awaits A d [.write w] rest
  /-- The hooks have been told of a write, and some of it is still to be offered. -/
  | flushing {w : WriteOperation} {backlog : WriteBacklog} {rest : Bytes}
      (ho : d.operation = some (.write w)) (hb : d.backlog = some backlog)
      (hf : ∀ o, backlog.next = some o → o.Framed)
      (hr : (A.assembler d.socket).unhandled = rest) : Awaits A d backlog.next.toList rest

/-- The socket goes on with the operations, or it has been completed; the bytes are there. -/
def Descriptor.Proceeds (A : host.sockets.Assembling σ) (d : Descriptor S H)
    (operations : List Operation) (rest : Bytes) : Prop :=
  d.isComplete = false ∧ d.Awaits A operations rest ∨
    d.isComplete = true ∧ (A.assembler d.socket).unhandled = rest

/-- What a turn has done with operations that are to come and bytes that are there: it has served
some of the operations, as the decoder does it, and the socket stands before the others and those
that the hooks have chosen. -/
def Turn.Serves (t : Turn W S H P) (A : host.sockets.Assembling σ) (operations : List Operation)
    (rest : Bytes) (v : Visit W S H P) : Prop :=
  ∃ served operations' rest' deeds, v.session.journal = t.before.session.journal ++ deeds ∧
    operations ++ (t.choice? host).toList = served ++ operations' ∧
    decode served (rest ++ t.received A) =
      some (announcements t.before.descriptor.handle deeds, rest') ∧
    v.descriptor.handle = t.before.descriptor.handle ∧ A.Is v.descriptor.socket ∧
    v.descriptor.Proceeds A operations' rest'

section Descriptor

variable {A : host.sockets.Assembling σ} {d d' : Descriptor S H} {operations : List Operation}
  {rest : Bytes}

theorem Descriptor.Awaits.of_same (h : d.Awaits A operations rest)
    (ho : d'.operation = d.operation) (hb : d'.backlog = d.backlog)
    (ha : A.assembler d'.socket = A.assembler d.socket) : d'.Awaits A operations rest := by
  cases h with
  | reading ho' hb' hg hp => exact .reading (ho.trans ho') (hb.trans hb') (ha ▸ hg) hp
  | writing ho' hb' hr => exact .writing (ho.trans ho') (hb.trans hb') (by rw [ha, hr])
  | flushing ho' hb' hf hr => exact .flushing (ho.trans ho') (hb.trans hb') hf (by rw [ha, hr])

theorem Descriptor.socket_adoptNext (d : Descriptor S H) (next : Option Operation) :
    (d.adoptNext next).socket = d.socket := (d.reworked_adoptNext next).socket

/-- To go on with an operation is to stand before it with the bytes that are left over. -/
theorem Descriptor.proceeds_adoptNext {next : Option Operation}
    (hf : ∀ o, next = some o → o.Framed) (hr : (A.assembler d.socket).unhandled = rest) :
    (d.adoptNext next).Proceeds A next.toList rest := by
  rw [← d.socket_adoptNext next] at hr
  cases next with
  | none => exact .inr ⟨rfl, hr⟩
  | some o =>
      cases hc : d.isComplete with
      | true =>
          refine .inr ⟨?_, hr⟩
          rw [Descriptor.adoptNext, if_pos hc, Descriptor.isComplete_markComplete]
      | false =>
          obtain ⟨ho, hb, hcomplete⟩ := Descriptor.adoptNext_of_active hc (some o)
          refine .inl ⟨hcomplete, ?_⟩
          cases hf o rfl with
          | read hp => exact .reading ho hb (.unused hp hr) rfl
          | write w => exact .writing ho hb hr

theorem Descriptor.carryOn_keeps (d : Descriptor S H) (left : WriteBacklog) :
    (d.carryOn left).handle = d.handle ∧ (d.carryOn left).socket = d.socket := by
  unfold Descriptor.carryOn
  split
  · exact ⟨d.handle_adoptNext _, d.socket_adoptNext _⟩
  · exact ⟨rfl, rfl⟩

theorem Descriptor.proceeds_carryOn (hc : d.isComplete = false) {w : WriteOperation}
    (ho : d.operation = some (.write w)) {left : WriteBacklog}
    (hf : ∀ o, left.next = some o → o.Framed) (hr : (A.assembler d.socket).unhandled = rest) :
    (d.carryOn left).Proceeds A left.next.toList rest := by
  unfold Descriptor.carryOn
  split
  · exact proceeds_adoptNext hf hr
  · exact .inl ⟨hc, .flushing ho rfl hf hr⟩

end Descriptor

/-! ## The turns -/

section Turns

variable {A : host.sockets.Assembling σ} {t : Turn W S H P} {operations : List Operation}
  {rest : Bytes} {u v : Visit W S H P}

theorem Visit.Greeted.assembling (hg : u.Greeted host v) (hi : A.Is u.descriptor.socket) :
    A.Is v.descriptor.socket ∧
      A.assembler v.descriptor.socket = A.assembler u.descriptor.socket := by
  rcases hg.socket with hs | hs | ⟨hclosed, address, hs⟩
  · rw [hs]
    exact ⟨hi, rfl⟩
  · rw [hs]
    exact A.pollConnect hi
  · rw [hs]
    exact A.connect hi hclosed address

theorem Visit.Greeted.awaits (hg : u.Greeted host v) (hi : A.Is u.descriptor.socket)
    (ha : u.descriptor.Awaits A operations rest) : v.descriptor.Awaits A operations rest :=
  ha.of_same hg.operation hg.backlog (hg.assembling hi).2

/-- A turn in which nothing is transferred. -/
theorem Turn.serves_of_greeted (hg : t.before.Greeted host v) (hi : A.Is t.before.descriptor.socket)
    (ha : t.before.descriptor.Awaits A operations rest) (hc : v.descriptor.isComplete = false)
    (hchoice : t.choice? host = none) (hreceived : t.received A = []) :
    t.Serves A operations rest v := by
  obtain ⟨deeds, hadv, hgreet⟩ := hg.advances
  have hannounced : announcements t.before.descriptor.handle deeds = [] :=
    announcements_eq_nil fun deed hd => (hgreet deed hd).not_transfer
  refine ⟨[], operations, rest, deeds, hadv.journal, ?_, ?_, hg.handle, (hg.assembling hi).1,
    .inl ⟨hc, hg.awaits hi ha⟩⟩
  · simp [hchoice]
  · rw [hreceived, List.append_nil, hannounced]
    rfl

theorem Turn.silent_of_opening (hd : t.duty = .opening) :
    t.choice? host = none ∧ t.received A = [] := by
  unfold choice? received
  rw [hd]
  split <;> exact ⟨rfl, rfl⟩

theorem Turn.silent_of_waiting (hc : Visit.ensureConnected host t.before = (.done false, u)) :
    t.choice? host = none ∧ t.received A = [] := by
  unfold choice? received
  rw [hc]
  exact ⟨rfl, rfl⟩

theorem Turn.silent_of_unwilling_to_read (hd : t.duty = .reading)
    (hc : Visit.ensureConnected host t.before = (.done true, u))
    (ho : ∀ r, u.descriptor.operation ≠ some (.read r)) :
    t.choice? host = none ∧ t.received A = [] := by
  simp only [choice?, received, hc, hd]
  rcases hop : u.descriptor.operation with _ | (r | w)
  · exact ⟨rfl, rfl⟩
  · exact absurd hop (ho r)
  · exact ⟨rfl, rfl⟩

theorem Turn.choice?_of_unwilling_to_write (hd : t.duty = .writing)
    (hc : Visit.ensureConnected host t.before = (.done true, u))
    (hb : u.descriptor.backlog = none) (ho : ∀ w, u.descriptor.operation ≠ some (.write w)) :
    t.choice? host = none := by
  simp only [choice?, hc, hd, hb]
  rcases hop : u.descriptor.operation with _ | (r | w)
  · rfl
  · rfl
  · exact absurd hop (ho w)

theorem Turn.received_of_writing (hd : t.duty = .writing) : t.received A = [] := by
  unfold received
  rw [hd]
  split <;> rfl

/-! ### Reading -/

/-- What a read has come to, and what it leaves of the socket that it was made of. -/
theorem Visit.readSocket_done {r : ReadOperation} {outcome : ReadOutcome S}
    (h : Visit.readSocket host r u = (.done outcome, v)) :
    (host.sockets.read u.session.world u.descriptor.socket r.picker u.descriptor.previous
        r.outOfBand).1.ending = .done outcome ∧
      v.descriptor = { u.descriptor with
        socket := (host.sockets.read u.session.world u.descriptor.socket r.picker
          u.descriptor.previous r.outOfBand).1.socket
        operation := some (.read { r with
          picker := (host.sockets.read u.session.world u.descriptor.socket r.picker
            u.descriptor.previous r.outOfBand).2 }) } ∧
      v.session.journal = u.session.journal ++
        [.called u.descriptor.handle u.descriptor.standing (.read r.outOfBand)] := by
  have hj := journal_readSocket host r u
  rw [h] at hj
  obtain rfl := congrArg Prod.snd h
  exact ⟨congrArg Prod.fst h, rfl, hj⟩

/-- A message is announced, and the socket goes on with the operation that the hooks choose. -/
theorem Visit.finishRead_frame {frame : Frame} (h : Visit.finishRead host (.ok (.frame frame)) u =
    (.done (), v)) : ∃ payload x next,
      Visit.dispatch host (.read frame none) u.withoutPrevious = (.done payload, x) ∧
        v = { x with descriptor := x.descriptor.adoptNext next } ∧
        (next = none ∨ next = payload.next?) := by
  rw [Visit.finishRead, Visit.modifyDescriptor_bind] at h
  obtain ⟨payload, x, hraise, h⟩ := Step.done_of_bind h
  cases h
  refine ⟨payload, x, _, hraise, rfl, ?_⟩
  cases payload with
  | read => exact .inr rfl
  | _ => exact .inl rfl

/-- A read makes of the stream what its picker defines. -/
theorem Visit.readSocket_cuts {p : Picker} {outcome : ReadOutcome S}
    (hi : A.Is u.descriptor.socket) (hg : (A.assembler u.descriptor.socket).Gathers p rest)
    (h : Visit.readSocket host ⟨p, false⟩ u = (.done outcome, v)) :
    A.Is v.descriptor.socket ∧ ∃ reading, outcome = .ofReading reading ∧
      let stream := rest ++ (A.assembler u.descriptor.socket).received p
        (A.source u.session.world u.descriptor.socket)
      match reading with
      | .frame frame =>
          p.cut? stream = some (frame.data, (A.assembler v.descriptor.socket).unhandled)
      | .pending _ => ∃ q, v.descriptor.operation = some (.read ⟨q, false⟩) ∧
          q.cut? = p.cut? ∧ (A.assembler v.descriptor.socket).Gathers q stream := by
  obtain ⟨hending, hv, -⟩ := Visit.readSocket_done h
  obtain ⟨⟨reading, rfl, hreading⟩, hpicker, his, hassembler⟩ :=
    A.read hi p u.descriptor.previous hending
  have hcuts := FrameAssembler.assemble_cuts hg (A.source u.session.world u.descriptor.socket)
    reading hreading
  have hsocket : v.descriptor.socket =
      (host.sockets.read u.session.world u.descriptor.socket p u.descriptor.previous
        false).1.socket := by rw [hv]
  rw [hsocket, hassembler]
  refine ⟨his, reading, rfl, ?_⟩
  cases reading with
  | frame => exact hcuts
  | pending =>
      refine ⟨_, by rw [hv, hpicker], hcuts.2.2, .used hcuts.2.1 hcuts.2.1.cut? hcuts.1⟩

section Reading

variable {r : ReadOperation} {w : Visit W S H P}

theorem Turn.received_of_reading (hd : t.duty = .reading)
    (hc : Visit.ensureConnected host t.before = (.done true, u))
    (ho : u.descriptor.operation = some (.read r)) :
    t.received A = (A.assembler u.descriptor.socket).received r.picker
      (A.source u.session.world u.descriptor.socket) := by
  simp only [received, hc, hd, ho]

theorem Turn.choice?_of_pending {snapshot : PartialFrame} (hd : t.duty = .reading)
    (hc : Visit.ensureConnected host t.before = (.done true, u))
    (ho : u.descriptor.operation = some (.read r))
    (hr : Visit.readSocket host r u.tried = (.done (.pending snapshot), w)) :
    t.choice? host = none := by
  simp only [choice?, hc, hd, ho, hr]

theorem Turn.choice?_of_frame {frame : Frame} {payload : Payload S} (hd : t.duty = .reading)
    (hc : Visit.ensureConnected host t.before = (.done true, u))
    (ho : u.descriptor.operation = some (.read r))
    (hr : Visit.readSocket host r u.tried = (.done (.frame frame), w))
    (hx : Visit.dispatch host (.read frame none) w.withoutPrevious = (.done payload, v)) :
    t.choice? host = payload.next? := by
  simp only [choice?, hc, hd, ho, hr, Visit.choice?, hx]

end Reading

/-- A read itself tells the hooks nothing. -/
theorem Turn.read_quietly {p : Picker} {outcome : ReadOutcome S} {w : Visit W S H P}
    (hc : Visit.ensureConnected host t.before = (.done true, u))
    (hr : Visit.readSocket host ⟨p, false⟩ u.tried = (.done outcome, w)) :
    w.descriptor.handle = t.before.descriptor.handle ∧
      w.descriptor.backlog = u.descriptor.backlog ∧
      w.descriptor.isComplete = u.descriptor.isComplete ∧ ∃ deeds,
        w.session.journal = t.before.session.journal ++ deeds ∧
          announcements t.before.descriptor.handle deeds = [] := by
  have hg := Visit.ensureConnected_done hc
  obtain ⟨greetings, hadv, hgreet⟩ := hg.advances
  obtain ⟨-, hw, hcalled⟩ := Visit.readSocket_done hr
  rw [show u.tried.session = u.session from rfl, hadv.journal, List.append_assoc] at hcalled
  rw [hw]
  refine ⟨hg.handle, rfl, rfl, _, hcalled, ?_⟩
  rw [announcements_append, announcements_eq_nil fun deed hdeed => (hgreet deed hdeed).not_transfer]
  rfl

/-- A turn in which the socket is read, and the message is not complete yet. -/
theorem Turn.serves_of_pending {p q : Picker} {snapshot : PartialFrame} {w : Visit W S H P}
    (hd : t.duty = .reading) (hc : Visit.ensureConnected host t.before = (.done true, u))
    (hi : A.Is u.descriptor.socket) (hactive : u.descriptor.isComplete = false)
    (ho : u.descriptor.operation = some (.read ⟨p, false⟩)) (hb : u.descriptor.backlog = none)
    (hg : (A.assembler u.descriptor.socket).Gathers p rest) (hp : p.cut? = q.cut?)
    (hr : Visit.readSocket host ⟨p, false⟩ u.tried = (.done (.pending snapshot), w))
    (hv : Visit.finishRead host (.ok (.pending snapshot)) w = (.done (), v)) :
    t.Serves A [.read ⟨q, false⟩] rest v := by
  obtain ⟨hhandle, hbacklog, hstill, deeds, hj, hsilent⟩ := Turn.read_quietly hc hr
  obtain ⟨hiw, reading, hreading, hcuts⟩ := Visit.readSocket_cuts (u := u.tried) hi hg hr
  cases reading with
  | frame => cases hreading
  | pending =>
      obtain ⟨p', hop, hp', hgathers⟩ := hcuts
      cases hv
      refine ⟨[], [.read ⟨q, false⟩], rest ++ t.received A, deeds, hj, ?_, ?_, hhandle, hiw,
        .inl ⟨hstill.trans hactive, .reading hop (hbacklog.trans hb) ?_ (hp'.trans hp)⟩⟩
      · simp [Turn.choice?_of_pending hd hc ho hr]
      · rw [hsilent]
        rfl
      · rw [Turn.received_of_reading hd hc ho]
        exact hgathers

/-- A turn in which a message is announced that a read has completed. -/
theorem Turn.serves_of_frame {p q : Picker} {frame : Frame} {w : Visit W S H P}
    (hd : t.duty = .reading) (hf : ∀ o, t.choice? host = some o → o.Framed)
    (hc : Visit.ensureConnected host t.before = (.done true, u))
    (hi : A.Is u.descriptor.socket) (ho : u.descriptor.operation = some (.read ⟨p, false⟩))
    (hg : (A.assembler u.descriptor.socket).Gathers p rest) (hp : p.cut? = q.cut?)
    (hr : Visit.readSocket host ⟨p, false⟩ u.tried = (.done (.frame frame), w))
    (hv : Visit.finishRead host (.ok (.frame frame)) w = (.done (), v)) :
    t.Serves A [.read ⟨q, false⟩] rest v := by
  obtain ⟨hhandle, -, -, deeds, hj, hsilent⟩ := Turn.read_quietly hc hr
  obtain ⟨hiw, reading, hreading, hcuts⟩ := Visit.readSocket_cuts (u := u.tried) hi hg hr
  obtain ⟨payload, x, next, hx, rfl, hnext⟩ := Visit.finishRead_frame hv
  obtain ⟨hearings, hhear, hadv, m, own, hdx⟩ :=
    Visit.dispatch_advances host (.read frame none) w.withoutPrevious
  rw [hx] at hadv hdx
  have hsocket : x.descriptor.socket = w.descriptor.socket := by
    rw [hdx]
    rfl
  have htold : announcements t.before.descriptor.handle (deeds ++ .raised w.descriptor.handle
      w.withoutPrevious.descriptor.standing (.read frame none) :: hearings) =
        [.read frame.data] := by
    rw [announcements_append, hsilent, announcements_cons_read hhandle,
      announcements_eq_nil fun deed hdeed => (hhear deed hdeed).isGreeting.not_transfer]
    rfl
  have hjournal := hadv.journal
  rw [show w.withoutPrevious.session = w.session from rfl, hj, List.append_assoc] at hjournal
  have hchoice := Turn.choice?_of_frame hd hc ho hr hx
  cases reading with
  | pending => cases hreading
  | frame =>
      cases hreading
      refine ⟨[.read ⟨q, false⟩], payload.next?.toList,
        (A.assembler w.descriptor.socket).unhandled, _, hjournal, by simp [hchoice], ?_, ?_, ?_, ?_⟩
      · rw [Turn.received_of_reading hd hc ho]
        exact htold ▸ decode_read (hp ▸ hcuts)
      · rw [Descriptor.handle_adoptNext, hdx]
        exact hhandle
      · rw [Descriptor.socket_adoptNext, hsocket]
        exact hiw
      · rw [← hchoice] at hnext ⊢
        rw [← hsocket]
        rcases hnext with rfl | rfl
        · exact .inr ⟨rfl, congrArg _ (congrArg _ (Descriptor.socket_adoptNext _ _))⟩
        · exact Descriptor.proceeds_adoptNext hf rfl

/-- A turn in which the socket is read. -/
theorem Turn.serves_of_read {r : ReadOperation} {outcome : ReadOutcome S} {w : Visit W S H P}
    (hd : t.duty = .reading) (hi : A.Is t.before.descriptor.socket)
    (ha : t.before.descriptor.Awaits A operations rest)
    (hf : ∀ o, t.choice? host = some o → o.Framed)
    (hc : Visit.ensureConnected host t.before = (.done true, u))
    (hactive : u.descriptor.isComplete = false)
    (ho : u.descriptor.operation = some (.read r))
    (hr : Visit.readSocket host r u.tried = (.done outcome, w))
    (hv : Visit.finishRead host (.ok outcome) w = (.done (), v)) :
    t.Serves A operations rest v := by
  have hg := Visit.ensureConnected_done hc
  obtain ⟨hiu, -⟩ := hg.assembling hi
  cases hg.awaits hi ha with
  | writing ho' | flushing ho' =>
      rw [ho] at ho'
      cases ho'
  | @reading p q _ ho' hb hgathers hp =>
      obtain rfl : r = ⟨p, false⟩ := by simpa [ho] using ho'
      obtain ⟨-, reading, rfl, -⟩ := Visit.readSocket_cuts (u := u.tried) hiu hgathers hr
      cases reading with
      | pending => exact Turn.serves_of_pending hd hc hiu hactive ho hb hgathers hp hr hv
      | frame => exact Turn.serves_of_frame hd hf hc hiu ho hgathers hp hr hv

/-! ### Writing -/

/-- A call to write leaves alone what the socket keeps of its stream. -/
theorem Visit.writeSocket_keeps {data : Bytes} {outOfBand : Bool} {n : Nat}
    (hi : A.Is u.descriptor.socket)
    (h : Visit.writeSocket host data outOfBand u = (.done n, v)) :
    A.Is v.descriptor.socket ∧
      A.assembler v.descriptor.socket = A.assembler u.descriptor.socket := by
  obtain ⟨-, hv⟩ := Visit.writeSocket_done h
  rw [hv]
  exact A.write hi data outOfBand

/-- What is left of a write is carried on with, with all that the socket keeps of its stream. -/
theorem Turn.serves_of_carryOn (served : List Operation) {deeds : List (Deed S H)}
    {w : WriteOperation} {left : WriteBacklog}
    (hj : v.session.journal = t.before.session.journal ++ deeds)
    (hops : operations ++ (t.choice? host).toList = served ++ left.next.toList)
    (hdecode : decode served (rest ++ t.received A) =
      some (announcements t.before.descriptor.handle deeds, rest))
    (hh : v.descriptor.handle = t.before.descriptor.handle) (hi : A.Is v.descriptor.socket)
    (hc : v.descriptor.isComplete = false) (ho : v.descriptor.operation = some (.write w))
    (hf : ∀ o, left.next = some o → o.Framed)
    (hr : (A.assembler v.descriptor.socket).unhandled = rest) :
    t.Serves A operations rest (v.carryOn left) := by
  obtain ⟨hhandle, hsocket⟩ := v.descriptor.carryOn_keeps left
  exact ⟨served, _, rest, deeds, hj, hops, hdecode, hhandle.trans hh, hsocket ▸ hi,
    Descriptor.proceeds_carryOn hc ho hf hr⟩

/-- A turn in which more of a backlog is offered. -/
theorem Turn.serves_of_flush {backlog : WriteBacklog} {n : Nat} (hd : t.duty = .writing)
    (hi : A.Is t.before.descriptor.socket) (ha : t.before.descriptor.Awaits A operations rest)
    (hc : Visit.ensureConnected host t.before = (.done true, u))
    (hactive : u.descriptor.isComplete = false) (hb : u.descriptor.backlog = some backlog)
    (hw : Visit.writeSocket host backlog.data backlog.outOfBand (u.withBacklog none).tried =
      (.done n, v)) : t.Serves A operations rest (v.carryOn (backlog.drain n)) := by
  have hg := Visit.ensureConnected_done hc
  obtain ⟨greetings, hadv, hgreet⟩ := hg.advances
  have hau := hg.awaits hi ha
  obtain ⟨hiu, -⟩ := hg.assembling hi
  obtain ⟨hwritten, hv⟩ := Visit.writeSocket_done hw
  obtain ⟨hiv, hsame⟩ := Visit.writeSocket_keeps (u := (u.withBacklog none).tried) hiu hw
  cases hau with
  | reading _ hb' | writing _ hb' =>
      rw [hb] at hb'
      cases hb'
  | @flushing w _ _ ho hb' hf hr =>
      obtain rfl := Option.some.inj (hb'.symm.trans hb)
      have hchoice : t.choice? host = none := by simp only [choice?, hc, hd, hb]
      refine Turn.serves_of_carryOn [] (w := w) (hadv.trans hwritten).journal
        (by simp [hchoice, WriteBacklog.drain]) ?_ ?_ hiv ?_ ?_ hf ?_
      · rw [Turn.received_of_writing hd, List.append_nil, announcements_append,
          announcements_eq_nil fun deed hdeed => (hgreet deed hdeed).not_transfer]
        rfl
      · rw [hv]
        exact hg.handle
      · rw [hv]
        exact hactive
      · rw [hv]
        exact ho
      · rw [hsame]
        exact hr

/-- A turn in which the hooks are told of a write, up to the first call. -/
theorem Turn.announces_write {x : Visit W S H P} {w w' : WriteOperation} {next : Option Operation}
    (hd : t.duty = .writing) (hi : A.Is t.before.descriptor.socket)
    (ha : t.before.descriptor.Awaits A operations rest)
    (hc : Visit.ensureConnected host t.before = (.done true, u))
    (hb : u.descriptor.backlog = none) (ho : u.descriptor.operation = some (.write w))
    (hx : Visit.dispatch host (.write w none) (u.withOperation (some (.write .empty))) =
      (.done (.write w' next), x)) :
    t.choice? host = next ∧ operations = [.write w] ∧
      (A.assembler x.descriptor.socket).unhandled = rest ∧ A.Is x.descriptor.socket ∧
      x.descriptor.handle = t.before.descriptor.handle ∧ ∃ deeds,
        x.session.journal = t.before.session.journal ++ deeds ∧
          announcements t.before.descriptor.handle deeds = [.write w] := by
  have hg := Visit.ensureConnected_done hc
  obtain ⟨greetings, hadv, hgreet⟩ := hg.advances
  obtain ⟨hiu, -⟩ := hg.assembling hi
  obtain ⟨hearings, hhear, hadv', m, own, hdx⟩ :=
    Visit.dispatch_advances host (.write w none) (u.withOperation (some (.write .empty)))
  rw [hx] at hadv' hdx
  have hsocket : x.descriptor.socket = u.descriptor.socket := by
    rw [hdx]
    rfl
  have hchoice : t.choice? host = next := by
    simp only [choice?, hc, hd, hb, ho, Visit.choice?, hx, Payload.next?]
  have htold : announcements t.before.descriptor.handle (greetings ++
      .raised u.descriptor.handle (u.withOperation (some (.write .empty))).descriptor.standing
        (.write w none) :: hearings) = [.write w] := by
    rw [announcements_append,
      announcements_eq_nil fun deed hdeed => (hgreet deed hdeed).not_transfer,
      announcements_cons_write hg.handle,
      announcements_eq_nil fun deed hdeed => (hhear deed hdeed).isGreeting.not_transfer]
    rfl
  cases hg.awaits hi ha with
  | reading ho' =>
      rw [ho] at ho'
      cases ho'
  | flushing _ hb' =>
      rw [hb] at hb'
      cases hb'
  | @writing w₀ _ ho' _ hr =>
      obtain rfl : w = w₀ := by simpa [ho] using ho'
      refine ⟨hchoice, rfl, hsocket ▸ hr, hsocket ▸ hiu, ?_, _, (hadv.trans hadv').journal, htold⟩
      rw [hdx]
      exact hg.handle

/-- A turn in which a write is announced, and nothing is to be written. -/
theorem Turn.serves_of_idle {x : Visit W S H P} {w w' : WriteOperation} {next : Option Operation}
    (hd : t.duty = .writing) (hi : A.Is t.before.descriptor.socket)
    (ha : t.before.descriptor.Awaits A operations rest)
    (hf : ∀ o, t.choice? host = some o → o.Framed)
    (hc : Visit.ensureConnected host t.before = (.done true, u))
    (hb : u.descriptor.backlog = none) (ho : u.descriptor.operation = some (.write w))
    (hx : Visit.dispatch host (.write w none) (u.withOperation (some (.write .empty))) =
      (.done (.write w' next), x)) (hactive : x.descriptor.isComplete = false) :
    t.Serves A operations rest
      ((x.withOperation (some (.write w'))).tried.carryOn ⟨w'.data, w'.outOfBand, next⟩) := by
  obtain ⟨hchoice, rfl, hr, hix, hh, deeds, hj, htold⟩ :=
    Turn.announces_write hd hi ha hc hb ho hx
  refine Turn.serves_of_carryOn [.write w] hj (by rw [hchoice]) ?_ hh hix hactive rfl
    (hchoice ▸ hf) hr
  rw [Turn.received_of_writing hd, List.append_nil, htold]
  rfl

/-- A turn in which a write is announced, and a first part of the payload is offered. -/
theorem Turn.serves_of_write {x y : Visit W S H P} {w w' : WriteOperation}
    {next : Option Operation} {n : Nat} (hd : t.duty = .writing)
    (hi : A.Is t.before.descriptor.socket) (ha : t.before.descriptor.Awaits A operations rest)
    (hf : ∀ o, t.choice? host = some o → o.Framed)
    (hc : Visit.ensureConnected host t.before = (.done true, u))
    (hb : u.descriptor.backlog = none) (ho : u.descriptor.operation = some (.write w))
    (hx : Visit.dispatch host (.write w none) (u.withOperation (some (.write .empty))) =
      (.done (.write w' next), x)) (hactive : x.descriptor.isComplete = false)
    (hw : Visit.writeSocket host w'.data w'.outOfBand (x.withOperation (some (.write w'))).tried =
      (.done n, y)) :
    t.Serves A operations rest
      (y.carryOn (WriteBacklog.drain ⟨w'.data, w'.outOfBand, next⟩ n)) := by
  obtain ⟨hchoice, rfl, hr, hix, hh, deeds, hj, htold⟩ :=
    Turn.announces_write hd hi ha hc hb ho hx
  obtain ⟨hwritten, hy⟩ := Visit.writeSocket_done hw
  obtain ⟨hiy, hsame⟩ :=
    Visit.writeSocket_keeps (u := (x.withOperation (some (.write w'))).tried) hix hw
  have hjournal := hwritten.journal
  rw [show (x.withOperation (some (.write w'))).tried.session = x.session from rfl, hj,
    List.append_assoc] at hjournal
  refine Turn.serves_of_carryOn [.write w] hjournal (by rw [hchoice]; rfl) ?_ ?_ hiy ?_
    (w := w') ?_ (hchoice ▸ hf) (hsame ▸ hr)
  · rw [Turn.received_of_writing hd, List.append_nil, announcements_append, htold]
    rfl
  · rw [hy]
    exact hh
  · rw [hy]
    exact hactive
  · rw [hy]
    rfl

/-- Every turn that comes to its end without a report of a failure serves the operations as the
decoder does. -/
theorem Turn.serves (hx : t.duty.work host t.before = (.done (), v))
    (hblame : t.before.session.Blameless t.before.descriptor.handle v.session)
    (hcomp : t.Compliant host) (hactive : t.before.descriptor.isComplete = false)
    (hi : A.Is t.before.descriptor.socket) (ha : t.before.descriptor.Awaits A operations rest)
    (hf : ∀ o, t.choice? host = some o → o.Framed) : t.Serves A operations rest v := by
  have hstill := hcomp.connected
  rcases hd : t.duty with _ | _ | _
  all_goals rw [hd] at hx hstill
  · have hconnect := Step.done_of_mapCut (Visit.settle_done Visit.connect_works.mapCut hx hblame)
    obtain ⟨hg, hsame⟩ := Visit.connect_done hconnect
    obtain ⟨hchoice, hreceived⟩ := Turn.silent_of_opening (A := A) hd
    exact Turn.serves_of_greeted hg hi ha (hsame.trans hactive) hchoice hreceived
  · have hread := Visit.serveRead_done (Visit.settle_done Visit.serveRead_works hx hblame) hblame
    cases hread with
    | waiting hc =>
        obtain ⟨hchoice, hreceived⟩ := Turn.silent_of_waiting (A := A) hc
        exact Turn.serves_of_greeted (Visit.ensureConnected_done hc) hi ha
          (hstill (by simp) _ _ hc) hchoice hreceived
    | unwilling hc ho =>
        obtain ⟨hchoice, hreceived⟩ := Turn.silent_of_unwilling_to_read (A := A) hd hc ho
        exact Turn.serves_of_greeted (Visit.ensureConnected_done hc) hi ha
          (hstill (by simp) _ _ hc) hchoice hreceived
    | served hc ho hr hv =>
        exact Turn.serves_of_read hd hi ha hf hc (hstill (by simp) _ _ hc) ho hr hv
  · have hwrite := Visit.serveWrite_done (Visit.settle_done Visit.serveWrite_works hx hblame)
    cases hwrite with
    | waiting hc =>
        obtain ⟨hchoice, hreceived⟩ := Turn.silent_of_waiting (A := A) hc
        exact Turn.serves_of_greeted (Visit.ensureConnected_done hc) hi ha
          (hstill (by simp) _ _ hc) hchoice hreceived
    | unwilling hc hb ho =>
        exact Turn.serves_of_greeted (Visit.ensureConnected_done hc) hi ha
          (hstill (by simp) _ _ hc) (Turn.choice?_of_unwilling_to_write hd hc hb ho)
          (Turn.received_of_writing hd)
    | flushed hc hb hw => exact Turn.serves_of_flush hd hi ha hc (hstill (by simp) _ _ hc) hb hw
    | withdrawn hc hb ho hdis hout =>
        obtain ⟨hi', w', next, rfl⟩ := hcomp.write hd _ _ _ _ hc hb ho hdis
        rcases hout with hout | hout
        · rw [hi'] at hout
          cases hout
        · exact absurd rfl (hout w' next)
    | idle hc hb ho hdis hi' => exact Turn.serves_of_idle hd hi ha hf hc hb ho hdis hi'
    | written hc hb ho hdis hi' _ hw => exact Turn.serves_of_write hd hi ha hf hc hb ho hdis hi' hw

end Turns

end Reactor
