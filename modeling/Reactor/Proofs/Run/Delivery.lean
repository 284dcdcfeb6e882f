import Mathlib.Algebra.GroupWithZero.Nat
import Reactor.Proofs.Run.Passage

/-! The delivery of a payload. A write is announced once, and from then on every call of the socket
offers what the calls before it have left of the payload, until nothing is left. -/

namespace Reactor

variable {W S H P : Type} {host : Host W S H P} {h : SocketHandle}

/-! ## What is recorded of a write -/

/-- A call to write: what was offered, and how much the socket said that it took. -/
structure Offer where
  data : Bytes
  outOfBand : Bool
  accepted : Option Nat
  deriving DecidableEq

/-- How many bytes a call has taken, which is never more than were offered. -/
def Offer.taken (offer : Offer) : Nat := min (offer.accepted.getD 0) offer.data.length

def taken (offers : List Offer) : Nat := (offers.map Offer.taken).sum

/-- A deed that has to do with a write. -/
inductive WriteRecord where
  | announced (operation : WriteOperation)
  | offered (offer : Offer)
  deriving DecidableEq

def Deed.writeRecord? (h : SocketHandle) : Deed S H → Option WriteRecord
  | .raised k _ (.write operation _) => if k = h then some (.announced operation) else none
  | .called k _ (.write data outOfBand accepted) =>
      if k = h then some (.offered ⟨data, outOfBand, accepted⟩) else none
  | _ => none

def writeRecords (h : SocketHandle) (journal : List (Deed S H)) : List WriteRecord :=
  journal.filterMap (Deed.writeRecord? h)

/-- Every call offers what those before it have left of the payload, and there is something left. -/
def Consecutive (operation : WriteOperation) (offers : List Offer) : Prop :=
  ∀ before offer after, offers = before ++ offer :: after →
    offer.data = operation.data.drop (taken before) ∧ offer.outOfBand = operation.outOfBand ∧
      offer.data ≠ [] ∧ offer.accepted ≠ none

section Records

variable {w : WriteOperation} {offers : List Offer}

@[simp] theorem taken_nil : taken [] = 0 := rfl

@[simp] theorem taken_append (more : List Offer) :
    taken (offers ++ more) = taken offers + taken more := by
  simp [taken]

@[simp] theorem taken_singleton (offer : Offer) : taken [offer] = offer.taken := by
  simp [taken]

@[simp] theorem writeRecords_append (journal deeds : List (Deed S H)) :
    writeRecords h (journal ++ deeds) = writeRecords h journal ++ writeRecords h deeds := by
  simp [writeRecords]

theorem writeRecords_eq_nil {deeds : List (Deed S H)}
    (hd : ∀ deed ∈ deeds, ¬ deed.IsTransfer h) : writeRecords h deeds = [] := by
  refine List.filterMap_eq_nil_iff.2 fun deed hdeed => ?_
  have hnot := hd deed hdeed
  cases deed with
  | called k standing call =>
      cases call with
      | write => exact if_neg hnot
      | _ => rfl
  | raised k standing payload =>
      cases payload with
      | write => exact if_neg hnot
      | _ => rfl
  | _ => rfl

theorem writeRecords_raised {k : SocketHandle} (hk : k = h) {standing : Standing}
    {next : Option Operation} {deeds : List (Deed S H)} :
    writeRecords h (.raised k standing (.write w next) :: deeds) =
      .announced w :: writeRecords h deeds := by
  simp [writeRecords, Deed.writeRecord?, hk]

theorem writeRecords_called {k : SocketHandle} (hk : k = h) {standing : Standing} {data : Bytes}
    {outOfBand : Bool} {accepted : Option Nat} :
    writeRecords h [(.called k standing (.write data outOfBand accepted) : Deed S H)] =
      [.offered ⟨data, outOfBand, accepted⟩] := by
  simp [writeRecords, Deed.writeRecord?, hk]

theorem consecutive_nil : Consecutive w [] := by
  intro before offer after heq
  simp at heq

/-- A call may offer what is left. -/
theorem Consecutive.snoc (hc : Consecutive w offers) (n : Nat)
    (hleft : w.data.drop (taken offers) ≠ []) :
    Consecutive w (offers ++ [⟨w.data.drop (taken offers), w.outOfBand, some n⟩]) := by
  intro before offer after heq
  rcases after.eq_nil_or_concat with rfl | ⟨earlier, last, rfl⟩
  · obtain ⟨rfl, hlast⟩ := List.append_inj' heq rfl
    cases hlast
    exact ⟨rfl, rfl, hleft, by simp⟩
  · rw [List.concat_eq_append, ← List.cons_append, ← List.append_assoc] at heq
    exact hc before offer earlier (List.append_inj' heq rfl).1

/-- What a call leaves is what all calls up to it have left. -/
theorem drop_taken_snoc (w : WriteOperation) (offers : List Offer) (n : Nat) (outOfBand : Bool) :
    (w.data.drop (taken offers)).drop n =
      w.data.drop (taken (offers ++ [⟨w.data.drop (taken offers), outOfBand, some n⟩])) := by
  simp only [taken_append, taken_singleton, Offer.taken, Option.getD_some, List.length_drop,
    List.drop_drop]
  by_cases hn : n ≤ w.data.length - taken offers
  · rw [Nat.min_eq_left hn]
  · rw [List.drop_eq_nil_of_le (by omega), List.drop_eq_nil_of_le (by omega)]

theorem taken_le_length (hc : Consecutive w offers) : taken offers ≤ w.data.length := by
  rcases offers.eq_nil_or_concat with rfl | ⟨before, last, rfl⟩
  · exact Nat.zero_le _
  · obtain ⟨hdata, -, hne, -⟩ := hc before last [] (by simp)
    rw [hdata, ne_eq, List.drop_eq_nil_iff] at hne
    have hlen : last.data.length = w.data.length - taken before := by
      rw [hdata, List.length_drop]
    simp only [List.concat_eq_append, taken_append, taken_singleton, Offer.taken, hlen]
    omega

end Records

/-! ## The hooks -/

namespace Turn

/-- In the turn the hooks are told of a write, and leave it so, with the operation to go on with. -/
def Announces (host : Host W S H P) (t : Turn W S H P) (w w' : WriteOperation)
    (next : Option Operation) : Prop :=
  t.duty = .writing ∧ ∃ u x, Visit.ensureConnected host t.before = (.done true, u) ∧
    u.descriptor.backlog = none ∧ u.descriptor.operation = some (.write w) ∧
    Visit.dispatch host (.write w none) (u.withOperation (some (.write .empty))) =
      (.done (.write w' next), x)

/-- In the turn the hooks do not complete the socket when they are told of its connection or of a
write, and make nothing else of a write. -/
structure Compliant (host : Host W S H P) (t : Turn W S H P) : Prop where
  connected : t.duty ≠ .opening → ∀ established u,
    Visit.ensureConnected host t.before = (.done established, u) →
      u.descriptor.isComplete = false
  write : t.duty = .writing → ∀ u w payload x,
    Visit.ensureConnected host t.before = (.done true, u) → u.descriptor.backlog = none →
      u.descriptor.operation = some (.write w) →
        Visit.dispatch host (.write w none) (u.withOperation (some (.write .empty))) =
          (.done payload, x) →
        x.descriptor.isComplete = false ∧ ∃ w' next, payload = .write w' next

end Turn

/-- No hook completes a socket or makes another event of it when it is told of a connection or of a
write. -/
def Host.Complies (host : Host W S H P) : Prop :=
  ∀ (v : Visit W S H P) (payload : Payload S) (link : Link H),
    payload.kind = .connected ∨ payload.kind = .write →
      (v.askAbout host payload link).2.metadata.requestComplete =
          v.descriptor.metadata.requestComplete ∧
        (v.askAbout host payload link).2.payload.kind = payload.kind

theorem Host.Complies.dispatch (hk : host.Complies) {payload payload' : Payload S}
    {v x : Visit W S H P} (hp : payload.kind = .connected ∨ payload.kind = .write)
    (hx : Visit.dispatch host payload v = (.done payload', x))
    (hc : v.descriptor.isComplete = false) :
    x.descriptor.isComplete = false ∧ payload'.kind = payload.kind := by
  let I (q : Payload S) (m : Metadata) : Prop :=
    m.requestComplete = false ∧ q.kind = payload.kind
  refine Visit.dispatch_keeps (I := I) ?_ ⟨hc, rfl⟩ hx
  rintro v q link ⟨hm, hq⟩
  obtain ⟨hm', hq'⟩ := hk v q link (hq ▸ hp)
  exact ⟨hm'.trans hm, hq'.trans hq⟩

theorem Host.Complies.ensureConnected (hk : host.Complies) {v u : Visit W S H P}
    {established : Bool} (hc : v.descriptor.isComplete = false)
    (hu : Visit.ensureConnected host v = (.done established, u)) :
    u.descriptor.isComplete = false := by
  rw [Visit.ensureConnected, Visit.getDescriptor_bind] at hu
  split at hu
  · cases hu
    exact hc
  obtain ⟨polled, w, hpoll, hu⟩ := Step.done_of_bind hu
  have hw : w.descriptor.isComplete = false := by
    rw [← show (Visit.callSocket host.sockets.pollConnect (fun _ => .pollConnect) v).2 = w from
      congrArg Prod.snd (Step.done_of_mapCut hpoll)]
    exact hc
  split at hu
  · rw [Visit.modifyDescriptor_bind] at hu
    obtain ⟨payload, x, hraise, hu⟩ := Step.done_of_bind hu
    cases hu
    exact (hk.dispatch (.inl rfl) hraise hw).1
  · cases hu
    exact hw

/-- With hooks that comply in general, every turn of a socket that has something left to do goes
so. -/
theorem Host.Complies.compliant (hk : host.Complies) {t : Turn W S H P}
    (hc : t.before.descriptor.isComplete = false) : t.Compliant host := by
  refine ⟨fun _ established u hu => hk.ensureConnected hc hu, ?_⟩
  intro _ u w payload x hu _ _ hx
  have hstill : u.descriptor.isComplete = false := hk.ensureConnected hc hu
  obtain ⟨hi, hkind⟩ := hk.dispatch (.inr rfl) hx hstill
  refine ⟨hi, ?_⟩
  cases payload with
  | write w' next => exact ⟨w', next, rfl⟩
  | _ => cases hkind

namespace Run

/-- How far the delivery of a write has come in a stretch of a run. -/
inductive Delivery (host : Host W S H P) (h : SocketHandle) (w : WriteOperation) (r : Run W S H P)
    (turns : List (Turn W S H P)) (s : Run W S H P) : Prop where
  /-- It has not been announced yet. -/
  | waiting {d : Descriptor S H} {deeds : List (Deed S H)} (hd : s.registry.get? h = some d)
      (hh : d.handle = h) (ho : d.operation = some (.write w)) (hb : d.backlog = none)
      (hc : d.isComplete = false)
      (hj : s.session.journal = r.session.journal ++ deeds) (hr : writeRecords h deeds = [])
  /-- The hooks have been told of it, and a part of the payload that they left is still to be
  offered. -/
  | sending {d : Descriptor S H} {deeds : List (Deed S H)} {w' : WriteOperation}
      {next : Option Operation} {offers : List Offer} (hd : s.registry.get? h = some d)
      (hh : d.handle = h) (ho : d.operation = some (.write w')) (hc : d.isComplete = false)
      (ha : ∃ t ∈ turns, t.Announces host w w' next)
      (hj : s.session.journal = r.session.journal ++ deeds)
      (hr : writeRecords h deeds = .announced w :: offers.map .offered)
      (hs : Consecutive w' offers) (hl : taken offers < w'.data.length)
      (hb : d.backlog = some ⟨w'.data.drop (taken offers), w'.outOfBand, next⟩)
  /-- All of the payload that the hooks left has been taken, and just then the socket has gone on
  with the operation that they left, or was completed if there is none. -/
  | delivered {first rest : List (Turn W S H P)} {m : Run W S H P} {d : Descriptor S H}
      {deeds : List (Deed S H)} {w' : WriteOperation} {next : Option Operation}
      {offers : List Offer} (hp : Passage host h r first m) (hq : Passage host h m rest s)
      (ht : turns = first ++ rest) (ha : ∃ t ∈ first, t.Announces host w w' next)
      (hj : m.session.journal = r.session.journal ++ deeds)
      (hr : writeRecords h deeds = .announced w :: offers.map .offered)
      (hs : Consecutive w' offers) (hl : taken offers = w'.data.length)
      (hd : m.registry.get? h = some d) (ho : d.operation = next) (hb : d.backlog = none)
      (hc : d.isComplete = next.isNone)

section Turns

variable {r s t : Run W S H P} {turns : List (Turn W S H P)} {d : Descriptor S H}
  {w w' : WriteOperation}

theorem visit_done {x : Step (Visit W S H P) Halt Unit} (hd : s.registry.get? h = some d)
    (hx : visit h x s = (.done (), t)) :
    ∃ v, x ⟨d, s.session⟩ = (.done (), v) ∧ t.registry.get? h = some v.descriptor ∧
      t.session = v.session := by
  rw [visit_of_some x hd] at hx
  have hend := congrArg Prod.fst hx
  obtain rfl := congrArg Prod.snd hx
  refine ⟨(x ⟨d, s.session⟩).2, Prod.ext hend rfl, ?_, rfl⟩
  simp [HandleMap.get?_modify, hd]

theorem Delivery.of_carryOn {x : Descriptor S H} {deeds : List (Deed S H)}
    {next : Option Operation} {offers : List Offer} (hp : Passage host h r turns s)
    (hd : s.registry.get? h =
      some (x.carryOn ⟨w'.data.drop (taken offers), w'.outOfBand, next⟩))
    (hh : x.handle = h) (ho : x.operation = some (.write w'))
    (hc : x.isComplete = false) (ha : ∃ t ∈ turns, t.Announces host w w' next)
    (hj : s.session.journal = r.session.journal ++ deeds)
    (hr : writeRecords h deeds = .announced w :: offers.map .offered)
    (hs : Consecutive w' offers) : Delivery host h w r turns s := by
  by_cases hl : w'.data.drop (taken offers) = []
  · have hfull : taken offers = w'.data.length :=
      Nat.le_antisymm (taken_le_length hs) (List.drop_eq_nil_iff.1 hl)
    have hx : x.carryOn ⟨w'.data.drop (taken offers), w'.outOfBand, next⟩ = x.adoptNext next := by
      simp [Descriptor.carryOn, hl]
    rw [hx] at hd
    obtain ⟨hop, hnone, hcomplete⟩ := x.adoptNext_of_active hc next
    exact .delivered hp .start (List.append_nil _).symm ha hj hr hs hfull hd hop hnone hcomplete
  · have hlt : taken offers < w'.data.length := by
      simpa [List.drop_eq_nil_iff] using hl
    have hx : x.carryOn ⟨w'.data.drop (taken offers), w'.outOfBand, next⟩ =
        { x with backlog := some ⟨w'.data.drop (taken offers), w'.outOfBand, next⟩ } := by
      simp [Descriptor.carryOn, hl]
    rw [hx] at hd
    exact .sending hd hh ho hc ha hj hr hs hlt rfl

/-- What is left of the payload is offered, and some of it is taken. -/
theorem Delivery.offer {x y : Visit W S H P} {deeds : List (Deed S H)} {next : Option Operation}
    {n : Nat} (offers : List Offer) (hp : Passage host h r turns t)
    (hw : Visit.writeSocket host (w'.data.drop (taken offers)) w'.outOfBand x = (.done n, y))
    (hh : x.descriptor.handle = h) (ho : x.descriptor.operation = some (.write w'))
    (hc : x.descriptor.isComplete = false) (ha : ∃ t ∈ turns, t.Announces host w w' next)
    (hj : x.session.journal = r.session.journal ++ deeds)
    (hr : writeRecords h deeds = .announced w :: offers.map .offered)
    (hs : Consecutive w' offers) (hne : w'.data.drop (taken offers) ≠ [])
    (hd : t.registry.get? h = some (y.descriptor.carryOn
      (WriteBacklog.drain ⟨w'.data.drop (taken offers), w'.outOfBand, next⟩ n)))
    (hsession : t.session = y.session) : Delivery host h w r turns t := by
  obtain ⟨hadv, hdesc⟩ := Visit.writeSocket_done hw
  have hleft : WriteBacklog.drain ⟨w'.data.drop (taken offers), w'.outOfBand, next⟩ n =
      ⟨w'.data.drop (taken (offers ++
        [⟨w'.data.drop (taken offers), w'.outOfBand, some n⟩])), w'.outOfBand, next⟩ := by
    simp only [WriteBacklog.drain, drop_taken_snoc w' offers n w'.outOfBand]
  have hjournal : t.session.journal = r.session.journal ++ (deeds ++
      [.called x.descriptor.handle x.descriptor.standing
        (.write (w'.data.drop (taken offers)) w'.outOfBand (some n))]) := by
    rw [hsession, ← List.append_assoc, ← hj]
    exact hadv.journal
  rw [hleft] at hd
  refine .of_carryOn hp hd ?_ ?_ ?_ ha hjournal ?_ (hs.snoc n hne)
  · rw [hdesc]
    exact hh
  · rw [hdesc]
    exact ho
  · rw [hdesc]
    exact hc
  · rw [writeRecords_append, hr, writeRecords_called hh, List.map_append]
    rfl

/-- The work of a turn either leaves a write alone, or is that of writing. -/
theorem greets_or_writes {duty : Duty} {v u : Visit W S H P}
    (ho : v.descriptor.operation = some (.write w)) (hc : v.descriptor.isComplete = false)
    (hx : duty.work host v = (.done (), u))
    (hb : v.session.Blameless v.descriptor.handle u.session)
    (hcomp : Turn.Compliant host ⟨duty, v⟩) :
    (v.Greeted host u ∧ u.descriptor.isComplete = false) ∨
      duty = .writing ∧ v.WriteTurn host u ∧
        ∃ x, Visit.ensureConnected host v = (.done true, x) := by
  cases duty with
  | opening =>
      have hconnect := Step.done_of_mapCut (Visit.settle_done Visit.connect_works.mapCut hx hb)
      obtain ⟨hg, hsame⟩ := Visit.connect_done hconnect
      exact .inl ⟨hg, hsame.trans hc⟩
  | reading =>
      have hread := Visit.serveRead_done (Visit.settle_done Visit.serveRead_works hx hb) hb
      cases hread with
      | waiting hcon =>
          exact .inl ⟨Visit.ensureConnected_done hcon, hcomp.connected (by simp) _ _ hcon⟩
      | unwilling hcon =>
          exact .inl ⟨Visit.ensureConnected_done hcon, hcomp.connected (by simp) _ _ hcon⟩
      | served hcon hop =>
          rw [(Visit.ensureConnected_done hcon).operation, ho] at hop
          cases hop
  | writing =>
      have hwrite := Visit.serveWrite_done (Visit.settle_done Visit.serveWrite_works hx hb)
      cases hwrite with
      | waiting hcon =>
          exact .inl ⟨Visit.ensureConnected_done hcon, hcomp.connected (by simp) _ _ hcon⟩
      | unwilling hcon hnone hop => exact .inr ⟨rfl, .unwilling hcon hnone hop, _, hcon⟩
      | flushed hcon hsome hw => exact .inr ⟨rfl, .flushed hcon hsome hw, _, hcon⟩
      | withdrawn hcon hnone hop hd hout =>
          exact .inr ⟨rfl, .withdrawn hcon hnone hop hd hout, _, hcon⟩
      | idle hcon hnone hop hd hi hn => exact .inr ⟨rfl, .idle hcon hnone hop hd hi hn, _, hcon⟩
      | written hcon hnone hop hd hi hn hw =>
          exact .inr ⟨rfl, .written hcon hnone hop hd hi hn hw, _, hcon⟩

/-- What leaves the operation and the backlog of the socket alone does not change how far the
delivery has come. -/
theorem Delivery.keep {more : List (Turn W S H P)} (hdel : Delivery host h w r turns s)
    (hp : Passage host h s more t)
    (hk : ∀ d, s.registry.get? h = some d → d.isComplete = false →
      ∃ d', t.registry.get? h = some d' ∧ d'.handle = d.handle ∧ d'.operation = d.operation ∧
        d'.backlog = d.backlog ∧ d'.isComplete = false)
    (hj : ∃ deeds, t.session.journal = s.session.journal ++ deeds ∧ writeRecords h deeds = []) :
    Delivery host h w r (turns ++ more) t := by
  obtain ⟨later, hlater, hnone⟩ := hj
  cases hdel with
  | @waiting d deeds hd hh ho hb hc hj hr =>
      obtain ⟨d', hd', hh', ho', hb', hc'⟩ := hk d hd hc
      have hjournal : t.session.journal = r.session.journal ++ (deeds ++ later) := by
        rw [hlater, hj, List.append_assoc]
      refine .waiting hd' (hh'.trans hh) (ho'.trans ho) (hb'.trans hb) hc' hjournal ?_
      rw [writeRecords_append, hr, hnone, List.append_nil]
  | @sending d deeds w' next offers hd hh ho hc ha hj hr hs hl hb =>
      obtain ⟨d', hd', hh', ho', hb', hc'⟩ := hk d hd hc
      obtain ⟨turn, hturn, ha⟩ := ha
      have hjournal : t.session.journal = r.session.journal ++ (deeds ++ later) := by
        rw [hlater, hj, List.append_assoc]
      refine .sending hd' (hh'.trans hh) (ho'.trans ho) hc'
        ⟨turn, List.mem_append_left _ hturn, ha⟩ hjournal ?_ hs hl (hb'.trans hb)
      rw [writeRecords_append, hr, hnone, List.append_nil]
  | @delivered first rest m d deeds w' next offers hfirst hq ht ha hj hr hs hl hd ho hb hc =>
      subst ht
      exact .delivered hfirst (hq.append hp) (List.append_assoc _ _ _) ha hj hr hs hl hd ho hb hc

/-- Opening a socket or announcing its connection does not change how far the delivery has come. -/
theorem Delivery.greet {duty : Duty} {v : Visit W S H P}
    (hdel : Delivery host h w r turns s)
    (hp : Passage host h s [⟨duty, ⟨d, s.session⟩⟩] t)
    (hg : (⟨d, s.session⟩ : Visit W S H P).Greeted host v)
    (hi : v.descriptor.isComplete = false) (hd : s.registry.get? h = some d)
    (hd' : t.registry.get? h = some v.descriptor) (hsession : t.session = v.session) :
    Delivery host h w r (turns ++ [⟨duty, ⟨d, s.session⟩⟩]) t := by
  obtain ⟨greetings, hadv, hgreet⟩ := hg.advances
  refine hdel.keep hp (fun d₀ hd₀ _ => ⟨v.descriptor, hd', ?_⟩) ⟨greetings, ?_,
    writeRecords_eq_nil fun deed hdeed => (hgreet deed hdeed).not_transfer⟩
  · obtain rfl : d₀ = d := Option.some.inj (hd₀.symm.trans hd)
    exact ⟨hg.handle, hg.operation, hg.backlog, hi⟩
  · rw [hsession]
    exact hadv.journal

/-- What is recorded when the hooks are told of a write. -/
theorem announcement_done {v u x : Visit W S H P} {payload : Payload S}
    (hc : Visit.ensureConnected host v = (.done true, u))
    (hx : Visit.dispatch host (.write w none) (u.withOperation (some (.write .empty))) =
      (.done payload, x)) :
    x.descriptor.handle = v.descriptor.handle ∧
      ∃ deeds, x.session.journal = v.session.journal ++ deeds ∧
        writeRecords v.descriptor.handle deeds = [.announced w] := by
  have hg := Visit.ensureConnected_done hc
  obtain ⟨greetings, hadv, hgreet⟩ := hg.advances
  obtain ⟨hearings, hhear, hadv', m, own, hdesc⟩ := Visit.dispatch_advances host
    (.write w none) (u.withOperation (some (.write .empty)))
  rw [hx] at hadv' hdesc
  have hgreetings : writeRecords v.descriptor.handle greetings = [] :=
    writeRecords_eq_nil fun deed hdeed => (hgreet deed hdeed).not_transfer
  have hhearings : writeRecords v.descriptor.handle hearings = [] :=
    writeRecords_eq_nil fun deed hdeed => (hhear deed hdeed).isGreeting.not_transfer
  have hj := (hadv.trans hadv').journal
  refine ⟨?_, _, hj, ?_⟩
  · rw [hdesc]
    exact hg.handle
  · rw [writeRecords_append, hgreetings]
    exact (writeRecords_raised hg.handle).trans (congrArg _ hhearings)

/-- A write is announced, and perhaps a first part of the payload taken. -/
theorem Delivery.announce {duty : Duty} {v : Visit W S H P} {deeds : List (Deed S H)}
    (hp : Passage host h r (turns ++ [⟨duty, ⟨d, s.session⟩⟩]) t) (hduty : duty = .writing)
    (hh : d.handle = h) (ho : d.operation = some (.write w)) (hb : d.backlog = none)
    (hj : s.session.journal = r.session.journal ++ deeds) (hr : writeRecords h deeds = [])
    (hcomp : Turn.Compliant host ⟨duty, ⟨d, s.session⟩⟩)
    (hw : (⟨d, s.session⟩ : Visit W S H P).WriteTurn host v)
    (hcon : ∃ x, Visit.ensureConnected host ⟨d, s.session⟩ = (.done true, x))
    (hd' : t.registry.get? h = some v.descriptor) (hsession : t.session = v.session) :
    Delivery host h w r (turns ++ [⟨duty, ⟨d, s.session⟩⟩]) t := by
  subst hduty
  have hheard : ∀ {u x : Visit W S H P} {w' : WriteOperation} {payload : Payload S},
      Visit.ensureConnected host ⟨d, s.session⟩ = (.done true, u) →
      u.descriptor.operation = some (.write w') →
      Visit.dispatch host (.write w' none) (u.withOperation (some (.write .empty))) =
        (.done payload, x) →
      w' = w ∧ x.descriptor.handle = h ∧ ∃ more,
        x.session.journal = r.session.journal ++ more ∧ writeRecords h more = [.announced w] := by
    intro u x w' payload hc hop hx
    obtain ⟨hhandle, more, hmore, hrecords⟩ := announcement_done hc hx
    have hsame := hop.symm.trans ((Visit.ensureConnected_done hc).operation.trans ho)
    obtain rfl : w' = w := by simpa using hsame
    refine ⟨rfl, hhandle.trans hh, deeds ++ more, ?_, ?_⟩
    · rw [hmore, ← List.append_assoc, ← hj]
    · rw [hh] at hrecords
      rw [writeRecords_append, hr, hrecords, List.nil_append]
  obtain ⟨u₀, hu₀⟩ := hcon
  cases hw with
  | waiting hc =>
      rw [hu₀] at hc
      cases hc
  | unwilling hc hnone hop =>
      exact absurd ((Visit.ensureConnected_done hc).operation.trans ho) (hop w)
  | flushed hc hsome =>
      rw [(Visit.ensureConnected_done hc).backlog, hb] at hsome
      cases hsome
  | @withdrawn u x w₀ payload hc hnone hop hdis hout =>
      obtain ⟨hi, w', next, rfl⟩ := hcomp.write rfl u w₀ payload _ hc hnone hop hdis
      rcases hout with hout | hout
      · rw [hi] at hout
        cases hout
      · exact absurd rfl (hout w' next)
  | @idle u x w₀ w' next hc hnone hop hdis hi hempty =>
      obtain ⟨rfl, hhandle, more, hjournal, hrecords⟩ := hheard hc hop hdis
      have hleft : (⟨w'.data, w'.outOfBand, next⟩ : WriteBacklog) =
          ⟨w'.data.drop (taken []), w'.outOfBand, next⟩ := by simp
      rw [hleft] at hd'
      exact .of_carryOn hp hd' hhandle rfl hi
        ⟨_, List.mem_append_right _ (List.mem_singleton.2 rfl), rfl, u, x, hc, hnone, hop, hdis⟩
        ((congrArg Session.journal hsession).trans hjournal) hrecords consecutive_nil
  | @written u x y w₀ w' next n hc hnone hop hdis hi hne hwrite =>
      obtain ⟨rfl, hhandle, more, hjournal, hrecords⟩ := hheard hc hop hdis
      have hsome : w'.data.drop (taken []) ≠ [] := by simpa using hne
      exact .offer [] hp hwrite hhandle rfl hi
        ⟨_, List.mem_append_right _ (List.mem_singleton.2 rfl), rfl, u, x, hc, hnone, hop, hdis⟩
        hjournal hrecords consecutive_nil hsome hd' hsession

/-- More of a backlog is offered. -/
theorem Delivery.flush {duty : Duty} {v : Visit W S H P} {deeds : List (Deed S H)}
    {next : Option Operation} {offers : List Offer}
    (hp : Passage host h r (turns ++ [⟨duty, ⟨d, s.session⟩⟩]) t) (hduty : duty = .writing)
    (hh : d.handle = h) (ho : d.operation = some (.write w'))
    (ha : ∃ t ∈ turns, t.Announces host w w' next)
    (hj : s.session.journal = r.session.journal ++ deeds)
    (hr : writeRecords h deeds = .announced w :: offers.map .offered)
    (hs : Consecutive w' offers) (hl : taken offers < w'.data.length)
    (hb : d.backlog = some ⟨w'.data.drop (taken offers), w'.outOfBand, next⟩)
    (hcomp : Turn.Compliant host ⟨duty, ⟨d, s.session⟩⟩)
    (hw : (⟨d, s.session⟩ : Visit W S H P).WriteTurn host v)
    (hcon : ∃ x, Visit.ensureConnected host ⟨d, s.session⟩ = (.done true, x))
    (hd' : t.registry.get? h = some v.descriptor) (hsession : t.session = v.session) :
    Delivery host h w r (turns ++ [⟨duty, ⟨d, s.session⟩⟩]) t := by
  subst hduty
  have hno : ∀ {u : Visit W S H P},
      Visit.ensureConnected host ⟨d, s.session⟩ = (.done true, u) →
        u.descriptor.backlog ≠ none := by
    intro u hc
    rw [(Visit.ensureConnected_done hc).backlog, hb]
    simp
  obtain ⟨u₀, hu₀⟩ := hcon
  cases hw with
  | waiting hc =>
      rw [hu₀] at hc
      cases hc
  | unwilling hc hnone => exact absurd hnone (hno hc)
  | withdrawn hc hnone => exact absurd hnone (hno hc)
  | idle hc hnone => exact absurd hnone (hno hc)
  | written hc hnone => exact absurd hnone (hno hc)
  | @flushed u x backlog n hc hsome hwrite =>
      have hg := Visit.ensureConnected_done hc
      obtain rfl : ⟨w'.data.drop (taken offers), w'.outOfBand, next⟩ = backlog :=
        Option.some.inj ((hg.backlog.trans hb).symm.trans hsome)
      obtain ⟨greetings, hgreet, hgreeting⟩ := hg.advances
      have hne : w'.data.drop (taken offers) ≠ [] := by
        simpa [List.drop_eq_nil_iff] using hl
      have hnone : writeRecords h greetings = [] :=
        writeRecords_eq_nil fun deed hdeed => (hgreeting deed hdeed).not_transfer
      have hrecords : writeRecords h (deeds ++ greetings) =
          .announced w :: offers.map .offered := by
        rw [writeRecords_append, hr, hnone, List.append_nil]
      have hjournal : u.session.journal = r.session.journal ++ (deeds ++ greetings) := by
        rw [← List.append_assoc, ← hj]
        exact hgreet.journal
      have hi : u.descriptor.isComplete = false := hcomp.connected (by simp) _ _ hc
      obtain ⟨turn, hturn, ha⟩ := ha
      exact .offer offers hp hwrite (hg.handle.trans hh) (hg.operation.trans ho) hi
        ⟨turn, List.mem_append_left _ hturn, ha⟩ hjournal hrecords hs hne hd' hsession

theorem Passage.active (hp : Passage host h r turns s) :
    ∀ t ∈ turns, t.before.descriptor.isComplete = false := by
  induction hp with
  | start => simp
  | turn _ duty hd hc _ _ ih =>
      intro t ht
      rcases List.mem_append.1 ht with ht | ht
      · exact ih t ht
      · obtain rfl := List.mem_singleton.1 ht
        exact hc
  | aside _ _ ih => exact ih

/-- In every stretch of a run the delivery of a write has come to one of its stages, as long as the
hooks neither complete the socket nor make another event of the write. -/
theorem Passage.delivery (hp : Passage host h r turns s) (hd : r.registry.get? h = some d)
    (hh : d.handle = h) (ho : d.operation = some (.write w)) (hb : d.backlog = none)
    (hc : d.isComplete = false) (hk : ∀ t ∈ turns, t.Compliant host) :
    Delivery host h w r turns s := by
  induction hp with
  | start => exact .waiting hd hh ho hb hc (List.append_nil _).symm rfl
  | @turn turns s t d hp duty hd hc hx hblame ih =>
      have hnow := hp.turn duty hd hc hx hblame
      have hcomp := hk _ (List.mem_append_right _ (List.mem_singleton.2 rfl))
      have hdel := ih fun turn hturn => hk turn (List.mem_append_left _ hturn)
      obtain ⟨v, hv, hd', hsession⟩ := visit_done hd hx
      have hgreet : (⟨d, s.session⟩ : Visit W S H P).Greeted host v →
          v.descriptor.isComplete = false →
            Delivery host h w r (turns ++ [⟨duty, ⟨d, s.session⟩⟩]) t := fun hg hi =>
        hdel.greet (.turn .start duty hd hc hx hblame) hg hi hd hd' hsession
      have hstays : ∀ {w' : WriteOperation}, d.handle = h → d.operation = some (.write w') →
          ((⟨d, s.session⟩ : Visit W S H P).Greeted host v ∧ v.descriptor.isComplete = false) ∨
            duty = .writing ∧ (⟨d, s.session⟩ : Visit W S H P).WriteTurn host v ∧
              ∃ x, Visit.ensureConnected host ⟨d, s.session⟩ = (.done true, x) := by
        intro w' hh ho
        refine greets_or_writes ho hc hv ?_ hcomp
        rw [← hsession]
        exact hh.symm ▸ hblame
      cases hdel with
      | delivered hfirst hq ht ha hj hr hs hl hmid hop hback hcomplete =>
          subst ht
          exact .delivered hfirst (hq.turn duty hd hc hx hblame) (List.append_assoc _ _ _) ha hj hr
            hs hl hmid hop hback hcomplete
      | @waiting d₀ deeds hd₀ hh₀ ho₀ hb₀ hc₀ hj hr =>
          obtain rfl : d₀ = d := Option.some.inj (hd₀.symm.trans hd)
          rcases hstays hh₀ ho₀ with ⟨hg, hi⟩ | ⟨hduty, hw, hcon⟩
          · exact hgreet hg hi
          · exact .announce hnow hduty hh₀ ho₀ hb₀ hj hr hcomp hw hcon hd' hsession
      | @sending d₀ deeds w' next offers hd₀ hh₀ ho₀ hc₀ ha hj hr hs hl hb₀ =>
          obtain rfl : d₀ = d := Option.some.inj (hd₀.symm.trans hd)
          rcases hstays hh₀ ho₀ with ⟨hg, hi⟩ | ⟨hduty, hw, hcon⟩
          · exact hgreet hg hi
          · exact .flush hnow hduty hh₀ ho₀ ha hj hr hs hl hb₀ hcomp hw hcon hd' hsession
  | @aside turns s t hp ha ih =>
      have hdel := ih hk
      obtain ⟨deeds, hj, hidle⟩ := ha.idle
      have hkeep := hdel.keep (Passage.aside .start ha) (fun d hd hc => ?_) ⟨deeds, hj,
        writeRecords_eq_nil fun deed hdeed => Deed.not_transfer (hidle deed hdeed)⟩
      · rwa [List.append_nil] at hkeep
      · obtain ⟨d', hd', running, postponed, rfl, -⟩ := ha.kept d hd hc
        exact ⟨_, hd', rfl, rfl, rfl, hc⟩

end Turns

end Run

end Reactor
