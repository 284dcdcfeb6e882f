import Reactor.Proofs.Executor.Bound
import Reactor.Proofs.Executor.Stop
import Reactor.Proofs.Run.Enrolment
import Reactor.Proofs.Run.Progress
import Reactor.Proofs.Transport.Scripted

/-! A run of finite work ends, however few sockets may be in flight at a time: sockets that live in
memory are all served, one after the other, until every one of them has done its errand. -/

namespace Reactor

variable {W S H P σ : Type} [ChunkSource σ]

/-- The socket lives in memory and is registered to write a payload, or to read a message of a known
length that its source supplies. -/
inductive Descriptor.Undertakes {rules : SocketRules W S} (A : rules.InMemory σ)
    (d : Descriptor S H) : Errand → Prop where
  | write {w : WriteOperation} (hs : A.Is .writing d.socket)
      (ho : d.operation = some (.write w)) : Undertakes A d (.write w)
  | read {length : Nat} {outOfBand : Bool} {bytes : Bytes} {k : Nat}
      (hs : A.Is .reading d.socket)
      (ho : d.operation = some (.read ⟨.fixedLength (.new length), outOfBand⟩))
      (hsource : ChunkSource.Supplies (A.source d.socket) bytes k)
      (hn : length ≤ ((A.assembler d.socket).unhandled ++ bytes).length) :
      Undertakes A d (.read (((A.assembler d.socket).unhandled ++ bytes).take length))

/-- An errand that has not been begun is under way. -/
theorem Descriptor.Undertakes.pending {rules : SocketRules W S} {A : rules.InMemory σ}
    {d : Descriptor S H} {errand : Errand} (h : d.Undertakes A errand)
    (hf : d.metadata.connectFinish = false) (hb : d.backlog = none) :
    ∃ n, d.Pending A errand [] [] n := by
  have hgreet : d.greetings = [] := if_neg (by simp [hf])
  rw [← hgreet]
  cases h with
  | write hs ho => exact ⟨_, .writing hs ho hb (Nat.lt_succ_self _)⟩
  | @read length outOfBand bytes k hs ho hsource hn =>
      have hcut : (Picker.fixedLength (.new length)).cut?
          ((A.assembler d.socket).unhandled ++ bytes) =
            some (((A.assembler d.socket).unhandled ++ bytes).take length,
              ((A.assembler d.socket).unhandled ++ bytes).drop length) := if_pos hn
      have hg : (A.assembler d.socket).Gathers (.fixedLength (.new length))
          (A.assembler d.socket).unhandled := .unused (.fixedLength length) rfl
      exact ⟨_, .reading hs ho hb hg hsource hcut (Nat.lt_succ_self _)⟩

namespace Executor

variable {e : Executor S H ConstantLimitPolicy} {host : Host W S H ConstantLimitPolicy}
  {A : host.sockets.InMemory σ} {errands : SocketHandle → Errand} {context : ExecutionContext}
  {world : W} {limit taken : Nat}

/-- Once its ticks are over and no socket is held any more, a run ends well, and no socket hears of
anything again. -/
theorem Sound.completed (hs : e.Sound) (hidle : e.control.executing = false) {fuel : Nat}
    {r : Run W S H ConstantLimitPolicy}
    (hticks : Run.ticks host e.config fuel (Run.startPolicy host (e.started context world)) =
      (.done .drained, r)) (hc : r.session.Calm) (hempty : r.Emptied) :
    (e.execute host fuel context world).ending = .done () ∧
      (e.execute host fuel context world).journal = r.session.journal ++ [.policyFinished] := by
  have hpart : Run.part host r.leavingOff = (.done (), r.leavingOff) :=
    Run.part_empty (HandleMap.eq_empty hempty)
  have hbody : Run.body host e.config fuel (Run.startPolicy host (e.started context world)) =
      (.done (), r.leavingOff) := by
    rw [Run.body, Step.bind_of_done hticks, Run.windDown_drained, hpart]
  have hdone : (Run.perform host e.config fuel (e.started context world)).1 = .done () := by
    rw [Run.perform_eq, hbody]
    rfl
  obtain ⟨last, hbody', hj⟩ := Run.perform_done_journal host e.config fuel hs.keyed hdone
  obtain rfl : r.leavingOff = last := congrArg Prod.snd (hbody.symm.trans hbody')
  have hqueue : r.leavingOff.session.context.changes = [] := hc.unqueued
  refine ⟨?_, ?_⟩
  · rw [ending_execute hidle, hdone]
    rfl
  · rw [journal_execute hidle, hj, hqueue]
    rfl

/-- With so much work the errands of an executor that has not begun to run are all still to be
done. -/
theorem Sound.faring (hs : e.Sound) {work : SocketHandle → Nat}
    (hfresh : ∀ h d, e.registry.get? h = some d → d.metadata.requestComplete = false)
    (hwork : ∀ h d, e.registry.get? h = some d → d.Pending A (errands h) [] [] (work h)) :
    (Run.startPolicy host (e.started context world)).Faring A e.registry.keys errands work := by
  refine ⟨⟨rfl, hs.changes, ?_⟩, hs.keyed, fun h d hd => HandleMap.mem_keys.2 ⟨d, hd⟩,
    fun h hh => ?_⟩
  · intro deed hmem
    obtain rfl : deed = .policyStarted := List.mem_singleton.1 hmem
    rfl
  · obtain ⟨d, hd⟩ := HandleMap.mem_keys.1 hh
    exact .held hd (.pending (hfresh h d hd) (hwork h d hd))

/-- With the policy that bounds the number of sockets in flight and a selector that polls, a run of
finite work ends well within some number of ticks, whatever the limit is. By then every socket has
been told that it is connected, of its errand, that it is disconnected and of its end, in this order
and of nothing else. A socket that writes has taken exactly its payload; one that reads has been
told of exactly the first bytes, as many as its message is long. -/
theorem execute_completes (he : e.Reachable W) (hidle : e.control.executing = false)
    (ha : e.admission = ⟨⟨max limit 1, taken⟩, true⟩) (hp : host.policy = .constantLimit)
    (poll : W → List (Nat × PollFlags) → Nat → PollAnswer × W)
    (hs : host.select = pollingSelector poll) (ho : host.handlers.Observe)
    (A : host.sockets.InMemory σ) (errands : SocketHandle → Errand)
    (hfresh : ∀ h d, e.registry.get? h = some d →
      d.metadata.connectFinish = false ∧ d.metadata.requestComplete = false)
    (herrands : ∀ h d, e.registry.get? h = some d → d.Undertakes A (errands h))
    (context : ExecutionContext) (world : W) :
    ∃ ticks, ∀ fuel, ticks ≤ fuel →
      (e.execute host fuel context world).ending = .done () ∧
      ∀ h d, e.registry.get? h = some d → ∃ payload, (errands h).Marks payload ∧
        eventsOf h (e.execute host fuel context world).journal =
          [.connected, payload, .disconnected, .finalize] ∧
        bytesSent h (e.execute host fuel context world).journal = (errands h).bytes := by
  have hsound := he.sound hidle
  have hbacklog : ∀ h d, e.registry.get? h = some d → d.backlog = none :=
    he.keeps (I := fun d => d.backlog = none) (fun _ _ _ _ => rfl) (fun _ _ _ => rfl)
      (fun _ _ hb => hb) hidle
  have hpending : ∀ h, ∃ n, ∀ d, e.registry.get? h = some d →
      d.Pending A (errands h) [] [] n := by
    intro h
    rcases hd : e.registry.get? h with _ | d
    · exact ⟨0, fun d hd => by cases hd⟩
    · obtain ⟨n, hn⟩ := (herrands h d hd).pending (hfresh h d hd).1 (hbacklog h d hd)
      exact ⟨n, fun d' hd' => Option.some.inj hd' ▸ hn⟩
  obtain ⟨work, hwork⟩ := Classical.skolem.1 hpending
  refine ⟨(e.registry.keys.map work).sum + 1, fun fuel hfuel => ?_⟩
  have hfaring : (Run.startPolicy host (e.started context world)).Faring A e.registry.keys errands
      work := hsound.faring (fun h d hd => (hfresh h d hd).2) hwork
  obtain ⟨r, hticks, hcalm, hempty, hdone⟩ := Run.ticks_complete ho hp hs e.config
    (Nat.lt_of_lt_of_le Nat.one_pos (Nat.le_max_right limit 1)) hfuel hfaring
    (fun h d hd => (hfresh h d hd).2) (hsound.metered ha hp)
  obtain ⟨hending, hj⟩ := hsound.completed hidle hticks hcalm hempty
  refine ⟨hending, fun h d hd => ?_⟩
  have hfulfilled := hdone h (HandleMap.mem_keys.2 ⟨d, hd⟩)
  rw [hj, eventsOf_append, bytesSent_append]
  generalize eventsOf h r.session.journal = events, bytesSent h r.session.journal = bytes
    at hfulfilled
  cases hfulfilled with
  | mk hm => exact ⟨_, hm, List.append_nil _, List.append_nil _⟩

end Reactor.Executor

/-! ## A writer and a reader that share a place -/

namespace Reactor.Errands

open Scenario (ScriptedSocket Arrivals)

def handlers : HandlerRules Nat ScriptedSocket Unit where
  onEvent world _ event context := .nothing (world + 1) event context
  onFault world _ _ context := .nothing world context

def poll (world : Nat) (_fds : List (Nat × PollFlags)) (_millis : Nat) : PollAnswer × Nat :=
  (.ok [], world)

def host : Host Nat ScriptedSocket Unit ConstantLimitPolicy where
  sockets := ScriptedSocket.rules Nat
  handlers := handlers
  policy := .constantLimit
  select := pollingSelector poll

/-- An open socket that is asked so often about its connection before it is there. -/
def socket (delay : Nat) (writes : List (Except SocketError Nat))
    (script : List Scenario.Arrival) : ScriptedSocket :=
  .ofPlan ⟨⟨"", true, false, false, writes, delay, none, none, false, false, none⟩, script⟩

/-- The socket takes one byte, then two, and then whatever is left. -/
def writer : ScriptedSocket := socket 2 [.ok 1, .ok 2] []

/-- The message comes in two parts, each of which has to be waited for. -/
def reader : ScriptedSocket := socket 1 [] [.pause, .data [7, 8] "", .pause, .data [9, 10] ""]

def parcel : WriteOperation := ⟨[1, 2, 3, 4, 5], false⟩

def letter : ReadOperation := ⟨.fixedLength (.new 3), false⟩

def idle : Executor ScriptedSocket Unit ConstantLimitPolicy where
  config := .default
  registry := .empty
  handlers := []
  admission := ⟨.new 1, true⟩
  control := .idle
  changes := []
  nextHandle := ⟨1⟩

/-- Two sockets, of which only one may be in flight at a time. -/
def executor : Executor ScriptedSocket Unit ConstantLimitPolicy :=
  let first := (idle.register writer (.write parcel) .empty).2
  (first.register reader (.read letter) .empty).2.addHandler ()

theorem executor_reachable : executor.Reachable Nat := by
  have hnew : Executor.new .default ⟨.new 1, true⟩ ⟨1⟩ = .ok idle := rfl
  exact .addHandler (.register (.register (.new hnew) writer _ .empty) reader _ .empty) ()

theorem registered {h : SocketHandle} {d : Descriptor ScriptedSocket Unit}
    (hd : executor.registry.get? h = some d) :
    h = ⟨1⟩ ∧ d = .new ⟨1⟩ writer (.write parcel) .empty ∨
      h = ⟨2⟩ ∧ d = .new ⟨2⟩ reader (.read letter) .empty := by
  have hmem := HandleMap.mem_entries.2 hd
  have hentries : executor.registry.entries =
      [(⟨1⟩, .new ⟨1⟩ writer (.write parcel) .empty),
        (⟨2⟩, .new ⟨2⟩ reader (.read letter) .empty)] := rfl
  rw [hentries] at hmem
  simpa using hmem

theorem observe : host.handlers.Observe :=
  ⟨fun _ _ _ _ => rfl, fun _ _ _ _ => rfl, fun _ _ _ _ => rfl, fun _ _ _ _ => rfl⟩

theorem writer_performs : writer.Performs .writing := by
  refine ⟨rfl, rfl, rfl, nofun, fun _ answer ha => ?_⟩
  have hwrites : writer.writes = [.ok 1, .ok 2] := rfl
  rw [hwrites] at ha
  simp only [List.mem_cons, List.not_mem_nil, or_false] at ha
  rcases ha with rfl | rfl
  · exact ⟨1, rfl, by decide⟩
  · exact ⟨2, rfl, by decide⟩

theorem reader_performs : reader.Performs .reading := by
  refine ⟨rfl, rfl, rfl, fun _ arrival ha => ?_, nofun⟩
  have hscript : reader.script = [.pause, .data [7, 8] "", .pause, .data [9, 10] ""] := rfl
  rw [hscript] at ha
  simp only [List.mem_cons, List.not_mem_nil, or_false] at ha
  rcases ha with rfl | rfl | rfl | rfl <;> trivial

/-- What the two sockets are registered for. -/
def errands (h : SocketHandle) : Errand :=
  if h = ⟨1⟩ then .write parcel else .read [7, 8, 9]

theorem undertaken (h : SocketHandle) (d : Descriptor ScriptedSocket Unit)
    (hd : executor.registry.get? h = some d) :
    d.Undertakes (ScriptedSocket.inMemory Nat) (errands h) := by
  rcases registered hd with ⟨rfl, rfl⟩ | ⟨rfl, rfl⟩
  · exact .write writer_performs rfl
  · have hsource : ChunkSource.Supplies (Arrivals.mk reader.script false) [7, 8, 9, 10] 4 :=
      Arrivals.supplies (reader_performs.script rfl)
    have hlong : 3 ≤ (reader.assembler.unhandled ++ [7, 8, 9, 10]).length := by decide
    have hread : (Descriptor.new (H := Unit) ⟨2⟩ reader (.read letter) .empty).Undertakes
        (ScriptedSocket.inMemory Nat)
        (.read ((reader.assembler.unhandled ++ [7, 8, 9, 10]).take 3)) :=
      .read reader_performs rfl hsource hlong
    exact hread

/-- The reader has to wait until the writer has given its place back, and both do their errands. -/
theorem execute_completes_shared :
    executor.Reachable Nat ∧ executor.control.executing = false ∧
      executor.admission = ⟨⟨max 1 1, 0⟩, true⟩ ∧ host.policy = .constantLimit ∧
      host.handlers.Observe ∧
      (∀ h d, executor.registry.get? h = some d →
        d.metadata.connectFinish = false ∧ d.metadata.requestComplete = false) ∧
      (∀ h d, executor.registry.get? h = some d →
        d.Undertakes (ScriptedSocket.inMemory Nat) (errands h)) ∧
      ∃ ticks, ∀ fuel, ticks ≤ fuel →
        let report := executor.execute host fuel .empty 0
        report.ending = .done () ∧
          eventsOf ⟨1⟩ report.journal =
            [.connected, .write parcel none, .disconnected, .finalize] ∧
          bytesSent ⟨1⟩ report.journal = [1, 2, 3, 4, 5] ∧
          ∃ frame : Frame, frame.data = [7, 8, 9] ∧ eventsOf ⟨2⟩ report.journal =
            [.connected, .read frame none, .disconnected, .finalize] := by
  have hfresh : ∀ h d, executor.registry.get? h = some d →
      d.metadata.connectFinish = false ∧ d.metadata.requestComplete = false := by
    intro h d hd
    rcases registered hd with ⟨rfl, rfl⟩ | ⟨rfl, rfl⟩ <;> exact ⟨rfl, rfl⟩
  refine ⟨executor_reachable, rfl, rfl, rfl, observe, hfresh, undertaken, ?_⟩
  have ha : executor.admission = ⟨⟨max 1 1, 0⟩, true⟩ := rfl
  obtain ⟨ticks, hticks⟩ := Executor.execute_completes executor_reachable rfl ha rfl poll rfl
    observe (ScriptedSocket.inMemory Nat) errands hfresh undertaken .empty 0
  refine ⟨ticks, fun fuel hfuel => ?_⟩
  obtain ⟨hending, hdone⟩ := hticks fuel hfuel
  obtain ⟨sent, hsent, hwriter, hbytes⟩ :=
    hdone ⟨1⟩ (.new ⟨1⟩ writer (.write parcel) .empty) rfl
  obtain ⟨got, hgot, hreader, -⟩ := hdone ⟨2⟩ (.new ⟨2⟩ reader (.read letter) .empty) rfl
  have hparcel : errands ⟨1⟩ = .write parcel := rfl
  have hletter : errands ⟨2⟩ = .read [7, 8, 9] := rfl
  rw [hparcel] at hsent hbytes
  rw [hletter] at hgot
  cases hsent
  obtain ⟨frame, rfl, hframe⟩ := hgot.read_eq
  exact ⟨hending, hwriter, hbytes, frame, hframe, hreader⟩

end Reactor.Errands
