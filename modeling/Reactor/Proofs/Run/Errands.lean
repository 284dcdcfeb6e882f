import Reactor.Proofs.Frame.Supply
import Reactor.Proofs.Run.Onlookers
import Reactor.Proofs.Run.Traffic
import Reactor.Proofs.Transport.Memory

/-! Errands of sockets that live in memory: to write a payload, or to read one message. While hooks
only look on, no turn does any harm to an errand, and every turn of its own kind brings it nearer to
its end. -/

namespace Reactor

variable {W S H P σ : Type} [ChunkSource σ] {host : Host W S H P}

/-- What a socket is registered for. -/
inductive Errand where
  | write (operation : WriteOperation)
  | read (message : Bytes)

namespace Errand

/-- The event in which the errand shows. -/
inductive Marks : Errand → Payload S → Prop where
  | write (w : WriteOperation) : Marks (.write w) (.write w none)
  | read (frame : Frame) : Marks (.read frame.data) (.read frame none)

theorem Marks.read_eq {message : Bytes} {payload : Payload S} (h : Marks (.read message) payload) :
    ∃ frame, payload = .read frame none ∧ frame.data = message := by
  cases h with
  | read frame => exact ⟨frame, rfl, rfl⟩

def bytes : Errand → Bytes
  | write w => w.data
  | read _ => []

/-- The kind of the turns in which the errand is run. -/
def duty : Errand → Duty
  | write _ => .writing
  | read _ => .reading

/-- The errand is done, and leave has been taken of the socket. -/
inductive Fulfilled : Errand → List (Payload S) → Bytes → Prop where
  | mk {errand : Errand} {payload : Payload S} (hm : errand.Marks payload) :
      Fulfilled errand [.connected, payload, .disconnected, .finalize] errand.bytes

end Errand

/-! ## How far an errand has got -/

namespace Descriptor

/-- What the socket has been told before its errand: that it is connected, once it is. -/
def greetings (d : Descriptor S H) : List (Payload S) :=
  if d.metadata.connectFinish then [.connected] else []

/-- How many turns it takes at most until the socket is connected. -/
def patience {rules : SocketRules W S} (A : rules.InMemory σ) (d : Descriptor S H) : Nat :=
  if d.metadata.connectFinish then 0 else A.delay d.socket

/-- The errand of the socket is under way: the socket has lived through these events, has taken
these bytes, and has less to do than `n` turns of its own kind. -/
inductive Pending {rules : SocketRules W S} (A : rules.InMemory σ) (d : Descriptor S H) :
    Errand → List (Payload S) → Bytes → Nat → Prop where
  | writing {w : WriteOperation} {n : Nat} (hs : A.Is .writing d.socket)
      (ho : d.operation = some (.write w)) (hb : d.backlog = none)
      (hn : d.patience A + w.data.length < n) : Pending A d (.write w) d.greetings [] n
  /-- The payload has been announced, and a part of it has been written. -/
  | flushing {w left : WriteOperation} {b : WriteBacklog} {sent : Bytes} {n : Nat}
      (hs : A.Is .writing d.socket) (hf : d.metadata.connectFinish = true)
      (ho : d.operation = some (.write left)) (hb : d.backlog = some b) (hd : b.data ≠ [])
      (hnext : b.next = none) (hsent : sent ++ b.data = w.data) (hn : b.data.length ≤ n) :
      Pending A d (.write w) [.connected, .write w none] sent n
  | reading {r : ReadOperation} {taken bytes message more : Bytes} {k n : Nat}
      (hs : A.Is .reading d.socket) (ho : d.operation = some (.read r)) (hb : d.backlog = none)
      (hg : (A.assembler d.socket).Gathers r.picker taken)
      (hsource : ChunkSource.Supplies (A.source d.socket) bytes k)
      (hc : r.picker.cut? (taken ++ bytes) = some (message, more))
      (hn : d.patience A + k < n) : Pending A d (.read message) d.greetings [] n

/-- The errand of the socket is under way, or it is done: then the socket has been told that it is
connected and of its errand. -/
inductive Fares {rules : SocketRules W S} (A : rules.InMemory σ) (d : Descriptor S H)
    (errand : Errand) : List (Payload S) → Bytes → Nat → Prop where
  | pending {events : List (Payload S)} {bytes : Bytes} {n : Nat} (hc : d.isComplete = false)
      (hp : d.Pending A errand events bytes n) : Fares A d errand events bytes n
  | done {payload : Payload S} {n : Nat} (hc : d.isComplete = true)
      (hf : d.metadata.connectFinish = true) (hm : errand.Marks payload) :
      Fares A d errand [.connected, payload] errand.bytes n

variable {A : host.sockets.InMemory σ} {d d' : Descriptor S H} {errand : Errand}
  {events : List (Payload S)} {bytes : Bytes} {n m : Nat}

theorem Pending.mono (h : d.Pending A errand events bytes n) (hm : n ≤ m) :
    d.Pending A errand events bytes m := by
  cases h with
  | writing hs ho hb hn => exact .writing hs ho hb (Nat.lt_of_lt_of_le hn hm)
  | flushing hs hf ho hb hd hnext hsent hn =>
      exact .flushing hs hf ho hb hd hnext hsent (Nat.le_trans hn hm)
  | reading hs ho hb hg hsource hc hn =>
      exact .reading hs ho hb hg hsource hc (Nat.lt_of_lt_of_le hn hm)

theorem Pending.pos (h : d.Pending A errand events bytes n) : 0 < n := by
  cases h with
  | writing hs ho hb hn => exact Nat.zero_lt_of_lt hn
  | flushing hs hf ho hb hd hnext hsent hn =>
      exact Nat.lt_of_lt_of_le (List.length_pos_iff.2 hd) hn
  | reading hs ho hb hg hsource hc hn => exact Nat.zero_lt_of_lt hn

/-- An errand does not depend on anything else that is known about the socket. -/
theorem Pending.of_eq (h : d.Pending A errand events bytes n) (hs : d'.socket = d.socket)
    (ho : d'.operation = d.operation) (hb : d'.backlog = d.backlog)
    (hf : d'.metadata.connectFinish = d.metadata.connectFinish) :
    d'.Pending A errand events bytes n := by
  have hgreet : d.greetings = d'.greetings := by simp only [greetings, hf]
  have hpat : d'.patience A = d.patience A := by simp only [patience, hf, hs]
  cases h with
  | writing hs' ho' hb' hn =>
      rw [hgreet]
      exact .writing (hs ▸ hs') (ho.trans ho') (hb.trans hb') (hpat ▸ hn)
  | flushing hs' hf' ho' hb' hd hnext hsent hn =>
      exact .flushing (hs ▸ hs') (hf.trans hf') (ho.trans ho') (hb.trans hb') hd hnext hsent hn
  | reading hs' ho' hb' hg hsource hc hn =>
      rw [hgreet]
      refine .reading (hs ▸ hs') (ho.trans ho') (hb.trans hb') ?_ ?_ hc (hpat ▸ hn)
      · rwa [hs]
      · rwa [hs]

theorem Pending.is (h : d.Pending A errand events bytes n) : ∃ purpose, A.Is purpose d.socket := by
  cases h with
  | writing hs | flushing hs | reading hs => exact ⟨_, hs⟩

theorem Pending.isOpen (h : d.Pending A errand events bytes n) (world : W) :
    host.sockets.isOpen world d.socket = true := by
  obtain ⟨purpose, hs⟩ := h.is
  exact A.isOpen hs world

/-- The question about the connection brings the errand nearer: the connection is there, or there is
one question less to ask. -/
theorem Pending.polled (h : d.Pending A errand events bytes n)
    (hf : d.metadata.connectFinish = false) (world : W) :
    ∃ connected socket world', host.sockets.pollConnect world d.socket =
        ⟨.done connected, socket, world', false⟩ ∧
      (connected = false →
        ({ d with socket := socket } : Descriptor S H).Pending A errand events bytes (n - 1)) ∧
      (connected = true →
        ({ d.mapMetadata fun m => { m with connectFinish := true } with
            socket := socket } : Descriptor S H).Pending A errand (events ++ [.connected]) bytes
          n) := by
  have hgreet : d.greetings = [] := if_neg (by simp [hf])
  have hwait : ∀ socket, ({ d with socket := socket } : Descriptor S H).patience A =
      A.delay socket := fun _ => if_neg (by simp [hf])
  cases h with
  | writing hs ho hb hn =>
      obtain ⟨connected, socket, world', hpoll, hs', hdelay, -⟩ := A.pollConnect hs world
      have hlong : d.patience A = A.delay d.socket := hwait d.socket
      refine ⟨connected, socket, world', hpoll, fun he => ?_, fun _ => ?_⟩
      · have hless := hdelay he
        exact .writing hs' ho hb (by rw [hwait]; omega)
      · rw [hgreet]
        refine .writing hs' ho hb ?_
        show 0 + _ < n
        omega
  | flushing hs hf' => cases hf.symm.trans hf'
  | reading hs ho hb hg hsource hc hn =>
      obtain ⟨connected, socket, world', hpoll, hs', hdelay, ha, hsrc⟩ := A.pollConnect hs world
      have hlong : d.patience A = A.delay d.socket := hwait d.socket
      rw [← ha] at hg
      rw [← hsrc] at hsource
      refine ⟨connected, socket, world', hpoll, fun he => ?_, fun _ => ?_⟩
      · have hless := hdelay he
        exact .reading hs' ho hb hg hsource hc (by rw [hwait]; omega)
      · rw [hgreet]
        refine .reading hs' ho hb hg hsource hc ?_
        show 0 + _ < n
        omega

theorem Fares.mono (h : d.Fares A errand events bytes n) (hm : n ≤ m) :
    d.Fares A errand events bytes m := by
  cases h with
  | pending hc hp => exact .pending hc (hp.mono hm)
  | done hc hf hm => exact .done hc hf hm

end Descriptor

/-! ## The turns of a socket -/

namespace Visit

/-- The visit has calmly gone on, while the socket has lived through these events and has taken
these bytes. -/
structure Tells (events : List (Payload S)) (bytes : Bytes) (v t : Visit W S H P) : Prop where
  handle : t.descriptor.handle = v.descriptor.handle
  session : v.session.Tells v.descriptor.handle events bytes t.session

section Tells

variable {v t u : Visit W S H P} {events more : List (Payload S)} {bytes rest : Bytes}

theorem Tells.refl (hc : v.session.Calm) : v.Tells [] [] v := ⟨rfl, .refl hc⟩

theorem Tells.trans (ht : v.Tells events bytes t) (hu : t.Tells more rest u) :
    v.Tells (events ++ more) (bytes ++ rest) u :=
  ⟨hu.handle.trans ht.handle, ht.session.trans (ht.handle ▸ hu.session)⟩

end Tells

/-- The visit has calmly gone on, and the errand of the socket fares no worse than this. -/
def Furthers (A : host.sockets.InMemory σ) (errand : Errand) (events : List (Payload S))
    (bytes : Bytes) (n : Nat) (v t : Visit W S H P) : Prop :=
  ∃ more rest, v.Tells more rest t ∧ t.descriptor.Fares A errand (events ++ more) (bytes ++ rest) n

variable {A : host.sockets.InMemory σ} {v u t : Visit W S H P} {errand : Errand}
  {events more : List (Payload S)} {bytes rest : Bytes} {n m : Nat}

theorem Furthers.after (hu : v.Tells more rest u)
    (h : u.Furthers A errand (events ++ more) (bytes ++ rest) n t) :
    v.Furthers A errand events bytes n t := by
  obtain ⟨more', rest', ht, hf⟩ := h
  refine ⟨more ++ more', rest ++ rest', hu.trans ht, ?_⟩
  rwa [← List.append_assoc, ← List.append_assoc]

theorem Furthers.mono (h : v.Furthers A errand events bytes n t) (hm : n ≤ m) :
    v.Furthers A errand events bytes m t := by
  obtain ⟨more, rest, ht, hf⟩ := h
  exact ⟨more, rest, ht, hf.mono hm⟩

def called (v : Visit W S H P) (socket : S) (world : W) (call : SocketCall) : Visit W S H P :=
  ⟨{ v.descriptor with socket := socket },
    ({ v.session with world := world } : Session W S H P).note
      (.called v.descriptor.handle v.descriptor.standing call)⟩

/-- A call is no event. -/
theorem called_tells (hc : v.session.Calm) (socket : S) (world : W) (call : SocketCall) :
    v.Tells [] ((.called v.descriptor.handle v.descriptor.standing call : Deed S H).bytesSent
      v.descriptor.handle) (v.called socket world call) :=
  ⟨rfl, hc.tells_note world (.called v.descriptor.handle v.descriptor.standing call) rfl rfl⟩

/-- A call that does not ask for a stop changes nothing but the socket and its surroundings. -/
theorem callSocket_apply {α : Type} {call : W → S → SocketAnswer W S α}
    (record : Ending SocketError α → SocketCall) {ending : Ending SocketError α} {socket : S}
    {world : W}
    (hcall : call v.session.world v.descriptor.socket = ⟨ending, socket, world, false⟩) :
    callSocket call record v = (ending, v.called socket world (record ending)) := by
  simp only [callSocket, hcall]
  rfl

/-- To open the socket does no harm: it is open. -/
theorem connectOrFail_furthers (hc : v.session.Calm) (hd : v.descriptor.isComplete = false)
    (hp : v.descriptor.Pending A errand events bytes n) :
    ∃ t, connectOrFail host v = (.done (), t) ∧ v.Furthers A errand events bytes n t := by
  have hconnect : ∃ t, connect host v = (.done (), t) ∧ v.Furthers A errand events bytes n t := by
    rw [connect, getDescriptor_bind]
    split
    · exact ⟨v, rfl, [], [], .refl hc, by simpa using .pending hd hp⟩
    rw [modifyDescriptor_bind, Step.get_bind, if_pos (hp.isOpen _)]
    refine ⟨_, rfl, [], [], ⟨rfl, .refl hc⟩, ?_⟩
    rw [List.append_nil, List.append_nil]
    exact .pending hd (hp.of_eq rfl rfl rfl rfl)
  obtain ⟨t, hx, ht⟩ := hconnect
  refine ⟨t, ?_, ht⟩
  have hmap : (connect host).mapCut (Interrupt.fault · none) v = (.done (), t) := by
    simp only [Step.mapCut, hx]
    rfl
  rw [connectOrFail, settle, Step.bind_of_done (Step.attempt_of_done hmap)]
  rfl

/-- Whether or not the socket gets connected, its errand comes to no harm; every vain question about
the connection is one turn less to wait. -/
theorem ensureConnected_tells (ho : host.Observed) (hc : v.session.Calm)
    (hp : v.descriptor.Pending A errand events bytes n) :
    ∃ connected u more rest, ensureConnected host v = (.done connected, u) ∧ v.Tells more rest u ∧
      u.descriptor.isComplete = v.descriptor.isComplete ∧
      u.descriptor.Pending A errand (events ++ more) (bytes ++ rest)
        (if connected then n else n - 1) ∧
      (connected = true → u.descriptor.metadata.connectFinish = true) := by
  rw [ensureConnected, getDescriptor_bind]
  split
  · rename_i hf
    exact ⟨true, v, [], [], rfl, .refl hc, rfl, by simpa using hp, fun _ => hf⟩
  rename_i hf
  obtain ⟨connected, socket, world, hpoll, hwaiting, hconnected⟩ :=
    hp.polled (by simpa using hf) v.session.world
  have hcalled := called_tells hc socket world .pollConnect
  have hx : (callSocket host.sockets.pollConnect fun _ => .pollConnect).mapCut
      (Interrupt.fault · none) v = (.done connected, v.called socket world .pollConnect) := by
    rw [Step.mapCut, callSocket_apply _ hpoll]
    rfl
  rw [Step.bind_of_done hx]
  cases connected with
  | false =>
      refine ⟨false, _, [], [], rfl, hcalled, rfl, ?_, fun he => by cases he⟩
      rw [List.append_nil, List.append_nil]
      exact hwaiting rfl
  | true =>
      rw [if_pos rfl, modifyDescriptor_bind]
      let w : Visit W S H P := { v.called socket world .pollConnect with
        descriptor := (v.called socket world .pollConnect).descriptor.mapMetadata fun m =>
          { m with connectFinish := true } }
      have hw : v.Tells [] [] w := ⟨rfl, hcalled.session⟩
      obtain ⟨s, hraise, ht⟩ := dispatch_observed ho hw.session.calm .connected
      rw [Step.bind_of_done hraise]
      refine ⟨true, ⟨w.descriptor, s⟩, [.connected], [], rfl, hw.trans ⟨rfl, ht⟩, rfl, ?_,
        fun _ => rfl⟩
      rw [List.append_nil]
      exact hconnected rfl

/-- The turn does no harm to the errand, and if it is one of its kind, it brings it nearer to its
end. -/
def Helps (A : host.sockets.InMemory σ) (duty : Duty) (errand : Errand)
    (events : List (Payload S)) (bytes : Bytes) (n : Nat) (v t : Visit W S H P) : Prop :=
  v.Furthers A errand events bytes n t ∧
    (errand.duty = duty → v.Furthers A errand events bytes (n - 1) t)

theorem Furthers.helps {duty : Duty} (h : v.Furthers A errand events bytes (n - 1) t) :
    v.Helps A duty errand events bytes n t :=
  ⟨h.mono (Nat.sub_le n 1), fun _ => h⟩

theorem Helps.after {duty : Duty} (hu : v.Tells more rest u)
    (h : u.Helps A duty errand (events ++ more) (bytes ++ rest) n t) :
    v.Helps A duty errand events bytes n t :=
  ⟨h.1.after hu, fun hduty => (h.2 hduty).after hu⟩

/-- A turn of another kind that does nothing once the socket is connected. -/
theorem helps_of_idle {duty : Duty} (hc : v.session.Calm) (hd : v.descriptor.isComplete = false)
    (hp : v.descriptor.Pending A errand events bytes n) (hduty : errand.duty ≠ duty) :
    v.Helps A duty errand events bytes n v := by
  refine ⟨⟨[], [], .refl hc, ?_⟩, fun h => absurd h hduty⟩
  rw [List.append_nil, List.append_nil]
  exact .pending hd hp

/-- What a turn does first is to ensure the connection. -/
theorem whenConnected_helps {duty : Duty} (hobs : host.Observed) (hc : v.session.Calm)
    (hd : v.descriptor.isComplete = false) (hp : v.descriptor.Pending A errand events bytes n)
    (x : Step (Visit W S H P) Interrupt Unit)
    (hx : ∀ (u : Visit W S H P) events bytes, u.session.Calm → u.descriptor.isComplete = false →
      u.descriptor.metadata.connectFinish = true →
        u.descriptor.Pending A errand events bytes n →
          ∃ t, x u = (.done (), t) ∧ u.Helps A duty errand events bytes n t) :
    ∃ t, (do if ← ensureConnected host then x) v = (.done (), t) ∧
      v.Helps A duty errand events bytes n t := by
  obtain ⟨connected, u, more, rest, hfirst, ht, hsame, hp', hconn⟩ :=
    ensureConnected_tells hobs hc hp
  have hu := hsame.trans hd
  rw [Step.bind_of_done hfirst]
  cases connected with
  | false => exact ⟨u, rfl, Furthers.helps ⟨more, rest, ht, .pending hu hp'⟩⟩
  | true =>
      obtain ⟨t, hrest, hhelps⟩ := hx u _ _ ht.session.calm hu (hconn rfl) hp'
      exact ⟨t, hrest, hhelps.after ht⟩

/-! ## Turns to write -/

/-- The socket is connected, and its operation is one to write. -/
structure Transmits (A : host.sockets.InMemory σ) (v : Visit W S H P) : Prop where
  is : A.Is .writing v.descriptor.socket
  active : v.descriptor.isComplete = false
  connected : v.descriptor.metadata.connectFinish = true
  operation : ∃ w, v.descriptor.operation = some (.write w)

/-- After a write the socket goes on with what is left of the payload, or is done. -/
theorem carryOn_fares {b : WriteBacklog} {w : WriteOperation} {sent : Bytes} {k : Nat}
    (hv : v.Transmits A) (hnext : b.next = none) (hsent : sent ++ b.data = w.data)
    (hn : b.data.length ≤ n + k) :
    (v.carryOn (b.drain k)).descriptor.Fares A (.write w) [.connected, .write w none]
      (sent ++ b.data.take k) n := by
  have hsplit : (sent ++ b.data.take k) ++ b.data.drop k = w.data := by
    rw [List.append_assoc, List.take_append_drop, hsent]
  by_cases he : b.data.drop k = []
  · have hend : (v.carryOn (b.drain k)).descriptor = v.descriptor.markComplete := by
      simp only [carryOn, Descriptor.carryOn, WriteBacklog.drain, he, hnext]
      rfl
    rw [he, List.append_nil] at hsplit
    rw [hend, hsplit]
    exact .done rfl hv.connected (.write w)
  · have hleft : (v.carryOn (b.drain k)).descriptor =
        { v.descriptor with backlog := some (b.drain k) } := by
      simp only [carryOn, Descriptor.carryOn, WriteBacklog.drain, List.isEmpty_eq_false_iff.2 he]
      rfl
    obtain ⟨left, ho⟩ := hv.operation
    rw [hleft]
    refine .pending hv.active (.flushing hv.is hv.connected ho rfl he hnext hsplit ?_)
    simp only [WriteBacklog.drain, List.length_drop]
    omega

/-- A write that is called for is accepted at least in part. -/
theorem write_furthers {b : WriteBacklog} {w : WriteOperation} {sent : Bytes}
    (hc : v.session.Calm) (hv : v.Transmits A) (hb : b.data ≠ []) (hnext : b.next = none)
    (hsent : sent ++ b.data = w.data) (hn : b.data.length ≤ n + 1) :
    ∃ k u, writeSocket host b.data b.outOfBand v = (.done k, u) ∧
      v.Furthers A (.write w) [.connected, .write w none] sent n (u.carryOn (b.drain k)) := by
  obtain ⟨k, socket, world, hwrite, hk, hs⟩ := A.write hv.is v.session.world hb b.outOfBand
  let u := v.called socket world (.write b.data b.outOfBand (some k))
  have hu : u.Transmits A := ⟨hs, hv.active, hv.connected, hv.operation⟩
  have hx : writeSocket host b.data b.outOfBand v = (.done k, u) := by
    rw [writeSocket, Step.mapCut, callSocket_apply _ hwrite]
    rfl
  have ht : v.Tells [] (b.data.take k) u := by
    have ht := called_tells hc socket world (.write b.data b.outOfBand (some k))
    simpa only [Deed.bytesSent, if_pos, Option.getD_some] using ht
  have hfares := carryOn_fares hu hnext hsent (show b.data.length ≤ n + k by omega)
  exact ⟨k, u, hx, [], b.data.take k, ⟨(u.descriptor.carryOn_keeps _).1, ht.session⟩, hfares⟩

/-- A flush writes at least a part of the backlog. -/
theorem flush_furthers {b : WriteBacklog} {w : WriteOperation} {sent : Bytes}
    (hc : v.session.Calm) (hv : v.Transmits A) (hb : b.data ≠ []) (hnext : b.next = none)
    (hsent : sent ++ b.data = w.data) (hn : b.data.length ≤ n + 1) :
    ∃ t, flush host b v = (.done (), t) ∧
      v.Furthers A (.write w) [.connected, .write w none] sent n t := by
  let start := (v.withBacklog none).tried
  have hready : v.Tells [] [] start := ⟨rfl, .refl hc⟩
  have hstart : start.Transmits A := ⟨hv.is, hv.active, hv.connected, hv.operation⟩
  obtain ⟨k, u, hwrite, hu⟩ := write_furthers hready.session.calm hstart hb hnext hsent hn
  refine ⟨u.carryOn (b.drain k), ?_, .after hready (by simpa using hu)⟩
  have hflush : flush host b v = (writeSocket host b.data b.outOfBand >>= fun written =>
      if (b.drain written).data.isEmpty then modifyDescriptor (·.adoptNext b.next)
      else modifyDescriptor fun d => { d with backlog := some (b.drain written) }) start := rfl
  rw [hflush, Step.bind_of_done hwrite]
  unfold carryOn Descriptor.carryOn
  split <;> rfl

/-- A payload that has been announced is written at least in part. -/
theorem writePayload_furthers {w : WriteOperation} (hc : v.session.Calm) (hv : v.Transmits A)
    (ho : v.descriptor.operation = some (.write w)) (hn : w.data.length ≤ n + 1) :
    ∃ t, writePayload host none v = (.done (), t) ∧
      v.Furthers A (.write w) [.connected, .write w none] [] n t := by
  have hready : v.Tells [] [] v.tried := ⟨rfl, .refl hc⟩
  have htried : v.tried.Transmits A := ⟨hv.is, hv.active, hv.connected, hv.operation⟩
  have hop : v.tried.descriptor.operation = some (.write w) := ho
  let b : WriteBacklog := ⟨w.data, w.outOfBand, none⟩
  have hsent : [] ++ b.data = w.data := rfl
  rw [writePayload, markIo_bind, getDescriptor_bind, hop]
  dsimp only
  by_cases hdata : w.data = []
  · have hno : w.hasData = false := by simp [WriteOperation.hasData, hdata]
    have hfares := carryOn_fares htried rfl hsent (show b.data.length ≤ n + 0 by simp [b, hdata])
    rw [hno]
    exact ⟨v.tried.carryOn (b.drain 0), finishWrite_apply w none 0 v.tried, [], [],
      ⟨(v.tried.descriptor.carryOn_keeps _).1, .refl hc⟩, hfares⟩
  · have hyes : w.hasData = true := by simp [WriteOperation.hasData, hdata]
    obtain ⟨k, u, hwrite, hu⟩ := write_furthers hready.session.calm htried hdata rfl hsent hn
    refine ⟨u.carryOn (b.drain k), ?_, .after hready (by simpa using hu)⟩
    rw [hyes, if_pos rfl, Step.bind_of_done hwrite, finishWrite_apply w none k u]

/-- The payload is announced as it is, and written at least in part. -/
theorem announceWrite_furthers {w : WriteOperation} (hobs : host.Observed) (hc : v.session.Calm)
    (hv : v.Transmits A) (hn : w.data.length ≤ n + 1) :
    ∃ t, announceWrite host w v = (.done (), t) ∧
      v.Furthers A (.write w) [.connected] [] n t := by
  let u := v.withOperation (some (.write .empty))
  have hu : v.Tells [] [] u := ⟨rfl, .refl hc⟩
  have hactive : u.descriptor.isComplete = false := hv.active
  obtain ⟨s, hraise, ht⟩ := dispatch_observed hobs hu.session.calm (.write w none)
  let x := (⟨u.descriptor, s⟩ : Visit W S H P).withOperation (some (.write w))
  have hx : x.Transmits A := ⟨hv.is, hv.active, hv.connected, w, rfl⟩
  obtain ⟨t, hwrite, hfurthers⟩ := writePayload_furthers ht.calm hx rfl hn
  refine ⟨t, ?_, .after (u := x) ⟨rfl, ht⟩ hfurthers⟩
  rw [announceWrite, modifyDescriptor_bind]
  show (dispatch host (.write w none) >>= _) u = _
  rw [Step.bind_of_done hraise]
  dsimp only
  rw [Run.unlessComplete_apply, if_neg (by rw [hactive]; simp), modifyDescriptor_bind]
  exact hwrite

/-- A turn to write does no harm to an errand, and furthers it if it is one to write. -/
theorem serveWrite_helps (hobs : host.Observed) (hc : v.session.Calm)
    (hd : v.descriptor.isComplete = false) (hp : v.descriptor.Pending A errand events bytes n) :
    ∃ t, serveWrite host v = (.done (), t) ∧ v.Helps A .writing errand events bytes n t := by
  refine whenConnected_helps hobs hc hd hp _ fun u events bytes hc hd hconn hp => ?_
  rw [getDescriptor_bind]
  have hpos := hp.pos
  cases hp with
  | @writing w _ hs ho hb hlt =>
      have hlong : w.data.length ≤ n - 1 + 1 := by omega
      obtain ⟨t, hwrite, hfurthers⟩ :=
        announceWrite_furthers hobs hc ⟨hs, hd, hconn, w, ho⟩ hlong
      have hgreet : u.descriptor.greetings = [.connected] := if_pos hconn
      rw [hb, ho, hgreet]
      exact ⟨t, hwrite, hfurthers.helps⟩
  | @flushing w left b _ _ hs hf ho hb hdata hnext hsent hle =>
      have hlong : b.data.length ≤ n - 1 + 1 := by omega
      obtain ⟨t, hflush, hfurthers⟩ :=
        flush_furthers hc ⟨hs, hd, hf, left, ho⟩ hdata hnext hsent hlong
      rw [hb]
      exact ⟨t, hflush, hfurthers.helps⟩
  | reading hs ho hb hg hsource hcut hlt =>
      rw [hb, ho]
      exact ⟨u, rfl, helps_of_idle hc hd (.reading hs ho hb hg hsource hcut hlt) nofun⟩

/-! ## Turns to read -/

/-- A call to read that does not ask for a stop changes nothing but the operation, the socket and
its surroundings. -/
theorem readSocket_apply {r : ReadOperation} {picker : Picker} {socket : S} {world : W}
    {ending : Ending SocketError (ReadOutcome S)}
    (hread : host.sockets.read v.session.world v.descriptor.socket r.picker v.descriptor.previous
      r.outOfBand = (⟨ending, socket, world, false⟩, picker)) :
    readSocket host r v = (ending, (v.called socket world (.read r.outOfBand)).withOperation
      (some (.read { r with picker := picker }))) := by
  simp only [readSocket, hread]
  rfl

/-- A message is announced as it is, and no other operation is chosen. -/
theorem finishRead_observed (hobs : host.Observed) (hc : v.session.Calm) (frame : Frame) :
    ∃ s, finishRead host (.ok (.frame frame)) v =
        (.done (), ⟨v.withoutPrevious.descriptor.markComplete, s⟩) ∧
      v.session.Tells v.descriptor.handle [.read frame none] [] s := by
  have hstart : v.withoutPrevious.session.Calm := hc
  obtain ⟨s, hraise, ht⟩ := dispatch_observed hobs hstart (.read frame none)
  refine ⟨s, ?_, ht⟩
  rw [finishRead, modifyDescriptor_bind]
  show (dispatch host (.read frame none) >>= _) v.withoutPrevious = _
  rw [Step.bind_of_done hraise]
  rfl

/-- A read yields the message, or brings it nearer. -/
theorem read_furthers {r : ReadOperation} {taken supply message rest : Bytes} {k : Nat}
    (hobs : host.Observed) (hc : v.session.Calm)
    (hs : A.Is .reading v.descriptor.socket) (hd : v.descriptor.isComplete = false)
    (hf : v.descriptor.metadata.connectFinish = true) (hb : v.descriptor.backlog = none)
    (hg : (A.assembler v.descriptor.socket).Gathers r.picker taken)
    (hsource : ChunkSource.Supplies (A.source v.descriptor.socket) supply k)
    (hcut : r.picker.cut? (taken ++ supply) = some (message, rest)) (hn : k ≤ n) :
    ∃ outcome u t, readSocket host r v = (.done outcome, u) ∧
      finishRead host (.ok outcome) u = (.done (), t) ∧
      v.Furthers A (.read message) [.connected] [] n t := by
  have hnears := FrameAssembler.assemble_nears hg hsource (by rw [hcut]; simp)
  obtain ⟨socket, world, hread, hs', ha, hsrc⟩ :=
    A.read hs v.session.world r.picker v.descriptor.previous r.outOfBand
  let u := (v.called socket world (.read r.outOfBand)).withOperation (some (.read { r with
    picker := ((A.assembler v.descriptor.socket).assemble r.picker
      (A.source v.descriptor.socket)).picker }))
  have hx := readSocket_apply hread
  have ht : v.Tells [] [] u := ⟨rfl, (called_tells hc socket world (.read r.outOfBand)).session⟩
  cases hnears with
  | frame frame rest' he hcut' =>
      rw [hcut] at hcut'
      cases hcut'
      obtain ⟨s, hfinish, hs⟩ := finishRead_observed hobs ht.session.calm frame
      rw [he] at hx
      exact ⟨_, u, _, hx, hfinish, .after ht ⟨_, _, ⟨rfl, hs⟩, .done rfl hf (.read frame)⟩⟩
  | pending snapshot pulled left fewer he hst hg' hp hs'' hlt =>
      let t : Visit W S H P := ⟨{ u.descriptor with previous := some snapshot }, u.session⟩
      have hgreet : t.descriptor.greetings = [.connected] := if_pos hf
      have hpending : t.descriptor.Pending A (.read message) t.descriptor.greetings [] n := by
        apply Descriptor.Pending.reading (d := t.descriptor) hs' rfl hb
        · show (A.assembler socket).Gathers _ pulled
          rw [ha]
          exact hg'
        · show ChunkSource.Supplies (A.source socket) left fewer
          rw [hsrc]
          exact hs''
        · show ((A.assembler v.descriptor.socket).assemble r.picker
            (A.source v.descriptor.socket)).picker.cut? (pulled ++ left) = _
          rw [hp.cut?, ← hst]
          exact hcut
        · have hzero : t.descriptor.patience A = 0 := if_pos hf
          omega
      rw [hgreet] at hpending
      have hfurthers : u.Furthers A (.read message) [.connected] [] n t :=
        ⟨[], [], ⟨rfl, .refl ht.session.calm⟩, .pending hd hpending⟩
      rw [he] at hx
      exact ⟨_, u, t, hx, rfl, .after ht hfurthers⟩

/-- A turn to read does no harm to an errand, and furthers it if it is one to read. -/
theorem serveRead_helps (hobs : host.Observed) (hc : v.session.Calm)
    (hd : v.descriptor.isComplete = false) (hp : v.descriptor.Pending A errand events bytes n) :
    ∃ t, serveRead host v = (.done (), t) ∧ v.Helps A .reading errand events bytes n t := by
  refine whenConnected_helps hobs hc hd hp _ fun u events bytes hc hd hconn hp => ?_
  rw [getDescriptor_bind]
  have hpos := hp.pos
  cases hp with
  | writing hs ho hb hlt =>
      rw [ho]
      exact ⟨u, rfl, helps_of_idle hc hd (.writing hs ho hb hlt) nofun⟩
  | flushing hs hf ho hb hdata hnext hsent hle =>
      rw [ho]
      exact ⟨u, rfl, helps_of_idle hc hd (.flushing hs hf ho hb hdata hnext hsent hle) nofun⟩
  | @reading r taken supply message rest k _ hs ho hb hg hsource hcut hlt =>
      have htried : u.Tells [] [] u.tried := ⟨rfl, .refl hc⟩
      have hshort : k ≤ n - 1 := by omega
      obtain ⟨outcome, w, t, hread, hfinish, hfurthers⟩ := read_furthers (v := u.tried) hobs
        htried.session.calm hs hd hconn hb hg hsource hcut hshort
      have hgreet : u.descriptor.greetings = [.connected] := if_pos hconn
      rw [ho, hgreet]
      refine ⟨t, ?_, Furthers.helps (.after htried hfurthers)⟩
      dsimp only
      rw [markIo_bind, Step.bind_of_done (Step.attempt_of_done hread)]
      exact hfinish

end Visit

/-- No turn does any harm to an errand, and a turn of its kind brings it nearer to its end. -/
theorem Duty.work_helps {A : host.sockets.InMemory σ} {v : Visit W S H P} {errand : Errand}
    {events : List (Payload S)} {bytes : Bytes} {n : Nat} (duty : Duty) (hobs : host.Observed)
    (hc : v.session.Calm) (hd : v.descriptor.isComplete = false)
    (hp : v.descriptor.Pending A errand events bytes n) :
    ∃ t, duty.work host v = (.done (), t) ∧ v.Helps A duty errand events bytes n t := by
  have hsettle : ∀ {x : Step (Visit W S H P) Interrupt Unit} {t}, x v = (.done (), t) →
      Visit.settle host x v = (.done (), t) := by
    intro x t hx
    rw [Visit.settle, Step.bind_of_done (Step.attempt_of_done hx)]
    rfl
  cases duty with
  | opening =>
      obtain ⟨t, hx, ht⟩ := Visit.connectOrFail_furthers hc hd hp
      refine ⟨t, hx, ht, fun hrun => ?_⟩
      cases errand <;> cases hrun
  | reading =>
      obtain ⟨t, hx, ht⟩ := Visit.serveRead_helps hobs hc hd hp
      exact ⟨t, hsettle hx, ht⟩
  | writing =>
      obtain ⟨t, hx, ht⟩ := Visit.serveWrite_helps hobs hc hd hp
      exact ⟨t, hsettle hx, ht⟩

end Reactor
