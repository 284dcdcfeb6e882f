import Reactor.Proofs.Frame.Framing
import Reactor.Proofs.Run.Passage

/-! The decoder of a stream: what the operations of a socket come to when the stream is there as a
whole. It is the measure of what the hooks are told when the stream comes in bit by bit. -/

namespace Reactor

variable {S H : Type}

/-- What the hooks are told of the traffic of a socket. -/
inductive Announcement where
  | read (message : Bytes)
  | write (operation : WriteOperation)
  deriving DecidableEq

def Deed.announcement? (h : SocketHandle) : Deed S H → Option Announcement
  | .raised k _ (.read frame _) => if k = h then some (.read frame.data) else none
  | .raised k _ (.write operation _) => if k = h then some (.write operation) else none
  | _ => none

def announcements (h : SocketHandle) (journal : List (Deed S H)) : List Announcement :=
  journal.filterMap (Deed.announcement? h)

/-- What operations come to that are carried out one after the other on a stream which is given as a
whole, and what they leave of it. Each read cuts the first message off, as its picker defines it. -/
def decode : List Operation → Bytes → Option (List Announcement × Bytes)
  | [], stream => some ([], stream)
  | .read r :: operations, stream => do
      let (message, rest) ← r.picker.cut? stream
      let (later, rest) ← decode operations rest
      some (.read message :: later, rest)
  | .write w :: operations, stream => do
      let (later, rest) ← decode operations stream
      some (.write w :: later, rest)

/-- A read of the ordinary stream with an unused picker that frames messages, or a write. -/
inductive Operation.Framed : Operation → Prop where
  | read {p : Picker} (hp : p.Fresh) : Framed (.read ⟨p, false⟩)
  | write (w : WriteOperation) : Framed (.write w)

section Decode

variable {operations more : List Operation} {stream rest : Bytes} {ns ns' : List Announcement}
  {h : SocketHandle}

@[simp] theorem announcements_append (journal deeds : List (Deed S H)) :
    announcements h (journal ++ deeds) = announcements h journal ++ announcements h deeds := by
  simp [announcements]

theorem announcements_eq_nil {deeds : List (Deed S H)} (hd : ∀ deed ∈ deeds, ¬ deed.IsTransfer h) :
    announcements h deeds = [] := by
  refine List.filterMap_eq_nil_iff.2 fun deed hdeed => ?_
  have hnot := hd deed hdeed
  cases deed with
  | raised k standing payload =>
      cases payload with
      | read | write => exact if_neg hnot
      | _ => rfl
  | _ => rfl

theorem announcements_cons_read {k : SocketHandle} (hk : k = h) {standing : Standing}
    {frame : Frame} {next : Option Operation} {deeds : List (Deed S H)} :
    announcements h (.raised k standing (.read frame next) :: deeds) =
      .read frame.data :: announcements h deeds := by
  simp [announcements, Deed.announcement?, hk]

theorem announcements_cons_write {k : SocketHandle} (hk : k = h) {standing : Standing}
    {w : WriteOperation} {next : Option Operation} {deeds : List (Deed S H)} :
    announcements h (.raised k standing (.write w next) :: deeds) =
      .write w :: announcements h deeds := by
  simp [announcements, Deed.announcement?, hk]

theorem decode_read {r : ReadOperation} {message : Bytes}
    (h : r.picker.cut? stream = some (message, rest)) :
    decode [.read r] stream = some ([.read message], rest) := by
  simp [decode, h]

/-- What was decoded does not change when more of the stream arrives. -/
theorem decode_append_stream (hf : ∀ o ∈ operations, o.Framed) (arrived : Bytes) :
    ∀ {stream : Bytes} {ns : List Announcement}, decode operations stream = some (ns, rest) →
      decode operations (stream ++ arrived) = some (ns, rest ++ arrived) := by
  induction operations with
  | nil =>
      rintro stream ns ⟨⟩
      rfl
  | cons o operations ih =>
      intro stream ns hd
      have hrest := fun o' ho' => hf o' (List.mem_cons_of_mem _ ho')
      cases hf o List.mem_cons_self with
      | read hp =>
          simp only [decode, Option.bind_eq_bind, Option.bind_eq_some_iff] at hd
          obtain ⟨⟨message, left⟩, hcut, ⟨later, left'⟩, hlater, heq⟩ := hd
          cases heq
          simp [decode, hp.cut?_append hcut, ih hrest hlater]
      | write w =>
          simp only [decode, Option.bind_eq_bind, Option.bind_eq_some_iff] at hd
          obtain ⟨⟨later, left⟩, hlater, heq⟩ := hd
          cases heq
          simp [decode, ih hrest hlater]

/-- The operations are carried out one after the other. -/
theorem decode_append {left : Bytes} (hm : decode more left = some (ns', rest)) :
    ∀ {stream : Bytes} {ns : List Announcement}, decode operations stream = some (ns, left) →
      decode (operations ++ more) stream = some (ns ++ ns', rest) := by
  induction operations with
  | nil =>
      rintro stream ns ⟨⟩
      exact hm
  | cons o operations ih =>
      intro stream ns hd
      cases o with
      | read r =>
          simp only [decode, Option.bind_eq_bind, Option.bind_eq_some_iff] at hd
          obtain ⟨⟨message, between⟩, hcut, ⟨later, left'⟩, hlater, heq⟩ := hd
          cases heq
          simp [decode, hcut, ih hlater]
      | write w =>
          simp only [decode, Option.bind_eq_bind, Option.bind_eq_some_iff] at hd
          obtain ⟨⟨later, left'⟩, hlater, heq⟩ := hd
          cases heq
          simp [decode, ih hlater]

end Decode

end Reactor
