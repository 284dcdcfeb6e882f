import Reactor.Proofs.Frame.Pieces
import Reactor.Proofs.Transport.Datagrams

/-! Where the messages of a datagram socket come from. One who reads from it goes on with the same
picker while its message is not complete, and takes an unused one otherwise. A message lies in one
datagram, unless it begins in bytes that were left over from an earlier one and these do not hold all
of it: then it goes on with the first bytes of the next datagram, and carries the origin of that
one. -/

namespace Reactor

/-- One who reads from a datagram socket: the picker whose message is not complete, the datagrams
that have been received, and the bytes of them that may still become part of a message. -/
structure Reader where
  socket : DatagramSocket
  picker? : Option Picker
  datagrams : List (Bytes × String)
  held : Bytes

namespace Reader

variable {K : Type} [SystemCalls K]

def start (s : DatagramSocket) : Reader := ⟨s, none, [], []⟩

/-- The picker of the next read: the one whose message is not complete, or else an unused one. -/
def picker (r : Reader) (unused : Picker) : Picker := r.picker?.getD unused

def read (k : K) (r : Reader) (unused : Picker) :
    SocketAnswer K DatagramSocket Reading × Picker :=
  r.socket.read k (r.picker unused) false

def news (k : K) (r : Reader) (unused : Picker) : List (Bytes × String) :=
  r.socket.received k (r.picker unused) false

/-- A message that is not complete keeps its picker. After any other read the bytes that may still
become part of a message are those that wait in the assembler. -/
def after (k : K) (r : Reader) (unused : Picker) : Reader :=
  let x := r.read k unused
  let datagrams := r.datagrams ++ r.news k unused
  match x.1.ending with
  | .done (.pending _) => ⟨x.1.socket, some x.2, datagrams, r.held⟩
  | _ => ⟨x.1.socket, none, datagrams, x.1.socket.assembler.unhandled⟩

/-- What has come of reading from a socket again and again, whatever the system was at each read. -/
inductive Reached (K : Type) [SystemCalls K] (s : DatagramSocket) : Reader → Prop where
  | start : Reached K s (start s)
  | read {r : Reader} (h : Reached K s r) (k : K) {unused : Picker} (hu : unused.Unused) :
      Reached K s (r.after k unused)

/-- The bytes that are held are the end of one datagram. They wait in the assembler, which knows their
origin, or a picker has taken them. -/
structure Traced (r : Reader) : Prop where
  held : r.held ≠ [] → ∃ d ∈ r.datagrams, r.held <:+ d.1 ∧
    (r.picker? = none → r.socket.assembler.address = d.2)
  idle : r.picker? = none → r.socket.assembler.unhandled = r.held
  busy : ∀ p, r.picker? = some p → p.Collects r.held ∧ r.socket.assembler.unhandled = []

variable {k : K} {r : Reader} {unused : Picker}

/-! ## One read -/

/-- What becomes of the bytes that are held before a datagram is asked for. -/
inductive Resumes (r : Reader) (unused : Picker) (x : Resumed Picker) : Prop where
  | empty (hp : r.picker? = none) (hf : x.finished = true) (ha : x.assembler = r.socket.assembler)
      (hb : (FramePicker.buildFrame x.picker).1 = .empty)
  | piece (hp : r.picker? = none) (hf : x.finished = true)
      (hd : (FramePicker.buildFrame x.picker).1.data ++ x.assembler.unhandled <:+ r.held)
      (ho : (FramePicker.buildFrame x.picker).1.address = r.socket.assembler.address)
      (ha : x.assembler.unhandled ≠ [] → x.assembler.address = r.socket.assembler.address)
  | unfinished (hf : x.finished = false) (ha : x.assembler.unhandled = [])
      (hc : x.picker.Collects r.held) (hs : x.picker.startAt? = (r.picker unused).startAt?)

theorem Traced.resumes (h : r.Traced) (hu : unused.Unused) :
    r.Resumes unused (r.socket.assembler.resume (r.picker unused)) := by
  rcases hp : r.picker? with _ | p
  · have hidle := h.idle hp
    have hpicker : r.picker unused = unused := by simp [picker, hp]
    rw [hpicker]
    cases FrameAssembler.replays_resume hu r.socket.assembler with
    | empty hx hb =>
        rw [hx]
        exact .empty hp rfl rfl hb
    | piece n ha hf hn hx =>
        have hkept : (FrameAssembler.empty.stash
            (FramePicker.append unused r.socket.assembler.unhandled r.socket.assembler.address).rest
            r.socket.assembler.address).unhandled = _ :=
          FrameAssembler.unhandled_stash_of_nil rfl _ _
        rw [hx]
        refine .piece hp rfl ?_ (Picker.address_append hf _ _) ?_
        · dsimp only
          rw [hkept, hn.piece, ← hidle]
          exact List.drop_suffix n _
        · dsimp only
          rw [hkept]
          exact fun hrest => FrameAssembler.address_stash _ hrest _
    | unfinished hf ha hc hs => exact .unfinished hf ha (hidle ▸ hc) (by rw [hpicker, hs])
  · obtain ⟨hc, ha⟩ := h.busy p hp
    have hpicker : r.picker unused = p := by simp [picker, hp]
    rw [hpicker, FrameAssembler.resume_of_collects hc ha]
    exact .unfinished rfl ha hc (by rw [hpicker])

/-- A datagram completes the message of a picker that has taken the bytes that were held, or there is
no message yet. -/
theorem settle_of_collects {a : FrameAssembler} {p : Picker} {held : Bytes} (ha : a.unhandled = [])
    (hc : p.Collects held) (answer : Except IoError (Bytes × String)) :
    (∃ d n, answer = .ok d ∧ p.Completes held d.1 d.2 n ∧
      a.settle p answer = (a.stash (FramePicker.append p d.1 d.2).rest d.2).deliver
        (FramePicker.append p d.1 d.2).picker ()) ∨
    (∀ frame, (a.settle p answer).ending ≠ .done (.frame frame)) ∧
      (a.settle p answer).assembler.unhandled = [] ∧
      ∀ snapshot, (a.settle p answer).ending = .done (.pending snapshot) →
        (a.settle p answer).picker.Collects held := by
  rcases answer with e | ⟨bytes, origin⟩
  · refine .inr ⟨fun frame => ?_, ha, fun _ _ => hc⟩
    simp only [FrameAssembler.settle]
    split <;> simp
  · by_cases hb : bytes = []
    · simp only [FrameAssembler.settle, if_pos hb]
      exact .inr ⟨by simp, ha, fun _ _ => hc⟩
    · simp only [FrameAssembler.settle, if_neg hb]
      rcases hc.append_cases hb origin with ⟨n, hn⟩ | hn
      · rw [if_pos hn.finished]
        exact .inl ⟨(bytes, origin), n, rfl, hn, rfl⟩
      · rw [if_neg (by simp [hn.unfinished])]
        refine .inr ⟨by simp, ?_, by simp⟩
        exact (FrameAssembler.unhandled_stash_of_nil ha _ _).trans hn.rest

inductive Reads (k : K) (r : Reader) (unused : Picker) : Prop where
  | refused (e : SocketError) (he : (r.read k unused).1.ending = .cut e)
      (ha : (r.read k unused).1.socket.assembler = r.socket.assembler)
  | resumed (x : Resumed Picker) (hr : r.Resumes unused x) (hf : x.finished = true)
      (hn : r.news k unused = [])
      (he : (r.read k unused).1.ending = .done (.frame (FramePicker.buildFrame x.picker).1))
      (ha : (r.read k unused).1.socket.assembler = x.assembler)
  | unframed (he : ∀ frame, (r.read k unused).1.ending ≠ .done (.frame frame))
      (ha : (r.read k unused).1.socket.assembler.unhandled = [])
      (hp : ∀ snapshot, (r.read k unused).1.ending = .done (.pending snapshot) →
        (r.read k unused).2.Collects r.held)
  | message (d : Bytes × String) (n : Nat) (frame : Frame) (hn : r.news k unused = [d])
      (he : (r.read k unused).1.ending = .done (.frame frame)) (ho : frame.address = d.2)
      (hs : (r.picker unused).startAt? (r.held ++ d.1) = some n)
      (hd : frame.data ++ (r.read k unused).1.socket.assembler.unhandled = (r.held ++ d.1).drop n)
      (hl : r.held.length < n + frame.data.length)
      (hr : (r.read k unused).1.socket.assembler.unhandled <:+ d.1)
      (ha : (r.read k unused).1.socket.assembler.unhandled ≠ [] →
        (r.read k unused).1.socket.assembler.address = d.2)

theorem Traced.reads (h : r.Traced) (hu : unused.Unused) (k : K) : r.Reads k unused := by
  rcases hfd : r.socket.fd with _ | fd
  · obtain ⟨e, hread⟩ : ∃ e, r.read k unused = (⟨.cut e, r.socket, k, false⟩, r.picker unused) := by
      obtain ⟨e, he⟩ := DatagramSocket.read_refused (.inl hfd)
      exact ⟨e, he k⟩
    exact .refused e (by rw [hread]) (by rw [hread])
  · have hread := DatagramSocket.read_open hfd k (r.picker unused)
    have hnews := DatagramSocket.received_open (k := k) (p := r.picker unused) hfd
    change r.read k unused = _ at hread
    change r.news k unused = _ at hnews
    have hresumes := h.resumes hu
    generalize r.socket.assembler.resume (r.picker unused) = x at hread hnews hresumes
    by_cases hf : x.finished = true
    · simp only [if_pos hf] at hread hnews
      exact .resumed x hresumes hf hnews (by rw [hread]; rfl) (by rw [hread]; rfl)
    · cases hresumes with
      | empty _ hf' => exact absurd hf' hf
      | piece _ hf' => exact absurd hf' hf
      | unfinished _ ha hc hs =>
          simp only [if_neg hf] at hread hnews
          rcases settle_of_collects ha hc
              (SystemCalls.receiveFrom k fd r.socket.config.datagramBufferSize).1 with
            ⟨d, n, hd, hn, hx⟩ | ⟨he, hu, hp⟩
          · rw [hx] at hread
            rw [hd] at hnews
            have hkept := FrameAssembler.unhandled_stash_of_nil ha
              (FramePicker.append x.picker d.1 d.2).rest d.2
            have hsuffix := LawfulFramePicker.rest_suffix x.picker d.1 d.2
            have hleft : (r.read k unused).1.socket.assembler =
                x.assembler.stash (FramePicker.append x.picker d.1 d.2).rest d.2 := by
              rw [hread]
              rfl
            refine .message d n _ hnews (by rw [hread]; rfl)
              (Picker.address_append hc.isFinished d.1 d.2) (hs ▸ hn.begins) ?_ hn.late ?_ ?_
            · rw [hleft, hkept, ← hn.piece]
            · rw [hleft, hkept]
              exact hsuffix
            · rw [hleft, hkept]
              exact fun hrest => FrameAssembler.address_stash _ hrest d.2
          · exact .unframed (by rw [hread]; exact he) (by rw [hread]; exact hu)
              (by rw [hread]; exact hp)

/-! ## Reading on -/

/-- The end of a datagram that waits in the assembler, with its origin. -/
def Left (a : FrameAssembler) (datagrams : List (Bytes × String)) : Prop :=
  a.unhandled ≠ [] → ∃ d ∈ datagrams, a.unhandled <:+ d.1 ∧ a.address = d.2

theorem Traced.left (h : r.Traced) : Left r.socket.assembler r.datagrams := by
  intro hne
  rcases hp : r.picker? with _ | p
  · have hidle := h.idle hp
    obtain ⟨d, hd, hheld, ho⟩ := h.held (hidle ▸ hne)
    exact ⟨d, hd, hidle ▸ hheld, ho hp⟩
  · exact absurd (h.busy p hp).2 hne

theorem Left.mono {a : FrameAssembler} {datagrams : List (Bytes × String)} (h : Left a datagrams)
    (news : List (Bytes × String)) : Left a (datagrams ++ news) := by
  intro hne
  obtain ⟨d, hd, hleft⟩ := h hne
  exact ⟨d, List.mem_append_left news hd, hleft⟩

theorem traced_of_left (h : Left r.socket.assembler r.datagrams) (hp : r.picker? = none)
    (hheld : r.held = r.socket.assembler.unhandled) : r.Traced := by
  refine ⟨fun hne => ?_, fun _ => hheld.symm, by simp [hp]⟩
  rw [hheld] at hne ⊢
  obtain ⟨d, hd, hsuffix, ho⟩ := h hne
  exact ⟨d, hd, hsuffix, fun _ => ho⟩

theorem traced_start {s : DatagramSocket} (hs : s.assembler.unhandled = []) : (start s).Traced :=
  traced_of_left (fun hne => absurd hs hne) rfl hs.symm

theorem after_of_pending {snapshot : PartialFrame}
    (he : (r.read k unused).1.ending = .done (.pending snapshot)) :
    r.after k unused = ⟨(r.read k unused).1.socket, some (r.read k unused).2,
      r.datagrams ++ r.news k unused, r.held⟩ := by
  simp only [after, he]

theorem after_of_not_pending
    (he : ∀ snapshot, (r.read k unused).1.ending ≠ .done (.pending snapshot)) :
    r.after k unused = ⟨(r.read k unused).1.socket, none, r.datagrams ++ r.news k unused,
      (r.read k unused).1.socket.assembler.unhandled⟩ := by
  unfold after
  dsimp only
  split
  · rename_i snapshot hpending
    exact absurd hpending (he snapshot)
  · rfl

/-- The bytes that are held go on being the end of one datagram. -/
theorem Traced.after (h : r.Traced) (hu : unused.Unused) (k : K) :
    (r.after k unused).Traced := by
  have hleft := h.left.mono (r.news k unused)
  cases h.reads hu k with
  | refused e he ha =>
      rw [after_of_not_pending (by simp [he])]
      refine traced_of_left ?_ rfl rfl
      rw [ha]
      exact hleft
  | resumed x hr hf hn he ha =>
      rw [after_of_not_pending (by simp [he])]
      refine traced_of_left ?_ rfl rfl
      rw [ha]
      cases hr with
      | empty _ _ hx => exact hx ▸ hleft
      | unfinished hf' => simp [hf'] at hf
      | piece hp _ hd _ hx =>
          intro hne
          have hsuffix := (List.suffix_append _ _).trans hd
          have hidle := h.idle hp
          have hheld : r.held ≠ [] := by
            rintro hnil
            rw [hnil, List.suffix_nil] at hsuffix
            exact hne hsuffix
          obtain ⟨d, hmem, hend, ho⟩ := hleft (hidle ▸ hheld)
          exact ⟨d, hmem, (hidle ▸ hsuffix).trans hend, (hx hne).trans ho⟩
  | unframed he ha hp =>
      by_cases hpending : ∃ snapshot, (r.read k unused).1.ending = .done (.pending snapshot)
      · obtain ⟨snapshot, hpending⟩ := hpending
        rw [after_of_pending hpending]
        refine ⟨fun hne => ?_, by simp, fun p hp' => ?_⟩
        · obtain ⟨d, hd, hsuffix, -⟩ := h.held hne
          exact ⟨d, List.mem_append_left _ hd, hsuffix, by simp⟩
        · obtain rfl : (r.read k unused).2 = p := by simpa using hp'
          exact ⟨hp snapshot hpending, ha⟩
      · rw [after_of_not_pending (by simpa using hpending)]
        exact traced_of_left (fun hne => absurd ha hne) rfl rfl
  | message d n frame hn he ho hs hd hl hr ha =>
      rw [after_of_not_pending (by simp [he])]
      refine traced_of_left (fun hne => ?_) rfl rfl
      exact ⟨d, by simp [hn], hr, ha hne⟩

theorem Reached.traced {s : DatagramSocket} (hs : s.assembler.unhandled = []) (h : Reached K s r) :
    r.Traced := by
  induction h with
  | start => exact traced_start hs
  | read _ k hu ih => exact ih.after hu k

/-! ## The datagrams of a message -/

/-- The read receives a datagram, and the message begins in the bytes that were held before. -/
def Straddles (k : K) (r : Reader) (unused : Picker) (d : Bytes × String) (n : Nat) : Prop :=
  d ∈ r.news k unused ∧ (r.picker unused).startAt? (r.held ++ d.1) = some n ∧ n < r.held.length

theorem infix_of_piece {held bytes data rest : Bytes} {n : Nat}
    (hd : data ++ rest = (held ++ bytes).drop n) (hn : held.length ≤ n) : data <:+: bytes := by
  rw [List.drop_append, List.drop_eq_nil_of_le hn, List.nil_append] at hd
  have hpiece : data <:+: data ++ rest := (List.prefix_append data rest).isInfix
  rw [hd] at hpiece
  exact hpiece.trans (List.drop_suffix _ bytes).isInfix

theorem exists_head_of_piece {held bytes data rest : Bytes} {n : Nat}
    (hd : data ++ rest = (held ++ bytes).drop n) (hr : rest <:+ bytes) (hn : n < held.length)
    (hl : held.length < n + data.length) :
    ∃ head, head ≠ [] ∧ head <+: bytes ∧ data = held.drop n ++ head := by
  obtain ⟨head, rfl⟩ := hr
  rw [List.drop_append_of_le_length (Nat.le_of_lt hn), ← List.append_assoc] at hd
  have hdata := List.append_cancel_right hd
  refine ⟨head, ?_, List.prefix_append head rest, hdata⟩
  rintro rfl
  rw [hdata, List.append_nil, List.length_drop] at hl
  omega

/-- A message that is not empty lies in one datagram and carries its origin, unless it begins in bytes
that were held when the read received another datagram. Then it consists of these bytes up to their
end and of the first bytes of that datagram, and carries the origin of that one. -/
theorem frame_origin {s : DatagramSocket} (hs : s.assembler.unhandled = []) (h : Reached K s r)
    (hu : unused.Unused) (k : K) {frame : Frame}
    (he : (r.read k unused).1.ending = .done (.frame frame)) (hne : frame.data ≠ []) :
    ((∀ d n, ¬ r.Straddles k unused d n) →
      ∃ d ∈ r.datagrams ++ r.news k unused, frame.data <:+: d.1 ∧ frame.address = d.2) ∧
    ∀ d n, r.Straddles k unused d n →
      frame.address = d.2 ∧
        (∃ head, head ≠ [] ∧ head <+: d.1 ∧ frame.data = r.held.drop n ++ head) ∧
        ∃ earlier ∈ r.datagrams, r.held <:+ earlier.1 := by
  have htraced := h.traced hs
  cases htraced.reads hu k with
  | refused e he' => simp [he] at he'
  | unframed he' => exact absurd he (he' frame)
  | resumed x hr hf hn he' =>
      obtain rfl : (FramePicker.buildFrame x.picker).1 = frame := by simpa [he] using he'.symm
      refine ⟨fun _ => ?_, fun d n hd => by simp [Straddles, hn] at hd⟩
      cases hr with
      | empty _ _ _ hb => simp [hb, Frame.empty] at hne
      | unfinished hf' => simp [hf'] at hf
      | piece hp _ hd ho =>
          have hdata : (FramePicker.buildFrame x.picker).1.data <:+: r.held :=
            (List.prefix_append _ _).isInfix.trans hd.isInfix
          have hheld : r.held ≠ [] := by
            intro hnil
            rw [hnil, List.infix_nil] at hdata
            exact hne hdata
          obtain ⟨d, hmem, hend, haddress⟩ := htraced.held hheld
          exact ⟨d, List.mem_append_left _ hmem, hdata.trans hend.isInfix,
            ho.trans (haddress hp)⟩
  | message d n frame' hn he' ho hs hd hl hr ha =>
      obtain rfl : frame' = frame := by simpa [he] using he'.symm
      refine ⟨fun hno => ⟨d, by simp [hn], ?_, ho⟩, ?_⟩
      · have hlate : ¬ n < r.held.length := fun hlt => hno d n ⟨by simp [hn], hs, hlt⟩
        exact infix_of_piece hd (Nat.le_of_not_lt hlate)
      · rintro d' n' ⟨hmem, hs', hlt⟩
        obtain rfl : d' = d := by simpa [hn] using hmem
        obtain rfl : n' = n := Option.some.inj (hs'.symm.trans hs)
        refine ⟨ho, exists_head_of_piece hd hr hlt hl, ?_⟩
        have hheld : r.held ≠ [] := by
          intro hnil
          simp [hnil] at hlt
        obtain ⟨earlier, hmem, hend, -⟩ := htraced.held hheld
        exact ⟨earlier, hmem, hend⟩

/-! ## Two datagrams -/

/-- Two datagrams of six bytes, from two origins. -/
def first : Bytes × String := ([0x61, 0x62, 0x63, 0x64, 0x65, 0x66], "a")

def second : Bytes × String := ([0x67, 0x68, 0x69, 0x6A, 0x6B, 0x6C], "b")

/-- One who has read four bytes of the first datagram: two are left over. -/
def halfway : Reader :=
  (start Mailbox.socket).after (Mailbox.mk [first, second]) (.fixedLength (.new 4))

theorem halfway_eq : halfway =
    ⟨{ Mailbox.socket with assembler := ⟨[0x65, 0x66], "a"⟩ }, none, [first], [0x65, 0x66]⟩ := by
  have hread : (start Mailbox.socket).read (Mailbox.mk [first, second]) (.fixedLength (.new 4)) =
      _ := DatagramSocket.read_open rfl _ _
  have hnews : (start Mailbox.socket).news (Mailbox.mk [first, second]) (.fixedLength (.new 4)) =
      _ := DatagramSocket.received_open rfl
  unfold halfway after
  rw [hread, hnews]
  rfl

theorem reached_halfway : Reached Mailbox Mailbox.socket halfway :=
  Reached.start.read _ (.fixedLength 4)

/-- The two bytes that are left over make a message of their own, from where they came. -/
theorem frame_origin_halfway :
    ∃ d ∈ halfway.datagrams ++ halfway.news (Mailbox.mk [second]) (.fixedLength (.new 2)),
      [0x65, 0x66] <:+: d.1 ∧ "a" = d.2 := by
  have hread : halfway.read (Mailbox.mk [second]) (.fixedLength (.new 2)) = _ :=
    DatagramSocket.read_open (by rw [halfway_eq]; rfl) _ _
  have hnews : halfway.news (Mailbox.mk [second]) (.fixedLength (.new 2)) = [] := by
    unfold news
    rw [DatagramSocket.received_open (by rw [halfway_eq]; rfl), halfway_eq]
    rfl
  have he : (halfway.read (Mailbox.mk [second]) (.fixedLength (.new 2))).1.ending =
      .done (.frame ⟨[0x65, 0x66], "a"⟩) := by
    rw [hread, halfway_eq]
    rfl
  apply (frame_origin rfl reached_halfway (.fixedLength 2) _ he (by simp)).1
  intro d n hd
  simp [Straddles, hnews] at hd

/-- A message of four bytes takes the two that are left over and two of the next datagram. -/
theorem frame_of_two_datagrams :
    (halfway.read (Mailbox.mk [second]) (.fixedLength (.new 4))).1.ending =
        .done (.frame ⟨[0x65, 0x66, 0x67, 0x68], "b"⟩) ∧
      halfway.datagrams ++ halfway.news (Mailbox.mk [second]) (.fixedLength (.new 4)) =
        [first, second] ∧
      ¬ ∀ r : Reader, Reached Mailbox Mailbox.socket r → ∀ (m : Mailbox) (unused : Picker)
        (frame : Frame), unused.Unused → (r.read m unused).1.ending = .done (.frame frame) →
        frame.data ≠ [] →
          ∃ d ∈ r.datagrams ++ r.news m unused, frame.data <:+: d.1 ∧ frame.address = d.2 := by
  have hread : halfway.read (Mailbox.mk [second]) (.fixedLength (.new 4)) = _ :=
    DatagramSocket.read_open (by rw [halfway_eq]; rfl) _ _
  have he : (halfway.read (Mailbox.mk [second]) (.fixedLength (.new 4))).1.ending =
      .done (.frame ⟨[0x65, 0x66, 0x67, 0x68], "b"⟩) := by
    rw [hread, halfway_eq]
    rfl
  have hall : halfway.datagrams ++ halfway.news (Mailbox.mk [second]) (.fixedLength (.new 4)) =
      [first, second] := by
    unfold news
    rw [DatagramSocket.received_open (by rw [halfway_eq]; rfl), halfway_eq]
    rfl
  refine ⟨he, hall, fun hclaim => ?_⟩
  have hsingle := hclaim halfway reached_halfway _ _ _ (.fixedLength 4) he (by simp)
  rw [hall] at hsingle
  revert hsingle
  decide

end Reader

end Reactor
