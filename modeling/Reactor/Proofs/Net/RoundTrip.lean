import Reactor.Net.Address
import Reactor.Proofs.Net.Numerals

/-! Addresses are read back from what is written for them. An address of version 6 is written in one
of three ways, and what tells the reader which one it is are the characters at which a group ends. -/

namespace Reactor.Net

/-! ## Version 4 -/

theorem Ipv4.toList_text (ip : Ipv4) :
    ip.text.toList = Nat.toDigits 10 ip.a.toNat ++ '.' :: (Nat.toDigits 10 ip.b.toNat ++
      '.' :: (Nat.toDigits 10 ip.c.toNat ++ '.' :: Nat.toDigits 10 ip.d.toNat)) := by
  simp [text, Nat.toString_eq_repr]

namespace Reading

@[simp] theorem expect_self (c : Char) (rest : List Char) : expect c (c :: rest) = some rest :=
  if_pos rfl

theorem expect_of_head?_ne {c : Char} {text : List Char} (h : text.head? ≠ some c) :
    expect c text = none := by
  cases text with
  | nil => rfl
  | cons d rest => exact if_neg fun hd => h (congrArg some hd)

theorem stops_cons {base : Nat} {c : Char} (hc : Text.digit? base c = none) (rest : List Char) :
    Stops base (c :: rest) := by
  intro d hd
  obtain rfl : c = d := by simpa using hd
  exact hc

theorem octet_toDigits (n : UInt8) {rest : List Char} (hrest : Stops 10 rest) :
    octet (Nat.toDigits 10 n.toNat ++ rest) = some (n, rest) := by
  have hn := n.toNat_lt
  rw [octet, number_toDigits (by omega) (by omega) (by omega) _ hrest]
  · simp
  · intro bound hb
    obtain rfl : 3 = bound := by simpa using hb
    omega

/-- An address of version 4 is read back. -/
theorem ipv4_text (ip : Ipv4) {rest : List Char} (hrest : Stops 10 rest) :
    ipv4 (ip.text.toList ++ rest) = some (ip, rest) := by
  have hdot : ∀ text, Stops 10 ('.' :: text) := stops_cons (by decide)
  simp [ipv4, Ipv4.toList_text, octet_toDigits _ (hdot _), octet_toDigits _ hrest]

theorem ipv4_of_stops {text : List Char} (h : Stops 10 text) : ipv4 text = none := by
  simp [ipv4, octet, number_of_stops h]

/-! ## Groups -/

theorem digit?_sixteen_of_ten {c : Char} (h : Text.digit? 16 c = none) :
    Text.digit? 10 c = none := by
  grind [Text.digit?]

theorem Stops.decimal {text : List Char} (h : Stops 16 text) : Stops 10 text :=
  fun c hc => digit?_sixteen_of_ten (h c hc)

/-- Once the decimal digits of a group have been passed, there is no dot. -/
theorem head?_dropWhile_ne_dot {digits rest : List Char}
    (hdigits : ∀ c ∈ digits, (Text.digit? 16 c).isSome = true) (hrest : Stops 10 rest)
    (hdot : rest.head? ≠ some '.') :
    ((digits ++ rest).dropWhile fun c => (Text.digit? 10 c).isSome).head? ≠ some '.' := by
  induction digits with
  | nil =>
      cases rest with
      | nil => simp
      | cons c rest =>
          have hc : Text.digit? 10 c = none := hrest c rfl
          simpa [hc] using hdot
  | cons c digits ih =>
      rw [List.cons_append, List.dropWhile_cons]
      split
      · exact ih fun d hd => hdigits d (List.mem_cons_of_mem c hd)
      · intro hc
        obtain rfl : c = '.' := by simpa using hc
        exact absurd (hdigits '.' List.mem_cons_self) (by decide)

/-- A group in base sixteen does not begin an address of version 4, since no dot follows it. -/
theorem ipv4_toDigits (n : Nat) {rest : List Char} (hrest : Stops 16 rest)
    (hdot : rest.head? ≠ some '.') : ipv4 (Nat.toDigits 16 n ++ rest) = none := by
  rcases hoctet : octet (Nat.toDigits 16 n ++ rest) with _ | ⟨m, left⟩
  · simp [ipv4, hoctet]
  -- a group may well begin with an octet, so it is what follows the decimal digits that decides
  · obtain ⟨⟨k, left'⟩, hnumber, hk⟩ := Option.map_eq_some_iff.1 hoctet
    obtain rfl : left' = left := congrArg Prod.snd hk
    have hleft : left'.head? ≠ some '.' := by
      rw [number_rest hnumber]
      exact head?_dropWhile_ne_dot (isSome_digit?_of_mem_toDigits (by omega) (by omega) n)
        hrest.decimal hdot
    simp [ipv4, hoctet, expect_of_head?_ne hleft]

/-- Neither does a group go on here nor does another one follow. -/
structure Ends (text : List Char) : Prop where
  stops : Stops 16 text
  noDot : text.head? ≠ some '.'
  noGroup : ∀ rest, text = ':' :: rest → Stops 16 rest

/-- Where groups end, none is read. -/
theorem groups_of_ends {text : List Char} (h : Ends text) (room : Nat) (isFirst : Bool) :
    groups room isFirst text = ⟨[], false, text⟩ := by
  have hseparated : ∀ rest, separator isFirst text = some rest → Stops 16 rest := by
    intro rest hrest
    cases isFirst with
    | true =>
        obtain rfl : text = rest := Option.some.inj hrest
        exact h.stops
    | false =>
        by_cases hcolon : text.head? = some ':'
        · obtain ⟨more, rfl⟩ := List.head?_eq_some_iff.1 hcolon
          obtain rfl : more = rest := by simpa [separator] using hrest
          exact h.noGroup more rfl
        · rw [separator, if_neg (by simp), expect_of_head?_ne hcolon] at hrest
          contradiction
  cases room with
  | zero => rfl
  | succ room =>
      rw [groups]
      rcases hsep : separator isFirst text with _ | rest
      · simp
      · have hstops := hseparated rest hsep
        simp [ipv4_of_stops hstops.decimal, number_of_stops hstops]

/-- A group that is followed by something else than a dot is read as such. -/
theorem groups_toDigits (g : UInt16) {text rest : List Char} {isFirst : Bool}
    (hsep : separator isFirst text = some (Nat.toDigits 16 g.toNat ++ rest))
    (hrest : Stops 16 rest) (hdot : rest.head? ≠ some '.') (room : Nat) :
    groups (room + 1) isFirst text =
      { groups room false rest with groups := g :: (groups room false rest).groups } := by
  have hg := g.toNat_lt
  have hnumber : number 16 0xFFFF (some 4) true (Nat.toDigits 16 g.toNat ++ rest) =
      some (g.toNat, rest) := by
    apply number_toDigits (by omega) (by omega) (by omega) _ hrest
    intro bound hb
    obtain rfl : 4 = bound := by simpa using hb
    omega
  rw [groups]
  simp [hsep, ipv4_toDigits _ hrest hdot, hnumber]

end Reading

/-- Groups as they are written after another one. -/
def followers (gs : List UInt16) : List Char :=
  gs.flatMap fun g => ':' :: Nat.toDigits 16 g.toNat

theorem toList_join_cons (g : UInt16) (gs : List UInt16) :
    (Ipv6.join (g :: gs)).toList = Nat.toDigits 16 g.toNat ++ followers gs := by
  induction gs generalizing g with
  | nil => simp [Ipv6.join, followers, Text.hexadecimal]
  | cons g' gs ih =>
      have hjoin : Ipv6.join (g :: g' :: gs) =
          Text.hexadecimal g.toNat ++ ":" ++ Ipv6.join (g' :: gs) :=
        String.intercalate_cons_cons
      rw [hjoin, String.toList_append, String.toList_append, ih]
      simp [Text.hexadecimal, followers]

namespace Reading

/-- Nothing of a group or a dot at the beginning of what follows a group. -/
theorem followers_append (gs : List UInt16) {rest : List Char} (hrest : Ends rest) :
    Stops 16 (followers gs ++ rest) ∧ (followers gs ++ rest).head? ≠ some '.' := by
  cases gs with
  | nil => exact ⟨hrest.stops, hrest.noDot⟩
  | cons g gs => exact ⟨stops_cons (by decide) _, by simp [followers]⟩

theorem groups_followers (gs : List UInt16) {rest : List Char} (hrest : Ends rest) (room : Nat)
    (hroom : gs.length ≤ room) :
    groups room false (followers gs ++ rest) = ⟨gs, false, rest⟩ := by
  induction gs generalizing room with
  | nil => exact groups_of_ends hrest room false
  | cons g gs ih =>
      cases room with
      | zero => simp at hroom
      | succ room =>
          obtain ⟨hstops, hdot⟩ := followers_append gs hrest
          have hsep : separator false (followers (g :: gs) ++ rest) =
              some (Nat.toDigits 16 g.toNat ++ (followers gs ++ rest)) := by
            simp [followers, separator]
          rw [groups_toDigits g hsep hstops hdot, ih room (by simpa using hroom)]

/-- Groups between colons are read back, however few they are. -/
theorem groups_join (gs : List UInt16) {rest : List Char} (hrest : Ends rest) (room : Nat)
    (hroom : gs.length ≤ room) :
    groups room true ((Ipv6.join gs).toList ++ rest) = ⟨gs, false, rest⟩ := by
  cases gs with
  | nil => exact groups_of_ends hrest room true
  | cons g gs =>
      cases room with
      | zero => simp at hroom
      | succ room =>
          obtain ⟨hstops, hdot⟩ := followers_append gs hrest
          have hsep : separator true ((Ipv6.join (g :: gs)).toList ++ rest) =
              some (Nat.toDigits 16 g.toNat ++ (followers gs ++ rest)) := by
            simp [toList_join_cons, separator]
          rw [groups_toDigits g hsep hstops hdot,
            groups_followers gs hrest room (by simpa using hroom)]

/-! ## Version 6 -/

theorem ends_doubleColon (rest : List Char) : Ends (':' :: ':' :: rest) where
  stops := stops_cons (by decide) _
  noDot := by simp
  noGroup := by
    intro more h
    obtain rfl : ':' :: rest = more := List.tail_eq_of_cons_eq h
    exact stops_cons (by decide) rest

theorem ipv6_of_groups {ip : Ipv6} {text rest : List Char} {dotted : Bool}
    (h : groups 8 true text = ⟨ip.groups, dotted, rest⟩) : ipv6 text = some (ip, rest) := by
  simp [ipv6, h, ip.length_eq]

/-- A double colon stands for the groups that are missing. -/
theorem ipv6_of_gap {ip : Ipv6} {text more rest : List Char} {before after : List UInt16}
    {dotted : Bool} (hbefore : groups 8 true text = ⟨before, false, ':' :: ':' :: more⟩)
    (hshort : before.length < 8)
    (hafter : groups (7 - before.length) true more = ⟨after, dotted, rest⟩)
    (hall : before ++ List.replicate (8 - before.length - after.length) 0 ++ after = ip.groups) :
    ipv6 text = some (ip, rest) := by
  obtain ⟨gs, hgs⟩ := ip
  obtain rfl : before ++ List.replicate (8 - before.length - after.length) 0 ++ after = gs := hall
  simp only [ipv6, hbefore, dif_neg (Nat.ne_of_lt hshort), Bool.false_eq_true, if_false,
    expect_self, Option.bind_eq_bind, Option.bind_some, hafter, dif_pos hgs]
  rfl

theorem toUInt16_bytes (n : UInt16) :
    (n >>> 8).toUInt8.toUInt16 * 256 + n.toUInt8.toUInt16 = n := by
  have hn := n.toNat_lt
  apply UInt16.toNat_inj.1
  simp [Nat.shiftRight_eq_div_pow]
  omega

/-- The bytes of a mapped address are those of its last two groups. -/
theorem groups_of_mapped {ip : Ipv6} {v4 : Ipv4} (h : ip.mapped? = some v4) :
    ip.groups = [0, 0, 0, 0, 0, 0xFFFF] ++ v4.groups := by
  unfold Ipv6.mapped? at h
  split at h
  · next hi lo hgroups =>
      obtain rfl := Option.some.inj h
      rw [hgroups, Ipv4.groups, toUInt16_bytes, toUInt16_bytes]
      rfl
  · contradiction

/-- The address of version 4 at the end of a mapped one is read as its last two groups. -/
theorem groups_mapped (v4 : Ipv4) {rest : List Char} (hstops : Stops 10 rest) :
    groups 7 true ("ffff:".toList ++ (v4.text.toList ++ rest)) =
      ⟨0xFFFF :: v4.groups, true, rest⟩ := by
  have hsep : separator true ("ffff:".toList ++ (v4.text.toList ++ rest)) =
      some (Nat.toDigits 16 (0xFFFF : UInt16).toNat ++ ':' :: (v4.text.toList ++ rest)) := by
    simp [separator]
    rfl
  have hdotted : groups 6 false (':' :: (v4.text.toList ++ rest)) = ⟨v4.groups, true, rest⟩ := by
    rw [groups]
    simp [separator, ipv4_text v4 hstops]
  rw [groups_toDigits 0xFFFF hsep (stops_cons (by decide) _) (by simp), hdotted]

/-- Zeros that are left out can be put back. -/
theorem replicate_zeros_append (gs : List UInt16) :
    List.replicate (Ipv6.zeros gs) 0 ++ gs.drop (Ipv6.zeros gs) = gs := by
  induction gs with
  | nil => rfl
  | cons g gs ih =>
      by_cases hg : g = 0
      · have hzeros : Ipv6.zeros (g :: gs) = Ipv6.zeros gs + 1 := by simp [Ipv6.zeros, hg]
        rw [hzeros, List.replicate_succ, List.cons_append, List.drop_succ_cons, ih, hg]
      · have hzeros : Ipv6.zeros (g :: gs) = 0 := by simp [Ipv6.zeros, hg]
        rw [hzeros]
        rfl

theorem zeros_le_length (gs : List UInt16) : Ipv6.zeros gs ≤ gs.length := by
  have hlength := congrArg List.length (replicate_zeros_append gs)
  simp only [List.length_append, List.length_replicate] at hlength
  omega

/-- A mapped address is read back. -/
theorem ipv6_mapped {ip : Ipv6} {v4 : Ipv4} (h : ip.mapped? = some v4) {rest : List Char}
    (hstops : Stops 10 rest) :
    ipv6 ("::ffff:".toList ++ (v4.text.toList ++ rest)) = some (ip, rest) := by
  have hhead := groups_of_ends
    (ends_doubleColon ("ffff:".toList ++ (v4.text.toList ++ rest))) 8 true
  exact ipv6_of_gap hhead (by simp) (groups_mapped v4 hstops) (groups_of_mapped h).symm

/-- An address without a run of zeros is read back if these are at least two groups. -/
theorem ipv6_gap (ip : Ipv6) (start : Nat) {rest : List Char} (hrest : Ends rest)
    (hmany : 2 ≤ Ipv6.zeros (ip.groups.drop start)) :
    ipv6 ((Ipv6.join (ip.groups.take start)).toList ++ ':' :: ':' ::
      ((Ipv6.join (ip.groups.drop (start + Ipv6.zeros (ip.groups.drop start)))).toList ++ rest)) =
        some (ip, rest) := by
  have hzeros := replicate_zeros_append (ip.groups.drop start)
  have hfits := zeros_le_length (ip.groups.drop start)
  generalize Ipv6.zeros (ip.groups.drop start) = count at *
  rw [List.drop_drop] at hzeros
  rw [List.length_drop, ip.length_eq] at hfits
  have hbefore : (ip.groups.take start).length = start := by
    rw [List.length_take, ip.length_eq]
    omega
  have hafter : (ip.groups.drop (start + count)).length = 8 - start - count := by
    rw [List.length_drop, ip.length_eq]
    omega
  have hhead := groups_join (ip.groups.take start)
    (ends_doubleColon ((Ipv6.join (ip.groups.drop (start + count))).toList ++ rest)) 8 (by omega)
  have htail := groups_join (ip.groups.drop (start + count)) hrest
    (7 - (ip.groups.take start).length) (by omega)
  apply ipv6_of_gap hhead (by omega) htail
  have hcount : 8 - (ip.groups.take start).length - (ip.groups.drop (start + count)).length =
      count := by omega
  rw [hcount, List.append_assoc, hzeros, List.take_append_drop]

/-- An address of version 6 is read back, in whichever way it is written. -/
theorem ipv6_text (ip : Ipv6) {rest : List Char} (hrest : Ends rest) :
    ipv6 (ip.text.toList ++ rest) = some (ip, rest) := by
  unfold Ipv6.text
  split
  · next v4 hmapped =>
      rw [String.toList_append, List.append_assoc]
      exact ipv6_mapped hmapped hrest.stops.decimal
  · next hmapped =>
      dsimp only
      split
      · next hmany =>
          have hgap := ipv6_gap ip (Ipv6.longestZeros ip.groups) hrest hmany
          simpa using hgap
      · exact ipv6_of_groups (groups_join ip.groups hrest 8 (by simp [ip.length_eq]))

/-! ## The service and the link -/

theorem stops_nil (base : Nat) : Stops base [] := by
  intro c hc
  cases hc

theorem service_toDigits (n : UInt16) :
    service (':' :: Nat.toDigits 10 n.toNat) = some (n, []) := by
  have hn := n.toNat_lt
  have hnumber : number 10 65535 none true (Nat.toDigits 10 n.toNat ++ []) = some (n.toNat, []) :=
    number_toDigits (by omega) (by omega) (by omega) (by simp) (stops_nil 10) true
  rw [List.append_nil] at hnumber
  simp [service, hnumber]

theorem scope_toDigits (n : UInt32) (rest : List Char) :
    scope ('%' :: (Nat.toDigits 10 n.toNat ++ ']' :: rest)) = some (n, ']' :: rest) := by
  have hn := n.toNat_lt
  have hnumber : number 10 4294967295 none true (Nat.toDigits 10 n.toNat ++ ']' :: rest) =
      some (n.toNat, ']' :: rest) :=
    number_toDigits (by omega) (by omega) (by omega) (by simp) (stops_cons (by decide) rest) true
  simp [scope, hnumber]

theorem ends_cons {c : Char} (hdigit : Text.digit? 16 c = none) (hdot : c ≠ '.') (hcolon : c ≠ ':')
    (rest : List Char) : Ends (c :: rest) where
  stops := stops_cons hdigit rest
  noDot := by simpa using hdot
  noGroup := by
    intro more h
    exact absurd (List.head_eq_of_cons_eq h) hcolon

theorem socketAddressV4_text (ip : Ipv4) (n : UInt16) :
    socketAddressV4 (SocketAddress.v4 ip n).text.toList = some (.v4 ip n, []) := by
  have hend : Stops 10 (':' :: Nat.toDigits 10 n.toNat) := stops_cons (by decide) _
  have hip := ipv4_text ip hend
  simp [SocketAddress.text, Nat.toString_eq_repr, socketAddressV4, hip, service_toDigits]

theorem socketAddressV6_text (ip : Ipv6) (n : UInt16) (link : UInt32) :
    socketAddressV6 (SocketAddress.v6 ip n link).text.toList = some (.v6 ip n link, []) := by
  by_cases hlink : link = 0
  · have hend : Ends (']' :: ':' :: Nat.toDigits 10 n.toNat) :=
      ends_cons (by decide) (by decide) (by decide) _
    have hip := ipv6_text ip hend
    have hscope : scope (']' :: ':' :: Nat.toDigits 10 n.toNat) = none := rfl
    simp [SocketAddress.text, Nat.toString_eq_repr, socketAddressV6, hlink, hip, hscope,
      service_toDigits]
  · have hend : Ends ('%' :: (Nat.toDigits 10 link.toNat ++ ']' :: ':' ::
        Nat.toDigits 10 n.toNat)) := ends_cons (by decide) (by decide) (by decide) _
    have hip := ipv6_text ip hend
    simp [SocketAddress.text, Nat.toString_eq_repr, socketAddressV6, hlink, hip, scope_toDigits,
      service_toDigits]

end Reading

/-- An internet address is read back from its text. -/
theorem SocketAddress.parse?_text (a : SocketAddress) : parse? a.text.toList = some a := by
  cases a with
  | v4 ip n => simp [parse?, Reading.socketAddressV4_text]
  | v6 ip n link =>
      obtain ⟨rest, hrest⟩ : ∃ rest, (SocketAddress.v6 ip n link).text.toList = '[' :: rest := by
        simp [text]
      have hbracket : Reading.Stops 10 ('[' :: rest) := Reading.stops_cons (by decide) rest
      have hother : Reading.socketAddressV4 ('[' :: rest) = none := by
        simp [Reading.socketAddressV4, Reading.ipv4_of_stops hbracket]
      rw [parse?, Reading.socketAddressV6_text, hrest, hother]
      rfl

theorem SocketAddress.toList_text_ne_nil (a : SocketAddress) : a.text.toList ≠ [] := by
  intro hnil
  have hparse := a.parse?_text
  rw [hnil] at hparse
  contradiction

end Reactor.Net

namespace Reactor.Address

/-! ## Addresses with a scheme -/

/-- The scheme is what stands before the first `://`, whatever follows it. -/
theorem splitScheme_name (scheme : Scheme) (target : List Char) :
    splitScheme (scheme.name.toList ++ "://".toList ++ target) =
      some (scheme.name.toList, target) := by
  cases scheme <;> rfl

theorem ofName?_name (scheme : Scheme) :
    Scheme.ofName? (String.ofList (scheme.name.toList.map Char.toLower)) = some scheme := by
  cases scheme <;> rfl

/-- There is a target: the path, if the address has one, is not empty. -/
def HasTarget (a : Address) : Prop := a.path? ≠ some ""

theorem hasTarget_of_ofTarget? {scheme : Scheme} {target : List Char} {a : Address}
    (h : ofTarget? scheme target = some a) : a.HasTarget := by
  obtain ⟨hne, hsome⟩ := Option.ite_none_left_eq_some.1 h
  cases scheme with
  | tcp =>
      obtain ⟨t, -, rfl⟩ := Option.map_eq_some_iff.1 hsome
      exact nofun
  | udp =>
      obtain ⟨t, -, rfl⟩ := Option.map_eq_some_iff.1 hsome
      exact nofun
  | unix =>
      obtain rfl := Option.some.inj hsome
      simpa [HasTarget, path?] using hne
  | udg =>
      obtain rfl := Option.some.inj hsome
      simpa [HasTarget, path?] using hne

/-- An address is recovered from its scheme and its target. -/
theorem ofTarget?_target {a : Address} (h : a.HasTarget) :
    ofTarget? a.scheme a.target.toList = some a := by
  cases a with
  | tcp t => simp [ofTarget?, scheme, target, t.toList_text_ne_nil, t.parse?_text]
  | udp t => simp [ofTarget?, scheme, target, t.toList_text_ne_nil, t.parse?_text]
  | unix path =>
      have hpath : path ≠ "" := fun hempty => h (congrArg some hempty)
      simp [ofTarget?, scheme, target, hpath]
  | udg path =>
      have hpath : path ≠ "" := fun hempty => h (congrArg some hempty)
      simp [ofTarget?, scheme, target, hpath]

theorem parse_text {a : Address} (h : a.HasTarget) : parse a.text = .ok a := by
  have hsplit : splitScheme a.text.toList = some (a.scheme.name.toList, a.target.toList) := by
    rw [text, String.toList_append, String.toList_append]
    exact splitScheme_name a.scheme a.target.toList
  simp only [parse, hsplit, Option.getD_some, ofName?_name, Option.bind_some, ofTarget?_target h]

theorem hasTarget_of_parse {s : String} {a : Address} (h : parse s = .ok a) : a.HasTarget := by
  simp only [parse] at h
  split at h
  · next b hb =>
      obtain rfl : b = a := Except.ok.inj h
      obtain ⟨scheme, -, hof⟩ := Option.bind_eq_some_iff.1 hb
      exact hasTarget_of_ofTarget? hof
  · contradiction

/-- The text of an address that was read, in whatever spelling, is read as the same address, which
is written as the same text again. -/
theorem parse_text_of_parse {s : String} {a : Address} (h : parse s = .ok a) :
    parse a.text = .ok a ∧ (parse a.text).map text = .ok a.text := by
  have hparse := parse_text (hasTarget_of_parse h)
  exact ⟨hparse, by rw [hparse]; rfl⟩

theorem parse_text_of_parse_scoped :
    let a : Address := .udp (.v6 ⟨[0, 0, 0, 0, 0, 0, 0, 10], rfl⟩ 53 7)
    parse "UDP://[0::0:A%07]:053" = .ok a ∧ parse a.text = .ok a ∧
      (parse a.text).map text = .ok a.text ∧ a.text = "udp://[::a%7]:53" := by
  have hparse : parse "UDP://[0::0:A%07]:053" =
      .ok (.udp (.v6 ⟨[0, 0, 0, 0, 0, 0, 0, 10], rfl⟩ 53 7)) := by rfl
  obtain ⟨hback, htext⟩ := parse_text_of_parse hparse
  exact ⟨hparse, hback, htext, by decide +kernel⟩

end Reactor.Address
