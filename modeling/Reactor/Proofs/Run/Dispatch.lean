import Reactor.Proofs.Run.Heeding

/-! A dispatch as a whole: which hooks are asked and about what, and what comes of it. An event and
a fault are put to the hooks in the same way; they differ in what a hook can change, and in what a
failure of the socket means. -/

namespace Reactor

variable {W S H P : Type}

/-- What is put to the hooks of a socket. -/
inductive Matter (S : Type) where
  | event (payload : Payload S)
  | fault (error : SocketError) (event : Option EventKind)

/-- A hook that was asked and what it did, with the policy, the metadata of the socket and the
matter as it left them. -/
structure Hearing (W S H P : Type) where
  link : Link H
  reaction : Reaction W S
  policy : P
  metadata : Metadata
  matter : Matter S

/-- A matter that is put to the hooks of the visited socket. -/
structure Inquiry (W S H P : Type) where
  matter : Matter S
  visit : Visit W S H P

def Hearing.deed (h : SocketHandle) (hearing : Hearing W S H P) : Deed S H :=
  .heard h hearing.link hearing.reaction.requests hearing.reaction.verdict

/-- How the hooks together have ended: as the last of them. -/
def Hearing.verdict (hearings : List (Hearing W S H P)) : Ending HandlerError Unit :=
  (hearings.getLast?.map (·.reaction.verdict)).getD (.done ())

namespace Inquiry

def ask (host : Host W S H P) (q : Inquiry W S H P) (link : Link H) : Hearing W S H P :=
  match q.matter with
  | .event payload =>
      let (policy, r) := q.visit.askAbout host payload link
      ⟨link, r.toReaction, policy, r.metadata, .event r.payload⟩
  | .fault error event =>
      let (policy, r) := q.visit.askAboutFault host ⟨q.visit.descriptor, error, event⟩ link
      ⟨link, r, policy, q.visit.descriptor.metadata, .fault error event⟩

def after (q : Inquiry W S H P) (hearing : Hearing W S H P) : Inquiry W S H P :=
  ⟨hearing.matter, { q.visit.descriptor with metadata := hearing.metadata },
    q.visit.session.absorb q.visit.descriptor.handle hearing.link hearing.policy hearing.reaction⟩

def afterAll (q : Inquiry W S H P) (hearings : List (Hearing W S H P)) : Inquiry W S H P :=
  hearings.foldl after q

/-- The hooks are asked one after the other, each about what the ones before it have left, up to and
including the first that does not succeed. -/
structure Conducted (host : Host W S H P) (links : List (Link H)) (q : Inquiry W S H P)
    (hearings : List (Hearing W S H P)) : Prop where
  inOrder : hearings.map Hearing.link <+: links
  answers : ∀ i hearing, hearings[i]? = some hearing →
    hearing = (q.afterAll (hearings.take i)).ask host hearing.link
  goesOn : ∀ hearing ∈ hearings.dropLast, hearing.reaction.verdict = .done ()
  whole : Hearing.verdict hearings = .done () → hearings.map Hearing.link = links

/-- What the hooks do about the matter, up to the first that does not succeed. -/
def hearings (host : Host W S H P) : List (Link H) → Inquiry W S H P → List (Hearing W S H P)
  | [], _ => []
  | link :: links, q =>
      let hearing := q.ask host link
      match hearing.reaction.verdict with
      | .done _ => hearing :: hearings host links (q.after hearing)
      | _ => [hearing]

variable {host : Host W S H P}

@[simp] theorem link_ask (q : Inquiry W S H P) (link : Link H) : (q.ask host link).link = link := by
  unfold ask
  split <;> rfl

/-- A hook that succeeds hands over to the others, so the last of them decides. -/
theorem verdict_cons {hearing : Hearing W S H P} (h : hearing.reaction.verdict = .done ())
    (hearings : List (Hearing W S H P)) :
    Hearing.verdict (hearing :: hearings) = Hearing.verdict hearings := by
  cases hearings with
  | nil => exact h
  | cons next rest => simp [Hearing.verdict, List.getLast?_cons]

/-- A hook that succeeds hands over to the others. -/
theorem Conducted.cons {q : Inquiry W S H P} {link : Link H} {links : List (Link H)}
    {hearings : List (Hearing W S H P)} (hdone : (q.ask host link).reaction.verdict = .done ())
    (hrest : (q.after (q.ask host link)).Conducted host links hearings) :
    q.Conducted host (link :: links) (q.ask host link :: hearings) where
  inOrder := by
    rw [List.map_cons, link_ask]
    exact (List.prefix_cons_inj link).2 hrest.inOrder
  answers := by
    intro i hearing hi
    cases i with
    | zero =>
        obtain rfl : q.ask host link = hearing := by simpa using hi
        simp [afterAll]
    | succ i => exact hrest.answers i hearing hi
  goesOn := by
    intro hearing hmem
    cases hearings with
    | nil => cases hmem
    | cons next rest =>
        rcases List.mem_cons.1 hmem with rfl | hlater
        · exact hdone
        · exact hrest.goesOn hearing hlater
  whole := by
    intro hv
    rw [verdict_cons hdone] at hv
    rw [List.map_cons, link_ask, hrest.whole hv]

end Inquiry

/-! ## The two ways to put a matter to the hooks -/

namespace Visit

variable {host : Host W S H P}

end Visit

/-! ## What becomes of the session -/

namespace Inquiry

end Inquiry

/-! ## A dispatch as a whole -/

namespace Visit

variable {host : Host W S H P}

end Visit

end Reactor
