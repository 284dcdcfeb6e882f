import Reactor.Proofs.Run.Congruence
import Reactor.Proofs.Run.Heeding

/-! A socket on its own. If its part of the surroundings is touched by nobody else, and the hooks go
by what they are told alone, then the work on it is the same whatever else there is, and the work on
the others passes it by. -/

namespace Reactor

variable {W S H P V : Type} {host : Host W S H P} {view : W → V} {Own : S → Prop}

/-! ## What is asked of the surroundings -/

/-- A call that may fail but does not crash or stop the run. The sockets `Own` see the `view` of the
surroundings and nothing else of them, and no other socket changes that. -/
structure Secluded {α : Type} (view : W → V) (Own : S → Prop)
    (call : W → S → SocketAnswer W S α) : Prop where
  ending : ∀ w s, (call w s).ending ≠ .crashed
  stop : ∀ w s, (call w s).stop = false
  owned : ∀ w s, Own (call w s).socket ↔ Own s
  own : ∀ w w' s, Own s → view w = view w' → (call w s).ending = (call w' s).ending ∧
    (call w s).socket = (call w' s).socket ∧ view (call w s).world = view (call w' s).world
  apart : ∀ {w s}, ¬ Own s → view (call w s).world = view w

/-- Every call that the service makes of a socket is of this kind. Clients that are accepted are
other sockets. -/
structure SocketRules.Secludes (rules : SocketRules W S) (view : W → V) (Own : S → Prop) :
    Prop where
  pollConnect : Secluded view Own rules.pollConnect
  read : ∀ picker previous outOfBand,
    Secluded view Own fun w s => (rules.read w s picker previous outOfBand).1
  picker : ∀ w w' s picker previous outOfBand, Own s → view w = view w' →
    (rules.read w s picker previous outOfBand).2 = (rules.read w' s picker previous outOfBand).2
  client : ∀ {w s picker previous outOfBand client address},
    (rules.read w s picker previous outOfBand).1.ending = .done (.accepted client address) →
      ¬ Own client
  write : ∀ data outOfBand, Secluded view Own (rules.write · · data outOfBand)
  close : ∀ {w s}, ¬ Own s → view (rules.close w s).2 = view w

/-- The hook lets the run go on. -/
def Reaction.Tame (r : Reaction W S) : Prop :=
  r.requests.any Request.isStop = false ∧
    (r.verdict = .done () ∨ ∃ error, r.verdict = .cut (.socket error))

/-- Both hooks ask for the same and end in the same way. -/
def Reaction.Alike (r r' : Reaction W S) : Prop :=
  r.requests = r'.requests ∧ r.verdict = r'.verdict

/-- What a hook does about an event or a fault depends on what it is told alone: the descriptor, and
the payload or the failure. It neither stops nor fails the run, and what the socket of the handle
sees of the surroundings it touches at most on behalf of that socket. -/
structure Host.Impartial (host : Host W S H P) (view : W → V) (Own : S → Prop)
    (h : SocketHandle) : Prop where
  event : ∀ (v v' : Visit W S H P) payload link, v.descriptor = v'.descriptor →
    (v.askAbout host payload link).2.toReaction.Alike (v'.askAbout host payload link).2.toReaction ∧
      (v.askAbout host payload link).2.metadata = (v'.askAbout host payload link).2.metadata ∧
      (v.askAbout host payload link).2.payload = (v'.askAbout host payload link).2.payload
  fault : ∀ (v v' : Visit W S H P) fault link, v.descriptor = v'.descriptor →
    (v.askAboutFault host fault link).2.Alike (v'.askAboutFault host fault link).2
  eventTame : ∀ (v : Visit W S H P) payload link, (v.askAbout host payload link).2.toReaction.Tame
  faultTame : ∀ (v : Visit W S H P) fault link, (v.askAboutFault host fault link).2.Tame
  client : ∀ (v : Visit W S H P) payload link, payload.Offers (¬ Own ·) →
    (v.askAbout host payload link).2.payload.Offers (¬ Own ·)
  eventView : ∀ (v v' : Visit W S H P) payload link, v.descriptor = v'.descriptor →
    view v.session.world = view v'.session.world →
      view (v.askAbout host payload link).2.world = view (v'.askAbout host payload link).2.world
  faultView : ∀ (v v' : Visit W S H P) fault link, v.descriptor = v'.descriptor →
    view v.session.world = view v'.session.world →
      view (v.askAboutFault host fault link).2.world =
        view (v'.askAboutFault host fault link).2.world
  eventApart : ∀ (v : Visit W S H P) payload link, v.descriptor.handle ≠ h →
    view (v.askAbout host payload link).2.world = view v.session.world
  faultApart : ∀ (v : Visit W S H P) fault link, v.descriptor.handle ≠ h →
    view (v.askAboutFault host fault link).2.world = view v.session.world

theorem Reaction.Tame.mild {r : Reaction W S} (hr : r.Tame) : r.verdict.Mild fun _ => True := by
  rcases hr.2 with h | ⟨error, h⟩ <;> rw [h] <;> trivial

/-! ## The session goes on -/

/-- The session has gone on by one deed, in which nobody has asked for a stop. -/
structure Session.Goes (deed : Deed S H) (world : W) (s t : Session W S H P) : Prop where
  journal : t.journal = s.journal ++ [deed]
  world : t.world = world
  handlers : t.handlers = s.handlers
  observing : t.observing = s.observing
  stopDue : t.stopDue = s.stopDue

theorem Session.goes_note (s : Session W S H P) (world : W) {stop : Bool} (hs : stop = false)
    (deed : Deed S H) : s.Goes deed world (({ s with world := world }.stopIf stop).note deed) := by
  subst hs
  exact ⟨rfl, rfl, rfl, rfl, rfl⟩

theorem RunContext.foldl_grant_tame (requests : List (Request S)) :
    ∀ c : RunContext S, requests.any Request.isStop = false →
      (requests.foldl RunContext.grant c).control = c.control := by
  induction requests with
  | nil => exact fun _ _ => rfl
  | cons request rest ih =>
      intro c h
      rw [List.any_cons, Bool.or_eq_false_iff] at h
      have hgrant : (c.grant request).control = c.control := by
        cases request with
        | stop => cases h.1
        | _ => rfl
      exact (ih _ h.2).trans hgrant

theorem Session.goes_absorb (s : Session W S H P) (handle : SocketHandle) (link : Link H)
    (policy : P) {r : Reaction W S} (hr : r.Tame) :
    s.Goes (.heard handle link r.requests r.verdict) r.world (s.absorb handle link policy r) := by
  refine ⟨rfl, rfl, rfl, rfl, ?_⟩
  have hcontrol : (r.contextAfter s.context).control = s.context.control :=
    RunContext.foldl_grant_tame r.requests _ hr.1
  show (!s.stopping && (r.contextAfter s.context).control.stopRequested) = _
  rw [hcontrol]
  rfl

namespace Visit

open Step

theorem goes_begun (v : Visit W S H P) (deed : SocketHandle → Standing → Deed S H) :
    v.session.Goes (deed v.descriptor.handle v.descriptor.standing) v.session.world
      (v.begun deed).session := ⟨rfl, rfl, rfl, rfl, rfl⟩

theorem mild_of_not_crashed {α : Type} {ending : Ending SocketError α} (h : ending ≠ .crashed) :
    ending.Mild fun _ => True := by
  rcases ending with _ | _ | _
  · trivial
  · trivial
  · exact h rfl

theorem yields_readSocket (hs : host.sockets.Secludes view Own) (r : ReadOperation)
    (v : Visit W S H P) : (readSocket host r v).1.Mild (ReadOutcome.Yields (¬ Own ·)) := by
  have hcrash := (hs.read r.picker v.descriptor.previous r.outOfBand).ending v.session.world
    v.descriptor.socket
  have hclient : ∀ client address, (host.sockets.read v.session.world v.descriptor.socket r.picker
      v.descriptor.previous r.outOfBand).1.ending = .done (.accepted client address) →
        ¬ Own client := fun _ _ => hs.client
  simp only [readSocket]
  rcases hx : (host.sockets.read v.session.world v.descriptor.socket r.picker v.descriptor.previous
    r.outOfBand).1.ending with outcome | _ | _
  · cases outcome with
    | accepted client address => exact hclient client address hx
    | _ => trivial
  · trivial
  · exact absurd hx hcrash

theorem offers_hear {h : SocketHandle} (hh : host.Impartial view Own h) (link : Link H)
    {payload : Payload S} (hp : payload.Offers (¬ Own ·)) (v : Visit W S H P) :
    (hear host link payload v).1.Mild (Payload.Offers (¬ Own ·)) := by
  simp only [hear]
  rcases (hh.eventTame v payload link).2 with h | ⟨error, h⟩
  · rw [h]
    exact hh.client v payload link hp
  · rw [h]
    trivial

/-! ## The socket itself, in two runs -/

/-- Two visits of the socket that see the same. Since the journals were `j` and `j'`, the same has
been done in both. -/
structure Twins (view : W → V) (Own : S → Prop) (h : SocketHandle) (j j' : List (Deed S H))
    (v v' : Visit W S H P) : Prop where
  descriptor : v.descriptor = v'.descriptor
  handle : v.descriptor.handle = h
  own : Own v.descriptor.socket
  handlers : v.session.handlers = v'.session.handlers
  observing : v.session.observing = v'.session.observing
  calm : v.session.stopDue = false ∧ v'.session.stopDue = false
  view : view v.session.world = view v'.session.world
  journal : ∃ deeds, v.session.journal = j ++ deeds ∧ v'.session.journal = j' ++ deeds

section Twins

variable {h : SocketHandle} {j j' : List (Deed S H)} {v v' : Visit W S H P}

theorem Twins.goes (hv : Twins view Own h j j' v v') {d : Descriptor S H} {deed : Deed S H}
    {w w' : W} {t t' : Session W S H P} (ht : v.session.Goes deed w t)
    (ht' : v'.session.Goes deed w' t') (hh : d.handle = v.descriptor.handle) (ho : Own d.socket)
    (hview : view w = view w') : Twins view Own h j j' ⟨d, t⟩ ⟨d, t'⟩ where
  descriptor := rfl
  handle := hh.trans hv.handle
  own := ho
  handlers := ht.handlers.trans (hv.handlers.trans ht'.handlers.symm)
  observing := ht.observing.trans (hv.observing.trans ht'.observing.symm)
  calm := ⟨ht.stopDue.trans hv.calm.1, ht'.stopDue.trans hv.calm.2⟩
  view := by
    rw [ht.world, ht'.world]
    exact hview
  journal := by
    obtain ⟨deeds, hj, hj'⟩ := hv.journal
    refine ⟨deeds ++ [deed], ?_, ?_⟩
    · rw [ht.journal, hj, List.append_assoc]
    · rw [ht'.journal, hj', List.append_assoc]

theorem Twins.rework (hv : Twins view Own h j j' v v') {f : Descriptor S H → Descriptor S H}
    (hf : ∀ d, (f d).handle = d.handle ∧ (f d).socket = d.socket) :
    Twins view Own h j j' { v with descriptor := f v.descriptor }
      { v' with descriptor := f v'.descriptor } where
  descriptor := congrArg f hv.descriptor
  handle := (hf _).1.trans hv.handle
  own := by
    show Own (f v.descriptor).socket
    rw [(hf _).2]
    exact hv.own
  handlers := hv.handlers
  observing := hv.observing
  calm := hv.calm
  view := hv.view
  journal := hv.journal

theorem respects_callSocket {α : Type} {call : W → S → SocketAnswer W S α}
    (hc : Secluded view Own call) (record : Ending SocketError α → SocketCall) :
    Respects (Twins view Own h j j' : Visit W S H P → Visit W S H P → Prop)
      (callSocket call record) fun _ => True := by
  rintro ⟨d, s⟩ ⟨_, s'⟩ hv
  obtain rfl := hv.descriptor
  obtain ⟨hending, hsocket, hview⟩ := hc.own s.world s'.world d.socket hv.own hv.view
  refine ⟨hending, mild_of_not_crashed (hc.ending _ _), ?_⟩
  have hgoes := hv.goes (s.goes_note (call s.world d.socket).world (hc.stop s.world d.socket)
      (.called d.handle d.standing (record (call s.world d.socket).ending)))
    (s'.goes_note (call s'.world d.socket).world (hc.stop s'.world d.socket) _)
    (d := { d with socket := (call s.world d.socket).socket }) rfl ((hc.owned _ _).2 hv.own) hview
  simp only [callSocket, ← hending, ← hsocket]
  exact hgoes

/-- What a read yields is settled by the socket and what it sees. -/
theorem respects_readSocket (hs : host.sockets.Secludes view Own) (r : ReadOperation) :
    Respects (Twins view Own h j j') (readSocket host r) (ReadOutcome.Yields (¬ Own ·)) := by
  rintro ⟨d, s⟩ ⟨_, s'⟩ hv
  obtain rfl := hv.descriptor
  have hc := hs.read r.picker d.previous r.outOfBand
  obtain ⟨hending, hsocket, hview⟩ := hc.own s.world s'.world d.socket hv.own hv.view
  have hpicker := hs.picker s.world s'.world d.socket r.picker d.previous r.outOfBand hv.own hv.view
  refine ⟨hending, yields_readSocket hs r ⟨d, s⟩, ?_⟩
  have hgoes := hv.goes
    (s.goes_note (host.sockets.read s.world d.socket r.picker d.previous r.outOfBand).1.world
      (hc.stop s.world d.socket) (.called d.handle d.standing (.read r.outOfBand)))
    (s'.goes_note (host.sockets.read s'.world d.socket r.picker d.previous r.outOfBand).1.world
      (hc.stop s'.world d.socket) _)
    (d := { d with
      socket := (host.sockets.read s.world d.socket r.picker d.previous r.outOfBand).1.socket
      operation := some (.read { r with picker :=
        (host.sockets.read s.world d.socket r.picker d.previous r.outOfBand).2 }) })
    rfl ((hc.owned _ _).2 hv.own) hview
  simp only [readSocket, ← hsocket, ← hpicker]
  exact hgoes

theorem respects_hear (hh : host.Impartial view Own h) (link : Link H) {payload : Payload S}
    (hp : payload.Offers (¬ Own ·)) :
    Respects (Twins view Own h j j') (hear host link payload) (Payload.Offers (¬ Own ·)) := by
  rintro ⟨d, s⟩ ⟨_, s'⟩ hv
  obtain rfl := hv.descriptor
  obtain ⟨⟨hrequests, hverdict⟩, hmetadata, hpayload⟩ :=
    hh.event ⟨d, s⟩ ⟨d, s'⟩ payload link rfl
  have hview := hh.eventView ⟨d, s⟩ ⟨d, s'⟩ payload link rfl hv.view
  refine ⟨?_, offers_hear hh link hp ⟨d, s⟩, ?_⟩
  · simp only [hear, hverdict, hpayload]
  · have hgoes := s'.goes_absorb d.handle link (askAbout host ⟨d, s'⟩ payload link).1
      (hh.eventTame ⟨d, s'⟩ payload link)
    rw [← hrequests, ← hverdict] at hgoes
    have htwins := hv.goes (s.goes_absorb d.handle link (askAbout host ⟨d, s⟩ payload link).1
      (hh.eventTame ⟨d, s⟩ payload link)) hgoes
      (d := { d with metadata := (askAbout host ⟨d, s⟩ payload link).2.metadata }) rfl hv.own hview
    simp only [hear, ← hmetadata]
    exact htwins

theorem respects_hearFault (hh : host.Impartial view Own h) (link : Link H) (error : SocketError)
    (event : Option EventKind) :
    Respects (Twins view Own h j j') (hearFault host link error event) fun _ => True := by
  rintro ⟨d, s⟩ ⟨_, s'⟩ hv
  obtain rfl := hv.descriptor
  obtain ⟨hrequests, hverdict⟩ := hh.fault ⟨d, s⟩ ⟨d, s'⟩ ⟨d, error, event⟩ link rfl
  have hview := hh.faultView ⟨d, s⟩ ⟨d, s'⟩ ⟨d, error, event⟩ link rfl hv.view
  refine ⟨hverdict, (hh.faultTame ⟨d, s⟩ ⟨d, error, event⟩ link).mild, ?_⟩
  have hgoes := s'.goes_absorb d.handle link (askAboutFault host ⟨d, s'⟩ ⟨d, error, event⟩ link).1
    (hh.faultTame ⟨d, s'⟩ ⟨d, error, event⟩ link)
  rw [← hrequests, ← hverdict] at hgoes
  exact hv.goes (s.goes_absorb d.handle link _ (hh.faultTame ⟨d, s⟩ ⟨d, error, event⟩ link)) hgoes
    rfl hv.own hview

/-- All the work on the socket is the same in both runs. -/
theorem twins_bonds (hs : host.sockets.Secludes view Own) (hh : host.Impartial view Own h) :
    Bonds host (¬ Own ·) (Twins view Own h j j') where
  descriptor hv := hv.descriptor
  links hv := by
    unfold links Session.chain
    rw [hv.descriptor, hv.handlers, hv.observing]
  calm hv := hv.calm
  rework hf hv := hv.rework hf
  begun := by
    rintro ⟨d, s⟩ ⟨_, s'⟩ deed hd hv
    obtain rfl := hv.descriptor
    exact hv.goes (goes_begun ⟨d, s⟩ deed) (goes_begun ⟨d, s'⟩ deed) rfl hv.own hv.view
  hear link _ hp := respects_hear hh link hp
  hearFault link error event := respects_hearFault hh link error event
  pollConnect := respects_callSocket hs.pollConnect _
  read r := respects_readSocket hs r
  write data outOfBand record := respects_callSocket (hs.write data outOfBand) record
  dismiss := by
    rintro client hclient ⟨d, s⟩ ⟨_, s'⟩ hv
    obtain rfl := hv.descriptor
    refine ⟨rfl, trivial, ?_⟩
    refine hv.goes (s.goes_note _ rfl _) (s'.goes_note _ rfl _) rfl hv.own ?_
    rw [hs.close hclient, hs.close hclient]
    exact hv.view

end Twins

/-! ## The other sockets, in one run -/

/-- A visit of another socket. Since the session was `s`, nothing has been done for the socket of
the handle `h`, and what that socket sees has not changed. -/
structure Away (view : W → V) (Own : S → Prop) (h k : SocketHandle) (s : Session W S H P)
    (v : Visit W S H P) : Prop where
  handle : v.descriptor.handle = k
  apart : ¬ Own v.descriptor.socket
  handlers : v.session.handlers = s.handlers
  observing : v.session.observing = s.observing
  calm : v.session.stopDue = false
  view : view v.session.world = view s.world
  journal : ∃ deeds, v.session.journal = s.journal ++ deeds ∧
    ∀ deed ∈ deeds, deed.handle? ≠ some h

section Away

variable {h k : SocketHandle} {s : Session W S H P} {v : Visit W S H P}

theorem Away.goes (hv : Away view Own h k s v) (hne : k ≠ h) {d : Descriptor S H}
    {deed : Deed S H} {w : W} {t : Session W S H P} (ht : v.session.Goes deed w t)
    (hd : deed.handle? = some v.descriptor.handle) (hh : d.handle = v.descriptor.handle)
    (ha : ¬ Own d.socket) (hview : view w = view v.session.world) :
    Away view Own h k s ⟨d, t⟩ where
  handle := hh.trans hv.handle
  apart := ha
  handlers := ht.handlers.trans hv.handlers
  observing := ht.observing.trans hv.observing
  calm := ht.stopDue.trans hv.calm
  view := by
    rw [ht.world]
    exact hview.trans hv.view
  journal := by
    obtain ⟨deeds, hj, hdeeds⟩ := hv.journal
    refine ⟨deeds ++ [deed], by rw [ht.journal, hj, List.append_assoc], fun deed' hmem => ?_⟩
    rcases List.mem_append.1 hmem with hmem | hmem
    · exact hdeeds deed' hmem
    · obtain rfl := List.mem_singleton.1 hmem
      rw [hd, hv.handle]
      simpa using hne

theorem away_callSocket {α : Type} {call : W → S → SocketAnswer W S α}
    (hc : Secluded view Own call) (hne : k ≠ h) (record : Ending SocketError α → SocketCall) :
    Respects (fun v v' => v = v' ∧ Away view Own h k s v) (callSocket call record)
      fun _ => True := by
  refine respects_diagonal fun v hv => ⟨mild_of_not_crashed (hc.ending _ _), ?_⟩
  exact hv.goes hne (v.session.goes_note _ (hc.stop _ _) _) rfl rfl
    (fun h => hv.apart ((hc.owned _ _).1 h)) (hc.apart hv.apart)

/-- The work on another socket passes the socket of the handle by. -/
theorem away_bonds (hs : host.sockets.Secludes view Own) (hh : host.Impartial view Own h)
    (hne : k ≠ h) : Bonds host (¬ Own ·) fun v v' => v = v' ∧ Away view Own h k s v where
  descriptor hv := congrArg Visit.descriptor hv.1
  links hv := congrArg Visit.links hv.1
  calm hv := ⟨hv.2.calm, hv.1 ▸ hv.2.calm⟩
  rework := by
    rintro v _ f hf ⟨rfl, hv⟩
    refine ⟨rfl, (hf _).1.trans hv.handle, ?_, hv.handlers, hv.observing, hv.calm, hv.view,
      hv.journal⟩
    show ¬ Own (f v.descriptor).socket
    rw [(hf _).2]
    exact hv.apart
  begun := by
    rintro v _ deed hd ⟨rfl, hv⟩
    exact ⟨rfl, hv.goes hne (v.goes_begun deed) (hd _ _) rfl hv.apart rfl⟩
  hear link payload hp := respects_diagonal fun v hv => by
    refine ⟨offers_hear hh link hp v, ?_⟩
    exact hv.goes hne (v.session.goes_absorb _ link _ (hh.eventTame v payload link)) rfl rfl
      hv.apart (hh.eventApart v payload link (hv.handle ▸ hne))
  hearFault link error event := respects_diagonal fun v hv => by
    refine ⟨(hh.faultTame v ⟨v.descriptor, error, event⟩ link).mild, ?_⟩
    exact hv.goes hne (v.session.goes_absorb _ link _
      (hh.faultTame v ⟨v.descriptor, error, event⟩ link)) rfl rfl hv.apart
      (hh.faultApart v ⟨v.descriptor, error, event⟩ link (hv.handle ▸ hne))
  pollConnect := away_callSocket hs.pollConnect hne _
  read r := respects_diagonal fun v hv => by
    have hc := hs.read r.picker v.descriptor.previous r.outOfBand
    refine ⟨yields_readSocket hs r v, ?_⟩
    exact hv.goes hne (v.session.goes_note _ (hc.stop _ _) _) rfl rfl
      (fun h => hv.apart ((hc.owned _ _).1 h)) (hc.apart hv.apart)
  write data outOfBand record := away_callSocket (hs.write data outOfBand) hne record
  dismiss hclient := respects_diagonal fun v hv =>
    ⟨trivial, hv.goes hne (v.session.goes_note _ rfl _) rfl rfl hv.apart (hs.close hclient)⟩

end Away

end Visit

end Reactor
