import Mathlib.Data.List.Nodup
import Mathlib.Logic.Function.Basic
import Reactor.Proofs.Run.Requests

/-!
What the deeds of a run are worth. A deed is a step from what is around the run before it to what is
around it afterwards: a closing, for one, is a call of `close` on the socket that the run holds
under the handle. A journal tells the truth if its deeds lead all the way from the beginning to the
end.
-/

namespace Reactor

variable {W S H P : Type}

/-- What is around a run: the world, the sockets that the run holds, and the handle that the next
one will get. -/
@[ext]
structure Scene (W S : Type) where
  world : W
  held : SocketHandle → Option S
  next : SocketHandle

/-- A call of a socket, and the answer that its rules give. -/
inductive SocketRules.Answers (rules : SocketRules W S) (world : W) (socket : S) :
    {α : Type} → SocketCall → SocketAnswer W S α → Prop where
  | connect (address : String) :
      rules.Answers world socket (.connect address) (rules.connect world socket address)
  | pollConnect : rules.Answers world socket .pollConnect (rules.pollConnect world socket)
  | read (picker : Picker) (previous : Option PartialFrame) (outOfBand : Bool) :
      rules.Answers world socket (.read outOfBand)
        (rules.read world socket picker previous outOfBand).1
  | write (data : Bytes) (outOfBand : Bool) :
      rules.Answers world socket
        (.write data outOfBand (match (rules.write world socket data outOfBand).ending with
          | .done n => some n
          | _ => none))
        (rules.write world socket data outOfBand)

/-- The socket under a handle whose registration is queued. -/
def awaiting (changes : List (Change S)) (h : SocketHandle) : Option S :=
  ((changes.filterMap Change.registration?).find? (·.handle = h)).map (·.socket)

theorem awaiting_append (changes more : List (Change S)) (h : SocketHandle) :
    awaiting (changes ++ more) h = (awaiting changes h).or (awaiting more h) := by
  simp only [awaiting, List.filterMap_append, List.find?_append]
  cases (changes.filterMap Change.registration?).find? (·.handle = h) <;> rfl

theorem awaiting_register (g : Registration S) (changes : List (Change S)) (h : SocketHandle) :
    awaiting (.register g :: changes) h =
      if g.handle = h then some g.socket else awaiting changes h := by
  simp only [awaiting, List.filterMap_cons, Change.registration?, List.find?_cons]
  split <;> simp_all

theorem awaiting_of_not_enrolling {changes : List (Change S)} {h : SocketHandle}
    (hh : h ∉ enrolling changes) : awaiting changes h = none := by
  rw [awaiting, Option.map_eq_none_iff, List.find?_eq_none]
  intro g hg heq
  exact hh (List.mem_map.2 ⟨g, hg, by simpa using heq⟩)

theorem awaiting_of_mem {changes : List (Change S)} (hn : (enrolling changes).Nodup)
    {g : Registration S} (hg : g ∈ changes.filterMap Change.registration?) :
    awaiting changes g.handle = some g.socket := by
  rcases hfind : (changes.filterMap Change.registration?).find? (·.handle = g.handle) with _ | g'
  · have hnone := List.find?_eq_none.1 hfind g hg
    simp at hnone
  · have heq : g'.handle = g.handle := by simpa using List.find?_some hfind
    obtain rfl := List.inj_on_of_nodup_map hn (List.mem_of_find?_eq_some hfind) hg heq
    rw [awaiting, hfind]
    rfl

namespace Scene

/-- The scene after a hook: the world as the hook leaves it, and the sockets that it has handed
over, under new handles. -/
def after (scene : Scene W S) (reaction : Reaction W S) : Scene W S where
  world := reaction.world
  held h := (scene.held h).or (awaiting (queueOf scene.next reaction.requests) h)
  next := ⟨scene.next.number + registrations reaction.requests⟩

/-- The scene after the closing of a socket that is held. -/
def without (host : Host W S H P) (scene : Scene W S) (h : SocketHandle) (socket : S) :
    Scene W S :=
  { scene with
    world := (host.sockets.close scene.world socket).2
    held := Function.update scene.held h none }

/-- A deed and what it does: the surroundings are asked what the deed says, and nothing else. -/
inductive Enacts (host : Host W S H P) (scene : Scene W S) : Deed S H → Scene W S → Prop where
  | policyStarted (policy : P) (context : ExecutionContext) :
      scene.Enacts host .policyStarted
        { scene with world := (host.policy.atStart scene.world policy context).2.2 }
  | policyFinished (policy : P) (context : ExecutionContext) :
      scene.Enacts host .policyFinished
        { scene with world := (host.policy.atFinish scene.world policy context).2.2 }
  | decided (policy : P) (d : Descriptor S H) (context : ExecutionContext) :
      scene.Enacts host (.decided d.handle (host.policy.decide scene.world policy d context).1)
        { scene with world := (host.policy.decide scene.world policy d context).2.2.1 }
  /-- The socket that is held is called, and goes on as the call leaves it. -/
  | called {h : SocketHandle} {socket : S} {standing : Standing} {call : SocketCall} {α : Type}
      {answer : SocketAnswer W S α} (hs : scene.held h = some socket)
      (ha : host.sockets.Answers scene.world socket call answer) :
      scene.Enacts host (.called h standing call)
        { scene with
          world := answer.world
          held := Function.update scene.held h (some answer.socket) }
  | raised (h : SocketHandle) (standing : Standing) (payload : Payload S) :
      scene.Enacts host (.raised h standing payload) scene
  | reported (h : SocketHandle) (standing : Standing) (error : SocketError)
      (event : Option EventKind) : scene.Enacts host (.reported h standing error event) scene
  | heard {v : Visit W S H P} (payload : Payload S) (link : Link H)
      (hv : v.session.world = scene.world) :
      scene.Enacts host (.heard v.descriptor.handle link (v.askAbout host payload link).2.requests
        (v.askAbout host payload link).2.verdict)
        (scene.after (v.askAbout host payload link).2.toReaction)
  | heardFault {v : Visit W S H P} (fault : Fault S H) (link : Link H)
      (hv : v.session.world = scene.world) :
      scene.Enacts host (.heard v.descriptor.handle link
        (v.askAboutFault host fault link).2.requests (v.askAboutFault host fault link).2.verdict)
        (scene.after (v.askAboutFault host fault link).2)
  | selected (interests : List Interest) (timeout : Duration) :
      scene.Enacts host (.selected interests (host.select scene.world interests timeout).result)
        { scene with world := (host.select scene.world interests timeout).world }
  /-- The socket that is held is closed, and not held any more. -/
  | closed {h : SocketHandle} {socket : S} (hs : scene.held h = some socket) :
      scene.Enacts host (.closed h) (scene.without host h socket)
  | dismissed (listener : SocketHandle) (client : S) :
      scene.Enacts host (.dismissed listener)
        { scene with world := (host.sockets.close scene.world client).2 }

/-- Deeds and what they do, one after the other. -/
inductive Enacted (host : Host W S H P) : Scene W S → List (Deed S H) → Scene W S → Prop where
  | nil (scene : Scene W S) : Enacted host scene [] scene
  | cons {scene mid last : Scene W S} {deed : Deed S H} {deeds : List (Deed S H)}
      (h : scene.Enacts host deed mid) (t : Enacted host mid deeds last) :
      Enacted host scene (deed :: deeds) last

variable {host : Host W S H P} {scene mid last : Scene W S}

theorem Enacts.held_of_finished (h : scene.Enacts host .policyFinished last) :
    last.held = scene.held := by
  cases h
  rfl

theorem Enacts.enacted {deed : Deed S H} (h : scene.Enacts host deed last) :
    scene.Enacted host [deed] last := .cons h (.nil _)

theorem Enacted.append {deeds more : List (Deed S H)} (h : scene.Enacted host deeds mid)
    (t : mid.Enacted host more last) : scene.Enacted host (deeds ++ more) last := by
  induction h with
  | nil => exact t
  | cons h _ ih => exact .cons h (ih t)

theorem Enacted.split {deeds more : List (Deed S H)} :
    ∀ {scene : Scene W S}, scene.Enacted host (deeds ++ more) last →
      ∃ mid, scene.Enacted host deeds mid ∧ mid.Enacted host more last := by
  induction deeds with
  | nil => exact fun h => ⟨_, .nil _, h⟩
  | cons deed rest ih =>
      intro scene h
      cases h with
      | cons h t =>
          obtain ⟨mid, hrest, hmore⟩ := ih t
          exact ⟨mid, .cons h hrest, hmore⟩

/-- If nothing is held after some closings, these were the closings of whatever was held. -/
theorem Enacted.mem_closings (hlast : ∀ h, last.held h = none) {handles : List SocketHandle} :
    ∀ {scene : Scene W S}, scene.Enacted host (handles.map .closed) last →
      ∀ h, h ∈ handles ↔ (scene.held h).isSome = true := by
  induction handles with
  | nil =>
      rintro _ ⟨⟩ h
      simp [hlast]
  | cons k rest ih =>
      intro scene henacted h
      cases henacted with
      | cons hclosed t =>
          cases hclosed with
          | closed hheld =>
              rw [List.mem_cons, ih t h, without]
              by_cases heq : h = k
              · subst heq
                simp [hheld]
              · simp [heq]

end Scene

/-! ## The scene of a run -/

def Registry.sockets (r : Registry S H) (h : SocketHandle) : Option S :=
  (HandleMap.get? r h).map (·.socket)

/-- The scene of a session, given the sockets that are registered. Those whose registration is
queued are held, too. -/
def Session.scene (s : Session W S H P) (registered : SocketHandle → Option S) : Scene W S where
  world := s.world
  held h := (registered h).or (awaiting s.context.changes h)
  next := s.context.nextHandle

def Run.scene (r : Run W S H P) : Scene W S := r.session.scene (Registry.sockets r.registry)

namespace Session

variable {host : Host W S H P} {s s' s'' : Session W S H P}

/-- A session that has taken over what a hook did is in the scene after it. -/
theorem scene_absorb (registered : SocketHandle → Option S) (handle : SocketHandle) (link : Link H)
    (policy : P) (r : Reaction W S) :
    (s.absorb handle link policy r).scene registered = (s.scene registered).after r := by
  obtain ⟨hchanges, hnext, -⟩ :=
    RunContext.foldl_grant r.requests { s.context with context := r.context }
  simp only [scene, absorb, note, Reaction.contextAfter, hchanges, hnext, awaiting_append,
    Scene.after, Option.or_assoc]

/-- A deed that is not one of a hook changes the world alone, also if a stop came with it. -/
theorem scene_note (registered : SocketHandle → Option S) (world : W) (stop : Bool)
    (deed : Deed S H) : (({ s with world := world }.stopIf stop).note deed).scene registered =
      { s.scene registered with world := world } := by
  cases stop <;> rfl

/-- The session goes on as its journal tells, whatever is registered. -/
def Plays (host : Host W S H P) (s s' : Session W S H P) : Prop :=
  ∃ deeds, s'.journal = s.journal ++ deeds ∧
    ∀ registered, (s.scene registered).Enacted host deeds (s'.scene registered)

theorem Plays.refl (s : Session W S H P) : s.Plays host s :=
  ⟨[], (List.append_nil _).symm, fun _ => .nil _⟩

theorem Plays.trans (h : s.Plays host s') (h' : s'.Plays host s'') : s.Plays host s'' := by
  obtain ⟨deeds, hj, he⟩ := h
  obtain ⟨more, hj', he'⟩ := h'
  exact ⟨deeds ++ more, by rw [hj', hj, List.append_assoc], fun registered =>
    (he registered).append (he' registered)⟩

theorem Plays.of_note {deed : Deed S H} (hj : s'.journal = s.journal ++ [deed])
    (he : ∀ registered, (s.scene registered).Enacts host deed (s'.scene registered)) :
    s.Plays host s' :=
  ⟨[deed], hj, fun registered => (he registered).enacted⟩

/-- A deed that changes the world alone, also if a stop came with it. -/
theorem Plays.of_world {world : W} {deed : Deed S H} (stop : Bool)
    (he : ∀ registered,
      (s.scene registered).Enacts host deed { s.scene registered with world := world }) :
    s.Plays host (({ s with world := world }.stopIf stop).note deed) := by
  refine ⟨[deed], by simp [note], fun registered => ?_⟩
  rw [scene_note]
  exact (he registered).enacted

end Session

end Reactor
