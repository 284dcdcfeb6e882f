import Reactor.Proofs.Run.Work

/-! The same work done in two states side by side. A relation between the states that every single
thing done for a socket respects is respected by the whole work on it. -/

namespace Reactor

variable {W S H P : Type} {host : Host W S H P}

/-! ## Computations -/

/-- The causes of an early end, some of which concern no more than one socket. -/
class Limited (ε : Type) where
  limited : ε → Prop

instance : Limited SocketError := ⟨fun _ => True⟩

instance : Limited HandlerError where
  limited
    | .socket _ => True
    | .fatal _ => False

instance : Limited Interrupt where
  limited
    | .fault _ _ => True
    | .halt _ => False

instance : Limited Halt := ⟨fun _ => False⟩

/-- The end is such a value, or an early one that concerns no more than one socket. -/
def Ending.Mild {ε α : Type} [Limited ε] (Q : α → Prop) : Ending ε α → Prop
  | .done a => Q a
  | .cut e => Limited.limited e
  | .crashed => False

/-- Where nothing can end the stage, the work has been done. -/
theorem Ending.Mild.done {Q : Unit → Prop} {ending : Ending Halt Unit} (hm : ending.Mild Q) :
    ending = .done () := by
  rcases ending with _ | _ | _
  · rfl
  · exact hm.elim
  · exact hm.elim

/-- What has become of an attempt is such a value, or an early end of that kind. -/
def Mildly {ε α : Type} [Limited ε] (Q : α → Prop) : Except ε α → Prop
  | .ok a => Q a
  | .error e => Limited.limited e

namespace Step

variable {σ ε ε' α β : Type} [Limited ε] [Limited ε'] {R : σ → σ → Prop} {Q : α → Prop}
  {Q' : β → Prop}

/-- In related states the computation comes to the same mild end, and to related states. -/
def Respects (R : σ → σ → Prop) (x : Step σ ε α) (Q : α → Prop) : Prop :=
  ∀ s s', R s s' → (x s).1 = (x s').1 ∧ (x s).1.Mild Q ∧ R (x s).2 (x s').2

theorem respects_pure {a : α} (ha : Q a) : Respects R (pure a : Step σ ε α) Q :=
  fun _ _ hs => ⟨rfl, ha, hs⟩

theorem respects_cut {e : ε} (he : Limited.limited e) : Respects R (Step.cut e : Step σ ε α) Q :=
  fun _ _ hs => ⟨rfl, he, hs⟩

theorem respects_modify {f : σ → σ} (hf : ∀ s s', R s s' → R (f s) (f s')) :
    Respects R (Step.modify f : Step σ ε Unit) fun _ => True :=
  fun s s' hs => ⟨rfl, trivial, hf s s' hs⟩

theorem Respects.bind {x : Step σ ε α} {f : α → Step σ ε β} (hx : Respects R x Q)
    (hf : ∀ a, Q a → Respects R (f a) Q') : Respects R (x >>= f) Q' := by
  intro s s' hs
  obtain ⟨heq, hmild, hr⟩ := hx s s' hs
  rcases h : x s with ⟨a | e | _, t⟩
  all_goals
    rcases h' : x s' with ⟨ending, t'⟩
    rw [h, h'] at heq hr
    rw [h] at hmild
    obtain rfl := heq
  · rw [bind_of_done h, bind_of_done h']
    exact hf a hmild t t' hr
  · rw [bind_of_cut h, bind_of_cut h']
    exact ⟨rfl, hmild, hr⟩
  · exact hmild.elim

theorem Respects.attempt {x : Step σ ε α} (hx : Respects R x Q) :
    Respects R (x.attempt : Step σ ε' (Except ε α)) (Mildly Q) := by
  intro s s' hs
  obtain ⟨heq, hmild, hr⟩ := hx s s' hs
  rcases h : x s with ⟨a | e | _, t⟩
  all_goals
    rcases h' : x s' with ⟨ending, t'⟩
    rw [h, h'] at heq hr
    rw [h] at hmild
    obtain rfl := heq
  · rw [attempt_of_done h, attempt_of_done h']
    exact ⟨rfl, hmild, hr⟩
  · rw [attempt_of_cut h, attempt_of_cut h']
    exact ⟨rfl, hmild, hr⟩
  · exact hmild.elim

theorem Respects.attempt_bind {x : Step σ ε α} {f : Except ε α → Step σ ε' β}
    (hx : Respects R x Q) (hf : ∀ result, Mildly Q result → Respects R (f result) Q') :
    Respects R (x.attempt >>= f) Q' :=
  Respects.bind hx.attempt hf

theorem Respects.mapCut {x : Step σ ε α} {f : ε → ε'} (hx : Respects R x Q)
    (hf : ∀ e, Limited.limited e → Limited.limited (f e)) : Respects R (x.mapCut f) Q := by
  rw [mapCut_eq_attempt]
  refine hx.attempt_bind fun result hresult => ?_
  cases result with
  | ok a => exact respects_pure hresult
  | error e => exact respects_cut (hf e hresult)

/-- What a state keeps, the same state keeps in both places. -/
theorem respects_diagonal {I : σ → Prop} {x : Step σ ε α}
    (h : ∀ s, I s → (x s).1.Mild Q ∧ I (x s).2) : Respects (fun s s' => s = s' ∧ I s) x Q := by
  rintro s _ ⟨rfl, hs⟩
  exact ⟨rfl, (h s hs).1, rfl, (h s hs).2⟩

end Step

/-! ## The hooks -/

def Deed.handle? : Deed S H → Option SocketHandle
  | .decided h _ | .called h _ _ | .raised h _ _ | .reported h _ _ _ | .heard h _ _ _ | .closed h
  | .dismissed h => some h
  | .policyStarted | .policyFinished | .selected _ _ => none

/-- A client that is still to be taken is among these sockets. -/
def Payload.Offers (Client : S → Prop) (payload : Payload S) : Prop :=
  ∀ client, payload.client? = some client → Client client

/-- An accepted client is among these sockets. -/
def ReadOutcome.Yields (Client : S → Prop) : ReadOutcome S → Prop
  | .accepted client _ => Client client
  | _ => True

namespace Visit

open Step

/-- A relation between visits of a socket that is respected by every single thing that is done for
it. The clients are those sockets that a read may yield. -/
structure Bonds (host : Host W S H P) (Client : S → Prop)
    (R : Visit W S H P → Visit W S H P → Prop) : Prop where
  descriptor : ∀ {v v'}, R v v' → v.descriptor = v'.descriptor
  links : ∀ {v v'}, R v v' → v.links = v'.links
  calm : ∀ {v v'}, R v v' → v.session.stopDue = false ∧ v'.session.stopDue = false
  rework : ∀ {v v'} {f : Descriptor S H → Descriptor S H},
    (∀ d, (f d).handle = d.handle ∧ (f d).socket = d.socket) → R v v' →
      R { v with descriptor := f v.descriptor } { v' with descriptor := f v'.descriptor }
  begun : ∀ {v v'} {deed : SocketHandle → Standing → Deed S H},
    (∀ h standing, (deed h standing).handle? = some h) → R v v' → R (v.begun deed) (v'.begun deed)
  hear : ∀ link {payload : Payload S}, payload.Offers Client →
    Respects R (hear host link payload) (Payload.Offers Client)
  hearFault : ∀ link error event, Respects R (hearFault host link error event) fun _ => True
  pollConnect : Respects R (callSocket host.sockets.pollConnect fun _ => .pollConnect) fun _ => True
  read : ∀ r, Respects R (readSocket host r) (ReadOutcome.Yields Client)
  write : ∀ data outOfBand record, Respects R
    (callSocket (host.sockets.write · · data outOfBand) record) fun _ => True
  dismiss : ∀ {client}, Client client →
    Respects R (dismiss host client : Step _ Interrupt Unit) fun _ => True

variable {Client : S → Prop} {R : Visit W S H P → Visit W S H P → Prop}

section Parts

variable {ε : Type} [Limited ε]

theorem Bonds.getDescriptor (hb : Bonds host Client R) :
    Respects R (getDescriptor : Step (Visit W S H P) ε _) fun _ => True :=
  fun _ _ hv => ⟨congrArg Ending.done (hb.descriptor hv), trivial, hv⟩

theorem Bonds.modifyDescriptor (hb : Bonds host Client R) {f : Descriptor S H → Descriptor S H}
    (hf : ∀ d, (f d).handle = d.handle ∧ (f d).socket = d.socket) :
    Respects R (modifyDescriptor f : Step (Visit W S H P) ε Unit) fun _ => True :=
  respects_modify fun _ _ hv => hb.rework hf hv

/-- What comes after a change of the descriptor. -/
theorem Bonds.modify_bind {β : Type} {Q : β → Prop} (hb : Bonds host Client R)
    {f : Descriptor S H → Descriptor S H} {next : Unit → Step (Visit W S H P) ε β}
    (hf : ∀ d, (f d).handle = d.handle ∧ (f d).socket = d.socket) (hn : Respects R (next ()) Q) :
    Respects R (Visit.modifyDescriptor f >>= next) Q :=
  Respects.bind (hb.modifyDescriptor hf) fun _ _ => hn

end Parts

theorem Bonds.hearAll (hb : Bonds host Client R) (links : List (Link H)) :
    ∀ {payload : Payload S}, payload.Offers Client →
      Respects R (hearAll host links payload) (Payload.Offers Client) := by
  induction links with
  | nil => exact fun hp => respects_pure hp
  | cons link links ih => exact fun hp => (hb.hear link hp).bind fun _ hp' => ih hp'

theorem Bonds.hearFaultAll (hb : Bonds host Client R) (error : SocketError)
    (event : Option EventKind) (links : List (Link H)) :
    Respects R (hearFaultAll host error event links) fun _ => True := by
  induction links with
  | nil => exact respects_pure trivial
  | cons link links ih => exact (hb.hearFault link error event).bind fun _ _ => ih

theorem Bonds.withHandler (hb : Bonds host Client R) {v v' : Visit W S H P} (hv : R v v')
    (own : Option H) : R (v.withHandler own) (v'.withHandler own) :=
  hb.rework (f := fun d => { d with handler := own }) (fun _ => ⟨rfl, rfl⟩) hv

theorem Bonds.opened (hb : Bonds host Client R) {v v' : Visit W S H P}
    (deed : SocketHandle → Standing → Deed S H)
    (hd : ∀ h standing, (deed h standing).handle? = some h) (hv : R v v') :
    R (v.opened deed) (v'.opened deed) :=
  hb.withHandler (hb.begun hd hv) none

theorem reattached_of_mild {ε α : Type} [Limited ε] {Q : α → Prop} (own : Option H)
    {r : Ending ε α × Visit W S H P} (hr : r.1.Mild Q) :
    reattached own r = r.2.withHandler own := by
  rcases r with ⟨a | e | _, t⟩
  · rfl
  · rfl
  · exact hr.elim

theorem mild_dispatchEnding {kind : EventKind} {Q : Payload S → Prop}
    {ending : Ending HandlerError (Payload S)} (h : ending.Mild Q) :
    (dispatchEnding kind false ending).Mild Q := by
  rcases ending with p | (e | text) | _
  · exact h
  · trivial
  · exact h.elim
  · exact h.elim

theorem mild_reportEnding {Q : Unit → Prop} {ending : Ending HandlerError Unit}
    (h : ending.Mild Q) : (reportEnding false ending).Mild fun _ => True := by
  rcases ending with p | (e | text) | _
  · trivial
  · trivial
  · exact h.elim
  · exact h.elim

/-- The hooks are asked alike, and no stop is due after that. -/
theorem Bonds.dispatch (hb : Bonds host Client R) {payload : Payload S}
    (hp : payload.Offers Client) :
    Respects R (dispatch host payload) (Payload.Offers Client) := by
  intro v v' hv
  obtain ⟨heq, hmild, hr⟩ := hb.hearAll v.links hp _ _
    (hb.opened (fun h st => .raised h st payload) (fun _ _ => rfl) hv)
  rw [dispatch_apply, dispatch_apply, ← hb.links hv, ← hb.descriptor hv]
  have hstop := hb.calm hr
  dsimp only
  rw [reattached_of_mild _ hmild, reattached_of_mild _ (heq ▸ hmild), hstop.1, hstop.2, ← heq]
  exact ⟨rfl, mild_dispatchEnding hmild, hb.withHandler hr _⟩

theorem Bonds.dispatchFault (hb : Bonds host Client R) (error : SocketError)
    (event : Option EventKind) :
    Respects R (dispatchFault host error event) fun _ => True := by
  intro v v' hv
  obtain ⟨heq, hmild, hr⟩ := hb.hearFaultAll error event v.links _ _
    (hb.opened (fun h st => .reported h st error event) (fun _ _ => rfl) hv)
  rw [dispatchFault_apply, dispatchFault_apply, ← hb.links hv, ← hb.descriptor hv]
  have hstop := hb.calm hr
  dsimp only
  rw [reattached_of_mild _ hmild, reattached_of_mild _ (heq ▸ hmild), hstop.1, hstop.2, ← heq]
  exact ⟨rfl, mild_reportEnding hmild, hb.withHandler hr _⟩

/-! ## The service -/

theorem Bonds.adoptNext (hb : Bonds host Client R) (next : Option Operation) :
    Respects R (Visit.modifyDescriptor (·.adoptNext next) : Step _ Interrupt Unit)
      fun _ => True :=
  hb.modifyDescriptor fun d => ⟨d.handle_adoptNext next, (d.reworked_adoptNext next).socket⟩

theorem Bonds.ensureConnected (hb : Bonds host Client R) :
    Respects R (ensureConnected host) fun _ => True := by
  refine hb.getDescriptor.bind fun d _ => ?_
  split
  · exact respects_pure trivial
  refine (Respects.mapCut (f := (Interrupt.fault · none)) hb.pollConnect fun _ _ => trivial).bind
    fun established _ => ?_
  have hconnected : Respects R (Visit.dispatch host .connected) (Payload.Offers Client) :=
    hb.dispatch fun client h => by cases h
  split
  · refine hb.modify_bind (fun _ => ⟨rfl, rfl⟩) ?_
    exact hconnected.bind fun _ _ => respects_pure trivial
  · exact respects_pure trivial

theorem Bonds.welcome (hb : Bonds host Client R) {client : S} (hc : Client client)
    (address : String) : Respects R (welcome host client address) fun _ => True := by
  have hoffers : Payload.Offers Client (.accept (some client) address) := by
    rintro _ ⟨⟩
    exact hc
  refine (hb.dispatch hoffers).attempt_bind fun result hresult => ?_
  refine hb.modify_bind (fun _ => ⟨rfl, rfl⟩) ?_
  cases result with
  | error interrupt => exact respects_cut hresult
  | ok payload =>
      dsimp only
      split
      · rename_i untaken h
        exact hb.dismiss (hresult untaken h)
      · exact respects_pure trivial

theorem Bonds.finishRead (hb : Bonds host Client R)
    {outcome : Except SocketError (ReadOutcome S)}
    (ho : Mildly (ReadOutcome.Yields Client) outcome) :
    Respects R (finishRead host outcome) fun _ => True := by
  rcases outcome with error | (snapshot | frame | ⟨client, address⟩)
  · cases error with
    | accept cause =>
        have hmild : ∀ halt : Halt, Limited.limited halt → Limited.limited (Interrupt.halt halt) :=
          fun _ h => h
        refine ((hb.dispatchFault (.accept cause) none).mapCut hmild).bind fun _ _ => ?_
        exact hb.modifyDescriptor fun _ => ⟨rfl, rfl⟩
    | _ => exact respects_cut trivial
  · exact hb.modifyDescriptor fun _ => ⟨rfl, rfl⟩
  · refine hb.modify_bind (fun _ => ⟨rfl, rfl⟩) ?_
    have hoffers : Payload.Offers Client (.read frame none) := fun client h => by cases h
    exact (hb.dispatch hoffers).bind fun payload _ => hb.adoptNext _
  · exact hb.welcome ho address

theorem Bonds.serveRead (hb : Bonds host Client R) :
    Respects R (serveRead host) fun _ => True := by
  refine hb.ensureConnected.bind fun connected _ => ?_
  split
  · refine hb.getDescriptor.bind fun d _ => ?_
    split
    · refine hb.modify_bind (fun _ => ⟨rfl, rfl⟩) ?_
      exact (hb.read _).attempt_bind fun outcome ho => hb.finishRead ho
    · exact respects_pure trivial
  · exact respects_pure trivial

theorem Bonds.writeSocket (hb : Bonds host Client R) (data : Bytes) (outOfBand : Bool) :
    Respects R (writeSocket host data outOfBand) fun _ => True :=
  (hb.write data outOfBand _).mapCut fun _ _ => trivial

theorem Bonds.flush (hb : Bonds host Client R) (backlog : WriteBacklog) :
    Respects R (flush host backlog) fun _ => True := by
  refine hb.modify_bind (fun _ => ⟨rfl, rfl⟩) ?_
  refine hb.modify_bind (fun _ => ⟨rfl, rfl⟩) ?_
  refine (hb.writeSocket _ _).bind fun written _ => ?_
  dsimp only
  split
  · exact hb.adoptNext _
  · exact hb.modifyDescriptor fun _ => ⟨rfl, rfl⟩

theorem Bonds.writePayload (hb : Bonds host Client R) (next : Option Operation) :
    Respects R (writePayload host next) fun _ => True := by
  refine hb.modify_bind (fun _ => ⟨rfl, rfl⟩) ?_
  refine hb.getDescriptor.bind fun d _ => ?_
  split
  · rename_i w _
    have hfinish : ∀ written : Nat, Respects R (if written < w.data.length then
          Visit.modifyDescriptor fun d =>
            { d with backlog := some ⟨w.data.drop written, w.outOfBand, next⟩ }
        else Visit.modifyDescriptor (·.adoptNext next) : Step _ Interrupt Unit)
          fun _ => True := by
      intro written
      split
      · exact hb.modifyDescriptor fun _ => ⟨rfl, rfl⟩
      · exact hb.adoptNext _
    dsimp only
    split
    · exact (hb.writeSocket _ _).bind fun written _ => hfinish written
    · exact hfinish 0
  · exact hb.adoptNext _

theorem Bonds.unlessComplete {ε : Type} [Limited ε] (hb : Bonds host Client R)
    {work : Step (Visit W S H P) ε Unit} (hw : Respects R work fun _ => True) :
    Respects R (unlessComplete work) fun _ => True := by
  refine hb.getDescriptor.bind fun d _ => ?_
  split
  · exact respects_pure trivial
  · exact hw

theorem Bonds.announceWrite (hb : Bonds host Client R) (w : WriteOperation) :
    Respects R (announceWrite host w) fun _ => True := by
  refine hb.modify_bind (fun _ => ⟨rfl, rfl⟩) ?_
  have hoffers : Payload.Offers Client (.write w none) := fun client h => by cases h
  refine (hb.dispatch hoffers).bind fun payload _ => ?_
  split
  · refine hb.unlessComplete ?_
    exact hb.modify_bind (fun d => ⟨(reworked_restorePayload _ d).handle,
      (reworked_restorePayload _ d).socket⟩) (hb.writePayload _)
  · exact respects_pure trivial

theorem Bonds.serveWrite (hb : Bonds host Client R) :
    Respects R (serveWrite host) fun _ => True := by
  refine hb.ensureConnected.bind fun connected _ => ?_
  split
  · refine hb.getDescriptor.bind fun d _ => ?_
    split
    · exact hb.flush _
    · exact hb.announceWrite _
    · exact respects_pure trivial
  · exact respects_pure trivial

/-- A failure of the socket stays with it. -/
theorem Bonds.settle (hb : Bonds host Client R) {work : Step (Visit W S H P) Interrupt Unit}
    (hw : Respects R work fun _ => True) : Respects R (settle host work) fun _ => True := by
  refine hw.attempt_bind fun result hresult => ?_
  rcases result with (⟨error, event⟩ | halt) | _
  · refine (hb.dispatchFault error event).attempt_bind fun reported hreported => ?_
    refine hb.modify_bind (fun _ => ⟨rfl, rfl⟩) ?_
    cases reported with
    | ok => exact respects_pure trivial
    | error halt => exact hreported.elim
  · exact hresult.elim
  · exact respects_pure trivial

end Visit

end Reactor
