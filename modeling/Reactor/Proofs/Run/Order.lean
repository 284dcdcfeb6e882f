import Reactor.Proofs.Run.Lifecycle
import Reactor.Proofs.Run.Ownership

/-! What keeps the events of a socket in order: the mark of an established connection tells how far
the socket has come. -/

namespace Reactor

variable {W S H P : Type} {host : Host W S H P}

/-- No hook assigns the mark of an established connection. -/
def Host.KeepsConnection (host : Host W S H P) : Prop :=
  ∀ (v : Visit W S H P) (payload : Payload S) (link : Link H),
    (v.askAbout host payload link).2.metadata.connectFinish = v.descriptor.metadata.connectFinish

/-- Hooks register only sockets whose connection has not been established. -/
def Host.RegistersFresh (host : Host W S H P) : Prop :=
  ∀ requests, host.CanRequest requests → ∀ socket operation metadata,
    .register socket operation metadata ∈ requests → metadata.connectFinish = false

def Descriptor.stage (d : Descriptor S H) : Stage :=
  if d.metadata.connectFinish then .live else .fresh

section Notices

variable {h k : SocketHandle} {deeds : List (Deed S H)}

theorem notices_eq_nil (hd : ∀ deed ∈ deeds, deed.notice? h = none) : notices h deeds = [] := by
  simpa [notices] using hd

theorem notices_hearings (hd : ∀ deed ∈ deeds, deed.IsHearing host k) : notices h deeds = [] := by
  refine notices_eq_nil fun deed hmem => ?_
  have := hd deed hmem
  cases deed with
  | heard => rfl
  | _ => exact this.elim

theorem notices_work {running : Bool} (hd : ∀ deed ∈ deeds, deed.IsWork host k running)
    (hne : k ≠ h) : notices h deeds = [] := by
  refine notices_eq_nil fun deed hmem => ?_
  have := hd deed hmem
  cases deed with
  | raised => exact if_neg (this.1 ▸ hne)
  | reported => exact if_neg (this.1 ▸ hne)
  | policyStarted | policyFinished | decided | selected | closed => exact this.elim
  | called | heard | dismissed => rfl

theorem notices_cons (deed : Deed S H) :
    notices h (deed :: deeds) = (deed.notice? h).toList ++ notices h deeds := by
  unfold notices
  rw [List.filterMap_cons]
  split <;> simp_all

theorem LastWord.notices_eq {running : Bool} {payload : Payload S}
    (hw : LastWord host h running payload deeds) :
    notices h deeds = [.event payload.kind] ∨
      notices h deeds = [.event payload.kind, .fault (some payload.kind)] := by
  cases hw with
  | heard _ hh =>
      rw [notices_cons, notices_hearings hh]
      simp [Deed.notice?]
  | failed error _ hh hm =>
      rw [notices_cons, notices_append, notices_hearings hh, notices_cons, notices_hearings hm]
      simp [Deed.notice?]

theorem LastWord.notices_of_ne {running : Bool} {payload : Payload S}
    (hw : LastWord host k running payload deeds) (hne : k ≠ h) : notices h deeds = [] := by
  refine notices_eq_nil fun deed hmem => ?_
  have := hw.isLast deed hmem
  cases deed with
  | raised => exact if_neg (this.1 ▸ hne)
  | reported => exact if_neg (this.1 ▸ hne)
  | heard => rfl
  | _ => exact this.elim

end Notices

namespace Visit

/-- The events of the visited socket are in order, and have brought it to its present stage. -/
def Ordered (v : Visit W S H P) : Prop :=
  Stage.fresh.after? (notices v.descriptor.handle v.session.journal) = some v.descriptor.stage

theorem dispatch_connectFinish (hm : host.KeepsConnection) (payload : Payload S)
    (v : Visit W S H P) : (dispatch host payload v).2.descriptor.metadata.connectFinish =
      v.descriptor.metadata.connectFinish := by
  let I (m : Metadata) : Prop := m.connectFinish = v.descriptor.metadata.connectFinish
  exact dispatch_metadata (I := I) (fun u payload link hu => (hm u payload link).trans hu)
    payload rfl

/-- An event brings the socket to the next stage. -/
theorem dispatch_ordered (hm : host.KeepsConnection) {payload : Payload S} {v : Visit W S H P}
    {s : Stage} (hv : Stage.fresh.after? (notices v.descriptor.handle v.session.journal) = some s)
    (hn : s.next (.event payload.kind) = some v.descriptor.stage) :
    (dispatch host payload v).2.Ordered := by
  obtain ⟨hearings, hh, hadv, m, own, hd⟩ := dispatch_advances host payload v
  have hcf := dispatch_connectFinish hm payload v
  have hstage : (dispatch host payload v).2.descriptor.stage = v.descriptor.stage := by
    unfold Descriptor.stage
    rw [hcf]
  have hhandle : (dispatch host payload v).2.descriptor.handle = v.descriptor.handle := by
    rw [hd]
  unfold Ordered
  rw [hstage, hhandle, hadv.journal, notices_append, Stage.after?_append, hv, notices_cons,
    notices_hearings hh]
  simp [Deed.notice?, Stage.after?_cons, hn]

theorem Ordered.quiet {v v' : Visit W S H P} (hv : v.Ordered) (h : v.Quiet host v') :
    v'.Ordered := by
  cases h with
  | rework h =>
      unfold Ordered Descriptor.stage at hv ⊢
      rw [h.handle, h.connectFinish]
      exact hv
  | @call _ call =>
      unfold Ordered at hv ⊢
      have hn : notices v.descriptor.handle
          [Deed.called v.descriptor.handle v.descriptor.standing call (S := S) (H := H)] = [] := rfl
      simp only [Session.note, Session.journal_stopIf, notices_append, hn, List.append_nil]
      exact hv
  | dismiss =>
      unfold Ordered at hv ⊢
      have hn : notices v.descriptor.handle
          [(.dismissed v.descriptor.handle : Deed S H)] = [] := rfl
      simp only [Session.note, Session.journal_stopIf, notices_append, hn, List.append_nil]
      exact hv

/-- Traffic is announced for a live socket only. -/
theorem Ordered.live {v : Visit W S H P} (hv : v.Ordered) (ha : v.Announced) :
    v.descriptor.stage = .live := by
  rcases ha with hc | ⟨standing, hmem⟩
  · exact if_pos hc
  · have hn : Notice.event .connected ∈ notices v.descriptor.handle v.session.journal := by
      refine List.mem_filterMap.2 ⟨_, hmem, ?_⟩
      exact if_pos rfl
    have hrank := Stage.rank_of_mem Stage.marks_connected hn hv
    unfold Descriptor.stage at hrank ⊢
    split at hrank
    · rename_i hc
      exact if_pos hc
    · simp [Stage.rank] at hrank

theorem report_ordered {v : Visit W S H P} (hv : v.Ordered) (error : SocketError)
    (event : Option EventKind) : (dispatchFault host error event v).2.Ordered := by
  obtain ⟨hearings, hh, hadv, own, hd⟩ := dispatchFault_advances host error event v
  have hn : v.descriptor.stage.next (.fault event) = some v.descriptor.stage := by
    unfold Descriptor.stage
    split <;> rfl
  have hstage : (dispatchFault host error event v).2.descriptor.stage = v.descriptor.stage := by
    rw [hd]
    rfl
  have hhandle : (dispatchFault host error event v).2.descriptor.handle = v.descriptor.handle := by
    rw [hd]
  unfold Ordered at hv ⊢
  rw [hstage, hhandle, hadv.journal, notices_append, Stage.after?_append, hv, notices_cons,
    notices_hearings hh]
  simp [Deed.notice?, Stage.after?_cons, hn]

theorem Ordered.move (hm : host.KeepsConnection) {v v' : Visit W S H P} (hv : v.Ordered)
    (h : v.Move host v') : v'.Ordered := by
  cases h with
  | quiet h => exact hv.quiet h
  | announce hc =>
      have hfresh : v.descriptor.stage = .fresh := by
        unfold Descriptor.stage
        rw [hc]
        rfl
      unfold Ordered at hv
      rw [hfresh] at hv
      exact dispatch_ordered hm hv rfl
  | raise payload hk ha =>
      have hlive := hv.live ha
      refine dispatch_ordered hm hv ?_
      rw [hlive]
      cases hp : payload.kind with
      | read | write | accept => rfl
      | _ => rw [hp] at hk; cases hk
  | report error event => exact report_ordered hv error event

theorem Ordered.moves (hm : host.KeepsConnection) {v v' : Visit W S H P} (hv : v.Ordered)
    (h : v.Moves host v') : v'.Ordered := by
  induction h with
  | refl => exact hv
  | tail _ hmove ih => exact ih.move hm hmove

end Visit

/-- Taking leave goes on from the stage that the socket has come to, in order. -/
theorem Leavetaking.after? {d : Descriptor S H} {deeds : List (Deed S H)}
    (hl : Leavetaking host d deeds) :
    ∃ t, d.stage.after? (notices d.handle deeds) = some t ∧
      .event .finalize ∈ notices d.handle deeds := by
  have hclosed : ∀ finale : List (Deed S H), notices d.handle (.closed d.handle :: finale) =
      notices d.handle finale := fun _ => rfl
  cases hl with
  | silent hd hf =>
      have hfresh : d.stage = .fresh := if_neg (by simp [hd])
      rw [hclosed, hfresh]
      rcases hf.notices_eq with hn | hn <;> rw [hn]
      · exact ⟨.ended, rfl, by simp [Payload.kind]⟩
      · exact ⟨.silent, rfl, by simp [Payload.kind]⟩
  | told hw hf =>
      have hparted : d.stage.next (.event .disconnected) = some .parted := by
        unfold Descriptor.stage
        split <;> rfl
      rw [notices_append, hclosed]
      rcases hw.notices_eq with hn | hn <;> rcases hf.notices_eq with hn' | hn' <;> rw [hn, hn']
      all_goals
        simp only [Payload.kind, List.cons_append, List.nil_append, Stage.after?_cons, hparted]
      · exact ⟨.ended, rfl, by simp⟩
      · exact ⟨.silent, rfl, by simp⟩
      · exact ⟨.ended, rfl, by simp⟩
      · exact ⟨.silent, rfl, by simp⟩

theorem Leavetaking.notices_of_ne {d : Descriptor S H} {deeds : List (Deed S H)}
    (hl : Leavetaking host d deeds)
    {k : SocketHandle} (hne : d.handle ≠ k) : notices k deeds = [] := by
  have hclosed : ∀ finale : List (Deed S H), notices k (.closed d.handle :: finale) =
      notices k finale := fun _ => rfl
  cases hl with
  | silent _ hf => rw [hclosed, hf.notices_of_ne hne]
  | told hw hf => rw [notices_append, hclosed, hw.notices_of_ne hne, hf.notices_of_ne hne]; rfl

/-- What a crash leaves of a farewell is in order too. -/
theorem LastWord.after?_disconnected {d : Descriptor S H} {deeds : List (Deed S H)}
    (hw : LastWord host d.handle d.running .disconnected deeds) :
    ∃ t, d.stage.after? (notices d.handle deeds) = some t := by
  have hparted : d.stage.next (.event .disconnected) = some .parted := by
    unfold Descriptor.stage
    split <;> rfl
  rcases hw.notices_eq with hn | hn
  all_goals
    rw [hn]
    simp only [Payload.kind, Stage.after?_cons, hparted]
  · exact ⟨.parted, rfl⟩
  · exact ⟨.parted, rfl⟩

end Reactor
