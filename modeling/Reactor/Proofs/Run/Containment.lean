import Reactor.Proofs.Run.Congruence
import Reactor.Proofs.Run.SelectFailure

/-! What comes of a failed selection: every registered socket is told of it before leave is taken of
any. Nothing that hooks do meanwhile, short of failing the run, makes a difference. -/

namespace Reactor

variable {W S H P : Type} {host : Host W S H P}

open Step

/-- No hook fails the run, whatever it is asked about; a hook may still fail the socket, and ask for
anything. -/
structure Host.Lenient (host : Host W S H P) : Prop where
  event : ∀ (v : Visit W S H P) (payload : Payload S) (link : Link H),
    (v.askAbout host payload link).2.verdict.Mild fun _ => True
  fault : ∀ (v : Visit W S H P) (fault : Fault S H) (link : Link H),
    (v.askAboutFault host fault link).2.verdict.Mild fun _ => True

/-- What is recorded while sockets are told, one after the other, that a selection has failed with
this error: each is given the fault, which comes of no event, and then its hooks are asked. -/
inductive Reported (host : Host W S H P) (error : IoError) :
    List SocketHandle → List (Deed S H) → Prop where
  | nil : Reported host error [] []
  | cons {h : SocketHandle} {handles : List SocketHandle} {standing : Standing}
      {hearings deeds : List (Deed S H)} (hh : ∀ deed ∈ hearings, deed.IsHearing host h)
      (rest : Reported host error handles deeds) :
      Reported host error (h :: handles)
        (.reported h standing (.io error) none :: hearings ++ deeds)

/-- The deed is a fault that comes of no event. -/
def Deed.isUnprompted : Deed S H → Bool
  | .reported _ _ _ none => true
  | _ => false

/-- Whatever is reported while leave is taken of a socket comes of one of its last events. -/
theorem Deed.IsParting.isUnprompted {handles : List SocketHandle} {deed : Deed S H}
    (hd : deed.IsParting host handles) : deed.isUnprompted = false := by
  have hlast : ∀ {h : SocketHandle} {kind : EventKind}, deed.IsLast host h kind →
      deed.isUnprompted = false := by
    intro h kind hd
    cases deed with
    | reported k standing error event =>
        obtain ⟨-, rfl⟩ := hd
        rfl
    | _ => rfl
  obtain ⟨h, -, rfl | hd | hd⟩ := hd
  · rfl
  · exact hlast hd
  · exact hlast hd

namespace Visit

section Lenient

variable (hl : host.Lenient) {v : Visit W S H P}

include hl

theorem hear_respects (link : Link H) (payload : Payload S) :
    Respects Eq (hear host link payload) fun _ => True := by
  rintro v _ rfl
  refine ⟨rfl, ?_, rfl⟩
  have hmild := hl.event v payload link
  rcases hr : v.askAbout host payload link with ⟨policy, r⟩
  rw [hr] at hmild
  simp only [hear, hr]
  revert hmild
  dsimp only
  rcases r.verdict with _ | _ | _ <;> exact id

theorem hearAll_respects (links : List (Link H)) :
    ∀ payload : Payload S, Respects Eq (hearAll host links payload) fun _ => True := by
  induction links with
  | nil => exact fun _ => respects_pure trivial
  | cons link links ih => exact fun payload => (hear_respects hl link payload).bind fun _ _ => ih _

theorem hearFaultAll_respects (error : SocketError) (event : Option EventKind)
    (links : List (Link H)) : Respects Eq (hearFaultAll host error event links) fun _ => True := by
  induction links with
  | nil => exact respects_pure trivial
  | cons link links ih =>
      have hone : Respects Eq (hearFault host link error event) fun _ => True := by
        rintro v _ rfl
        exact ⟨rfl, hl.fault v ⟨v.descriptor, error, event⟩ link, rfl⟩
      exact hone.bind fun _ _ => ih

variable (hv : v.session.stopping = true)

include hv

/-- While a run is wound down no stop is observed, so a last event fails the socket at most. -/
theorem dispatch_mild (payload : Payload S) :
    (dispatch host payload v).1.Mild fun _ => True := by
  obtain ⟨-, hmild, -⟩ := hearAll_respects hl v.links payload _ _
    (rfl : v.opened (fun h st => .raised h st payload) = _)
  obtain ⟨deeds, hh⟩ := hearAll_hears host v.links payload
    (v.opened fun h st => .raised h st payload)
  have hstop : (hearAll host v.links payload
      (v.opened fun h st => .raised h st payload)).2.session.stopDue = false := by
    rw [Session.stopDue, hh.advances.stopping]
    show (!v.session.stopping && _) = false
    rw [hv]
    rfl
  rw [dispatch_apply]
  dsimp only
  rw [hstop]
  exact mild_dispatchEnding hmild

theorem dispatchFault_done (error : SocketError) (event : Option EventKind) :
    (dispatchFault host error event v).1 = .done () := by
  obtain ⟨-, hmild, -⟩ := hearFaultAll_respects hl error event v.links _ _
    (rfl : v.opened (fun h st => .reported h st error event) = _)
  obtain ⟨deeds, hh⟩ := hearFaultAll_hears host error event v.links
    (v.opened fun h st => .reported h st error event)
  have hstop : (hearFaultAll host error event v.links
      (v.opened fun h st => .reported h st error event)).2.session.stopDue = false := by
    rw [Session.stopDue, hh.advances.stopping]
    show (!v.session.stopping && _) = false
    rw [hv]
    rfl
  rw [dispatchFault_apply]
  dsimp only
  rw [hstop]
  exact (mild_reportEnding hmild).done

/-- The failure in which a last event ends goes no further. -/
theorem notify_done (payload : Payload S) : (notify host payload v).1 = .done () := by
  have hmild := dispatch_mild hl hv payload
  obtain ⟨hearings, -, hadv, -⟩ := dispatch_advances host payload v
  rw [notify]
  rcases h : dispatch host payload v with ⟨p | (⟨error, event⟩ | halt) | _, t⟩
  all_goals rw [h] at hmild hadv
  · rw [bind_of_done (attempt_of_done h)]
    rfl
  · have hdone := dispatchFault_done hl (hadv.stopping.trans hv) error event
    rw [bind_of_done (attempt_of_cut h)]
    dsimp only
    rcases hf : dispatchFault host error event t with ⟨ending, t'⟩
    rw [hf] at hdone
    obtain rfl : ending = .done () := hdone
    rw [bind_of_done (attempt_of_done hf)]
    rfl
  · exact hmild.elim
  · exact hmild.elim

theorem takeLeave_done : (takeLeave host v).1 = .done () := by
  have hfarewell : (v.farewell host).1 = .done () ∧
      (v.farewell host).2.session.stopping = true := by
    unfold farewell
    split
    · obtain ⟨deeds, -, hadv, -⟩ := notify_deeds host .disconnected v
      exact ⟨notify_done hl hv .disconnected, hadv.stopping.trans hv⟩
    · exact ⟨rfl, hv⟩
  have hfinale : (v.finale host).1 = .done () :=
    notify_done hl (v := (v.farewell host).2.closed host) hfarewell.2 .finalize
  rw [takeLeave_apply (by rw [hfarewell.1]; simp), hfarewell.1, hfinale]
  rfl

theorem reportFailure_done (error : IoError) : (reportFailure host error v).1 = .done () := by
  have hdone := dispatchFault_done hl hv (.io error) none
  rw [reportFailure]
  rcases hf : dispatchFault host (.io error) none v with ⟨ending, t⟩
  rw [hf] at hdone
  obtain rfl : ending = .done () := hdone
  rw [bind_of_done (attempt_of_done hf)]
  rfl

end Lenient

end Visit

namespace Run

variable {r : Run W S H P}

section Lenient

variable (hl : host.Lenient)

include hl

theorem disconnect_done (hr : r.session.stopping = true) (h : SocketHandle) :
    (disconnect host h r).1 = .done () ∧ (disconnect host h r).2.session.stopping = true := by
  rcases hd : r.registry.get? h with _ | d
  · rw [disconnect_of_none hd]
    exact ⟨rfl, hr⟩
  · obtain ⟨deeds, hadv, -⟩ := disconnect_advances host hd
    refine ⟨?_, hadv.stopping.trans hr⟩
    rw [disconnect_of_some hd]
    exact Visit.takeLeave_done hl (v := ⟨d, r.session⟩) hr

theorem disconnectAll_done (handles : List SocketHandle) :
    ∀ {r : Run W S H P}, r.session.stopping = true →
      (disconnectAll host handles r).1 = .done () := by
  induction handles with
  | nil => exact fun _ => rfl
  | cons h rest ih =>
      intro r hr
      obtain ⟨hdone, hstopping⟩ := disconnect_done hl hr h
      rcases hx : disconnect host h r with ⟨ending, t⟩
      rw [hx] at hdone hstopping
      obtain rfl : ending = .done () := hdone
      rw [disconnectAll_cons rest hx (by simp), ih hstopping]
      rfl

theorem part_of_lenient (hr : r.session.stopping = true) :
    part host r = (.done (), (disconnectStage host r).2) := by
  have hdone : (disconnectStage host r).1 = .done () := disconnectAll_done hl _ hr
  rcases hs : disconnectStage host r with ⟨ending, t⟩
  rw [hs] at hdone
  obtain rfl : ending = .done () := hdone
  rw [part, bind_of_done (attempt_of_done hs)]
  rfl

/-- One socket is told that the selection has failed. -/
theorem reportFailure_reports (error : IoError) (hr : r.session.stopping = true)
    (hk : r.registry.Keyed) {h : SocketHandle} (hh : h ∈ r.registry.keys) :
    ∃ standing hearings t, visit h (Visit.reportFailure host error) r = (.done (), t) ∧
      (∀ deed ∈ hearings, deed.IsHearing host h) ∧
      t.session.journal =
        r.session.journal ++ .reported h standing (.io error) none :: hearings ∧
      t.session.stopping = true ∧ t.registry.Keyed ∧ t.registry.keys = r.registry.keys := by
  obtain ⟨d, hd⟩ := HandleMap.mem_keys.1 hh
  have hreports : r.Reports host (visit h (Visit.reportFailure host error) r).2 :=
    .reported error hd
  obtain ⟨hearings, hheard, hadv, -⟩ :=
    Visit.dispatchFault_advances host (.io error) none ⟨d, r.session⟩
  have hsession : (visit h (Visit.reportFailure host error) r).2.session =
      (Visit.dispatchFault host (.io error) none ⟨d, r.session⟩).2.session := by
    rw [visit_of_some _ hd]
    exact Visit.session_reportFailure error _
  obtain rfl : d.handle = h := hk h d hd
  refine ⟨d.standing, hearings, _, Prod.ext ?_ rfl, hheard, ?_, ?_, hreports.keyed hk,
    hreports.keys⟩
  · rw [visit_of_some _ hd]
    exact Visit.reportFailure_done hl (v := ⟨d, r.session⟩) hr error
  · rw [hsession]
    exact hadv.journal
  · rw [hsession]
    exact hadv.stopping.trans hr

/-- Each socket is told once, in order, and no other before it has been. -/
theorem reportSelectFailure_reports (error : IoError) (handles : List SocketHandle) :
    ∀ {r : Run W S H P}, r.session.stopping = true → r.registry.Keyed →
      (∀ h ∈ handles, h ∈ r.registry.keys) →
      ∃ t deeds, reportSelectFailure host error handles r = (.done (), t) ∧
        Reported host error handles deeds ∧
        t.session.journal = r.session.journal ++ deeds ∧ t.session.stopping = true ∧
        t.registry.keys = r.registry.keys := by
  induction handles with
  | nil => exact fun hr _ _ => ⟨_, [], rfl, .nil, (List.append_nil _).symm, hr, rfl⟩
  | cons h rest ih =>
      intro r hr hk hsub
      obtain ⟨standing, hearings, m, hx, hheard, hj, hm, hkm, hkeys⟩ :=
        reportFailure_reports hl error hr hk (hsub h List.mem_cons_self)
      obtain ⟨t, deeds, hx', hreported, hj', ht, hkeys'⟩ := ih hm hkm fun k hmem => by
        rw [hkeys]
        exact hsub k (List.mem_cons_of_mem _ hmem)
      refine ⟨t, .reported h standing (.io error) none :: hearings ++ deeds, ?_,
        .cons hheard hreported, ?_, ht, hkeys'.trans hkeys⟩
      · rw [← hx']
        exact bind_of_done hx
      · rw [hj', hj, List.append_assoc]

/-- When the selection has failed, the sockets are told of it one after the other, and then leave is
taken of each of them. -/
theorem windDown_selectFailed (hk : r.registry.Keyed) (error : IoError) :
    ∃ m t reports rest, windDown host (.selectFailed error) r = (.done (), t) ∧
      r.Moves host m ∧ m.session.journal = r.session.journal ++ reports ∧
      Reported host error r.registry.keys reports ∧
      m.Moves host t ∧ t.session.journal = m.session.journal ++ rest ∧
      (∀ h ∈ r.registry.keys, m.Parted host h rest) ∧
      ∀ deed ∈ rest, deed.isUnprompted = false := by
  obtain ⟨m, reports, hconclude, hreported, hj, hm, hkeys⟩ :=
    reportSelectFailure_reports hl error r.registry.keys (r := r.leavingOff) rfl hk
      fun _ hh => hh
  have hended : r.leavingOff.Ended (.selectFailed error) := ⟨hk, fun h => by cases h⟩
  have hx : conclude host (.selectFailed error) r.leavingOff = (.done (), m) := hconclude
  obtain ⟨hkm, hzero⟩ := (conclude_follows _).delivers_to hended hx
  have hmoves : r.Moves host m :=
    .head .leavingOff ((conclude_follows _).moves_to hended hx (by simp))
  have hend : (disconnectStage host m).1 ≠ .crashed := by
    rw [show (disconnectStage host m).1 = .done () from disconnectAll_done hl _ hm]
    simp
  obtain ⟨rest, hrest, hparting⟩ := disconnectAll_isParting hkm (finished_completed hkm) hend
  have hpart := part_of_lenient hl hm
  refine ⟨m, (disconnectStage host m).2, reports, rest, ?_, hmoves, hj, hreported,
    part_follows.moves_to ⟨hkm, hzero⟩ hpart (by simp), hrest, fun h hh => ?_,
    fun deed hd => (hparting deed hd).isUnprompted⟩
  · rw [windDown_apply, bind_of_done hx, hpart]
  · have hmem : h ∈ m.registry.keys := by
      rw [hkeys]
      exact hh
    obtain ⟨deeds, hj', hparted⟩ := disconnectStage_parts hkm hzero hmem hend
    obtain rfl : deeds = rest := List.append_cancel_left (hj'.symm.trans hrest)
    exact hparted

end Lenient

end Run

end Reactor
