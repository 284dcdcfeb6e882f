import Reactor.Executor
import Reactor.Proofs.Run.Ownership

/-! The executors that can come about, and what holds of them between their runs. -/

namespace Reactor.Executor

variable {W S H P : Type}

/-- An executor that can come about by calls of its operations. Handles may meanwhile be given out
elsewhere too. -/
inductive Reachable (W : Type) {S H P : Type} : Executor S H P → Prop where
  | new {config : ExecutorConfig} {admission : Admission P} {nextHandle : SocketHandle}
      {e : Executor S H P} (he : Executor.new config admission nextHandle = .ok e) : Reachable W e
  | register {e : Executor S H P} (h : Reachable W e) (socket : S) (operation : Operation)
      (metadata : Metadata) : Reachable W (e.register socket operation metadata).2
  | deregister {e e' : Executor S H P} {k : SocketHandle} {socket : S} (h : Reachable W e)
      (he : e.deregister k = .ok (socket, e')) : Reachable W e'
  | setOperation {e e' : Executor S H P} {k : SocketHandle} {operation : Operation}
      (h : Reachable W e) (he : e.setOperation k operation = .ok e') : Reachable W e'
  | setSocketHandler {e e' : Executor S H P} {k : SocketHandle} {handler : H}
      (h : Reachable W e) (he : e.setSocketHandler k handler = .ok e') : Reachable W e'
  | addHandler {e : Executor S H P} (h : Reachable W e) (handler : H) :
      Reachable W (e.addHandler handler)
  | setAdmission {e e' : Executor S H P} {admission : Admission P} (h : Reachable W e)
      (he : e.setAdmission admission = .ok e') : Reachable W e'
  | requestStop {e e' : Executor S H P} (h : Reachable W e) (he : e.requestStop = .ok e') :
      Reachable W e'
  | supplied {e : Executor S H P} (h : Reachable W e) {next : SocketHandle}
      (hn : e.nextHandle.number ≤ next.number) : Reachable W { e with nextHandle := next }
  | executed {e : Executor S H P} (h : Reachable W e) (host : Host W S H P) (fuel : Nat)
      (context : ExecutionContext) (world : W)
      (hf : (e.execute host fuel context world).ending ≠ .cut .unfinished) :
      Reachable W (e.execute host fuel context world).executor

/-- What holds of an executor that is not executing. -/
structure Sound (e : Executor S H P) : Prop where
  keyed : e.registry.Keyed
  supply : ∀ h ∈ e.registry.keys, h.number < e.nextHandle.number
  changes : e.changes = []
  waiting : ∀ h d, e.registry.get? h = some d → d.running = false

/-- The state in which a run begins. -/
def started (e : Executor S H P) (context : ExecutionContext) (world : W) : Run W S H P :=
  { e with control := ⟨true, false⟩ }.beginning context world

/-- How an execution ends, given how its run has ended. -/
def outcome : Ending RunFailure Unit → Ending ExecuteFailure Unit
  | .done () => .done ()
  | .cut (.fatal text) => .cut (.error (.handler (.fatal text)))
  | .cut .unfinished => .cut .unfinished
  | .crashed => .crashed

theorem done_of_outcome {ending : Ending RunFailure Unit} (h : outcome ending = .done ()) :
    ending = .done () := by
  rcases ending with _ | (_ | _) | _
  · rfl
  all_goals cases h

theorem fatal_of_outcome {ending : Ending RunFailure Unit} {text : String}
    (h : outcome ending = .cut (.error (.handler (.fatal text)))) :
    ending = .cut (.fatal text) := by
  rcases ending with _ | (_ | _) | _
  all_goals cases h
  rfl

def afterwards (e : Executor S H P) (r : Run W S H P) : Ending RunFailure Unit → Executor S H P
  | .done () | .cut (.fatal _) => { e.after r with control := .idle }
  | .cut .unfinished | .crashed => e.after r

theorem registry_afterwards (e : Executor S H P) (r : Run W S H P)
    (ending : Ending RunFailure Unit) : (e.afterwards r ending).registry = r.registry := by
  rcases ending with _ | (text | _) | _ <;> rfl

theorem changes_afterwards (e : Executor S H P) (r : Run W S H P)
    (ending : Ending RunFailure Unit) :
    (e.afterwards r ending).changes = r.session.context.changes := by
  rcases ending with _ | (text | _) | _ <;> rfl

/-- The run has come to an end of its own. -/
def Returned {α ε : Type} (ending : Ending ε α) (unfinished : ε) : Prop :=
  ending ≠ .cut unfinished ∧ ending ≠ .crashed

section Execute

variable {e : Executor S H P} (host : Host W S H P) (fuel : Nat) (context : ExecutionContext)
  (world : W)

/-- What an executor that is not executing makes of a run. -/
theorem execute_apply (he : e.control.executing = false) :
    e.execute host fuel context world =
      let x := Run.perform host e.config fuel (e.started context world)
      ⟨outcome x.1, e.afterwards x.2 x.1, x.2.session.context.context, x.2.session.world,
        x.2.session.journal⟩ := by
  have hbegin : e.control.beginRun = (true, ⟨true, false⟩) := by
    simp [RunControl.beginRun, he]
  rcases hx : Run.perform host e.config fuel (e.started context world)
    with ⟨_ | (text | _) | _, r⟩
  all_goals
    have hx' : Run.perform host e.config fuel
      (beginning { e with control := ⟨true, false⟩ } context world) = _ := hx
    simp only [execute, hbegin, hx', ite_true]
    rfl

theorem execute_executing (he : e.control.executing = true) :
    e.execute host fuel context world =
      ⟨.cut (.error .alreadyRunning), e, context, world, []⟩ := by
  have hbegin : e.control.beginRun = (false, e.control) := by
    simp [RunControl.beginRun, he]
  simp only [execute, hbegin, Bool.false_eq_true, ite_false]

/-- A run that an executor begins is accounted for from its first moment on. -/
theorem Sound.accounted (hs : e.Sound) :
    (Run.startPolicy host (e.started context world)).Accounted
      (Run.startPolicy host (e.started context world)) where
  keyed := hs.keyed
  balance h := by
    have hissued : ∀ n, issued n n h = 0 := fun n => by
      unfold issued
      split <;> omega
    have hchanges : (Run.startPolicy host (e.started context world)).session.context.changes = [] :=
      hs.changes
    rw [hchanges, hissued]
    simp [Run.startPolicy, started, beginning, Session.note, closings, Deed.closes, enrolling]
  supply := by
    simp [Run.startPolicy, started, beginning, Session.note, requested, Deed.requests]
  executing := rfl
  unmarked := ⟨[], by simp, by simp⟩

/-- Every run goes by moves, and its books are kept until its end. -/
theorem Sound.ends (hs : e.Sound) :
    ∃ last, (Run.startPolicy host (e.started context world)).Moves host last ∧
      (Run.startPolicy host (e.started context world)).Accounted last ∧
      last.Ends host (Run.perform host e.config fuel (e.started context world)).1
        (Run.perform host e.config fuel (e.started context world)).2 := by
  obtain ⟨last, hm, hend⟩ := Run.perform_ends host e.config fuel
    (r := e.started context world) hs.keyed
  exact ⟨last, hm, (hs.accounted host context world).moves hs.supply hm, hend⟩

theorem Sound.settled (hs : e.Sound) (he : e.control.executing = false)
    (hr : Returned (e.execute host fuel context world).ending .unfinished) :
    (Run.startPolicy host (e.started context world)).Settled
        (Run.perform host e.config fuel (e.started context world)).2 ∧
      (e.execute host fuel context world).executor.control = .idle := by
  obtain ⟨last, -, ha, hend⟩ := hs.ends host fuel context world
  rw [execute_apply host fuel context world he] at hr ⊢
  revert hend hr
  rcases Run.perform host e.config fuel (e.started context world) with ⟨_ | (text | _) | _, r⟩
  · exact fun _ hend => ⟨ha.settled hend (by simp) (by simp), rfl⟩
  · exact fun _ hend => ⟨ha.settled hend (by simp) (by simp), rfl⟩
  · exact fun hr _ => absurd rfl hr.1
  · exact fun hr _ => absurd rfl hr.2

/-- A crash leaves the executor executing. -/
theorem Sound.crashed (hs : e.Sound) (he : e.control.executing = false)
    (hc : (e.execute host fuel context world).ending = .crashed) :
    (e.execute host fuel context world).executor.control.executing = true := by
  obtain ⟨last, -, ha, hend⟩ := hs.ends host fuel context world
  rw [execute_apply host fuel context world he] at hc ⊢
  revert hend hc
  rcases Run.perform host e.config fuel (e.started context world) with ⟨_ | (text | _) | _, r⟩
  · exact fun hc _ => by cases hc
  · exact fun hc _ => by cases hc
  · exact fun hc _ => by cases hc
  · intro _ hend
    cases hend with
    | crashed => exact ha.executing
    | abandoned h =>
        obtain ⟨hd, -⟩ := h
        obtain ⟨deeds, hadv, -⟩ := Run.disconnect_advances host hd
        exact hadv.executing.trans ha.executing

end Execute

section Report

variable {e : Executor S H P} {host : Host W S H P} (he : e.control.executing = false) (fuel : Nat)
  (context : ExecutionContext) (world : W)

include he

theorem journal_execute : (e.execute host fuel context world).journal =
    (Run.perform host e.config fuel (e.started context world)).2.session.journal := by
  rw [execute_apply host fuel context world he]

theorem ending_execute : (e.execute host fuel context world).ending =
    outcome (Run.perform host e.config fuel (e.started context world)).1 := by
  rw [execute_apply host fuel context world he]

end Report

theorem Sound.of_empty {e : Executor S H P} (hr : e.registry = .empty) (hc : e.changes = []) :
    e.Sound := by
  refine ⟨fun h d hd => ?_, fun h hh => ?_, hc, fun h d hd => ?_⟩
  · rw [hr] at hd
    cases hd
  · rw [hr] at hh
    cases hh
  · rw [hr] at hd
    cases hd

theorem update_eq {e e' : Executor S H P} {k : SocketHandle}
    {f : Descriptor S H → Descriptor S H} (he : e.update k f = .ok e') :
    e' = { e with registry := HandleMap.modify e.registry k f } := by
  simp only [update, Registry.update] at he
  rcases hk : HandleMap.get? e.registry k with _ | d
  all_goals rw [hk] at he
  all_goals cases he
  rfl

theorem Sound.update {e e' : Executor S H P} (hs : e.Sound) {k : SocketHandle}
    {f : Descriptor S H → Descriptor S H} (he : e.update k f = .ok e')
    (hf : ∀ d : Descriptor S H, (f d).handle = d.handle ∧ (f d).running = d.running) :
    e'.Sound := by
  rw [update_eq he]
  have hget : ∀ h d', HandleMap.get? (HandleMap.modify e.registry k f) h = some d' →
      ∃ d, HandleMap.get? e.registry h = some d ∧ d'.handle = d.handle ∧
        d'.running = d.running := by
    intro h d' hd'
    rw [HandleMap.get?_modify] at hd'
    split at hd'
    · obtain ⟨d, hd, rfl⟩ := Option.map_eq_some_iff.1 hd'
      exact ⟨d, hd, hf d⟩
    · exact ⟨d', hd', rfl, rfl⟩
  refine ⟨fun h d' hd' => ?_, fun h hh => ?_, hs.changes, fun h d' hd' => ?_⟩
  · obtain ⟨d, hd, hhandle, -⟩ := hget h d' hd'
    exact hhandle.trans (hs.keyed h d hd)
  · rw [HandleMap.keys_modify] at hh
    exact hs.supply h hh
  · obtain ⟨d, hd, -, hrun⟩ := hget h d' hd'
    exact hrun.trans (hs.waiting h d hd)

theorem Sound.register {e : Executor S H P} (hs : e.Sound) (socket : S) (operation : Operation)
    (metadata : Metadata) : (e.register socket operation metadata).2.Sound := by
  have hnew : HandleMap.get? e.registry e.nextHandle = none := by
    rw [HandleMap.get?_eq_none]
    intro hmem
    exact Nat.lt_irrefl _ (hs.supply _ hmem)
  have hreg : (e.register socket operation metadata).2.registry =
      HandleMap.insert e.registry e.nextHandle (.new e.nextHandle socket operation metadata) := by
    simp only [Executor.register, Registry.enroll, Descriptor.new, hnew]
  have hget : ∀ h d, (e.register socket operation metadata).2.registry.get? h = some d →
      (h = e.nextHandle ∧ d = .new e.nextHandle socket operation metadata) ∨
        e.registry.get? h = some d := by
    intro h d hd
    rw [hreg, HandleMap.get?_insert hnew] at hd
    split at hd
    · rename_i heq
      exact .inl ⟨heq, (Option.some.inj hd).symm⟩
    · exact .inr hd
  refine ⟨fun h d hd => ?_, fun h hh => ?_, hs.changes, fun h d hd => ?_⟩
  · rcases hget h d hd with ⟨rfl, rfl⟩ | hd
    · rfl
    · exact hs.keyed h d hd
  · have hlt : h.number < e.nextHandle.number + 1 := by
      obtain ⟨d, hd⟩ := HandleMap.mem_keys.1 hh
      rcases hget h d hd with ⟨rfl, rfl⟩ | hd
      · exact Nat.lt_succ_self _
      · exact Nat.lt_succ_of_lt (hs.supply h (HandleMap.mem_keys.2 ⟨d, hd⟩))
    exact hlt
  · rcases hget h d hd with ⟨rfl, rfl⟩ | hd
    · rfl
    · exact hs.waiting h d hd

theorem deregister_eq {e e' : Executor S H P} {k : SocketHandle} {socket : S}
    (he : e.deregister k = .ok (socket, e')) :
    e' = { e with registry := HandleMap.erase e.registry k } := by
  simp only [deregister, Registry.require] at he
  rcases hk : HandleMap.get? e.registry k with _ | d
  all_goals rw [hk] at he
  all_goals cases he
  rfl

theorem Sound.deregister {e e' : Executor S H P} (hs : e.Sound) {k : SocketHandle} {socket : S}
    (he : e.deregister k = .ok (socket, e')) : e'.Sound := by
  have hget : ∀ h d, HandleMap.get? (HandleMap.erase e.registry k) h = some d →
      e.registry.get? h = some d := by
    intro h d hd
    rw [HandleMap.get?_erase] at hd
    split at hd
    · cases hd
    · exact hd
  rw [deregister_eq he]
  refine ⟨fun h d hd => hs.keyed h d (hget h d hd), fun h hh => ?_, hs.changes,
    fun h d hd => hs.waiting h d (hget h d hd)⟩
  obtain ⟨d, hd⟩ := HandleMap.mem_keys.1 hh
  exact hs.supply h (HandleMap.mem_keys.2 ⟨d, hget h d hd⟩)

/-- A stop can be asked for only while a run is going on. -/
theorem executing_requestStop {e e' : Executor S H P} (he : e.requestStop = .ok e') :
    e'.control.executing = true := by
  unfold Executor.requestStop at he
  cases hc : e.control.executing with
  | true =>
      rw [if_pos (by simp [RunControl.requestStop, hc])] at he
      cases he
      simp [RunControl.requestStop, hc]
  | false =>
      rw [if_neg (by simp [RunControl.requestStop, hc])] at he
      cases he

/-- An execution that leaves the executor idle has not begun or has left nothing behind. -/
theorem execute_idle {e : Executor S H P} (host : Host W S H P) (fuel : Nat)
    (context : ExecutionContext) (world : W) (hs : e.control.executing = false → e.Sound)
    (hf : (e.execute host fuel context world).ending ≠ .cut .unfinished)
    (hidle : (e.execute host fuel context world).executor.control.executing = false) :
    (e.execute host fuel context world).executor = e ∨
      (e.execute host fuel context world).executor.registry = .empty ∧
        (e.execute host fuel context world).executor.changes = [] := by
  cases hc : e.control.executing with
  | true =>
      rw [execute_executing host fuel context world hc]
      exact .inl rfl
  | false =>
      by_cases hcrash : (e.execute host fuel context world).ending = .crashed
      · rw [(hs hc).crashed host fuel context world hc hcrash] at hidle
        cases hidle
      obtain ⟨hsettled, -⟩ := (hs hc).settled host fuel context world hc ⟨hf, hcrash⟩
      rw [execute_apply host fuel context world hc]
      exact .inr ⟨(registry_afterwards _ _ _).trans hsettled.registry,
        (changes_afterwards _ _ _).trans hsettled.changes⟩

/-- What holds of every executor that can come about, as long as it is not executing. -/
theorem Reachable.sound {e : Executor S H P} (h : Reachable W e)
    (hidle : e.control.executing = false) : e.Sound := by
  induction h with
  | new he =>
      unfold Executor.new at he
      split at he
      · cases he
      · cases he
        exact .of_empty rfl rfl
  | register _ socket operation metadata ih => exact (ih hidle).register socket operation metadata
  | deregister _ he ih =>
      have hc := hidle
      rw [deregister_eq he] at hc
      exact (ih hc).deregister he
  | setOperation _ he ih =>
      have hc := hidle
      rw [update_eq he] at hc
      exact (ih hc).update he fun d => ⟨rfl, rfl⟩
  | setSocketHandler _ he ih =>
      have hc := hidle
      rw [update_eq he] at hc
      exact (ih hc).update he fun d => ⟨rfl, rfl⟩
  | addHandler _ handler ih =>
      have hs := ih hidle
      exact ⟨hs.keyed, hs.supply, hs.changes, hs.waiting⟩
  | setAdmission _ he ih =>
      unfold Executor.setAdmission at he
      split at he
      · cases he
      · cases he
        have hs := ih hidle
        exact ⟨hs.keyed, hs.supply, hs.changes, hs.waiting⟩
  | requestStop _ he =>
      rw [executing_requestStop he] at hidle
      cases hidle
  | supplied _ hn ih =>
      have hs := ih hidle
      exact ⟨hs.keyed, fun h hh => Nat.lt_of_lt_of_le (hs.supply h hh) hn, hs.changes, hs.waiting⟩
  | executed _ host fuel context world hf ih =>
      rcases execute_idle host fuel context world ih hf hidle with hsame | hempty
      · rw [hsame] at hidle ⊢
        exact ih hidle
      · exact .of_empty hempty.1 hempty.2

/-- What holds of a descriptor when it is registered, and still does when it is given another
operation or a handler of its own, holds of it until a run begins. -/
theorem Reachable.keeps {I : Descriptor S H → Prop}
    (hnew : ∀ k socket operation metadata, I (.new k socket operation metadata))
    (hset : ∀ d operation, I d → I (d.setOperation operation))
    (hown : ∀ (d : Descriptor S H) handler, I d → I { d with handler := some handler })
    {e : Executor S H P} (h : Reachable W e) (hidle : e.control.executing = false) :
    ∀ k d, e.registry.get? k = some d → I d := by
  have hupdate : ∀ {e e' : Executor S H P} {k : SocketHandle} {f : Descriptor S H → Descriptor S H},
      e.update k f = .ok e' → (∀ d, I d → I (f d)) →
        (∀ k d, e.registry.get? k = some d → I d) → ∀ k d, e'.registry.get? k = some d → I d := by
    intro e e' k f he hf ih j d' hd'
    rw [update_eq he, HandleMap.get?_modify] at hd'
    split at hd'
    · obtain ⟨d, hd, rfl⟩ := Option.map_eq_some_iff.1 hd'
      exact hf d (ih j d hd)
    · exact ih j d' hd'
  induction h with
  | new he =>
      unfold Executor.new at he
      split at he
      · cases he
      · cases he
        exact fun k d hd => by cases hd
  | @register e hr socket operation metadata ih =>
      intro k d hd
      have hnone : HandleMap.get? e.registry e.nextHandle = none := by
        rw [HandleMap.get?_eq_none]
        exact fun hmem => Nat.lt_irrefl _ ((hr.sound hidle).supply _ hmem)
      simp only [Executor.register, Registry.enroll, Descriptor.new, hnone] at hd
      rw [HandleMap.get?_insert hnone] at hd
      split at hd
      · cases hd
        exact hnew _ _ _ _
      · exact ih hidle k d hd
  | deregister _ he ih =>
      rw [deregister_eq he] at hidle ⊢
      intro k d hd
      rw [HandleMap.get?_erase] at hd
      split at hd
      · cases hd
      · exact ih hidle k d hd
  | setOperation _ he ih =>
      have hc := hidle
      rw [update_eq he] at hc
      exact hupdate he (fun d => hset d _) (ih hc)
  | setSocketHandler _ he ih =>
      have hc := hidle
      rw [update_eq he] at hc
      exact hupdate he (fun d => hown d _) (ih hc)
  | addHandler _ handler ih => exact ih hidle
  | setAdmission _ he ih =>
      unfold Executor.setAdmission at he
      split at he
      · cases he
      · cases he
        exact ih hidle
  | requestStop _ he =>
      rw [executing_requestStop he] at hidle
      cases hidle
  | supplied _ hn ih => exact ih hidle
  | executed hr host fuel context world hf ih =>
      rcases execute_idle host fuel context world hr.sound hf hidle with hsame | hempty
      · rw [hsame] at hidle ⊢
        exact ih hidle
      · intro k d hd
        rw [hempty.1] at hd
        cases hd

end Reactor.Executor
