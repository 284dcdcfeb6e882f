import Reactor.Handle.Basic

/-! Finite maps whose keys are handles, kept in the order of the handles. -/

namespace Reactor

/-- A list of entries in strictly increasing order of their handles. -/
structure HandleMap (α : Type) where
  entries : List (SocketHandle × α)
  sorted : entries.Pairwise fun a b => a.1.number < b.1.number

namespace HandleMap

variable {α β : Type}

def empty : HandleMap α := ⟨[], .nil⟩

/-- Inserts an entry at its place, instead of the one with the same handle if there is one. -/
def insertEntry (h : SocketHandle) (a : α) : List (SocketHandle × α) → List (SocketHandle × α)
  | [] => [(h, a)]
  | e :: rest =>
      if h.number < e.1.number then (h, a) :: e :: rest
      else if e.1 = h then (h, a) :: rest
      else e :: insertEntry h a rest

theorem mem_insertEntry {h : SocketHandle} {a : α} {e : SocketHandle × α}
    {l : List (SocketHandle × α)} : e ∈ insertEntry h a l → e = (h, a) ∨ e ∈ l := by
  induction l with
  | nil => simp [insertEntry]
  | cons head tail ih =>
      rw [insertEntry]
      split
      · simp
      · split
        · simp only [List.mem_cons]
          rintro (he | he)
          · exact .inl he
          · exact .inr (.inr he)
        · simp only [List.mem_cons]
          rintro (he | he)
          · exact .inr (.inl he)
          · rcases ih he with h' | h'
            · exact .inl h'
            · exact .inr (.inr h')

theorem sorted_insertEntry (h : SocketHandle) (a : α) {l : List (SocketHandle × α)}
    (hl : l.Pairwise fun a b => a.1.number < b.1.number) :
    (insertEntry h a l).Pairwise fun a b => a.1.number < b.1.number := by
  induction l with
  | nil => simp [insertEntry]
  | cons head tail ih =>
      obtain ⟨hhead, htail⟩ := List.pairwise_cons.1 hl
      rw [insertEntry]
      split
      · rename_i hlt
        refine List.pairwise_cons.2 ⟨fun e he => ?_, hl⟩
        rcases List.mem_cons.1 he with rfl | he
        · exact hlt
        · exact Nat.lt_trans hlt (hhead e he)
      · rename_i hge
        split
        · rename_i heq
          refine List.pairwise_cons.2 ⟨fun e he => ?_, htail⟩
          rw [← heq]
          exact hhead e he
        · rename_i hne
          refine List.pairwise_cons.2 ⟨fun e he => ?_, ih htail⟩
          rcases mem_insertEntry he with rfl | he
          · have : head.1.number ≠ h.number := fun hn => hne (by
              cases hh : head.1
              cases h
              simp_all)
            show head.1.number < h.number
            omega
          · exact hhead e he

def insert (m : HandleMap α) (h : SocketHandle) (a : α) : HandleMap α :=
  ⟨insertEntry h a m.entries, sorted_insertEntry h a m.sorted⟩

def get? (m : HandleMap α) (h : SocketHandle) : Option α :=
  (m.entries.find? fun e => e.1 = h).map (·.2)

def contains (m : HandleMap α) (h : SocketHandle) : Bool := (m.get? h).isSome

def erase (m : HandleMap α) (h : SocketHandle) : HandleMap α :=
  ⟨m.entries.filter fun e => e.1 ≠ h, m.sorted.filter _⟩

def map (m : HandleMap α) (f : SocketHandle → α → β) : HandleMap β :=
  ⟨m.entries.map fun e => (e.1, f e.1 e.2), List.pairwise_map.2 m.sorted⟩

/-- Changes the values of entries one after the other, carrying a state along. -/
def traverseEntries {σ : Type} (f : σ → α → β × σ) :
    List (SocketHandle × α) → σ → List (SocketHandle × β) × σ
  | [], s => ([], s)
  | e :: rest, s =>
      let first := f s e.2
      let others := traverseEntries f rest first.2
      ((e.1, first.1) :: others.1, others.2)

theorem keys_traverseEntries {σ : Type} (f : σ → α → β × σ) (l : List (SocketHandle × α)) (s : σ) :
    (traverseEntries f l s).1.map (·.1) = l.map (·.1) := by
  induction l generalizing s with
  | nil => rfl
  | cons e rest ih => simp [traverseEntries, ih]

/-- Changes every value in the order of the handles, carrying a state along. -/
def traverse {σ : Type} (m : HandleMap α) (f : σ → α → β × σ) (s : σ) : HandleMap β × σ :=
  (⟨(traverseEntries f m.entries s).1, by
      have h : (m.entries.map Prod.fst).Pairwise fun a b => a.number < b.number :=
        List.pairwise_map.2 m.sorted
      rw [← keys_traverseEntries f m.entries s, List.pairwise_map] at h
      exact h⟩,
    (traverseEntries f m.entries s).2)

/-- Changes the value of a handle, if it has one. -/
def modify (m : HandleMap α) (h : SocketHandle) (f : α → α) : HandleMap α :=
  m.map fun k a => if k = h then f a else a

def keys (m : HandleMap α) : List SocketHandle := m.entries.map (·.1)

def values (m : HandleMap α) : List α := m.entries.map (·.2)

def size (m : HandleMap α) : Nat := m.entries.length

def isEmpty (m : HandleMap α) : Bool := m.entries.isEmpty

@[simp] theorem keys_map (m : HandleMap α) (f : SocketHandle → α → β) :
    (m.map f).keys = m.keys := by
  simp [keys, map]

@[simp] theorem keys_modify (m : HandleMap α) (h : SocketHandle) (f : α → α) :
    (m.modify h f).keys = m.keys := keys_map m _

@[simp] theorem keys_traverse {σ : Type} (m : HandleMap α) (f : σ → α → β × σ) (s : σ) :
    (m.traverse f s).1.keys = m.keys :=
  keys_traverseEntries f m.entries s

end HandleMap

end Reactor
