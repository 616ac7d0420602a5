/-
Scopes that go when nothing holds on to them.

What holds on to a scope are handles, the scopes made directly inside it, and the functions bound in
scopes that capture it.  `Handled.count` is how many of these there are.  A scope whose count falls to
zero is freed, and what it held on to is let go in its turn (`Handled.letGo`), so nothing is left of a
scope with the count zero (`Trace.run_forgets`).

All scopes with the same root share a list, their family, on which every scope is put when it is made
inside another.  Being on the list does not count.  When the list is full, the scopes of count zero are
struck off before it grows, and `Heap.release` empties those that are on it and still count.
-/
import Cyan.Scope.Store

namespace Cyan

variable {Place : Type}

/-! ## Families -/

/-- The scopes that have been made below a root, in a list with room for `capacity` of them. -/
structure Family where
  members : List ScopeId := []
  capacity : Nat := 0

namespace Family

/-- A list that is full gets twice the room. -/
def push (f : Family) (id : ScopeId) : Family where
  members := f.members ++ [id]
  capacity := if f.members.length = f.capacity then max 4 (2 * f.capacity) else f.capacity

/-- If the list is full, only the members that are held on to stay on it. -/
def prune (f : Family) (isHeld : ScopeId → Bool) : Family :=
  if f.members.length = f.capacity then { f with members := f.members.filter isHeld } else f

theorem mem_of_mem_prune {f : Family} {isHeld : ScopeId → Bool} {id : ScopeId}
    (h : id ∈ (f.prune isHeld).members) : id ∈ f.members := by
  rw [prune] at h
  split at h
  · exact (List.mem_filter.mp h).1
  · exact h

theorem mem_prune {f : Family} {isHeld : ScopeId → Bool} {id : ScopeId} (h : id ∈ f.members)
    (hid : isHeld id = true) : id ∈ (f.prune isHeld).members := by
  rw [prune]
  split
  · exact List.mem_filter.mpr ⟨h, hid⟩
  · exact h

end Family

/-! ## What holds on to a scope -/

namespace Store

/-- The scopes captured by what is bound in a scope. -/
def captured (st : Store Place) (id : ScopeId) : List ScopeId :=
  (st.bindings id).flatMap fun (_, v) => v.captured

/-- What a scope holds on to: its parent, and the scopes that its functions capture. -/
def references (st : Store Place) (id : ScopeId) : List ScopeId :=
  (st.outer id).head?.toList ++ st.captured id

/-- The store without a scope.  Its number is not given to another one. -/
def free (st : Store Place) (id : ScopeId) : Store Place := ⟨st.cells.setIfInBounds id {}⟩

/-- The store without the bindings of some scopes. -/
def clear (st : Store Place) (ids : List ScopeId) : Store Place :=
  ⟨st.cells.mapIdx fun id cell => if id ∈ ids then { cell with bindings := [] } else cell⟩

/-! ## Emptying and freeing -/

@[simp] theorem size_clear (st : Store Place) (ids : List ScopeId) :
    (st.clear ids).size = st.size := by
  simp [clear, size]

@[simp] theorem outer_clear (st : Store Place) (ids : List ScopeId) (id : ScopeId) :
    (st.clear ids).outer id = st.outer id := by
  simp only [outer, clear, Array.getElem?_mapIdx]
  cases st.cells[id]? with
  | none => rfl
  | some cell =>
    simp only [Option.map_some]
    split <;> rfl

theorem bindings_clear (st : Store Place) (ids : List ScopeId) (id : ScopeId) :
    (st.clear ids).bindings id = if id ∈ ids then [] else st.bindings id := by
  simp only [bindings, clear, Array.getElem?_mapIdx]
  cases st.cells[id]? with
  | none => simp
  | some cell =>
    simp only [Option.map_some]
    split <;> rfl

@[simp] theorem size_free (st : Store Place) (id : ScopeId) : (st.free id).size = st.size := by
  simp [free, size]

theorem outer_free (st : Store Place) (id other : ScopeId) :
    (st.free id).outer other = if other = id then [] else st.outer other := by
  by_cases h : other = id
  · subst h
    by_cases hlt : other < st.cells.size <;> simp [outer, free, hlt]
  · simp [outer, free, h, Array.getElem?_setIfInBounds_ne (Ne.symm h)]

theorem bindings_free (st : Store Place) (id other : ScopeId) :
    (st.free id).bindings other = if other = id then [] else st.bindings other := by
  by_cases h : other = id
  · subst h
    by_cases hlt : other < st.cells.size <;> simp [bindings, free, hlt]
  · simp [bindings, free, h, Array.getElem?_setIfInBounds_ne (Ne.symm h)]

theorem references_free (st : Store Place) (id other : ScopeId) :
    (st.free id).references other = if other = id then [] else st.references other := by
  rw [references, captured, outer_free, bindings_free]
  split <;> rfl

/-- A scope that was never made holds on to nothing. -/
theorem references_eq_nil {st : Store Place} {id : ScopeId} (h : st.size ≤ id) :
    st.references id = [] := by
  have hcell : st.cells[id]? = none := Array.getElem?_eq_none h
  simp [references, captured, outer, bindings, hcell]

theorem lt_of_mem_references {st : Store Place} {id other : ScopeId} (h : other ∈ st.references id) :
    id < st.size := by
  refine Nat.lt_of_not_le fun hle => ?_
  rw [references_eq_nil hle] at h
  cases h

/-- Of the first `n` scopes, the one that is freed holds on to nothing any more. -/
theorem length_flatMap_references_free (st : Store Place) (id n : Nat) :
    ((List.range n).flatMap (st.free id).references).length +
        (if id < n then (st.references id).length else 0) =
      ((List.range n).flatMap st.references).length := by
  induction n with
  | zero => simp
  | succ n ih =>
    simp only [List.range_succ, List.flatMap_append, List.length_append, List.flatMap_singleton,
      references_free]
    by_cases hn : n = id
    · subst hn
      simp only [Nat.lt_irrefl, if_false, Nat.add_zero] at ih
      simp [ih]
    · rw [if_neg hn]
      have hlt : id < n + 1 ↔ id < n := by omega
      simp only [hlt]
      omega

end Store

/-- A store, and numbered handles to its scopes.  One that has been dropped is to nothing. -/
structure Handled (Place : Type) where
  store : Store Place := {}
  handles : Array (Option ScopeId) := #[]

namespace Handled

/-- The scope that a handle is to. -/
def scope? (w : Handled Place) (h : Nat) : Option ScopeId := w.handles[h]?.join

theorem lt_of_scope? {w : Handled Place} {h : Nat} {id : ScopeId} (hid : w.scope? h = some id) :
    h < w.handles.size := by
  refine Nat.lt_of_not_le fun hle => ?_
  rw [scope?, Array.getElem?_eq_none hle] at hid
  cases hid

def held (w : Handled Place) : List ScopeId := w.handles.toList.filterMap id

def get? (w : Handled Place) (h : Nat) (name : String) : Option (Value Place) :=
  (w.scope? h).bind fun s => w.store.get? s name

/-- With one more handle. -/
def give (w : Handled Place) (s? : Option ScopeId) : Handled Place :=
  { w with handles := w.handles.push s? }

theorem scope?_give (w : Handled Place) (s? : Option ScopeId) (k : Nat) :
    (w.give s?).scope? k = if k = w.handles.size then s? else w.scope? k := by
  rw [scope?, give, Array.getElem?_push, scope?]
  split <;> rfl

/-! An operation through a handle that has been dropped does nothing, and the handle that it would give
out is to nothing. -/

/-- Gives out a handle to a new root. -/
def root (w : Handled Place) : Handled Place :=
  ⟨w.store.addRoot.2, w.handles.push (some w.store.size)⟩

/-- Gives out a handle to a new scope inside the scope of `h`. -/
def child (w : Handled Place) (h : Nat) : Handled Place :=
  match w.scope? h with
  | some s => ⟨(w.store.addChild s).2, w.handles.push (some w.store.size)⟩
  | none => w.give none

/-- Gives out another handle to the scope of `h`. -/
def clone (w : Handled Place) (h : Nat) : Handled Place := w.give (w.scope? h)

def drop (w : Handled Place) (h : Nat) : Handled Place :=
  { w with handles := w.handles.setIfInBounds h none }

theorem scope?_drop (w : Handled Place) (h k : Nat) :
    (w.drop h).scope? k = if k = h then none else w.scope? k := by
  rw [scope?, drop, scope?, Array.getElem?_setIfInBounds]
  by_cases hk : k = h
  · subst hk
    by_cases hlt : k < w.handles.size <;> simp [hlt]
  · rw [if_neg hk, if_neg (Ne.symm hk)]

def set (w : Handled Place) (h : Nat) (name : String) (v : Value Place) : Handled Place :=
  match w.scope? h with
  | some s => { w with store := w.store.set s name v }
  | none => w

/-- Gives out a handle to the scope that is captured by what a name means. -/
def get (w : Handled Place) (h : Nat) (name : String) : Handled Place :=
  w.give ((w.get? h name).bind (·.captured.head?))

/-! ## Counts -/

/-- What scopes hold on to, each as often as it is held on to. -/
def references (w : Handled Place) : List ScopeId :=
  (List.range w.store.size).flatMap w.store.references

/-- How often a scope is held on to.  A function counts with every binding of it. -/
def count (w : Handled Place) (id : ScopeId) : Nat := w.held.count id + w.references.count id

def isHeld (w : Handled Place) (id : ScopeId) : Bool := 0 < w.count id

def free (w : Handled Place) (id : ScopeId) : Handled Place := { w with store := w.store.free id }

/-- What a scope held on to is missing behind its freeing. -/
theorem length_references_free (w : Handled Place) (id : ScopeId) :
    (w.free id).references.length + (w.store.references id).length = w.references.length := by
  have hsum := w.store.length_flatMap_references_free id w.store.size
  rw [references, free, Store.size_free, references]
  by_cases hlt : id < w.store.size
  · rwa [if_pos hlt] at hsum
  · rw [if_neg hlt] at hsum
    rwa [Store.references_eq_nil (Nat.le_of_not_lt hlt)]

/-- Frees those of `ids` that nothing holds on to, and then what they held on to in the same way. -/
def letGo (w : Handled Place) : List ScopeId → Handled Place
  | [] => w
  | id :: ids =>
    if w.isHeld id then w.letGo ids else (w.free id).letGo (w.store.references id ++ ids)
termination_by ids => w.references.length + ids.length
decreasing_by
  · simp
  · have := w.length_references_free id
    simp only [List.length_append, List.length_cons]
    omega

end Handled

/-! ## Heaps -/

/-- Scopes with their handles, and the lists that the scopes share. -/
structure Heap (Place : Type) extends Handled Place where
  /-- A list for each root. -/
  families : Array Family := #[]
  /-- Which list a scope has. -/
  familyOf : Array Nat := #[]

namespace Heap

/-- The number of the list of a scope. -/
def family (heap : Heap Place) (id : ScopeId) : Nat := heap.familyOf[id]?.getD 0

/-- The scopes on a list. -/
def members (heap : Heap Place) (family : Nat) : List ScopeId :=
  (heap.families[family]?.getD {}).members

/-- A new root has a list of its own. -/
def root (heap : Heap Place) : Heap Place where
  toHandled := heap.toHandled.root
  families := heap.families.push {}
  familyOf := heap.familyOf.push heap.families.size

/-- A new scope has the list of its parent, and is put on it. -/
def child (heap : Heap Place) (h : Nat) : Heap Place :=
  let made := heap.toHandled.child h
  match heap.scope? h with
  | some s =>
    { toHandled := made
      families := heap.families.modify (heap.family s) fun f =>
        (f.prune made.isHeld).push heap.store.size
      familyOf := heap.familyOf.push (heap.family s) }
  | none => { heap with toHandled := made }

theorem toHandled_child (heap : Heap Place) (h : Nat) :
    (heap.child h).toHandled = heap.toHandled.child h := by
  rw [child]
  split <;> rfl

def clone (heap : Heap Place) (h : Nat) : Heap Place :=
  { heap with toHandled := heap.toHandled.clone h }

def drop (heap : Heap Place) (h : Nat) : Heap Place :=
  { heap with toHandled := (heap.toHandled.drop h).letGo (heap.scope? h).toList }

/-- Binds a name.  What the name was bound to in the scope is let go. -/
def set (heap : Heap Place) (h : Nat) (name : String) (v : Value Place) : Heap Place :=
  let previous := (heap.scope? h).bind fun s => (heap.store.bindings s).get? name
  { heap with toHandled := (heap.toHandled.set h name v).letGo (previous.elim [] Value.captured) }

def get (heap : Heap Place) (h : Nat) (name : String) : Heap Place :=
  { heap with toHandled := heap.toHandled.get h name }

/-- Takes the bindings from the scope of `h` and from all scopes on its list that are still held on
to, and lets them go. -/
def release (heap : Heap Place) (h : Nat) : Heap Place :=
  match heap.scope? h with
  | some s =>
    let emptied := (heap.members (heap.family s)).filter heap.isHeld ++ [s]
    let cleared : Handled Place := { heap with store := heap.store.clear emptied }
    { heap with toHandled := cleared.letGo (emptied.flatMap heap.store.captured) }
  | none => heap

/-- Gives out a handle to a new root in which the built-in functions are bound. -/
def global (heap : Heap Place) : Heap Place :=
  Builtin.all.foldl (fun made b => made.set heap.handles.size b.name (.builtin b)) heap.root

end Heap
end Cyan
