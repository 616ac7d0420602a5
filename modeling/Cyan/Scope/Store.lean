/-
The store of scopes.

All scopes of a session are cells of one store.  A cell holds what is bound in its scope, and which
scopes it is nested in; that nesting is fixed when the scope is made.  Cells are only ever added.

`Store.release` empties a scope together with everything that is nested in the same root, the root
itself excepted.  Emptied scopes stay in use, with the nesting they had.

A `Heap` has the same operations, and gives up scopes that nothing holds on to.  It releases what stands
on a list that the scopes below a root share, where this store looks at the roots.  Through handles both
give the same (`Trace.run_get?_kept`).
-/
import Cyan.Scope.Bindings
import Cyan.Value.Inspected

namespace Cyan

/-- A scope: the scopes it is nested in, nearest first and the root last, and its own bindings. -/
structure Cell (Place : Type) where
  outer : List ScopeId := []
  bindings : Bindings (Value Place) := []
deriving Inhabited

structure Store (Place : Type) where
  cells : Array (Cell Place) := #[]
deriving Inhabited

namespace Store

variable {Place : Type}

/-- The number of scopes, which is the identity of the next one. -/
def size (st : Store Place) : Nat := st.cells.size

/-- The bindings of a scope.  A scope that was never made has none. -/
def bindings (st : Store Place) (id : ScopeId) : Bindings (Value Place) :=
  match st.cells[id]? with
  | some cell => cell.bindings
  | none => []

def outer (st : Store Place) (id : ScopeId) : List ScopeId :=
  match st.cells[id]? with
  | some cell => cell.outer
  | none => []

/-- The scopes a name is looked up in, nearest first. -/
def chain (st : Store Place) (id : ScopeId) : List ScopeId := id :: st.outer id

def root (st : Store Place) (id : ScopeId) : ScopeId := (st.outer id).getLastD id

def addRoot (st : Store Place) : ScopeId × Store Place :=
  (st.size, ⟨st.cells.push {}⟩)

def addChild (st : Store Place) (id : ScopeId) : ScopeId × Store Place :=
  let outer := st.chain id
  (st.size, ⟨st.cells.push { outer }⟩)

/-- What a name means in a scope: the nearest binding of it. -/
def get? (st : Store Place) (id : ScopeId) (name : String) : Option (Value Place) :=
  match (st.bindings id).get? name with
  | some v => some v
  | none => (st.outer id).findSome? fun id => (st.bindings id).get? name

/-- The store with a name bound in a scope, whatever it is bound to further out. -/
def set (st : Store Place) (id : ScopeId) (name : String) (v : Value Place) : Store Place :=
  ⟨st.cells.modify id fun cell => { cell with bindings := cell.bindings.set name v }⟩

/-- Whether releasing `id` empties the scope `other`, whose cell is given. -/
def isReleasedBy (st : Store Place) (id other : ScopeId) (cell : Cell Place) : Bool :=
  other = id || cell.outer.getLast? = some (st.root id)

/-- The store without the bindings of a scope and of all scopes nested in its root. -/
def release (st : Store Place) (id : ScopeId) : Store Place :=
  ⟨st.cells.mapIdx fun other cell =>
    if st.isReleasedBy id other cell then { cell with bindings := [] } else cell⟩

def addGlobal (st : Store Place) : ScopeId × Store Place :=
  let (id, st) := st.addRoot
  (id, Builtin.all.foldl (fun st b => st.set id b.name (.builtin b)) st)

/-- The full form of a scope that is nested in the scopes `outer`. -/
def inspectedIn (st : Store Place) (id : ScopeId) : List ScopeId → String
  | [] => form id "None"
  | parent :: outer => form id ("Some(" ++ st.inspectedIn parent outer ++ ")")
where
  /-- The names bound in a scope, with the full form of its parent. -/
  form (id : ScopeId) (parent : String) : String :=
    "Scope \x7b names: " ++ Value.bracketed ((st.bindings id).names.map Text.quoted) ++
      ", parent: " ++ parent ++ " \x7d"

/-- The full form of a scope: the names bound in it and in the scopes around it. -/
def inspected (st : Store Place) (id : ScopeId) : String := st.inspectedIn id (st.outer id)

/-! ## What each operation does to bindings and nesting -/

@[simp] theorem size_set (st : Store Place) (id : ScopeId) (name : String) (v : Value Place) :
    (st.set id name v).size = st.size := by
  simp [set, size]

@[simp] theorem size_addChild (st : Store Place) (id : ScopeId) :
    (st.addChild id).2.size = st.size + 1 := by
  simp [addChild, size]

@[simp] theorem size_release (st : Store Place) (id : ScopeId) :
    (st.release id).size = st.size := by
  simp [release, size]

@[simp] theorem outer_set (st : Store Place) (id : ScopeId) (name : String) (v : Value Place)
    (other : ScopeId) : (st.set id name v).outer other = st.outer other := by
  by_cases h : id = other
  · subst h
    simp only [outer, set, Array.getElem?_modify]
    cases st.cells[id]? <;> rfl
  · simp [outer, set, Array.getElem?_modify, h]

theorem bindings_set_self {st : Store Place} {id : ScopeId} (h : id < st.size) (name : String)
    (v : Value Place) : (st.set id name v).bindings id = (st.bindings id).set name v := by
  have hget : st.cells[id]? = some st.cells[id] := Array.getElem?_eq_getElem h
  simp [bindings, set, Array.getElem?_modify, hget]

theorem bindings_set_of_ne (st : Store Place) {id other : ScopeId} (h : other ≠ id)
    (name : String) (v : Value Place) :
    (st.set id name v).bindings other = st.bindings other := by
  simp [bindings, set, Array.getElem?_modify, Ne.symm h]

/-- What a name is bound to in a scope, after a binding has been set in some scope. -/
theorem get?_bindings_set (st : Store Place) (scope id : ScopeId) (name key : String)
    (v : Value Place) :
    ((st.set scope name v).bindings id).get? key =
      if id = scope ∧ id < st.size ∧ key = name then some v else (st.bindings id).get? key := by
  by_cases hid : id = scope
  · subst hid
    by_cases hlt : id < st.size
    · rw [bindings_set_self hlt]
      by_cases hkey : key = name
      · rw [if_pos ⟨rfl, hlt, hkey⟩, hkey, Bindings.get?_set_self]
      · rw [if_neg (fun h => hkey h.2.2), Bindings.get?_set_of_ne _ hkey]
    · have hnone : st.cells[id]? = none := Array.getElem?_eq_none (Nat.le_of_not_lt hlt)
      rw [if_neg (fun h => hlt h.2.1)]
      simp [bindings, set, Array.getElem?_modify, hnone]
  · rw [bindings_set_of_ne st hid, if_neg (fun h => hid h.1)]

/-- A binding is the one that was set, or was there before. -/
theorem bound_set {st : Store Place} {scope id : ScopeId} {name key : String} {v w : Value Place}
    (h : ((st.set scope name v).bindings id).get? key = some w) :
    id = scope ∧ w = v ∨ (st.bindings id).get? key = some w := by
  rw [get?_bindings_set] at h
  split at h
  · next hset => exact Or.inl ⟨hset.1, (Option.some.inj h).symm⟩
  · exact Or.inr h

/-- A new scope begins without bindings, and the others keep theirs. -/
@[simp] theorem bindings_addChild (st : Store Place) (id other : ScopeId) :
    (st.addChild id).2.bindings other = st.bindings other := by
  by_cases h : other = st.cells.size
  · subst h
    simp [bindings, addChild]
  · simp [bindings, addChild, Array.getElem?_push, h]

theorem outer_addChild_self (st : Store Place) (id : ScopeId) :
    (st.addChild id).2.outer st.size = st.chain id := by
  simp [outer, addChild, size]

theorem outer_addChild_of_ne (st : Store Place) (id : ScopeId) {other : ScopeId}
    (h : other ≠ st.size) : (st.addChild id).2.outer other = st.outer other := by
  have h : other ≠ st.cells.size := h
  simp [outer, addChild, Array.getElem?_push, h]

/-- Releasing empties what it covers and keeps all other bindings. -/
theorem bindings_release (st : Store Place) (id other : ScopeId) :
    (st.release id).bindings other =
      match st.cells[other]? with
      | some cell => if st.isReleasedBy id other cell then [] else cell.bindings
      | none => [] := by
  simp only [bindings, release, Array.getElem?_mapIdx]
  cases st.cells[other]? with
  | none => rfl
  | some cell =>
    simp only [Option.map_some]
    split <;> rfl

@[simp] theorem outer_release (st : Store Place) (id other : ScopeId) :
    (st.release id).outer other = st.outer other := by
  simp only [outer, release, Array.getElem?_mapIdx]
  cases st.cells[other]? with
  | none => rfl
  | some cell =>
    simp only [Option.map_some]
    split <;> rfl

end Store
end Cyan
