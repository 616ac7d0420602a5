/-
A name that is not mentioned.

`Store.AgreeBut hidden` relates stores that bind the same in the same scopes, but for one name: what
`hidden` is bound to in a scope, and whether it is bound there at all, is left open.  Looking up any other
name gives the same in both (`AgreeBut.get?_found`), and binding `hidden` in one of them alone keeps them
related (`AgreeBut.hide`).

Whether `hidden` is looked up is up to the functions in the store as well, since what is bound may be
called.  `Store.Veils hidden` adds that none of them mentions it, which lasts while no function is bound
that does.
-/
import Cyan.Proofs.Grammar.Identifiers
import Cyan.Proofs.Scope.Confined

namespace Cyan

variable {Place : Type} {hidden : String}

namespace Expr

/-- The name does not stand anywhere in the expression. -/
def Avoids (name : String) (e : Expr Place) : Prop := ∀ node ∈ e.nodes, name ∉ node.names

theorem Avoids.not_mem {name : String} {e : Expr Place} (h : e.Avoids name) : name ∉ e.names :=
  h e e.mem_nodes_self

theorem Avoids.child {name : String} {e part : Expr Place} (h : e.Avoids name)
    (hpart : part ∈ e.children) : part.Avoids name :=
  fun node hnode => h node (mem_nodes_of_child hpart hnode)

/-- No program mentions the name that stands for functions without names. -/
theorem ofSource?_avoids {source : Source} {program : Expr Span}
    (h : Expr.ofSource? source = .ok program) : program.Avoids anonymousName :=
  fun node hnode hname => (Expr.ofSource?_names h node hnode anonymousName hname).ne_anonymous rfl

end Expr

/-- The same value, which is no function that mentions the name. -/
def Value.Same (hidden : String) (v v' : Value Place) : Prop :=
  v = v' ∧ v.Confined 0 (Expr.Avoids hidden)

namespace Value.Same

theorem of_ne {v : Value Place} (h : ∀ f, v ≠ .function f) : v.Same hidden v := ⟨rfl, .of_ne h⟩

theorem forall₂ {values values' : List (Value Place)} (h : List.Forall₂ (Same hidden) values values') :
    values = values' ∧ ∀ v ∈ values, v.Confined 0 (Expr.Avoids hidden) := by
  induction h with
  | nil => exact ⟨rfl, fun _ hv => nomatch hv⟩
  | cons hv _ ih =>
    obtain ⟨rfl, hv⟩ := hv
    obtain ⟨rfl, hrest⟩ := ih
    exact ⟨rfl, List.forall_mem_cons.mpr ⟨hv, hrest⟩⟩

end Value.Same

namespace Store

variable {st st' : Store Place}

/-- Stores with the same scopes, nested in the same way, that bind all names but `hidden` to the same
values. -/
structure AgreeBut (hidden : String) (st st' : Store Place) : Prop where
  size_eq : st.size = st'.size
  outer_eq : ∀ id, st.outer id = st'.outer id
  get?_eq : ∀ id name, name ≠ hidden → (st.bindings id).get? name = (st'.bindings id).get? name

namespace AgreeBut

theorem refl (st : Store Place) : AgreeBut hidden st st := ⟨rfl, fun _ => rfl, fun _ _ _ => rfl⟩

/-- Every other name means the same in both stores. -/
theorem get?_found (h : AgreeBut hidden st st') (id : ScopeId) {name : String} (hname : name ≠ hidden) :
    st.get? id name = st'.get? id name := by
  have hbound : (fun id => (st.bindings id).get? name) = fun id => (st'.bindings id).get? name :=
    funext fun id => h.get?_eq id name hname
  rw [Store.get?, Store.get?, h.get?_eq id name hname, h.outer_eq id, hbound]

theorem set (h : AgreeBut hidden st st') (id : ScopeId) (name : String) (v : Value Place) :
    AgreeBut hidden (st.set id name v) (st'.set id name v) where
  size_eq := by rw [size_set, size_set, h.size_eq]
  outer_eq other := by rw [outer_set, outer_set, h.outer_eq]
  get?_eq other key hkey := by
    rw [get?_bindings_set, get?_bindings_set, h.size_eq, h.get?_eq other key hkey]

theorem foldl_set (h : AgreeBut hidden st st') (id : ScopeId) (named : List (String × Value Place)) :
    AgreeBut hidden (named.foldl (fun st (name, v) => st.set id name v) st)
      (named.foldl (fun st (name, v) => st.set id name v) st') := by
  induction named generalizing st st' with
  | nil => exact h
  | cons entry rest ih => exact ih (h.set id entry.1 entry.2)

/-- One of the stores may bind the name by itself. -/
theorem hide (h : AgreeBut hidden st st') (id : ScopeId) (v : Value Place) :
    AgreeBut hidden (st.set id hidden v) st' where
  size_eq := by rw [size_set, h.size_eq]
  outer_eq other := by rw [outer_set, h.outer_eq]
  get?_eq other key hkey := by
    rw [get?_bindings_set, if_neg fun hset => hkey hset.2.2, h.get?_eq other key hkey]

theorem addChild (h : AgreeBut hidden st st') (parent : ScopeId) :
    AgreeBut hidden (st.addChild parent).2 (st'.addChild parent).2 where
  size_eq := by rw [size_addChild, size_addChild, h.size_eq]
  outer_eq id := by
    rw [outer_addChild, outer_addChild, chain, chain, h.size_eq, h.outer_eq, h.outer_eq]
  get?_eq id name hname := by rw [bindings_addChild, bindings_addChild, h.get?_eq id name hname]

theorem addRoot (h : AgreeBut hidden st st') : AgreeBut hidden st.addRoot.2 st'.addRoot.2 where
  size_eq := by rw [size_addRoot, size_addRoot, h.size_eq]
  outer_eq id := by rw [outer_addRoot, outer_addRoot, h.size_eq, h.outer_eq]
  get?_eq id name hname := by rw [bindings_addRoot, bindings_addRoot, h.get?_eq id name hname]

theorem addGlobal (h : AgreeBut hidden st st') : AgreeBut hidden st.addGlobal.2 st'.addGlobal.2 := by
  rw [addGlobal_eq, addGlobal_eq, h.size_eq]
  exact h.addRoot.foldl_set st'.size _

theorem release (h : AgreeBut hidden st st') (id : ScopeId) :
    AgreeBut hidden (st.release id) (st'.release id) where
  size_eq := by rw [size_release, size_release, h.size_eq]
  outer_eq other := by rw [outer_release, outer_release, h.outer_eq]
  get?_eq other name hname := by
    rw [bindings_release_eq, bindings_release_eq, root, root, h.outer_eq, h.outer_eq]
    split
    · rfl
    · exact h.get?_eq other name hname

end AgreeBut

/-- Stores that agree but for a name that no function bound in the first one mentions. -/
structure Veils (hidden : String) (st st' : Store Place) : Prop where
  agree : AgreeBut hidden st st'
  confines : st.Confines 0 (Expr.Avoids hidden)

namespace Veils

/-- A name that is found is found in both stores, bound to the same. -/
theorem get? (h : Veils hidden st st') (id : ScopeId) {name : String} (hname : name ≠ hidden) :
    Option.Rel (Value.Same hidden) (st.get? id name) (st'.get? id name) := by
  rw [← h.agree.get?_found id hname]
  cases hfound : st.get? id name with
  | none => exact .none
  | some v => exact .some ⟨rfl, h.confines.get? (Nat.zero_le id) hfound⟩

theorem set (h : Veils hidden st st') (id : ScopeId) (name : String) {v : Value Place}
    (hv : v.Confined 0 (Expr.Avoids hidden)) : Veils hidden (st.set id name v) (st'.set id name v) :=
  ⟨h.agree.set id name v, h.confines.set id name hv⟩

theorem hide (h : Veils hidden st st') (id : ScopeId) {v : Value Place}
    (hv : v.Confined 0 (Expr.Avoids hidden)) : Veils hidden (st.set id hidden v) st' :=
  ⟨h.agree.hide id v, h.confines.set id hidden hv⟩

/-- A new scope in which some names are bound. -/
theorem addChild (h : Veils hidden st st') (parent : ScopeId) {named : List (String × Value Place)}
    (hnamed : ∀ entry ∈ named, entry.2.Confined 0 (Expr.Avoids hidden)) :
    Veils hidden
      (named.foldl (fun st' (name, v) => st'.set st.size name v) (st.addChild parent).2)
      (named.foldl (fun st (name, v) => st.set st'.size name v) (st'.addChild parent).2) where
  agree := by
    rw [h.agree.size_eq]
    exact (h.agree.addChild parent).foldl_set st'.size named
  confines := (h.confines.addChild (Nat.zero_le parent)).foldl_set st.size hnamed

theorem addGlobal (h : Veils hidden st st') : Veils hidden st.addGlobal.2 st'.addGlobal.2 :=
  ⟨h.agree.addGlobal, h.confines.withGlobal⟩

theorem release (h : Veils hidden st st') (id : ScopeId) :
    Veils hidden (st.release id) (st'.release id) := ⟨h.agree.release id, h.confines.release id⟩

end Veils
end Store
end Cyan
