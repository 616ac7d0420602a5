/-
Stores that are alike.

Two stores may hold the same scopes under other identities, with other places in the text of functions,
and other scopes beside them.  A relation `ρ` between the identities says which scope of the one is which
of the other, and `f` sends places of the one to places of the other; `Store.Alike f ρ` says that scopes
that belong together are nested in scopes that belong together, and bind the same names in the same order
to values that are alike.  The scopes that are made next belong together as well, so `ρ` stays the same
when both stores do the same.

Nothing is said of scopes that `ρ` leaves out.  No scope that belongs to another is nested in such a one
or holds a function that captures one, so looking up and binding names never gets there.
-/
import Cyan.Proofs.Scope.Rooted
import Mathlib.Data.List.Forall2

namespace Cyan

variable {Place Place' α β : Type} {f : Place → Place'} {ρ : ScopeId → ScopeId → Prop}

/-- Values that are the same but for the places in program text, which go through `f`, and for the
scopes that functions capture, which belong together. -/
inductive Value.Alike (f : Place → Place') (ρ : ScopeId → ScopeId → Prop) :
    Value Place → Value Place' → Prop
  | none : Alike f ρ .none .none
  | bool {b : Bool} : Alike f ρ (.bool b) (.bool b)
  | number {n : Number} : Alike f ρ (.number n) (.number n)
  | string {text : String} : Alike f ρ (.string text) (.string text)
  | builtin {b : Builtin} : Alike f ρ (.builtin b) (.builtin b)
  | function {name? : Option String} {parameters : List String} {body : Expr Place}
      {id id' : ScopeId} : ρ id id' →
    Alike f ρ (.function ⟨name?, parameters, body, id⟩)
      (.function ⟨name?, parameters, body.map f, id'⟩)

mutual

theorem Expr.map_id : (e : Expr Place) → e.map id = e
  | .block place statements => by rw [Expr.map, mapAll_id, id]
  | .pass _ | .number _ _ | .literal _ _ | .string _ _ | .reference _ _ => rfl
  | .binary place op left right => by rw [Expr.map, map_id left, map_id right, id]
  | .unary place op operand => by rw [Expr.map, map_id operand, id]
  | .assign place name value => by rw [Expr.map, map_id value, id]
  | .conditional place condition thenBranch elseBranch => by
    rw [Expr.map, map_id condition, map_id thenBranch, map_id elseBranch, id]
  | .loop place condition body => by rw [Expr.map, map_id condition, map_id body, id]
  | .function place name? parameters body => by rw [Expr.map, map_id body, id]
  | .call place callee arguments => by rw [Expr.map, map_id callee, mapAll_id, id]

theorem Expr.mapAll_id : (list : List (Expr Place)) → Expr.mapAll id list = list
  | [] => rfl
  | e :: rest => by rw [mapAll, map_id e, mapAll_id rest]

end

/-- A value is like itself if the scope it captures belongs to itself. -/
theorem Value.Alike.self {v : Value Place} (h : ∀ g, v = .function g → ρ g.scope g.scope) :
    Alike id ρ v v := by
  cases v with
  | none => exact .none
  | bool => exact .bool
  | number => exact .number
  | string => exact .string
  | builtin => exact .builtin
  | function g =>
    have hg : Alike id ρ (.function g) (.function ⟨g.name?, g.parameters, g.body.map id, g.scope⟩) :=
      .function (h g rfl)
    rwa [Expr.map_id] at hg

/-! ## Bindings -/

namespace Bindings

/-- The same names in the same order, bound to what `R` relates. -/
def Alike (R : α → β → Prop) : Bindings α → Bindings β → Prop :=
  List.Forall₂ fun entry entry' => entry.1 = entry'.1 ∧ R entry.2 entry'.2

variable {R : α → β → Prop} {b : Bindings α} {b' : Bindings β}

theorem Alike.get? (h : Alike R b b') (name : String) : Option.Rel R (b.get? name) (b'.get? name) := by
  induction h with
  | nil => exact .none
  | @cons entry entry' rest rest' hentry _ ih =>
    obtain ⟨key, a⟩ := entry
    obtain ⟨key', a'⟩ := entry'
    obtain ⟨rfl, ha⟩ := hentry
    by_cases hkey : key = name
    · rw [Bindings.get?, Bindings.get?, if_pos hkey, if_pos hkey]
      exact .some ha
    · rw [Bindings.get?, Bindings.get?, if_neg hkey, if_neg hkey]
      exact ih

theorem Alike.set (h : Alike R b b') (name : String) {a : α} {a' : β} (ha : R a a') :
    Alike R (b.set name a) (b'.set name a') := by
  induction h with
  | nil => exact .cons ⟨rfl, ha⟩ .nil
  | @cons entry entry' rest rest' hentry hrest ih =>
    obtain ⟨key, c⟩ := entry
    obtain ⟨key', c'⟩ := entry'
    obtain ⟨rfl, hc⟩ := hentry
    by_cases hkey : key = name
    · rw [Bindings.set, Bindings.set, if_pos hkey, if_pos hkey]
      exact .cons ⟨rfl, ha⟩ hrest
    · rw [Bindings.set, Bindings.set, if_neg hkey, if_neg hkey]
      exact .cons ⟨rfl, hc⟩ ih

theorem Alike.zip {values : List α} {values' : List β} (h : List.Forall₂ R values values')
    (names : List String) : Alike R (names.zip values) (names.zip values') := by
  induction h generalizing names with
  | nil =>
    rw [List.zip_nil_right, List.zip_nil_right]
    exact .nil
  | cons hv _ ih =>
    cases names with
    | nil => exact .nil
    | cons name names => exact .cons ⟨rfl, hv⟩ (ih names)

end Bindings

/-! ## Stores -/

namespace Store

/-- A relation between stores that lasts while both do the same.  Through it, scopes that belong together
bind names to values that are alike, and the scopes that are made next belong together. -/
structure Simulates (f : Place → Place') (ρ : ScopeId → ScopeId → Prop)
    (S : Store Place → Store Place' → Prop) : Prop where
  next {st st'} : S st st' → ρ st.size st'.size
  get? {st st' id id'} : S st st' → ρ id id' → ∀ name,
    Option.Rel (Value.Alike f ρ) (st.get? id name) (st'.get? id' name)
  set {st st' id id' v v'} : S st st' → ρ id id' → ∀ name, Value.Alike f ρ v v' →
    S (st.set id name v) (st'.set id' name v')
  addChild {st st' id id'} : S st st' → ρ id id' → S (st.addChild id).2 (st'.addChild id').2

theorem Simulates.foldl_set {S : Store Place → Store Place' → Prop} (hS : Simulates f ρ S)
    {st : Store Place} {st' : Store Place'} (h : S st st') {id id' : ScopeId} (hid : ρ id id')
    {named : List (String × Value Place)} {named' : List (String × Value Place')}
    (hnamed : Bindings.Alike (Value.Alike f ρ) named named') :
    S (named.foldl (fun st (name, v) => st.set id name v) st)
      (named'.foldl (fun st (name, v) => st.set id' name v) st') := by
  induction hnamed generalizing st st' with
  | nil => exact h
  | @cons entry entry' _ _ hentry _ ih =>
    obtain ⟨name, v⟩ := entry
    obtain ⟨name', v'⟩ := entry'
    obtain ⟨rfl, hv⟩ := hentry
    exact ih (hS.set h hid name hv)

/-- Scopes that belong together are the same in both stores. -/
structure Alike (f : Place → Place') (ρ : ScopeId → ScopeId → Prop) (st : Store Place)
    (st' : Store Place') : Prop where
  next : ∀ n, ρ (st.size + n) (st'.size + n)
  outer : ∀ id id', ρ id id' → List.Forall₂ ρ (st.outer id) (st'.outer id')
  bindings : ∀ id id', ρ id id' →
    Bindings.Alike (Value.Alike f ρ) (st.bindings id) (st'.bindings id')

namespace Alike

variable {st : Store Place} {st' : Store Place'} {id id' : ScopeId}

theorem chain (h : Alike f ρ st st') (hid : ρ id id') :
    List.Forall₂ ρ (st.chain id) (st'.chain id') := .cons hid (h.outer id id' hid)

theorem get? (h : Alike f ρ st st') (hid : ρ id id') (name : String) :
    Option.Rel (Value.Alike f ρ) (st.get? id name) (st'.get? id' name) := by
  have houter {ids ids' : List ScopeId} (hids : List.Forall₂ ρ ids ids') :
      Option.Rel (Value.Alike f ρ) (ids.findSome? fun id => (st.bindings id).get? name)
        (ids'.findSome? fun id => (st'.bindings id).get? name) := by
    induction hids with
    | nil => exact .none
    | @cons other other' _ _ hother _ ih =>
      rw [List.findSome?_cons, List.findSome?_cons]
      have hbound := (h.bindings other other' hother).get? name
      generalize (st.bindings other).get? name = o at hbound ⊢
      generalize (st'.bindings other').get? name = o' at hbound ⊢
      cases hbound with
      | some hv => exact .some hv
      | none => exact ih
  rw [Store.get?, Store.get?]
  have hbound := (h.bindings id id' hid).get? name
  generalize (st.bindings id).get? name = o at hbound ⊢
  generalize (st'.bindings id').get? name = o' at hbound ⊢
  cases hbound with
  | some hv => exact .some hv
  | none => exact houter (h.outer id id' hid)

variable (hρ : Relator.BiUnique ρ)
include hρ

/-- Scopes that belong together have both been made or both not. -/
theorem lt_iff (h : Alike f ρ st st') (hid : ρ id id') : id < st.size ↔ id' < st'.size := by
  constructor
  · intro hlt
    by_contra hge
    have hnext := h.next (id' - st'.size)
    rw [Nat.add_sub_of_le (Nat.le_of_not_lt hge)] at hnext
    rw [hρ.1 hid hnext] at hlt
    exact absurd hlt (Nat.not_lt.mpr (Nat.le_add_right _ _))
  · intro hlt
    by_contra hge
    have hnext := h.next (id - st.size)
    rw [Nat.add_sub_of_le (Nat.le_of_not_lt hge)] at hnext
    rw [hρ.2 hid hnext] at hlt
    exact absurd hlt (Nat.not_lt.mpr (Nat.le_add_right _ _))

theorem set (h : Alike f ρ st st') (hid : ρ id id') (name : String) {v : Value Place} {v' : Value Place'}
    (hv : Value.Alike f ρ v v') : Alike f ρ (st.set id name v) (st'.set id' name v') where
  next n := by
    rw [size_set, size_set]
    exact h.next n
  outer other other' hother := by
    rw [outer_set, outer_set]
    exact h.outer other other' hother
  bindings other other' hother := by
    by_cases hother' : other = id
    · have hother'' : other' = id' := (Relator.rel_eq hρ hother hid).mp hother'
      subst hother' hother''
      by_cases hlt : other < st.size
      · rw [bindings_set_self hlt, bindings_set_self ((h.lt_iff hρ hid).mp hlt)]
        exact (h.bindings other other' hother).set name hv
      · have hlt' := mt (h.lt_iff hρ hid).mpr hlt
        rw [bindings_eq_nil (by rw [size_set]; exact Nat.le_of_not_lt hlt),
          bindings_eq_nil (by rw [size_set]; exact Nat.le_of_not_lt hlt')]
        exact .nil
    · rw [bindings_set_of_ne _ hother', bindings_set_of_ne _ (mt (Relator.rel_eq hρ hother hid).mpr hother')]
      exact h.bindings other other' hother

theorem addChild (h : Alike f ρ st st') (hid : ρ id id') :
    Alike f ρ (st.addChild id).2 (st'.addChild id').2 where
  next n := by
    rw [size_addChild, size_addChild, Nat.add_assoc, Nat.add_assoc]
    exact h.next (1 + n)
  outer other other' hother := by
    by_cases hother' : other = st.size
    · have hother'' : other' = st'.size := (Relator.rel_eq hρ hother (h.next 0)).mp hother'
      rw [hother', hother'', outer_addChild_self, outer_addChild_self]
      exact h.chain hid
    · have hother'' : other' ≠ st'.size := mt (Relator.rel_eq hρ hother (h.next 0)).mpr hother'
      rw [outer_addChild_of_ne _ _ hother', outer_addChild_of_ne _ _ hother'']
      exact h.outer other other' hother
  bindings other other' hother := by
    rw [bindings_addChild, bindings_addChild]
    exact h.bindings other other' hother

theorem simulates : Simulates f ρ (Alike f ρ) where
  next h := h.next 0
  get? h := h.get?
  set h hid name hv := h.set hρ hid name hv
  addChild h := h.addChild hρ

theorem addRoot (h : Alike f ρ st st') : Alike f ρ st.addRoot.2 st'.addRoot.2 where
  next n := by
    rw [size_addRoot, size_addRoot, Nat.add_assoc, Nat.add_assoc]
    exact h.next (1 + n)
  outer other other' hother := by
    by_cases hother' : other = st.size
    · have hother'' : other' = st'.size := (Relator.rel_eq hρ hother (h.next 0)).mp hother'
      rw [hother', hother'', outer_addRoot_self, outer_addRoot_self]
      exact .nil
    · have hother'' : other' ≠ st'.size := mt (Relator.rel_eq hρ hother (h.next 0)).mpr hother'
      rw [outer_addRoot_of_ne _ hother', outer_addRoot_of_ne _ hother'']
      exact h.outer other other' hother
  bindings other other' hother := by
    rw [bindings_addRoot, bindings_addRoot]
    exact h.bindings other other' hother

theorem addGlobal (h : Alike f ρ st st') : Alike f ρ st.addGlobal.2 st'.addGlobal.2 := by
  rw [addGlobal_eq, addGlobal_eq]
  refine (simulates hρ).foldl_set (h.addRoot hρ) (h.next 0) ?_
  exact List.forall₂_map_left_iff.mpr (List.forall₂_map_right_iff.mpr
    (List.forall₂_same.mpr fun b _ => ⟨rfl, .builtin⟩))

end Alike

theorem Alike.release {st : Store Place} {st' : Store Place'} {id id' : ScopeId} (h : Alike f ρ st st')
    (hρ : Relator.BiUnique ρ) (hid : ρ id id') : Alike f ρ (st.release id) (st'.release id') where
  next n := by
    rw [size_release, size_release]
    exact h.next n
  outer other other' hother := by
    rw [outer_release, outer_release]
    exact h.outer other other' hother
  bindings other other' hother := by
    have hlast {ids ids' : List ScopeId} (hids : List.Forall₂ ρ ids ids') :
        Option.Rel ρ ids.getLast? ids'.getLast? := by
      rw [List.getLast?_eq_head?_reverse, List.getLast?_eq_head?_reverse]
      have hreverse := List.rel_reverse hids
      generalize ids.reverse = l at hreverse ⊢
      generalize ids'.reverse = l' at hreverse ⊢
      cases hreverse with
      | nil => exact .none
      | cons hfirst => exact .some hfirst
    have hroot : ρ (st.root id) (st'.root id') := by
      have hchain := hlast (h.chain hid)
      rw [getLast?_chain, getLast?_chain] at hchain
      cases hchain with
      | some hroot => exact hroot
    have hreleased : (other = id ∨ (st.outer other).getLast? = some (st.root id)) ↔
        (other' = id' ∨ (st'.outer other').getLast? = some (st'.root id')) := by
      refine or_congr (Relator.rel_eq hρ hother hid) ?_
      have hother := hlast (h.outer other other' hother)
      generalize (st.outer other).getLast? = o at hother ⊢
      generalize (st'.outer other').getLast? = o' at hother ⊢
      cases hother with
      | none => simp
      | some hlast =>
        rw [Option.some_inj, Option.some_inj]
        exact Relator.rel_eq hρ hlast hroot
    rw [bindings_release_eq, bindings_release_eq]
    by_cases hcase : other = id ∨ (st.outer other).getLast? = some (st.root id)
    · rw [if_pos hcase, if_pos (hreleased.mp hcase)]
      exact .nil
    · rw [if_neg hcase, if_neg (mt hreleased.mpr hcase)]
      exact h.bindings other other' hother

end Store
end Cyan
