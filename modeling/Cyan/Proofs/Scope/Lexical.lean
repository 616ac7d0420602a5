/-
Lexical scoping.

The scopes that a visit sees are those of the functions whose bodies its expression stands in.
`Within` says which function definitions these are, and `Mirrors` that a chain of scopes fits them:
one scope for each definition, made by a call of a function that the definition gave, and the root of
the run behind them.

The invariant has two halves that need each other.  `Visit.Sits` says that the chain of a visit's scope
mirrors the place of its expression, and `Store.Lexical` that every function bound anywhere captures a
scope whose chain mirrors the place of its definition.  A call is where they meet: the new scope is
nested in the captured one, and the body stands inside the definition.  `Visit.secured` carries
the invariant through one evaluation, by induction on its bound, and `Visit.Sits.leads` from a visit to
those it leads to.
-/
import Cyan.Proofs.Action.Secures
import Cyan.Proofs.Evaluation.Visits
import Cyan.Proofs.Scope.Rooted

namespace Cyan

variable {Place : Type}

/-- The expression stands in the program, inside the bodies of the definitions `ds` and of no others,
the innermost first. -/
inductive Within (program : Expr Place) : List (Expr Place) → Expr Place → Prop where
  | root : Within program [] program
  | inside {ds e part} : Within program ds e → e.isFunction = false → part ∈ e.children →
      Within program ds part
  | body {ds place name? parameters body} :
      Within program ds (.function place name? parameters body) →
      Within program (.function place name? parameters body :: ds) body

/-- The visit is to a definition, and gives the function `f`. -/
def Visit.Makes (t : Visit Place) (f : Function Place) : Prop :=
  ∃ place, t.node = .function place f.name? f.parameters f.body ∧ t.scope = f.scope

/-- In one of the runs, the scope was made for a call of a function that the definition `d` gave. -/
def MadeFor (config : Config) (runs : List (Run Place)) (id : ScopeId) (d : Expr Place) : Prop :=
  ∃ call f w maker, Visited config runs call ∧ call.Enters config f id w ∧
    Visited config runs maker ∧ maker.Makes f ∧ maker.node = d

/-- The chain has a scope for each of the definitions, in their order, and ends at the root. -/
structure Mirrors (config : Config) (runs : List (Run Place)) (root : ScopeId)
    (ds : List (Expr Place)) (chain : List ScopeId) : Prop where
  length_eq : chain.length = ds.length + 1
  made : ∀ (i : Nat) (d : Expr Place), ds[i]? = some d →
    ∃ id, chain[i]? = some id ∧ MadeFor config runs id d
  getLast?_eq : chain.getLast? = some root

/-- The chain mirrors the place where the expression stands in the program of a run with that root. -/
def Stands (config : Config) (runs : List (Run Place)) (root : ScopeId) (node : Expr Place)
    (chain : List ScopeId) : Prop :=
  ∃ r ∈ runs, r.root = root ∧ ∃ ds, Within r.program ds node ∧ Mirrors config runs root ds chain

/-- The function was made by a visit to its definition, and the chain of the scope it captures mirrors
the place where the definition stands. -/
structure Captures (config : Config) (runs : List (Run Place)) (root : ScopeId) (st : Store Place)
    (f : Function Place) : Prop where
  lt : f.scope < st.size
  made : ∃ maker, Visited config runs maker ∧ maker.Makes f ∧
    Stands config runs root maker.node (st.chain f.scope)

/-- If the value is a function, it captures a scope as it should. -/
def Fits (config : Config) (runs : List (Run Place)) (root : ScopeId) (st : Store Place)
    (v : Value Place) : Prop :=
  ∀ f, v = .function f → Captures config runs root st f

/-- Every function that is bound captures a scope as it should, with the root it is bound under, and no
scope binds a name twice. -/
structure Store.Lexical (config : Config) (runs : List (Run Place)) (st : Store Place) : Prop where
  rooted : st.Rooted
  distinct : ∀ id, ((st.bindings id).map Prod.fst).Nodup
  fits : ∀ id name v, (st.bindings id).get? name = some v → Fits config runs (st.root id) st v

/-- The chain of the visit's scope mirrors the place of its expression. -/
structure Visit.Sits (config : Config) (runs : List (Run Place)) (root : ScopeId)
    (t : Visit Place) : Prop where
  lexical : t.world.store.Lexical config runs
  lt : t.scope < t.world.store.size
  stands : Stands config runs root t.node (t.world.store.chain t.scope)

/-! ## Chains and what they mirror -/

section

variable {config : Config} {runs runs' : List (Run Place)} {root : ScopeId}

theorem MadeFor.mono {id : ScopeId} {d : Expr Place} (h : MadeFor config runs id d)
    (hruns : runs ⊆ runs') : MadeFor config runs' id d := by
  obtain ⟨call, f, w, maker, hcall, henters, hmaker, hmakes, hnode⟩ := h
  exact ⟨call, f, w, maker, hcall.mono hruns, henters, hmaker.mono hruns, hmakes, hnode⟩

namespace Mirrors

variable {ds : List (Expr Place)} {chain : List ScopeId}

theorem mono (h : Mirrors config runs root ds chain) (hruns : runs ⊆ runs') :
    Mirrors config runs' root ds chain where
  length_eq := h.length_eq
  made i d hd := by
    obtain ⟨id, hid, hmade⟩ := h.made i d hd
    exact ⟨id, hid, hmade.mono hruns⟩
  getLast?_eq := h.getLast?_eq

/-- A root scope mirrors a place outside all functions. -/
theorem nil : Mirrors config runs root ([] : List (Expr Place)) [root] where
  length_eq := rfl
  made i d hd := by cases hd
  getLast?_eq := rfl

/-- A scope that was made for a call mirrors the body of the function. -/
theorem cons (h : Mirrors config runs root ds chain) {id : ScopeId} {d : Expr Place}
    (hmade : MadeFor config runs id d) : Mirrors config runs root (d :: ds) (id :: chain) where
  length_eq := by rw [List.length_cons, h.length_eq, List.length_cons]
  made i d' hd := by
    cases i with
    | zero =>
      cases hd
      exact ⟨id, rfl, hmade⟩
    | succ i => exact h.made i d' hd
  getLast?_eq := by rw [List.getLast?_cons, h.getLast?_eq, Option.getD_some]

end Mirrors

theorem Stands.mono {node : Expr Place} {chain : List ScopeId}
    (h : Stands config runs root node chain) (hruns : runs ⊆ runs') :
    Stands config runs' root node chain := by
  obtain ⟨r, hr, hroot, ds, hwithin, hmirrors⟩ := h
  exact ⟨r, hruns hr, hroot, ds, hwithin, hmirrors.mono hruns⟩

theorem Stands.inside {node part : Expr Place} {chain : List ScopeId}
    (h : Stands config runs root node chain) (hnode : node.isFunction = false)
    (hpart : part ∈ node.children) : Stands config runs root part chain := by
  obtain ⟨r, hr, hroot, ds, hwithin, hmirrors⟩ := h
  exact ⟨r, hr, hroot, ds, hwithin.inside hnode hpart, hmirrors⟩

theorem Stands.root_eq {node : Expr Place} {st : Store Place} {id : ScopeId}
    (h : Stands config runs root node (st.chain id)) : st.root id = root := by
  obtain ⟨r, -, -, ds, -, hmirrors⟩ := h
  have hlast := hmirrors.getLast?_eq
  rw [Store.getLast?_chain] at hlast
  exact Option.some.inj hlast

/-! ## Functions and stores -/

variable {st st' : Store Place}

theorem Captures.mono {f : Function Place} (h : Captures config runs root st f)
    (hgrows : st.Grows st') (hruns : runs ⊆ runs') : Captures config runs' root st' f where
  lt := hgrows.lt h.lt
  made := by
    obtain ⟨maker, hmaker, hmakes, hstands⟩ := h.made
    rw [hgrows.chain_eq h.lt]
    exact ⟨maker, hmaker.mono hruns, hmakes, hstands.mono hruns⟩

theorem Fits.mono {v : Value Place} (h : Fits config runs root st v) (hgrows : st.Grows st')
    (hruns : runs ⊆ runs') : Fits config runs' root st' v :=
  fun f hf => (h f hf).mono hgrows hruns

theorem Fits.grows {v : Value Place} (h : Fits config runs root st v) (hgrows : st.Grows st') :
    Fits config runs root st' v :=
  h.mono hgrows (List.Subset.refl runs)

/-- Of a value that is no function nothing is asked. -/
theorem Fits.of_ne {v : Value Place} (h : ∀ f, v ≠ .function f) : Fits config runs root st v :=
  fun f hf => absurd hf (h f)

namespace Store.Lexical

theorem mono (h : st.Lexical config runs) (hruns : runs ⊆ runs') : st.Lexical config runs' where
  rooted := h.rooted
  distinct := h.distinct
  fits id name v hv := (h.fits id name v hv).mono (Store.Grows.refl st) hruns

/-- Every scope binds what it bound before or nothing. -/
theorem of_bound (h : st.Lexical config runs) (hgrows : st.Grows st') (hrooted : st'.Rooted)
    (hbound : ∀ id, st'.bindings id = st.bindings id ∨ st'.bindings id = []) :
    st'.Lexical config runs where
  rooted := hrooted
  distinct id := by
    rcases hbound id with hid | hid
    · rw [hid]
      exact h.distinct id
    · rw [hid]
      exact List.nodup_nil
  fits id name v hv := by
    rcases hbound id with hid | hid
    · rw [hid] at hv
      rw [hgrows.root_eq (lt_of_bound hv)]
      exact (h.fits id name v hv).grows hgrows
    · rw [hid] at hv
      cases hv

/-- What a name means in a scope fits the root of that scope. -/
theorem get? (h : st.Lexical config runs) {id : ScopeId} (hid : id < st.size) {name : String}
    {v : Value Place} (hv : st.get? id name = some v) : Fits config runs (st.root id) st v := by
  obtain ⟨other, hother, hv⟩ := Store.get?_bound hv
  rw [← (h.rooted id hid other hother).2]
  exact h.fits other name v hv

theorem set (h : st.Lexical config runs) {id : ScopeId} (hid : id < st.size) (name : String)
    {v : Value Place} (hv : Fits config runs (st.root id) st v) :
    (st.set id name v).Lexical config runs where
  rooted := h.rooted.set id name v
  distinct other := by
    by_cases hid' : other = id
    · rw [hid', bindings_set_self hid]
      exact Bindings.nodup_set (h.distinct id) name v
    · rw [bindings_set_of_ne st hid']
      exact h.distinct other
  fits other name' v' hv' := by
    have hgrows := Store.Grows.set st id name v
    have hother := lt_of_bound hv'
    rw [size_set] at hother
    rw [hgrows.root_eq hother]
    refine Fits.grows ?_ hgrows
    rcases bound_set hv' with ⟨rfl, rfl⟩ | hv'
    · exact hv
    · exact h.fits other name' v' hv'

theorem foldl_set (h : st.Lexical config runs) {id : ScopeId} (hid : id < st.size)
    (named : List (String × Value Place))
    (hnamed : ∀ entry ∈ named, Fits config runs (st.root id) st entry.2) :
    (named.foldl (fun st (name, v) => st.set id name v) st).Lexical config runs := by
  induction named generalizing st with
  | nil => exact h
  | cons entry rest ih =>
    have hgrows := Store.Grows.set st id entry.1 entry.2
    have hset := h.set hid entry.1 (hnamed entry List.mem_cons_self)
    refine ih hset (hgrows.lt hid) fun e he => ?_
    rw [hgrows.root_eq hid]
    exact (hnamed e (List.mem_cons_of_mem _ he)).grows hgrows

theorem addChild (h : st.Lexical config runs) {parent : ScopeId} (hparent : parent < st.size) :
    (st.addChild parent).2.Lexical config runs := by
  refine h.of_bound (Store.Grows.addChild st parent) (h.rooted.addChild hparent) fun id => Or.inl ?_
  exact bindings_addChild st parent id

theorem addRoot (h : st.Lexical config runs) : st.addRoot.2.Lexical config runs :=
  h.of_bound (Store.Grows.addRoot st) h.rooted.addRoot fun id => Or.inl (bindings_addRoot st id)

theorem addGlobal (h : st.Lexical config runs) : st.addGlobal.2.Lexical config runs := by
  rw [Store.addGlobal_eq]
  refine h.addRoot.foldl_set (Store.size_lt_addRoot st) _ fun entry hentry => ?_
  obtain ⟨b, -, rfl⟩ := List.mem_map.mp hentry
  exact Fits.of_ne nofun

theorem release (h : st.Lexical config runs) (id : ScopeId) :
    (st.release id).Lexical config runs := by
  refine h.of_bound (Store.Grows.release st id) (h.rooted.release id) fun other => ?_
  rw [bindings_release_eq]
  split
  · exact Or.inr rfl
  · exact Or.inl rfl

end Store.Lexical

end

end Cyan
