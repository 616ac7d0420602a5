/-
Evaluation does not look at places.

Everything that holds program text can have its places sent through a map, worlds and errors included.
`evaluate_map` says that evaluating an expression with mapped places, in the mapped world and under the
mapped calls, does what evaluating the expression does, up to the same map.  With the map to the
one-point type this is evaluation up to positions.

What is mapped is what belongs to its original when all scopes keep their identities, so this is a case
of `evaluate_alike`.
-/
import Cyan.Proofs.Action.Maps
import Cyan.Proofs.Evaluation.Alike

namespace Cyan

variable {Place Place' α β : Type} (f : Place → Place')

def Bindings.mapValues (g : α → β) (b : Bindings α) : Bindings β :=
  List.map (fun entry => (entry.1, g entry.2)) b

def Cell.map (c : Cell Place) : Cell Place' := ⟨c.outer, Bindings.mapValues (Value.map f) c.bindings⟩

def Store.map (st : Store Place) : Store Place' := ⟨st.cells.map (Cell.map f)⟩

def World.map (w : World Place) : World Place' := ⟨w.store.map f, w.console⟩

/-! ## What belongs to its original -/

theorem Value.alike_map (v : Value Place) : Alike f Eq v (v.map f) := by
  cases v with
  | none => exact .none
  | bool => exact .bool
  | number => exact .number
  | string => exact .string
  | builtin => exact .builtin
  | function g => exact .function rfl

theorem Value.Alike.map_eq {v : Value Place} {v' : Value Place'} (h : Alike f Eq v v') :
    v.map f = v' := by
  cases h with
  | @function name? parameters body id id' hid =>
    subst hid
    rfl
  | none | bool | number | string | builtin => rfl

namespace Bindings

variable {R : α → β → Prop} {g : α → β}

theorem alike_map (h : ∀ a, R a (g a)) (b : Bindings α) : Alike R b (mapValues g b) := by
  induction b with
  | nil => exact .nil
  | cons entry rest ih => exact .cons ⟨rfl, h entry.2⟩ ih

theorem Alike.map_eq (h : ∀ a c, R a c → g a = c) {b : Bindings α} {b' : Bindings β}
    (hb : Alike R b b') : mapValues g b = b' := by
  induction hb with
  | nil => rfl
  | cons hentry _ ih => exact congrArg₂ List.cons (Prod.ext hentry.1 (h _ _ hentry.2)) ih

end Bindings

namespace Store

variable (st : Store Place)

theorem size_map : (st.map f).size = st.size := Array.size_map

theorem getElem?_map (id : ScopeId) : (st.map f).cells[id]? = st.cells[id]?.map (Cell.map f) :=
  Array.getElem?_map

theorem bindings_map (id : ScopeId) :
    (st.map f).bindings id = Bindings.mapValues (Value.map f) (st.bindings id) := by
  rw [bindings, bindings, getElem?_map]
  cases st.cells[id]? <;> rfl

theorem outer_map (id : ScopeId) : (st.map f).outer id = st.outer id := by
  rw [outer, outer, getElem?_map]
  cases st.cells[id]? <;> rfl

theorem alike_map : Alike f Eq st (st.map f) where
  next n := by rw [size_map]
  outer id id' h := by
    rw [outer_map, h, List.forall₂_eq_eq_eq]
  bindings id id' h := by
    rw [bindings_map, h]
    exact Bindings.alike_map (Value.alike_map f) _

theorem get?_map (id : ScopeId) (name : String) :
    (st.map f).get? id name = (st.get? id name).map (Value.map f) := by
  have halike : Option.Rel (Value.Alike f Eq) (st.get? id name) ((st.map f).get? id name) :=
    (alike_map f st).get? rfl name
  generalize st.get? id name = found at halike ⊢
  generalize (st.map f).get? id name = found' at halike ⊢
  cases halike with
  | some h => exact congrArg some h.map_eq.symm
  | none => rfl

variable {f st}

/-- A store is what its scopes are nested in and what they bind. -/
theorem ext_of {st' : Store Place} (hsize : st.size = st'.size) (houter : st.outer = st'.outer)
    (hbindings : st.bindings = st'.bindings) : st = st' := by
  obtain ⟨cells⟩ := st
  obtain ⟨cells'⟩ := st'
  refine congrArg mk (Array.ext hsize fun id hid hid' => ?_)
  have houter := congrFun houter id
  have hbindings := congrFun hbindings id
  simp only [outer, bindings, Array.getElem?_eq_getElem hid, Array.getElem?_eq_getElem hid']
    at houter hbindings
  exact congrArg₂ Cell.mk houter hbindings

theorem Alike.map_eq {st' : Store Place'} (h : Alike f Eq st st') : st.map f = st' := by
  refine ext_of ?_ (funext fun id => ?_) (funext fun id => ?_)
  · rw [size_map]
    exact h.next 0
  · have houter := h.outer id id rfl
    rw [List.forall₂_eq_eq_eq] at houter
    rw [outer_map, houter]
  · rw [bindings_map]
    exact Bindings.Alike.map_eq (fun _ _ hv => hv.map_eq f) (h.bindings id id rfl)

end Store

theorem World.alike_map (w : World Place) : Alike f Eq [] [] w (w.map f) :=
  ⟨w.store.alike_map f, rfl, rfl, w.console.transcript, (List.append_nil _).symm,
    (List.append_nil _).symm⟩

theorem World.Alike.map_eq {w : World Place} {w' : World Place'} (h : Alike f Eq [] [] w w') :
    w.map f = w' := by
  obtain ⟨store, input, room?, transcript⟩ := w
  obtain ⟨store', input', room?', transcript'⟩ := w'
  obtain ⟨hstore, rfl, rfl, events, htranscript, htranscript'⟩ := h
  obtain rfl : transcript = transcript' := htranscript.trans htranscript'.symm
  exact congrArg (World.mk · _) hstore.map_eq

/-! ## Evaluation -/

/-- What an expression evaluates to does not depend on places. -/
theorem evaluate_map (config : Config) (n : Nat) (e : Expr Place) (scope : ScopeId)
    (stack : CallStack Place) :
    Action.Maps (World.map f) (RuntimeError.map f) (Value.map f) (evaluate config n e scope stack)
      (evaluate config n (e.map f) scope (stack.map f)) := by
  have heq : Relator.BiUnique (Eq : ScopeId → ScopeId → Prop) :=
    ⟨fun _ _ _ h h' => h.trans h'.symm, fun _ _ _ h h' => h.symm.trans h'⟩
  intro w
  have h := evaluate_alike f heq config n e stack (Eq.refl scope) w (w.map f) (w.alike_map f)
  generalize evaluate config n e scope stack w = o at h ⊢
  generalize evaluate config n (e.map f) scope (stack.map f) (w.map f) = o' at h ⊢
  cases h with
  | done hv hw => exact congrArg₂ Outcome.done (hv.map_eq f).symm (hw.map_eq f).symm
  | failed he hw => exact congrArg₂ Outcome.failed he.symm (hw.map_eq f).symm
  | unfinished => rfl

end Cyan
