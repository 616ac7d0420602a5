/-
Evaluation keeps lexical scoping.

The invariant is `Visit.Sits` for a visit and `Store.Lexical` for the store it leaves.  Inside one
evaluation, `Visit.Passed` adds to it what is known of the operands that have been evaluated.
`Visit.secured` carries the invariant through an evaluation, by induction on the bound: its cases are
those of the expression, and its heart is `Visit.Passed.sits_calling`, for calls.  `Visit.Sits.leads`
carries it from a visit to the next ones, and so to all visits of a run.
-/
import Cyan.Proofs.Evaluation.Secures
import Cyan.Proofs.Scope.Lexical

namespace Cyan

open Cyan.Action (Secures)

variable {Place : Type} {config : Config} {runs : List (Run Place)} {root : ScopeId}

namespace Visit

/-- An evaluation that ends leaves all scopes where they were. -/
theorem outcome_grows {t : Visit Place} {bound : Nat} {w : World Place}
    (h : (t.outcome config bound).state? = some w) : t.world.store.Grows w.store :=
  (evaluate_extends config bound t.node t.scope t.stack t.world w h).grows

theorem Yields.grows {t : Visit Place} {v : Value Place} {w : World Place}
    (h : t.Yields config v w) : t.world.store.Grows w.store := by
  obtain ⟨bound, h⟩ := h
  exact outcome_grows (by rw [h]; rfl)

/-- The world is one in which the evaluation of the visit may be, and its functions capture what they
should. -/
structure Safe (config : Config) (runs : List (Run Place)) (t : Visit Place) (w : World Place) :
    Prop where
  grows : t.world.store.Grows w.store
  lexical : w.store.Lexical config runs

/-- The operands that have been evaluated gave values that fit. -/
structure Passed (config : Config) (runs : List (Run Place)) (root : ScopeId) (t : Visit Place)
    (before : List (Expr Place)) (values : List (Value Place)) (w : World Place) : Prop
    extends Safe config runs t w where
  passes : t.Passes config before values w
  fits : ∀ v ∈ values, Fits config runs root w.store v

/-- What an evaluation has secured when it ends with a value. -/
structure Settled (config : Config) (runs : List (Run Place)) (root : ScopeId) (t : Visit Place)
    (v : Value Place) (w : World Place) : Prop extends Safe config runs t w where
  fits : Fits config runs root w.store v

variable {t : Visit Place} {w : World Place}

theorem Sits.safe (h : t.Sits config runs root) : t.Safe config runs t.world :=
  ⟨Store.Grows.refl _, h.lexical⟩

theorem Sits.passed (h : t.Sits config runs root) : t.Passed config runs root [] [] t.world :=
  ⟨h.safe, Passes.nil, nofun⟩

theorem Sits.root_eq (h : t.Sits config runs root) (hsafe : t.Safe config runs w) :
    w.store.root t.scope = root := by
  rw [hsafe.grows.root_eq h.lt]
  exact h.stands.root_eq

/-- Whatever is evaluated in the same scope sits where its text stands. -/
theorem Sits.beside (h : t.Sits config runs root) (hsafe : t.Safe config runs w)
    (hnode : t.node.isFunction = false) (part : Expr Place) (hpart : part ∈ t.node.children) :
    (t.beside part w).Sits config runs root where
  lexical := hsafe.lexical
  lt := hsafe.grows.lt h.lt
  stands := by
    show Stands config runs root part (w.store.chain t.scope)
    rw [hsafe.grows.chain_eq h.lt]
    exact h.stands.inside hnode hpart

theorem Safe.through {t' : Visit Place} {w' : World Place} (h : t.Safe config runs w)
    (hgrows : w.store.Grows t'.world.store) (h' : t'.Safe config runs w') :
    t.Safe config runs w' where
  grows := h.grows.trans (hgrows.trans h'.grows)
  lexical := h'.lexical

/-- Binding a value that fits keeps the world safe. -/
theorem Safe.set (h : t.Safe config runs w) (hsits : t.Sits config runs root) (name : String)
    {v : Value Place} (hv : Fits config runs root w.store v) :
    t.Safe config runs { w with store := w.store.set t.scope name v } where
  grows := h.grows.trans (Store.Grows.set w.store t.scope name v)
  lexical := by
    rw [← hsits.root_eq h] at hv
    exact h.lexical.set (h.grows.lt hsits.lt) name hv

theorem Passed.snoc {before : List (Expr Place)} {values : List (Value Place)} {part : Expr Place}
    {v : Value Place} {w' : World Place} (h : t.Passed config runs root before values w)
    (hyields : (t.beside part w).Yields config v w') (hsettled : t.Settled config runs root v w') :
    t.Passed config runs root (before ++ [part]) (values ++ [v]) w' where
  toSafe := hsettled.toSafe
  passes := h.passes.snoc hyields
  fits u hu := by
    rcases List.mem_append.mp hu with hu | hu
    · exact (h.fits u hu).grows hyields.grows
    · obtain rfl := List.mem_singleton.mp hu
      exact hsettled.fits

/-! ## Calls -/

/-- The body of a called function sits in the scope of the call, since the function captures a scope
that mirrors the place of its definition. -/
theorem Passed.sits_calling {place : Place} {callee : Expr Place} {arguments : List (Expr Place)}
    {f : Function Place} {values : List (Value Place)} {inner : ScopeId} {w' : World Place}
    (h : t.Passed config runs root (callee :: arguments) (.function f :: values) w)
    (hvisited : Visited config runs t) (hnode : t.node = .call place callee arguments)
    (hcheck : Evaluation.checkCall config t.stack place f values.length w = .done () w)
    (henter : Evaluation.enter f values w = .done inner w') :
    t.Leads config (t.calling f inner w') ∧ (t.calling f inner w').Sits config runs root ∧
      w.store.Grows w'.store := by
  have henters : t.Enters config f inner w' :=
    ⟨place, callee, arguments, values, w, hnode, h.passes, hcheck, henter⟩
  have hcaptures := h.fits (.function f) List.mem_cons_self f rfl
  obtain ⟨maker, hmaker, ⟨defined, hdefinition, hscope⟩, hstands⟩ := hcaptures.made
  rw [Evaluation.enter_eq] at henter
  cases henter
  have hchild := Store.Grows.addChild w.store f.scope
  have hinner : w.store.size < (w.store.addChild f.scope).2.size := by
    rw [Store.size_addChild]
    exact Nat.lt_succ_self _
  have hextends : Store.Extends w.store.size (w.store.addChild f.scope).2 _ :=
    Store.Extends.foldl_set _ (f.parameters.zip values)
  have hbinds := hextends.grows
  refine ⟨.body henters, ⟨?_, hbinds.lt hinner, ?_⟩, hchild.trans hbinds⟩
  -- The parameters are bound to arguments, which fit the root that the captured scope has.
  · refine (h.lexical.addChild hcaptures.lt).foldl_set hinner _ fun entry hentry => ?_
    rw [Store.Rooted.root_addChild, hstands.root_eq]
    have hmem := (List.of_mem_zip hentry).2
    exact (h.fits entry.2 (List.mem_cons_of_mem _ hmem)).grows hchild
  -- The body stands one function deeper than the definition, as the new scope does than the captured.
  · obtain ⟨r, hr, hroot, ds, hwithin, hmirrors⟩ := hstands
    have hmade : MadeFor config runs w.store.size maker.node :=
      ⟨t, f, _, maker, hvisited, henters, hmaker, ⟨defined, hdefinition, hscope⟩, rfl⟩
    refine ⟨r, hr, hroot, maker.node :: ds, ?_, ?_⟩
    · rw [hdefinition] at hwithin ⊢
      exact hwithin.body
    · have hchain := hbinds.chain_eq hinner
      rw [Store.chain_addChild] at hchain
      have hcons := hmirrors.cons hmade
      rw [← hchain] at hcons
      exact hcons

/-! ## One evaluation -/

/-- The evaluation of a visit under a bound keeps the invariant. -/
def Secured (config : Config) (runs : List (Run Place)) (root : ScopeId) (n : Nat)
    (t : Visit Place) : Prop :=
  t.Sits config runs root → Visited config runs t →
    Secures (t.Passed config runs root [] []) (evaluate config n t.node t.scope t.stack)
      (fun _ => t.Safe config runs) (t.Settled config runs root)

section

variable {n : Nat} (ih : ∀ t : Visit Place, t.Secured config runs root n)
  (hsits : t.Sits config runs root) (hvisited : Visited config runs t)
include ih hsits hvisited

/-- The same scope goes on being used for what stands in the same function body. -/
theorem part_secures (part : Expr Place) {P : World Place → Prop}
    (hnode : t.node.isFunction = false) (hpart : part ∈ t.node.children)
    (hP : ∀ w, P w → t.Safe config runs w ∧ t.Leads config (t.beside part w)) :
    Secures P (evaluate config n part t.scope t.stack) (fun _ => t.Safe config runs) fun v w' =>
      t.Settled config runs root v w' ∧ ∃ w, P w ∧ (t.beside part w).Yields config v w' := by
  intro w hw
  obtain ⟨hsafe, hleads⟩ := hP w hw
  have hbeside := hsits.beside hsafe hnode part hpart
  have hmeets := ih (t.beside part w) hbeside (hvisited.leads hleads) w hbeside.passed
  change Outcome.Meets _ _ (evaluate config n part t.scope t.stack w) at hmeets
  cases h : evaluate config n part t.scope t.stack w with
  | done v w' =>
    rw [h] at hmeets
    have hsafe' := hsafe.through (Store.Grows.refl _) hmeets.toSafe
    exact ⟨⟨hsafe', hmeets.fits⟩, w, hw, n, h⟩
  | failed e w' =>
    rw [h] at hmeets
    exact hsafe.through (Store.Grows.refl _) hmeets
  | unfinished => trivial

theorem operand_secures (before : List (Expr Place)) (values : List (Value Place))
    (part : Expr Place) (after : List (Expr Place))
    (hoperands : t.node.operands = before ++ part :: after) :
    Secures (t.Passed config runs root before values) (evaluate config n part t.scope t.stack)
      (fun _ => t.Safe config runs)
      fun v => t.Passed config runs root (before ++ [part]) (values ++ [v]) := by
  obtain ⟨hnode, hmem⟩ := Expr.operand_inside hoperands
  have hpart := part_secures ih hsits hvisited part (P := t.Passed config runs root before values)
    hnode hmem fun w hw => ⟨hw.toSafe, .operand hoperands hw.passes⟩
  refine hpart.post fun v w' h => ?_
  obtain ⟨hsettled, w, hpassed, hyields⟩ := h
  exact hpassed.snoc hyields hsettled

theorem block_secures {place : Place} {statements : List (Expr Place)}
    (hnode : t.node = .block place statements) :
    Secures (t.Passed config runs root [] [])
      (do
        Action.each (fun e => evaluate config n e t.scope t.stack) statements
        pure .none)
      (fun _ => t.Safe config runs) (t.Settled config runs root) := by
  let passed (before : List (Expr Place)) (w : World Place) :=
    ∃ values, t.Passed config runs root before values w
  have hstatement : ∀ before e after, statements = before ++ e :: after →
      Secures (passed before) (evaluate config n e t.scope t.stack) (fun _ => t.Safe config runs)
        fun _ => passed (before ++ [e]) := by
    intro before e after hstatements w ⟨values, hw⟩
    have hoperands : t.node.operands = before ++ e :: after := by
      rw [hnode]
      exact hstatements
    have hoperand := operand_secures ih hsits hvisited before values e after hoperands w hw
    exact hoperand.weaken (fun _ _ h => h) fun v _ h => ⟨values ++ [v], h⟩
  refine ((Secures.each statements hstatement).pre fun w hw => ⟨[], hw⟩).bind fun _ => ?_
  refine Secures.pure fun w hw => ?_
  obtain ⟨values, hw⟩ := hw
  exact ⟨hw.toSafe, Fits.of_ne nofun⟩

/-- Before every round of a loop, the world is one that some rounds end in. -/
theorem loop_secures {place : Place} {condition body : Expr Place}
    (hnode : t.node = .loop place condition body) :
    Secures (t.Passed config runs root [] [])
      (do
        Action.repeatWhile (do return (← evaluate config n condition t.scope t.stack).isTruthy)
          (evaluate config n body t.scope t.stack) n
        pure .none)
      (fun _ => t.Safe config runs) (t.Settled config runs root) := by
  let before (w : World Place) := t.Safe config runs w ∧ t.Rounds config condition body w
  let within (w : World Place) := t.Safe config runs w ∧ ∃ v m, t.Rounds config condition body m ∧
    (t.beside condition m).Yields config v w ∧ v.isTruthy = true
  have hfunction : t.node.isFunction = false := by
    rw [hnode]
    rfl
  have hcondition := part_secures ih hsits hvisited condition (P := before) hfunction
    (by rw [hnode]; exact List.mem_cons_self) fun w hw => ⟨hw.1, .condition hnode hw.2⟩
  have hbody := part_secures ih hsits hvisited body (P := within) hfunction
    (by rw [hnode]; exact List.mem_cons_of_mem _ List.mem_cons_self)
    fun w ⟨hw, v, m, hm, hv, htrue⟩ => ⟨hw, .round hnode hm hv htrue⟩
  have hmore : Secures before (do return (← evaluate config n condition t.scope t.stack).isTruthy)
      (fun _ => t.Safe config runs)
      fun more w => if more then within w else t.Safe config runs w := by
    refine hcondition.bind fun v => Secures.pure fun w hw => ?_
    obtain ⟨hw, m, hm, hv⟩ := hw
    split
    · next htrue => exact ⟨hw.toSafe, v, m, hm.2, hv, htrue⟩
    · exact hw.toSafe
  have hround : Secures within (evaluate config n body t.scope t.stack) (fun _ => t.Safe config runs)
      fun _ => before := by
    refine hbody.post fun u w hw => ?_
    obtain ⟨hw, m, ⟨_, v, m', hm', hv, htrue⟩, hu⟩ := hw
    exact ⟨hw.toSafe, hm'.round hv htrue hu⟩
  refine ((hmore.repeatWhile hround n).pre fun w hw => ⟨hw.toSafe, ?_⟩).bind fun _ => ?_
  · rw [hw.passes.world_eq]
    exact .start
  · exact Secures.pure fun w hw => ⟨hw, Fits.of_ne nofun⟩

theorem conditional_secures {place : Place} {condition thenBranch elseBranch : Expr Place}
    (hnode : t.node = .conditional place condition thenBranch elseBranch) :
    Secures (t.Passed config runs root [] [])
      (do
        let v ← evaluate config n condition t.scope t.stack
        if v.isTruthy then evaluate config n thenBranch t.scope t.stack
        else evaluate config n elseBranch t.scope t.stack)
      (fun _ => t.Safe config runs) (t.Settled config runs root) := by
  have hcondition := operand_secures ih hsits hvisited [] [] condition [] (by rw [hnode]; rfl)
  refine hcondition.bind fun v => ?_
  have hbranch (part : Expr Place) (hpart : part ∈ [condition, thenBranch, elseBranch])
      (heq : (if v.isTruthy then thenBranch else elseBranch) = part) :
      Secures (t.Passed config runs root [condition] [v])
        (evaluate config n part t.scope t.stack) (fun _ => t.Safe config runs)
        (t.Settled config runs root) := by
    have hleads (w : World Place) (hw : t.Passed config runs root [condition] [v] w) :
        t.Leads config (t.beside part w) := by
      rw [← heq]
      exact .branch hnode hw.passes
    have hsecures := part_secures ih hsits hvisited part (by rw [hnode]; rfl)
      (by rw [hnode]; exact hpart) fun w hw => ⟨hw.toSafe, hleads w hw⟩
    exact hsecures.post fun _ _ h => h.1
  split
  · next htrue => exact hbranch thenBranch (by simp) (if_pos htrue)
  · next hfalse => exact hbranch elseBranch (by simp) (if_neg hfalse)

theorem call_secures {place : Place} {callee : Expr Place} {arguments : List (Expr Place)}
    (hnode : t.node = .call place callee arguments) :
    Secures (t.Passed config runs root [] [])
      (do
        let target ← evaluate config n callee t.scope t.stack
        let values ← Action.collect (fun e => evaluate config n e t.scope t.stack) arguments
        Evaluation.callValue config n t.stack place values target)
      (fun _ => t.Safe config runs) (t.Settled config runs root) := by
  have hoperand := operand_secures ih hsits hvisited
  have hcallee := hoperand [] [] callee arguments (by rw [hnode]; rfl)
  refine hcallee.bind fun target => ?_
  have harguments := Secures.collect arguments (E := fun _ => t.Safe config runs)
    (f := fun e => evaluate config n e t.scope t.stack)
    (I := fun before values => t.Passed config runs root (callee :: before) (target :: values))
    fun before e after values hlist =>
      hoperand (callee :: before) (target :: values) e after (by rw [hnode, hlist]; rfl)
  refine harguments.bind fun values => ?_
  cases target with
  | builtin b =>
    have hbuiltin : Secures (t.Safe config runs) (Evaluation.callBuiltin t.stack place b values)
        (fun _ => t.Safe config runs) (t.Settled config runs root) :=
      Evaluation.callBuiltin_secures t.stack place b values
        (fun _ _ hw => ⟨hw.grows, hw.lexical⟩) (fun _ _ hw => hw)
        fun _ _ hv hw => ⟨hw, Fits.of_ne hv⟩
    exact hbuiltin.pre fun _ hw => hw.toSafe
  | function f =>
    have hcheck := Evaluation.checkCall_secures config t.stack place f values.length
      (P := t.Passed config runs root (callee :: arguments) (.function f :: values))
    refine (hcheck.weaken (fun _ h => h) (fun _ _ h => h.1.toSafe) fun _ _ h => h).bind fun _ => ?_
    intro w ⟨hw, hcheck⟩
    obtain ⟨inner, m, henter⟩ : ∃ inner m, Evaluation.enter f values w = .done inner m :=
      ⟨_, _, Evaluation.enter_eq f values w⟩
    obtain ⟨hleads, hcalling, hgrows⟩ := hw.sits_calling hvisited hnode hcheck henter
    have hbody := ih (t.calling f inner m) hcalling (hvisited.leads hleads) m hcalling.passed
    have hplace : place = t.node.place := by
      rw [hnode]
      rfl
    rw [Action.bind_apply, Action.andThen, henter, hplace]
    refine Outcome.Meets.weaken hbody (fun _ _ h => hw.through hgrows h) fun _ _ h => ?_
    exact ⟨hw.through hgrows h.toSafe, h.fits⟩
  | none | bool | number | string =>
    exact Evaluation.raise_secures fun w hw => hw.toSafe

end

open Evaluation in
theorem secured (n : Nat) (t : Visit Place) : t.Secured config runs root n := by
  -- The bound goes down for the parts of the expression as well as for the body of a called function.
  induction n generalizing t with
  | zero => exact fun _ _ => Secures.cutOff
  | succ n ih =>
    intro hsits hvisited
    have hoperand := operand_secures ih hsits hvisited
    cases hnode : t.node with
    | block place statements =>
      match statements with
      | [statement] =>
        have hstatement := hoperand [] [] statement [] (by rw [hnode]; rfl)
        exact hstatement.post fun v w h => ⟨h.toSafe, h.fits v List.mem_cons_self⟩
      | [] | _ :: _ :: _ => exact block_secures ih hsits hvisited hnode
    | pass | number | string =>
      exact Secures.pure fun w hw => ⟨hw.toSafe, Fits.of_ne nofun⟩
    | literal _ value =>
      refine Secures.pure fun w hw => ⟨hw.toSafe, Fits.of_ne ?_⟩
      cases value <;> exact nofun
    | binary place op left right =>
      have hleft := hoperand [] [] left [right] (by rw [hnode]; rfl)
      refine hleft.bind fun a => ?_
      have hright := hoperand [left] [a] right [] (by rw [hnode]; rfl)
      refine hright.bind fun b => settle_secures (fun v hv w hw => ?_) fun _ _ _ h => h.toSafe
      exact ⟨hw.toSafe, Fits.of_ne (Value.operate_ne_function hv)⟩
    | unary place op operand =>
      have hoperand := hoperand [] [] operand [] (by rw [hnode]; rfl)
      refine hoperand.bind fun a => settle_secures (fun v hv w hw => ?_) fun _ _ _ h => h.toSafe
      rcases Value.operateUnary_cases hv with hv | hv
      · rw [hv]
        exact ⟨hw.toSafe, hw.fits a List.mem_cons_self⟩
      · exact ⟨hw.toSafe, Fits.of_ne hv⟩
    | reference place name =>
      refine lookUp_secures (fun w v hw hv => ⟨hw.toSafe, ?_⟩) fun _ h _ => h.toSafe
      rw [← hsits.root_eq hw.toSafe]
      exact hw.lexical.get? (hw.grows.lt hsits.lt) hv
    | assign place name value =>
      have hvalue := hoperand [] [] value [] (by rw [hnode]; rfl)
      refine hvalue.bind fun v => ?_
      refine Secures.bind (Q := fun _ => t.Settled config runs root v)
        (bindName_secures fun w hw => ?_) fun _ => Secures.pure fun _ h => h
      have hv := hw.fits v List.mem_cons_self
      exact ⟨hw.toSafe.set hsits name hv, hv.grows (Store.Grows.set w.store t.scope name v)⟩
    | conditional place condition thenBranch elseBranch =>
      exact conditional_secures ih hsits hvisited hnode
    | loop place condition body => exact loop_secures ih hsits hvisited hnode
    | function place name? parameters body =>
      have hmakes : t.Makes ⟨name?, parameters, body, t.scope⟩ := ⟨place, hnode, rfl⟩
      have hcaptures : Fits config runs root t.world.store
          (.function ⟨name?, parameters, body, t.scope⟩) := by
        intro f hf
        cases hf
        exact ⟨hsits.lt, t, hvisited, hmakes, hsits.stands⟩
      refine Secures.bind (Q := fun _ w => t.Safe config runs w)
        (bindFunction_secures (fun name w hw => ?_) fun _ hw => hw.toSafe)
        fun _ => Secures.pure fun w hw => ⟨hw, hcaptures.grows hw.grows⟩
      exact hw.toSafe.set hsits name (hcaptures.grows hw.grows)
    | call place callee arguments =>
      rw [evaluate_call]
      exact call_secures ih hsits hvisited hnode

/-! ## All visits -/

theorem Sits.ends (h : t.Sits config runs root) (hvisited : Visited config runs t) {n : Nat}
    (hend : (t.outcome config n).state? = some w) : t.Safe config runs w :=
  (t.secured n h hvisited t.world h.passed).of_state? (fun _ _ h => h.toSafe) hend

theorem Sits.yields (h : t.Sits config runs root) (hvisited : Visited config runs t)
    {v : Value Place} (hyields : t.Yields config v w) : t.Settled config runs root v w := by
  obtain ⟨n, houtcome⟩ := hyields
  have hmeets := t.secured n h hvisited t.world h.passed
  change (t.outcome config n).Meets _ _ at hmeets
  rw [houtcome] at hmeets
  exact hmeets

theorem Passes.passed {before : List (Expr Place)} {values : List (Value Place)}
    (hpasses : t.Passes config before values w) (h : t.Sits config runs root)
    (hvisited : Visited config runs t) (after : List (Expr Place))
    (hoperands : t.node.operands = before ++ after) :
    t.Passed config runs root before values w := by
  induction hpasses generalizing after with
  | nil => exact h.passed
  | @snoc before values part v w w' hpasses hyields ih =>
    rw [List.append_assoc] at hoperands
    have hpassed := ih _ hoperands
    obtain ⟨hnode, hmem⟩ := Expr.operand_inside hoperands
    have hbeside := h.beside hpassed.toSafe hnode part hmem
    have hsettled := hbeside.yields (hvisited.leads (.operand hoperands hpasses)) hyields
    have hsafe := hpassed.toSafe.through (Store.Grows.refl _) hsettled.toSafe
    exact hpassed.snoc hyields ⟨hsafe, hsettled.fits⟩

theorem Rounds.safe {place : Place} {condition body : Expr Place}
    (hrounds : t.Rounds config condition body w) (h : t.Sits config runs root)
    (hvisited : Visited config runs t) (hnode : t.node = .loop place condition body) :
    t.Safe config runs w := by
  have hfunction : t.node.isFunction = false := by
    rw [hnode]
    rfl
  have hchildren : t.node.children = [condition, body] := by
    rw [hnode]
    rfl
  induction hrounds with
  | start => exact h.safe
  | @round w m w' v u hrounds hcondition htrue hbody ih =>
    have hvisited₁ := hvisited.leads (.condition hnode hrounds)
    have hsits₁ := h.beside ih hfunction condition (by simp [hchildren])
    have hsafe₁ := ih.through (Store.Grows.refl _) (hsits₁.yields hvisited₁ hcondition).toSafe
    have hvisited₂ := hvisited.leads (.round hnode hrounds hcondition htrue)
    have hsits₂ := h.beside hsafe₁ hfunction body (by simp [hchildren])
    exact hsafe₁.through (Store.Grows.refl _) (hsits₂.yields hvisited₂ hbody).toSafe

/-- The visits a visit leads to sit where their expressions stand. -/
theorem Sits.leads {t' : Visit Place} (h : t.Sits config runs root)
    (hvisited : Visited config runs t) (hleads : t.Leads config t') :
    t'.Sits config runs root := by
  cases hleads with
  | operand hoperands hpasses =>
    obtain ⟨hnode, hmem⟩ := Expr.operand_inside hoperands
    exact h.beside (hpasses.passed h hvisited _ hoperands).toSafe hnode _ hmem
  | branch hnode hpasses =>
    have hpassed := hpasses.passed h hvisited [] (by rw [hnode]; rfl)
    refine h.beside hpassed.toSafe (by rw [hnode]; rfl) _ ?_
    rw [hnode]
    split <;> simp [Expr.children]
  | condition hnode hrounds =>
    refine h.beside (hrounds.safe h hvisited hnode) (by rw [hnode]; rfl) _ ?_
    rw [hnode]
    exact List.mem_cons_self
  | round hnode hrounds hcondition htrue =>
    have hsafe := hrounds.safe h hvisited hnode
    have hvisited' := hvisited.leads (.condition hnode hrounds)
    have hfunction : t.node.isFunction = false := by
      rw [hnode]
      rfl
    have hsits := h.beside hsafe hfunction _ (by rw [hnode]; exact List.mem_cons_self)
    have hsettled := hsits.yields hvisited' hcondition
    refine h.beside (hsafe.through (Store.Grows.refl _) hsettled.toSafe) hfunction _ ?_
    rw [hnode]
    exact List.mem_cons_of_mem _ List.mem_cons_self
  | body henters =>
    obtain ⟨place, callee, arguments, values, m, hnode, hpasses, hcheck, henter⟩ := henters
    have hpassed := hpasses.passed h hvisited [] (by rw [hnode, List.append_nil]; rfl)
    exact (hpassed.sits_calling hvisited hnode hcheck henter).2.1

theorem Sits.reaches {t' : Visit Place} (h : t.Sits config runs root)
    (hvisited : Visited config runs t) (hreaches : t.Reaches config t') :
    t'.Sits config runs root := by
  have hboth : Visited config runs t' ∧ t'.Sits config runs root := by
    induction hreaches with
    | refl => exact ⟨hvisited, h⟩
    | tail _ hleads ih => exact ⟨ih.1.leads hleads, ih.2.leads ih.1 hleads⟩
  exact hboth.2

end Visit
end Cyan
