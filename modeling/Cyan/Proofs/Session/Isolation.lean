/-
Fresh runs are isolated.

A program that is run in a fresh global scope finds nothing that other programs have bound, and leaves
nothing behind but what it did to the console (`History.fresh_isolated`).

What it answers depends on the console alone: in two sessions the scopes that are made from now on belong
together, and a fresh run uses no others.  What is answered after it does not depend on it: the scopes
that were there before are bound and nested as they were, nothing in them leads to the scopes it has
made, and those that are made later on belong together with and without it.  `Store.Shares` relates
scopes in both cases.
-/
import Cyan.Proofs.Scope.Reach
import Cyan.Proofs.Session.Answers
import Cyan.Proofs.Session.Lexical

namespace Cyan

variable {Place : Type}

/-! ## Stores that share scopes -/

namespace Store

/-- The scopes below `k` are shared, and those that are made from `n` and `m` on belong together. -/
def Shares (k n m id id' : Nat) : Prop :=
  (id = id' ∧ id < k) ∨ ∃ j, id = n + j ∧ id' = m + j

variable {k n m : Nat} {st st' : Store Place}

theorem Shares.symm {id id' : Nat} (h : Shares k n m id id') : Shares k m n id' id := by
  rcases h with ⟨rfl, hid⟩ | ⟨j, hid, hid'⟩
  · exact Or.inl ⟨rfl, hid⟩
  · exact Or.inr ⟨j, hid', hid⟩

theorem Shares.leftUnique (hm : k ≤ m) : Relator.LeftUnique (Shares k n m) := by
  intro a b c h h'
  rcases h with ⟨hac, ha⟩ | ⟨i, ha, hc⟩ <;> rcases h' with ⟨hbc, hb⟩ | ⟨j, hb, hc'⟩ <;> omega

theorem Shares.biUnique (hn : k ≤ n) (hm : k ≤ m) : Relator.BiUnique (Shares k n m) :=
  ⟨leftUnique hm, fun _ _ _ h h' => leftUnique hn h.symm h'.symm⟩

/-- Stores are alike if the scopes that they share are bound and nested in the same way and lead only to
one another. -/
theorem Alike.of_shares (hsame : ∀ id < k, st'.outer id = st.outer id ∧ st'.bindings id = st.bindings id)
    (houter : ∀ id < k, ∀ other ∈ st.outer id, other < k)
    (hcaptured : ∀ id < k, ∀ entry ∈ st.bindings id, ∀ g, entry.2 = .function g → g.scope < k) :
    Alike id (Shares k st.size st'.size) st st' where
  next j := Or.inr ⟨j, rfl, rfl⟩
  outer := by
    rintro id id' (⟨rfl, hid⟩ | ⟨j, rfl, rfl⟩)
    · rw [(hsame id hid).1]
      exact List.forall₂_same.mpr fun other hother => Or.inl ⟨rfl, houter id hid other hother⟩
    · rw [outer_eq_nil (Nat.le_add_right _ _), outer_eq_nil (Nat.le_add_right _ _)]
      exact .nil
  bindings := by
    rintro id id' (⟨rfl, hid⟩ | ⟨j, rfl, rfl⟩)
    · rw [(hsame id hid).2]
      refine List.forall₂_same.mpr fun entry hentry => ⟨rfl, Value.Alike.self fun g hg => ?_⟩
      exact Or.inl ⟨rfl, hcaptured id hid entry hentry g hg⟩
    · rw [bindings_eq_nil (Nat.le_add_right _ _), bindings_eq_nil (Nat.le_add_right _ _)]
      exact .nil

/-- The scopes that are made from now on belong together, whatever the stores hold. -/
theorem Alike.of_none (st st' : Store Place) : Alike id (Shares 0 st.size st'.size) st st' :=
  .of_shares (fun _ h => absurd h (Nat.not_lt_zero _)) (fun _ h => absurd h (Nat.not_lt_zero _))
    fun _ h => absurd h (Nat.not_lt_zero _)

/-- A store in which every function captures a scope as it should shares all its scopes with one that
adds scopes to it and binds names in the first of these alone. -/
theorem Lexical.alike {config : Config} {runs : List (Run Place)} (h : st.Lexical config runs)
    (hextends : st.Extends st.size st') : Alike id (Shares st.size st.size st'.size) st st' := by
  refine .of_shares (fun id hid => ?_) (fun id hid other hother => ?_) fun id hid entry hentry g hg => ?_
  · exact ⟨hextends.outer_eq id hid, hextends.bindings_eq id hid (Nat.ne_of_lt hid)⟩
  · exact (h.rooted id hid other (List.mem_cons_of_mem _ hother)).1
  · have hbound := Bindings.get?_of_mem (h.distinct id) hentry
    exact (h.fits id entry.1 entry.2 hbound g hg).lt

/-! ## What a fresh run leaves behind -/

namespace Extends

theorem addGlobal (st : Store Place) : Extends st.size st st.addGlobal.2 := by
  have hroot : Extends st.size st st.addRoot.2 :=
    { size_le := (Grows.addRoot st).size_le
      outer_eq := (Grows.addRoot st).outer_eq
      bindings_eq := fun id _ _ => bindings_addRoot st id
      isSome_get? := fun name hname => by rwa [bindings_addRoot] }
  rw [addGlobal_eq]
  exact hroot.trans (foldl_set _ _)

/-- Releasing a root that was added changes nothing that was there before. -/
theorem release (h : Extends st.size st st') (hrooted : st.Rooted) (hroot : st'.root st.size = st.size) :
    Extends st.size st (st'.release st.size) where
  size_le := by
    rw [size_release]
    exact h.size_le
  outer_eq id hid := by
    rw [outer_release]
    exact h.outer_eq id hid
  bindings_eq id hid hne := by
    have hkept : ¬ (id = st.size ∨ (st'.outer id).getLast? = some (st'.root st.size)) := by
      rintro (hid' | hlast)
      · exact hne hid'
      · rw [h.outer_eq id hid, hroot] at hlast
        have hmem := List.mem_of_getLast? hlast
        exact absurd (hrooted id hid _ (List.mem_cons_of_mem _ hmem)).1 (Nat.lt_irrefl _)
    rw [bindings_release_eq, if_neg hkept]
    exact h.bindings_eq id hid hne
  isSome_get? name hname := by
    rw [bindings_eq_nil (Nat.le_refl _)] at hname
    cases hname

end Extends
end Store

theorem Source.execute_extends {source : Source} {config : Config} {bound : Nat} {scope : ScopeId}
    {w w' : World Span} (h : (source.execute config bound scope w).state? = some w') :
    w.store.Extends scope w'.store := by
  rw [state?_execute] at h
  cases hprogram : Expr.ofSource? source with
  | error d =>
    rw [hprogram] at h
    cases h
    exact Store.Extends.refl _
  | ok program =>
    rw [hprogram] at h
    exact evaluate_extends config bound program scope {} w w' h

variable {config : Config} {runs : List (Run Span)} {s : Session}

namespace Act

variable {a : Act}

theorem opening_of_isFresh (ha : a.isFresh = true) (s : Session) :
    a.opening s = (s.world.store.size, { s.world with store := s.world.store.addGlobal.2 }) := by
  cases a with
  | run => cases ha
  | fresh | file => rfl

theorem closing_of_isFresh (ha : a.isFresh = true) (scope : ScopeId) (st : Store Span) :
    a.closing scope st = st.release scope := by
  cases a with
  | run => cases ha
  | fresh | file => rfl

/-- The world in which a fresh run ends still has all scopes as they were, and a fresh root. -/
theorem execute_of_isFresh (ha : a.isFresh = true) {source : Source} {bound : Nat} {w : World Span}
    (h : (source.execute config bound (a.opening s).1 (a.opening s).2).state? = some w) :
    s.world.store.Extends s.world.store.size w.store ∧
      w.store.root s.world.store.size = s.world.store.size := by
  rw [opening_of_isFresh ha] at h
  have hextends := Source.execute_extends h
  dsimp only at hextends
  refine ⟨(Store.Extends.addGlobal s.world.store).trans hextends, ?_⟩
  rw [Store.root, hextends.outer_eq s.world.store.size (Store.lt_addGlobal s.world.store)]
  have houter : s.world.store.addGlobal.2.outer s.world.store.size = [] :=
    Store.outer_addGlobal s.world.store
  rw [houter]
  rfl

/-- However a fresh run ends, what was there before is bound and nested as it was. -/
theorem perform_extends (ha : a.isFresh = true) (hrooted : s.world.store.Rooted) {bound : Nat}
    {s' : Session} (h : (a.perform bound s).state? = some s') :
    s.world.store.Extends s.world.store.size s'.world.store := by
  cases hsource : a.source? with
  | none =>
    rw [state?_perform_of_none hsource] at h
    cases h
    exact Store.Extends.refl _
  | some source =>
    rw [state?_perform hsource] at h
    obtain ⟨w, hw, rfl⟩ := Option.map_eq_some_iff.mp h
    obtain ⟨hextends, hroot⟩ := execute_of_isFresh ha hw
    show s.world.store.Extends s.world.store.size (a.closing (a.opening s).1 w.store)
    rw [closing_of_isFresh ha, opening_of_isFresh ha]
    exact hextends.release hrooted hroot

end Act

/-! ## Isolation -/

namespace History

/-- A fresh run answers as the first run of a new session does that has the same settings and a console
that offers the same. -/
theorem answers_fresh (h : History config runs s) {a : Act} (ha : a.isFresh = true) (bound : Nat)
    {console : Console} (hinput : console.input = s.world.console.input)
    (hroom : console.room? = s.world.console.room?) :
    Session.answers bound [a] s = Session.answers bound [a] (Session.start config console) := by
  have hshares : Relator.BiUnique (Store.Shares 0 s.world.store.size
      (Session.start config console).world.store.size) :=
    Store.Shares.biUnique (Nat.zero_le _) (Nat.zero_le _)
  have halike : Session.Alike _ _ _ s (Session.start config console) :=
    ⟨⟨.of_none _ _, .now hinput.symm hroom.symm⟩, h.lexical.config_eq⟩
  exact Session.answers_cons_eq hshares a [] bound halike (Or.inl ha) fun _ _ _ _ _ => rfl

/-- Behind a fresh run that leaves the console's offer as it was, all is answered as without it. -/
theorem answers_behind (h : History config runs s) {a : Act} (ha : a.isFresh = true) {bound : Nat}
    {s' : Session} (hperform : (a.perform bound s).state? = some s')
    (hinput : s'.world.console.input = s.world.console.input)
    (hroom : s'.world.console.room? = s.world.console.room?) (bound' : Nat) (acts : List Act) :
    Session.answers bound' acts s' = Session.answers bound' acts s := by
  have hlexical := h.lexical.lexical
  have hextends := a.perform_extends ha hlexical.rooted hperform
  have hshares : Relator.BiUnique (Store.Shares s.world.store.size s.world.store.size
      s'.world.store.size) := Store.Shares.biUnique (Nat.le_refl _) hextends.size_le
  obtain ⟨hglobals, hconfig, -⟩ := Act.perform_cases hperform
  have halike : Session.Alike _ _ _ s s' :=
    ⟨⟨hlexical.alike hextends, .now hinput.symm hroom.symm⟩, hconfig.symm⟩
  exact (Session.answers_eq hshares bound' acts halike (Or.inl ⟨hglobals.symm, h.lexical.lt⟩)).symm

/-- The world in which a fresh run ends is as it should be. -/
theorem execute_lexical (h : History config runs s) (a : Act) {source : Source} {bound : Nat}
    {w : World Span}
    (hexecute : (source.execute config bound (a.opening s).1 (a.opening s).2).state? = some w) :
    ∃ runs', w.store.Lexical config runs' := by
  have hopens := a.opens h.lexical
  rw [Source.state?_execute] at hexecute
  cases hprogram : Expr.ofSource? source with
  | error d =>
    rw [hprogram] at hexecute
    cases hexecute
    exact ⟨runs, hopens.lexical⟩
  | ok program =>
    rw [hprogram] at hexecute
    let r : Run Span := ⟨program, (a.opening s).1, (a.opening s).2⟩
    have hfirst := Visited.first config r runs
    have hsits : r.visit.Sits config (r :: runs) r.root := Act.Opens.sits hopens
    exact ⟨r :: runs, (hsits.ends hfirst hexecute).lexical⟩

/-- After any history of a session, a fresh run answers as in a new session, and what is answered behind
it does not depend on it.  The root that is released in the end leads to no scope that the lasting scope
leads to, for at no time does one root lead into the tree of another. -/
theorem fresh_isolated (h : History config runs s) :
    (∀ (a : Act) bound console, a.isFresh = true → console.input = s.world.console.input →
      console.room? = s.world.console.room? →
      Session.answers bound [a] s = Session.answers bound [a] (Session.start config console)) ∧
    (∀ (a : Act) bound s', a.isFresh = true → (a.perform bound s).state? = some s' →
      s'.world.console.input = s.world.console.input → s'.world.console.room? = s.world.console.room? →
      ∀ bound' acts, Session.answers bound' acts s' = Session.answers bound' acts s) ∧
    (∀ (a : Act) source bound s', a.isFresh = true → a.source? = some source →
      (a.perform bound s).state? = some s' →
      ∃ w, (source.execute config bound (a.opening s).1 (a.opening s).2).state? = some w ∧
        s'.world.store = w.store.release (a.opening s).1 ∧
        ∀ id, w.store.Reaches s.globals id →
          s'.world.store.bindings id = w.store.bindings id) ∧
    s.world.store.Separate ∧
    ∀ (a : Act) r t, a.begun s = some r → r.visit.Reaches config t →
      t.world.store.Separate ∧
      ∀ bound w, (t.outcome config bound).state? = some w → w.store.Separate := by
  refine ⟨?_, ?_, ?_, h.lexical.lexical.separate, ?_⟩
  · intro a bound console ha hinput hroom
    exact h.answers_fresh ha bound hinput hroom
  · intro a bound s' ha hperform hinput hroom bound' acts
    exact h.answers_behind ha hperform hinput hroom bound' acts
  · intro a source bound s' ha hsource hperform
    rw [Act.state?_perform hsource, h.lexical.config_eq] at hperform
    obtain ⟨w, hw, rfl⟩ := Option.map_eq_some_iff.mp hperform
    refine ⟨w, hw, Act.closing_of_isFresh ha _ _, fun id hreaches => ?_⟩
    obtain ⟨runs', hlexical⟩ := h.execute_lexical a hw
    obtain ⟨hextends, hroot⟩ := Act.execute_of_isFresh ha hw
    have hglobals : w.store.root s.globals = s.globals := by
      rw [Store.root, hextends.outer_eq s.globals h.lexical.lt, h.lexical.outer_eq]
      rfl
    show (a.closing (a.opening s).1 w.store).bindings id = w.store.bindings id
    rw [Act.closing_of_isFresh ha, Act.opening_of_isFresh ha]
    refine hlexical.bindings_release ?_ hreaches
    rw [hglobals, hroot]
    exact Nat.ne_of_lt h.lexical.lt
  · intro a r t hr ht
    have hsits := (Act.opens_begun h.lexical hr).sits.reaches (Visited.first config r runs) ht
    have hvisited : Visited config (r :: runs) t := ⟨r, List.mem_cons_self, ht⟩
    exact ⟨hsits.lexical.separate, fun bound w hw => (hsits.ends hvisited hw).lexical.separate⟩

set_option maxRecDepth 4000 in
/-- A name is bound in the lasting scope, and a fresh run binds it to something else. -/
theorem fresh_isolated_shadowing :
    let first := Act.run ⟨"first", "let x = 1"⟩
    let second := Act.fresh ⟨"second", "let x = 2"⟩
    ∃ s s', (first.perform 9 (Session.start {} {})).state? = some s ∧
      s.world.store.get? s.globals "x" = some (.number (.int 1)) ∧
      (second.perform 9 s).state? = some s' ∧
      Session.answers 9 [second] s = Session.answers 9 [second] (Session.start {} {}) ∧
      ∀ acts, Session.answers 9 acts s' = Session.answers 9 acts s := by
  intro first second
  -- The texts are scanned first, which is all that does not reduce by itself.
  have hfirst : TokenStream.ofSource? ⟨"first", "let x = 1"⟩ = .ok
      (let span (start stop : Nat) : Span :=
        ⟨⟨"first", "let x = 1"⟩, ⟨start, 0, start⟩, ⟨stop, 0, stop⟩⟩
      ⟨[⟨.keyword .let_, span 0 3⟩, ⟨.identifier "x", span 4 5⟩, ⟨.mark .equal, span 6 7⟩,
        ⟨.int 1, span 8 9⟩], span 9 9⟩) := by cbv
  have hsecond : TokenStream.ofSource? ⟨"second", "let x = 2"⟩ = .ok
      (let span (start stop : Nat) : Span :=
        ⟨⟨"second", "let x = 2"⟩, ⟨start, 0, start⟩, ⟨stop, 0, stop⟩⟩
      ⟨[⟨.keyword .let_, span 0 3⟩, ⟨.identifier "x", span 4 5⟩, ⟨.mark .equal, span 6 7⟩,
        ⟨.int 2, span 8 9⟩], span 9 9⟩) := by cbv
  let s : Session := ⟨{ store := (Store.addGlobal {}).2.set 0 "x" (.number (.int 1)) }, 0, {}⟩
  have hs : (first.perform 9 (Session.start {} {})).state? = some s := by
    rw [Act.state?_perform rfl, Source.state?_execute, Expr.ofSource?, hfirst]
    rfl
  let opened := s.world.store.addGlobal.2
  let s' : Session := ⟨{ store := (opened.set 1 "x" (.number (.int 2))).release 1 }, 0, {}⟩
  have hs' : (second.perform 9 s).state? = some s' := by
    rw [Act.state?_perform rfl, Source.state?_execute, Expr.ofSource?, hsecond]
    rfl
  have hhistory : History {} _ s := (History.start {}).act first hs
  obtain ⟨hanswer, hbehind, -⟩ := fresh_isolated hhistory
  refine ⟨s, s', hs, rfl, hs', hanswer second 9 {} rfl rfl rfl, fun acts => ?_⟩
  exact hbehind second 9 s' rfl hs' rfl rfl 9 acts

end History
end Cyan
