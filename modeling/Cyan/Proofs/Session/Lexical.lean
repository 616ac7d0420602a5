/-
Lexical scoping in a session.

Functions outlive the run that made them, and are called by later runs that know nothing of the text
they come from.  `Session.Lexical` is the invariant between two runs; `Act.Opens.sits` starts a run from
it, and `History.lexical` carries it through a session.  `History.lexical_scoping` puts together what
holds at every step of every run.

The example scans its text by `cbv`, with the equation of `≤` that stands in
`Mathlib.Algebra.Module.Submodule.Lattice`.
-/
import Cyan.Proofs.Evaluation.Lexical
import Cyan.Proofs.Session.History
import Mathlib.Algebra.Module.Submodule.Lattice

namespace Cyan

variable {config : Config} {runs : List (Run Span)} {s : Session}

/-- Between two runs, all functions capture what they should, and the global scope is a root. -/
structure Session.Lexical (config : Config) (runs : List (Run Span)) (s : Session) : Prop where
  config_eq : s.config = config
  lexical : s.world.store.Lexical config runs
  lt : s.globals < s.world.store.size
  outer_eq : s.world.store.outer s.globals = []

namespace Act

/-- A program can be run in the scope and the world. -/
structure Opens (config : Config) (runs : List (Run Span)) (s : Session) (root : ScopeId)
    (w : World Span) : Prop where
  grows : s.world.store.Grows w.store
  lexical : w.store.Lexical config runs
  lt : root < w.store.size
  outer_eq : w.store.outer root = []

theorem opens (a : Act) (h : s.Lexical config runs) :
    Opens config runs s (a.opening s).1 (a.opening s).2 := by
  have hfresh : Opens config runs s s.world.store.addGlobal.1
      { s.world with store := s.world.store.addGlobal.2 } :=
    { grows := Store.Grows.addGlobal s.world.store
      lexical := h.lexical.addGlobal
      lt := Store.lt_addGlobal s.world.store
      outer_eq := Store.outer_addGlobal s.world.store }
  cases a with
  | run =>
    exact { grows := Store.Grows.refl _, lexical := h.lexical, lt := h.lt, outer_eq := h.outer_eq }
  | fresh | file => exact hfresh

theorem closing_grows (a : Act) (scope : ScopeId) (st : Store Span) :
    st.Grows (a.closing scope st) := by
  cases a with
  | run => exact Store.Grows.refl st
  | fresh | file => exact Store.Grows.release st scope

theorem closing_lexical (a : Act) (scope : ScopeId) {st : Store Span}
    (h : st.Lexical config runs) : (a.closing scope st).Lexical config runs := by
  cases a with
  | run => exact h
  | fresh | file => exact h.release scope

/-- The first visit of a run is outside all functions, in the root scope of the run. -/
theorem Opens.sits {r : Run Span} (h : Opens config runs s r.root r.world) :
    r.visit.Sits config (r :: runs) r.root where
  lexical := h.lexical.mono (List.subset_cons_self r runs)
  lt := h.lt
  stands := by
    refine ⟨r, List.mem_cons_self, rfl, [], Within.root, ?_⟩
    have hchain : r.world.store.chain r.root = [r.root] := by rw [Store.chain, h.outer_eq]
    have hnil : Mirrors config (r :: runs) r.root [] [r.root] := Mirrors.nil
    rw [← hchain] at hnil
    exact hnil

end Act

theorem Visited.first (config : Config) (r : Run Span) (runs : List (Run Span)) :
    Visited config (r :: runs) r.visit := ⟨r, List.mem_cons_self, .refl⟩

theorem Act.opens_begun {a : Act} {r : Run Span} (h : s.Lexical config runs)
    (hr : a.begun s = some r) : Opens config runs s r.root r.world := by
  obtain ⟨hroot, hworld⟩ := begun_opening hr
  rw [hroot, hworld]
  exact a.opens h

namespace Session.Lexical

theorem start (config : Config) (console : Console) :
    (Session.start config console).Lexical config [] where
  config_eq := rfl
  lexical := by
    have hempty : ({} : Store Span).Lexical config [] :=
      ⟨fun id hid => absurd hid (Nat.not_lt_zero id), fun _ => List.nodup_nil,
        fun id _ _ hv => absurd (Store.lt_of_bound hv) (Nat.not_lt_zero id)⟩
    exact hempty.addGlobal
  lt := Store.lt_addGlobal {}
  outer_eq := Store.outer_addGlobal {}

theorem of_grows (h : s.Lexical config runs) {runs' : List (Run Span)} {s' : Session}
    (hglobals : s'.globals = s.globals) (hconfig : s'.config = s.config)
    (hgrows : s.world.store.Grows s'.world.store)
    (hlexical : s'.world.store.Lexical config runs') : s'.Lexical config runs' where
  config_eq := by rw [hconfig, h.config_eq]
  lexical := hlexical
  lt := by
    rw [hglobals]
    exact hgrows.lt h.lt
  outer_eq := by rw [hglobals, hgrows.outer_eq s.globals h.lt, h.outer_eq]

/-- However an act ends, it leaves the session as it should be. -/
theorem act (h : s.Lexical config runs) {a : Act} {bound : Nat} {s' : Session}
    (hperform : (a.perform bound s).state? = some s') :
    s'.Lexical config ((a.begun s).toList ++ runs) := by
  obtain ⟨hglobals, hconfig, ⟨hbegun, hstore⟩ | ⟨r, w, hbegun, houtcome, hstore⟩⟩ :=
    Act.perform_cases hperform
  · rw [hbegun]
    rcases hstore with hstore | hstore
    · rw [hstore]
      exact h
    · have hopens := a.opens h
      refine h.of_grows hglobals hconfig ?_ ?_
      · rw [hstore]
        exact hopens.grows.trans (a.closing_grows _ _)
      · rw [hstore]
        exact a.closing_lexical _ hopens.lexical
  · rw [hbegun]
    rw [h.config_eq] at houtcome
    have hopens := Act.opens_begun h hbegun
    have hsafe := hopens.sits.ends (Visited.first config r runs) houtcome
    refine h.of_grows hglobals hconfig ?_ ?_
    · rw [hstore]
      exact (hopens.grows.trans hsafe.grows).trans (a.closing_grows _ _)
    · rw [hstore]
      exact a.closing_lexical _ hsafe.lexical

end Session.Lexical

/-- The invariant holds throughout the history of a session. -/
theorem History.lexical (h : History config runs s) : s.Lexical config runs := by
  induction h with
  | start console => exact Session.Lexical.start config console
  | console console _ ih => exact ⟨ih.config_eq, ih.lexical, ih.lt, ih.outer_eq⟩
  | act a _ hperform ih => exact ih.act hperform

/-- Wherever a run has come to, the scopes it sees are those of the functions around the expression it
evaluates, and every function that is bound by then, or when the evaluation of the expression ends, or
that the evaluation gives, captures the scopes of the functions around its definition. -/
theorem History.lexical_scoping (h : History config runs s) {a : Act} {r : Run Span}
    (hr : a.begun s = some r) {t : Visit Span} (ht : r.visit.Reaches config t) :
    Stands config (r :: runs) r.root t.node (t.world.store.chain t.scope) ∧
    (∀ id name f, (t.world.store.bindings id).get? name = some (.function f) →
      Captures config (r :: runs) (t.world.store.root id) t.world.store f) ∧
    (∀ n w, (t.outcome config n).state? = some w →
      ∀ id name f, (w.store.bindings id).get? name = some (.function f) →
        Captures config (r :: runs) (w.store.root id) w.store f) ∧
    ∀ n f w, t.outcome config n = .done (.function f) w →
      Captures config (r :: runs) r.root w.store f := by
  have hfirst := Visited.first config r runs
  have hsits := (Act.opens_begun h.lexical hr).sits.reaches hfirst ht
  have hvisited : Visited config (r :: runs) t := ⟨r, List.mem_cons_self, ht⟩
  refine ⟨hsits.stands, ?_, ?_, ?_⟩
  · intro id name f hbound
    exact hsits.lexical.fits id name _ hbound f rfl
  · intro n w houtcome id name f hbound
    exact (hsits.ends hvisited houtcome).lexical.fits id name _ hbound f rfl
  · intro n f w houtcome
    exact (hsits.yields hvisited ⟨n, houtcome⟩).fits f rfl

set_option maxRecDepth 4000 in
/-- The second run calls a function that the first one has bound, and then the function which that call
gives.  Inside the body of the latter it sees three scopes, as the text of the first run has it. -/
theorem History.lexical_scoping_later_run :
    let make : Source := ⟨"make", "fun f() { fun() { 1 } }"⟩
    let use : Source := ⟨"use", "f()()"⟩
    ∃ s r t, ((Act.run make).perform 9 (Session.start {} {})).state? = some s ∧
      (Act.run use).begun s = some r ∧ r.visit.Reaches {} t ∧ t.node.place.source = make ∧
      t.world.store.chain t.scope = [2, 1, 0] ∧
      ∃ runs, History {} runs s ∧ Stands {} (r :: runs) r.root t.node [2, 1, 0] := by
  intro make use
  let span (source : Source) (start stop : Nat) : Span :=
    ⟨source, ⟨start, 0, start⟩, ⟨stop, 0, stop⟩⟩
  -- The texts are scanned and parsed first, which is all that does not reduce by itself.
  have hmake : TokenStream.ofSource? make = .ok
      ⟨[⟨.keyword .fun_, span make 0 3⟩, ⟨.identifier "f", span make 4 5⟩,
        ⟨.mark .leftParen, span make 5 6⟩, ⟨.mark .rightParen, span make 6 7⟩,
        ⟨.mark .leftBrace, span make 8 9⟩, ⟨.keyword .fun_, span make 10 13⟩,
        ⟨.mark .leftParen, span make 13 14⟩, ⟨.mark .rightParen, span make 14 15⟩,
        ⟨.mark .leftBrace, span make 16 17⟩, ⟨.int 1, span make 18 19⟩,
        ⟨.mark .rightBrace, span make 20 21⟩, ⟨.mark .rightBrace, span make 22 23⟩],
      span make 23 23⟩ := by cbv
  have huse : TokenStream.ofSource? use = .ok
      ⟨[⟨.identifier "f", span use 0 1⟩, ⟨.mark .leftParen, span use 1 2⟩,
        ⟨.mark .rightParen, span use 2 3⟩, ⟨.mark .leftParen, span use 3 4⟩,
        ⟨.mark .rightParen, span use 4 5⟩], span use 5 5⟩ := by cbv
  let body : Expr Span := .block (span make 16 21) [.number (span make 18 19) (.int 1)]
  let outer : Expr Span := .block (span make 8 23) [.function (span make 10 21) none [] body]
  have hfirst : Expr.ofSource? make =
      .ok (.block (span make 0 23) [.function (span make 0 23) (some "f") [] outer]) := by
    rw [Expr.ofSource?, hmake]
    rfl
  let callee : Expr Span := .call (span use 0 3) (.reference (span use 0 1) "f") []
  let call : Expr Span := .call (span use 0 5) callee []
  have hsecond : Expr.ofSource? use = .ok (.block (span use 0 5) [call]) := by
    rw [Expr.ofSource?, huse]
    rfl
  let f : Function Span := ⟨some "f", [], outer, 0⟩
  let w : World Span := { store := (Store.addGlobal {}).2.set 0 "f" (.function f) }
  let s : Session := ⟨w, 0, {}⟩
  have hs : ((Act.run make).perform 9 (Session.start {} {})).state? = some s := by
    rw [Act.state?_perform rfl, Source.state?_execute, hfirst]
    rfl
  have hr : (Act.run use).begun s = some ⟨.block (span use 0 5) [call], 0, w⟩ := by
    show (Expr.ofSource? use).toOption.bind _ = _
    rw [hsecond]
    rfl
  let g : Function Span := ⟨none, [], body, 1⟩
  let w' : World Span := { store := (w.store.addChild 0).2.set 1 anonymousName (.function g) }
  let t : Visit Span := ⟨call, 0, {}, w⟩
  let inner : Visit Span := t.calling g 2 { store := (w'.store.addChild 1).2 }
  let one : Visit Span := inner.beside (.number (span make 18 19) (.int 1)) inner.world
  have hcallee : (t.beside callee w).Yields {} (.function g) w' := ⟨4, rfl⟩
  have henters : t.Enters {} g 2 inner.world :=
    ⟨span use 0 5, callee, [], [], w', rfl, .snoc .nil hcallee, rfl, rfl⟩
  have hcall : (Run.mk (.block (span use 0 5) [call]) 0 w).visit.Leads {} t :=
    .operand (show _ = [] ++ call :: [] from rfl) .nil
  have hone : inner.Leads {} one := .operand (show _ = [] ++ one.node :: [] from rfl) .nil
  have hreaches := ((Relation.ReflTransGen.single hcall).tail (.body henters)).tail hone
  have hhistory : History {} _ s := (History.start {}).act (.run make) hs
  have hstands := (hhistory.lexical_scoping hr hreaches).1
  exact ⟨s, _, one, hs, hr, hreaches, rfl, rfl, _, hhistory, hstands⟩

end Cyan
