/-
Reading does not look at places.

A rule run on tokens with mapped places reads what it reads on the tokens themselves, up to the same
map, as long as the map respects how places are joined.  Each rule of the grammar has its law here, and
`Expr.ofTokens?_map` puts them together: the program a stream of tokens is depends on the places of its
tokens only through the places of its nodes.
-/
import Cyan.Grammar.Rules
import Cyan.Proofs.Action.Maps

namespace Cyan

variable {Place Place' α α' β β' : Type} (f : Place → Place')

def Cursor.map (c : Cursor Place) : Cursor Place' :=
  ⟨c.ahead.map (Token.map f), c.behind, c.failure?.map fun entry => (entry.1, entry.2.map f)⟩

namespace Cursor

variable (c : Cursor Place)

theorem place_map (finish : Place) : (c.map f).place (f finish) = f (c.place finish) := by
  obtain ⟨ahead, behind, failure?⟩ := c
  cases ahead <;> rfl

theorem map_pastSeparators : (c.map f).pastSeparators = c.pastSeparators.map f := by
  have hkind : ((·.kind.isSeparator) : Token Place' → Bool) ∘ Token.map f =
      fun t => t.kind.isSeparator := rfl
  simp only [pastSeparators, map, List.dropWhile_map, List.takeWhile_map, List.length_map, hkind]

end Cursor

namespace Rule

/-- The second rule is the first one on mapped places. -/
abbrev Maps (onResult : α → α') : Rule Place α → Rule Place' α' → Prop :=
  Action.Maps (Cursor.map f) (SyntaxError.map f) onResult

theorem peek_maps : Maps f id peek peek := by
  intro c
  obtain ⟨ahead, behind, failure?⟩ := c
  cases ahead <;> rfl

theorem sees_maps (kind : Token.Kind) : Maps f id (sees kind) (sees kind) :=
  (peek_maps f).bind fun next? => .pure (decide (next? = some kind))

theorem fail_maps (onResult : α → α') (finish : Place) (fault : SyntaxFault) :
    Maps f onResult (fail finish fault) (fail (f finish) fault) := by
  intro c
  show Outcome.failed (SyntaxError.mk fault ((c.map f).place (f finish))) _ = _
  rw [Cursor.place_map]
  rfl

theorem take_maps (read? : Token.Kind → Option α) :
    Maps f (Option.map fun entry => (f entry.1, entry.2)) (take read?) (take read?) := by
  intro c
  obtain ⟨ahead, behind, failure?⟩ := c
  cases ahead with
  | nil => rfl
  | cons t rest =>
    simp only [take, Cursor.map, List.map_cons, Token.kind_map]
    cases read? t.kind <;> rfl

theorem accept_maps (kind : Token.Kind) :
    Maps f (Option.map f) (accept kind) (accept kind) := by
  refine (take_maps f _).bind fun taken => ?_
  cases taken with
  | some entry => exact .pure (some entry.1)
  | none => exact .pure none

theorem acceptIdentifier_maps : Maps f id (acceptIdentifier : Rule Place _) acceptIdentifier := by
  refine (take_maps f _).bind fun taken => ?_
  cases taken with
  | some entry => exact .pure (some entry.2)
  | none => exact .pure none

theorem expect_maps (finish : Place) (kind : Token.Kind) (what : Expectation) :
    Maps f f (expect finish kind what) (expect (f finish) kind what) := by
  refine (accept_maps f kind).bind fun place? => ?_
  cases place? with
  | some place => exact .pure place
  | none => exact fail_maps f f finish _

theorem discard_maps {onResult : α → α'} {rule : Rule Place α} {rule' : Rule Place' α'}
    (h : Maps f onResult rule rule') : Maps f id (discard rule) (discard rule') :=
  h.bind fun _ => .pure ()

theorem skipSeparators_maps : Maps f id (skipSeparators : Rule Place Bool) skipSeparators := by
  intro c
  show Outcome.done _ (c.map f).pastSeparators = _
  rw [Cursor.map_pastSeparators]
  obtain ⟨ahead, behind, failure?⟩ := c
  cases ahead <;> rfl

theorem attempt_maps {onResult : α → α'} {rule : Rule Place α} {rule' : Rule Place' α'}
    (h : Maps f onResult rule rule') :
    Maps f (Option.map onResult) (attempt rule) (attempt rule') := by
  intro c
  rw [attempt, attempt, h c]
  cases rule c with
  | done a c' => rfl
  | failed e c' =>
    by_cases h : c.behind < c'.behind
    · simp [Outcome.map, Cursor.map, h]
    · simp [Outcome.map, Cursor.map, h]
  | unfinished => rfl

theorem unexpected_maps (onResult : α → α') (finish : Place) (fault : SyntaxFault) :
    Maps f onResult (unexpected finish fault) (unexpected (f finish) fault) := by
  intro c
  obtain ⟨ahead, behind, failure?⟩ := c
  cases failure? with
  | none => exact fail_maps f onResult finish fault _
  | some entry =>
    obtain ⟨at?, e⟩ := entry
    have hfail := fail_maps f onResult finish fault ⟨ahead, behind, none⟩
    by_cases h : at? = behind
    · simp [unexpected, Cursor.map, h, Outcome.map]
    · simpa [unexpected, Cursor.map, h] using hfail

end Rule

namespace Grammar

open Rule

variable (join : Place → Place → Place) (join' : Place' → Place' → Place') (finish : Place)

/-! ## The rules -/

theorem parameters_maps (names : List String) (n : Nat) :
    Maps f id (parameters (rewinding join finish) names n)
      (parameters (rewinding join' (f finish)) names n) := by
  induction n generalizing names with
  | zero => exact .cutOff
  | succ n ih =>
    refine (accept_maps f _).bind fun comma? => ?_
    cases comma? with
    | none => exact .pure names.reverse
    | some _ =>
      refine (acceptIdentifier_maps f).bind fun name? => ?_
      cases name? with
      | some name => exact ih (name :: names)
      | none =>
        refine (sees_maps f _).bind fun closes => ?_
        exact .ite (.pure names.reverse) (fail_maps f id finish _)

theorem identifier_maps :
    Maps f id (identifier (rewinding join finish)) (identifier (rewinding join' (f finish))) := by
  refine (acceptIdentifier_maps f).bind fun name? => ?_
  cases name? with
  | some name => exact .pure name
  | none => exact fail_maps f id finish _

theorem signature_maps (n : Nat) :
    Maps f id (signature (rewinding join finish) n)
      (signature (rewinding join' (f finish)) n) := by
  refine (acceptIdentifier_maps f).bind fun name? => ?_
  refine (discard_maps f (expect_maps f finish _ _)).bind fun _ => ?_
  have hclose (names : List String) :
      Maps f id (do
          discard <| expect finish (.mark .rightParen) .commaOrCloseParen
          return (name?, names))
        (do
          discard <| expect (f finish) (.mark .rightParen) .commaOrCloseParen
          return (name?, names)) :=
    (discard_maps f (expect_maps f finish _ _)).bind fun _ => .pure (name?, names)
  refine (sees_maps f _).bind fun closes => .ite ?_ ?_
  · exact (Action.Maps.pure []).bind hclose
  · exact (identifier_maps f join join' finish).bind fun name =>
      (parameters_maps f join join' finish [name] n).bind hclose

/-- Beginnings of an atom that differ in places only. -/
inductive Opening.Mapped : Opening Place → Opening Place' → Prop
  | leaf {node node'} : (∀ place, (node place).map f = node' (f place)) →
    Mapped (.leaf node) (.leaf node')
  | parenthesis : Mapped .parenthesis .parenthesis
  | conditional : Mapped .conditional .conditional
  | loop : Mapped .loop .loop
  | function : Mapped .function .function

theorem opening?_mapped (kind : Token.Kind) :
    Option.Rel (Opening.Mapped f) (opening? kind) (opening? kind) := by
  cases kind with
  | int | float | string | identifier | literal => exact .some (.leaf fun _ => rfl)
  | mark m => cases m <;> first | exact .none | exact .some .parenthesis
  | keyword word =>
    cases word <;>
      first | exact .none | exact .some .conditional | exact .some .loop | exact .some .function

theorem take_opening_maps {onResult : α → α'} {k : Option (Place × Opening Place) → Rule Place α}
    {k' : Option (Place' × Opening Place') → Rule Place' α'}
    (hnone : Maps f onResult (k none) (k' none))
    (hsome : ∀ place o o', Opening.Mapped f o o' →
      Maps f onResult (k (some (place, o))) (k' (some (f place, o')))) :
    Maps f onResult (take opening? >>= k) (take opening? >>= k') := by
  intro c
  obtain ⟨ahead, behind, failure?⟩ := c
  cases ahead with
  | nil => exact hnone ⟨[], behind, failure?⟩
  | cons t rest =>
    have hopening := opening?_mapped f t.kind
    simp only [Action.bind_apply, Action.andThen, take, Cursor.map, List.map_cons, Token.kind_map]
    generalize (opening? t.kind : Option (Opening Place)) = o? at hopening
    generalize (opening? t.kind : Option (Opening Place')) = o?' at hopening
    cases hopening with
    | none => exact hnone ⟨t :: rest, behind, failure?⟩
    | some ho => exact hsome t.place _ _ ho ⟨rest, behind + 1, failure?⟩

/-- The map sends joined places to the places joined. -/
def Joins (f : Place → Place') (join : Place → Place → Place) (join' : Place' → Place' → Place') :
    Prop := ∀ a b, f (join a b) = join' (f a) (f b)

section

variable {f join join' finish}

theorem Joins.rewinding (h : Joins f join join') (a b : Place) :
    f ((rewinding join finish).join a b) =
      (Grammar.rewinding join' (f finish)).join (f a) (f b) := h a b

mutual

theorem statements_maps (h : Joins f join join') : ∀ n,
    Maps f (List.map (Expr.map f)) (statements (rewinding join finish) n)
      (statements (rewinding join' (f finish)) n)
  | 0 => .cutOff
  | n + 1 => (discard_maps f (skipSeparators_maps f)).bind fun _ =>
    (statement_maps h n).bind fun first => moreStatements_maps h n [first]

theorem moreStatements_maps (h : Joins f join join') : ∀ n (done : List (Expr Place)),
    Maps f (List.map (Expr.map f)) (moreStatements (rewinding join finish) done n)
      (moreStatements (rewinding join' (f finish)) (done.map (Expr.map f)) n)
  | 0, _ => .cutOff
  | n + 1, done => by
    have hdone : Maps f (List.map (Expr.map f)) (pure done.reverse : Rule Place _)
        (pure (done.map (Expr.map f)).reverse) := .pure_of List.map_reverse
    refine (skipSeparators_maps f).bind fun separated => .ite ?_ hdone
    refine (attempt_maps f (statement_maps h n)).bind fun e? => ?_
    cases e? with
    | some e => exact moreStatements_maps h n (e :: done)
    | none => exact hdone

theorem statement_maps (h : Joins f join join') : ∀ n,
    Maps f (Expr.map f) (statement (rewinding join finish) n)
      (statement (rewinding join' (f finish)) n)
  | 0 => .cutOff
  | n + 1 => by
    refine (accept_maps f _).bind fun place? => ?_
    cases place? with
    | some place => exact .pure (Expr.pass place)
    | none => exact expression_maps h n

theorem expression_maps (h : Joins f join join') : ∀ n,
    Maps f (Expr.map f) (expression (rewinding join finish) n)
      (expression (rewinding join' (f finish)) n)
  | 0 => .cutOff
  | n + 1 => by
    refine (accept_maps f _).bind fun place? => ?_
    cases place? with
    | some place =>
      refine (identifier_maps f join join' finish).bind fun name => ?_
      refine (discard_maps f (expect_maps f finish _ _)).bind fun _ => ?_
      refine (expression_maps h n).bind fun value => ?_
      exact .pure_of (by rw [Expr.map, Expr.place_map, h.rewinding]; rfl)
    | none => exact operation_maps h n .logic

theorem operation_maps (h : Joins f join join') : ∀ n l,
    Maps f (Expr.map f) (operation (rewinding join finish) l n)
      (operation (rewinding join' (f finish)) l n)
  | 0, _ => .cutOff
  | n + 1, l => (operand_maps h n l).bind fun first => operators_maps h n l first

theorem operators_maps (h : Joins f join join') : ∀ n l (left : Expr Place),
    Maps f (Expr.map f) (operators (rewinding join finish) l left n)
      (operators (rewinding join' (f finish)) l (left.map f) n)
  | 0, _, _ => .cutOff
  | n + 1, l, left => by
    refine (take_maps f _).bind fun taken => ?_
    cases taken with
    | some entry =>
      refine (operation_maps h n _).bind fun right => ?_
      have ih := operators_maps h n l (.binary (join left.place right.place) entry.2 left right)
      rw [Expr.map, h, ← Expr.place_map f left, ← Expr.place_map f right] at ih
      exact ih
    | none => exact .pure left

theorem operand_maps (h : Joins f join join') : ∀ n l,
    Maps f (Expr.map f) (operand (rewinding join finish) l n)
      (operand (rewinding join' (f finish)) l n)
  | 0, _ => .cutOff
  | n + 1, l => by
    refine (take_maps f _).bind fun taken => ?_
    cases taken with
    | some entry =>
      refine (operation_maps h n _).bind fun inner => ?_
      exact .pure_of (by rw [Expr.map, Expr.place_map, h.rewinding])
    | none => exact call_maps h n

theorem call_maps (h : Joins f join join') : ∀ n,
    Maps f (Expr.map f) (call (rewinding join finish) n) (call (rewinding join' (f finish)) n)
  | 0 => .cutOff
  | n + 1 => (atom_maps h n).bind fun callee => calls_maps h n callee

theorem calls_maps (h : Joins f join join') : ∀ n (callee : Expr Place),
    Maps f (Expr.map f) (calls (rewinding join finish) callee n)
      (calls (rewinding join' (f finish)) (callee.map f) n)
  | 0, _ => .cutOff
  | n + 1, callee => by
    refine (accept_maps f _).bind fun place? => ?_
    cases place? with
    | none => exact .pure callee
    | some place =>
      refine (arguments_maps h n).bind fun list => (expect_maps f finish _ _).bind fun close => ?_
      have ih := calls_maps h n (.call (join callee.place close) callee list)
      rw [Expr.map, Expr.mapAll_eq_map, h, ← Expr.place_map f callee] at ih
      exact ih

theorem arguments_maps (h : Joins f join join') : ∀ n,
    Maps f (List.map (Expr.map f)) (arguments (rewinding join finish) n)
      (arguments (rewinding join' (f finish)) n)
  | 0 => .cutOff
  | n + 1 => by
    refine (sees_maps f _).bind fun closes => .ite (.pure []) ?_
    exact (expression_maps h n).bind fun first => moreArguments_maps h n [first]

theorem moreArguments_maps (h : Joins f join join') : ∀ n (done : List (Expr Place)),
    Maps f (List.map (Expr.map f)) (moreArguments (rewinding join finish) done n)
      (moreArguments (rewinding join' (f finish)) (done.map (Expr.map f)) n)
  | 0, _ => .cutOff
  | n + 1, done => by
    refine (accept_maps f _).bind fun place? => ?_
    cases place? with
    | some place => exact (expression_maps h n).bind fun e => moreArguments_maps h n (e :: done)
    | none => exact .pure_of List.map_reverse

theorem atom_maps (h : Joins f join join') : ∀ n,
    Maps f (Expr.map f) (atom (rewinding join finish) n) (atom (rewinding join' (f finish)) n)
  | 0 => .cutOff
  | n + 1 => by
    refine take_opening_maps f (fail_maps f _ finish _) fun place o o' ho => ?_
    cases ho with
    | leaf hnode => exact .pure_of (hnode place)
    | parenthesis =>
      refine (expression_maps h n).bind fun e => (expect_maps f finish _ _).bind fun close => ?_
      exact .pure_of (by rw [Expr.map_withPlace, h.rewinding])
    | conditional => exact conditional_maps h n place
    | loop => exact loop_maps h n place
    | function => exact function_maps h n place

theorem conditional_maps (h : Joins f join join') : ∀ n place,
    Maps f (Expr.map f) (conditional (rewinding join finish) place n)
      (conditional (rewinding join' (f finish)) (f place) n)
  | 0, _ => .cutOff
  | n + 1, place => by
    refine (operation_maps h n _).bind fun condition => ?_
    refine (discard_maps f (expect_maps f finish _ _)).bind fun _ => ?_
    refine (sees_maps f _).bind fun braces => (branch_maps h n braces).bind fun thenBranch => ?_
    refine (discard_maps f (expect_maps f finish _ _)).bind fun _ => ?_
    refine (branch_maps h n braces).bind fun elseBranch => ?_
    exact .pure_of (by rw [Expr.map, Expr.place_map, h.rewinding])

theorem branch_maps (h : Joins f join join') : ∀ n braces,
    Maps f (Expr.map f) (branch (rewinding join finish) braces n)
      (branch (rewinding join' (f finish)) braces n)
  | 0, _ => .cutOff
  | n + 1, _ => .ite (block_maps h n) (expression_maps h n)

theorem loop_maps (h : Joins f join join') : ∀ n place,
    Maps f (Expr.map f) (loop (rewinding join finish) place n)
      (loop (rewinding join' (f finish)) (f place) n)
  | 0, _ => .cutOff
  | n + 1, place => by
    refine (operation_maps h n _).bind fun condition => (block_maps h n).bind fun body => ?_
    exact .pure_of (by rw [Expr.map, Expr.place_map, h.rewinding])

theorem function_maps (h : Joins f join join') : ∀ n place,
    Maps f (Expr.map f) (function (rewinding join finish) place n)
      (function (rewinding join' (f finish)) (f place) n)
  | 0, _ => .cutOff
  | n + 1, place => by
    refine (signature_maps f join join' finish n).bind fun head => ?_
    refine (block_maps h n).bind fun body => ?_
    exact .pure_of (by rw [Expr.map, Expr.place_map, h.rewinding])

theorem block_maps (h : Joins f join join') : ∀ n,
    Maps f (Expr.map f) (block (rewinding join finish) n) (block (rewinding join' (f finish)) n)
  | 0 => .cutOff
  | n + 1 => by
    refine (expect_maps f finish _ _).bind fun opening => (statements_maps h n).bind fun list => ?_
    refine (accept_maps f _).bind fun close? => ?_
    cases close? with
    | some close => exact .pure_of (by rw [Expr.map, Expr.mapAll_eq_map, h.rewinding])
    | none => exact unexpected_maps f _ finish _

end

theorem extent_map (h : Joins f join join') (list : List (Expr Place)) :
    extent (rewinding join' (f finish)) (list.map (Expr.map f)) =
      f (extent (rewinding join finish) list) := by
  rw [extent, extent, List.head?_map, List.getLast?_map]
  cases list.head? with
  | none => rfl
  | some first =>
    cases list.getLast? with
    | none => rfl
    | some last =>
      show join' (first.map f).place (last.map f).place = f (join first.place last.place)
      rw [h, Expr.place_map, Expr.place_map]

theorem program_maps (h : Joins f join join') (n : Nat) :
    Maps f (Expr.map f) (program (rewinding join finish) n)
      (program (rewinding join' (f finish)) n) := by
  refine (statements_maps h n).bind fun list => (peek_maps f).bind fun next? => ?_
  cases next? with
  | none => exact .pure_of (by rw [Expr.map, Expr.mapAll_eq_map, extent_map h])
  | some kind => exact unexpected_maps f _ finish _

end

end Grammar

/-- A stream with mapped places is the same program, or has the same error, up to the map. -/
theorem Expr.ofTokens?_map {join : Place → Place → Place} {join' : Place' → Place' → Place'}
    (h : Grammar.Joins f join join') (s : TokenStream Place) :
    Expr.ofTokens? join' (s.map f) =
      ((Expr.ofTokens? join s).mapError (SyntaxError.map f)).map (Expr.map f) := by
  have hprogram : Rule.Maps f (Expr.map f)
      (Grammar.program (Grammar.rewinding join s.finish) (Grammar.depth s.tokens.length))
      (Grammar.program (Grammar.rewinding join' (f s.finish)) (Grammar.depth s.tokens.length)) :=
    Grammar.program_maps h _
  have hread := hprogram { ahead := s.tokens }
  have hlength : (s.tokens.map (Token.map f)).length = s.tokens.length := List.length_map _
  simp only [Expr.ofTokens?, Grammar.read?, TokenStream.map, hlength]
  rw [show Cursor.mk (s.tokens.map (Token.map f)) 0 none = Cursor.map f { ahead := s.tokens } from rfl,
    hread]
  cases Grammar.program (Grammar.rewinding join s.finish) (Grammar.depth s.tokens.length)
    { ahead := s.tokens } <;> rfl

end Cyan
