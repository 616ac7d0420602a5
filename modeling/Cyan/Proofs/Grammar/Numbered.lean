/-
Reading by the numbers of tokens.

Which tokens a node of a program covers does not depend on where these stand.  A row of tokens can be
read with the numbers of its tokens for places, and a node is then placed at a range of numbers.  What
the row itself is read as is this with every range sent to the span from its first token to its last
(`Expr.ofTokens?_numbered`).

Two rows with the same kinds of tokens have the same numbers, so they are read alike
(`Expr.ofTokens?_alike`): as programs that are equal up to positions, or with the same error at the
token of the same number.
-/
import Cyan.Proofs.Grammar.Accepted
import Cyan.Proofs.Grammar.Places

namespace Cyan

variable {Place Place' Place'' : Type}

mutual

theorem Expr.map_map (f : Place → Place') (g : Place' → Place'') :
    (e : Expr Place) → (e.map f).map g = e.map fun place => g (f place)
  | .block place statements => by rw [Expr.map, Expr.map, Expr.map, mapAll_mapAll f g statements]
  | .pass _ | .number _ _ | .literal _ _ | .string _ _ | .reference _ _ => rfl
  | .binary place op left right => by
    rw [Expr.map, Expr.map, Expr.map, map_map f g left, map_map f g right]
  | .unary place op operand => by rw [Expr.map, Expr.map, Expr.map, map_map f g operand]
  | .assign place name value => by rw [Expr.map, Expr.map, Expr.map, map_map f g value]
  | .conditional place condition thenBranch elseBranch => by
    rw [Expr.map, Expr.map, Expr.map, map_map f g condition, map_map f g thenBranch,
      map_map f g elseBranch]
  | .loop place condition body => by
    rw [Expr.map, Expr.map, Expr.map, map_map f g condition, map_map f g body]
  | .function place name? parameters body => by
    rw [Expr.map, Expr.map, Expr.map, map_map f g body]
  | .call place callee arguments => by
    rw [Expr.map, Expr.map, Expr.map, map_map f g callee, mapAll_mapAll f g arguments]

theorem Expr.mapAll_mapAll (f : Place → Place') (g : Place' → Place'') : (list : List (Expr Place)) →
    Expr.mapAll g (Expr.mapAll f list) = Expr.mapAll (fun place => g (f place)) list
  | [] => rfl
  | e :: rest => by rw [mapAll, mapAll, mapAll, map_map f g e, mapAll_mapAll f g rest]

end

/-! ## Tokens by number -/

namespace TokenStream

/-- The place of the token of a number, or of the end behind the last one. -/
def placeAt (s : TokenStream Place) (k : Nat) : Place :=
  ((s.tokens[k]?).map Token.place).getD s.finish

/-- A row of tokens with the range of each one's own number for its place. -/
def numbered (kinds : List Token.Kind) : TokenStream (Nat × Nat) :=
  ⟨kinds.mapIdx fun k kind => ⟨kind, k, k⟩, kinds.length, kinds.length⟩

/-- The range from the start of one range of numbers to the end of another. -/
def across (range range' : Nat × Nat) : Nat × Nat := (range.1, range'.2)

/-- The span of the tokens of a range of numbers. -/
def spanAt (s : TokenStream Span) (range : Nat × Nat) : Span :=
  (s.placeAt range.1).through (s.placeAt range.2)

theorem length_kinds (s : TokenStream Place) : s.kinds.length = s.tokens.length := List.length_map _

theorem placeAt_length (s : TokenStream Place) : s.placeAt s.tokens.length = s.finish := by
  rw [placeAt, List.getElem?_eq_none (Nat.le_refl _)]
  rfl

theorem placeAt_of_lt (s : TokenStream Place) {k : Nat} (h : k < s.tokens.length) :
    s.placeAt k = s.tokens[k].place := by
  rw [placeAt, List.getElem?_eq_getElem h]
  rfl

theorem placeAt_numbered {kinds : List Token.Kind} {k : Nat} (h : k ≤ kinds.length) :
    (numbered kinds).placeAt k = (k, k) := by
  have hlength : (numbered kinds).tokens.length = kinds.length := List.length_mapIdx
  by_cases hlast : k = kinds.length
  · rw [hlast, ← hlength, placeAt_length, hlength]
    rfl
  · have hlt : k < (numbered kinds).tokens.length := by omega
    rw [placeAt_of_lt _ hlt]
    simp [numbered]

variable (s : TokenStream Span)

theorem spanAt_self (k : Nat) : s.spanAt (k, k) = s.placeAt k := rfl

/-- A row of tokens is the row of its numbers, with each number sent to the token's place. -/
theorem map_numbered : (numbered s.kinds).map s.spanAt = s := by
  have htokens : (numbered s.kinds).tokens.map (Token.map s.spanAt) = s.tokens := by
    refine List.ext_getElem (by simp [numbered, length_kinds]) fun k hk hk' => ?_
    simp [numbered, kinds, Token.map, spanAt_self, placeAt_of_lt s hk']
  have hfinish : s.spanAt (s.kinds.length, s.kinds.length) = s.finish := by
    rw [length_kinds, spanAt_self, placeAt_length]
  exact congrArg₂ mk htokens hfinish

theorem spanAt_joins : Grammar.Joins s.spanAt across Span.through := fun _ _ => rfl

end TokenStream

open TokenStream

/-- A row of tokens is read as what the row of its numbers is read as. -/
theorem Expr.ofTokens?_numbered (s : TokenStream Span) :
    Expr.ofTokens? Span.through s =
      ((Expr.ofTokens? across (numbered s.kinds)).mapError (SyntaxError.map s.spanAt)).map
        (Expr.map s.spanAt) := by
  have h := Expr.ofTokens?_map s.spanAt s.spanAt_joins (numbered s.kinds)
  rwa [s.map_numbered] at h

/-- Results of reading that are the same but for positions: programs of the same form, or the same
error at the token of the same number. -/
inductive Expr.ReadAlike (s s' : TokenStream Span) :
    Except (SyntaxError Span) (Expr Span) → Except (SyntaxError Span) (Expr Span) → Prop
  | program {e e' : Expr Span} : e.map (fun _ => ()) = e'.map (fun _ => ()) →
    ReadAlike s s' (.ok e) (.ok e')
  | error {e e' : SyntaxError Span} (k : Nat) : k ≤ s.tokens.length → e.fault = e'.fault →
    e.place = s.placeAt k → e'.place = s'.placeAt k → ReadAlike s s' (.error e) (.error e')

/-- Rows with the same kinds of tokens are read alike. -/
theorem Expr.ofTokens?_alike {s s' : TokenStream Span} (h : s.kinds = s'.kinds) :
    ReadAlike s s' (Expr.ofTokens? Span.through s) (Expr.ofTokens? Span.through s') := by
  rw [ofTokens?_numbered s, ofTokens?_numbered s', ← h]
  rcases Expr.ofTokens?_cases across (numbered s.kinds) with ⟨list, hread, -⟩ | ⟨e, hread, hstuck⟩
  · rw [hread]
    refine .program ?_
    rw [map_map, map_map]
  · obtain ⟨k, hk, hplace, -⟩ := hstuck.exists_index
    have hlength : (numbered s.kinds).tokens.length = s.tokens.length := by
      simp [numbered, length_kinds]
    have hk' : k ≤ s.kinds.length := by rw [length_kinds, ← hlength]; exact hk
    have hplace : e.place = (k, k) := hplace.trans (placeAt_numbered hk')
    rw [hread]
    refine .error k (hlength ▸ hk) rfl ?_ ?_
    · show s.spanAt e.place = _
      rw [hplace, spanAt_self]
    · show s'.spanAt e.place = _
      rw [hplace, spanAt_self]

end Cyan
