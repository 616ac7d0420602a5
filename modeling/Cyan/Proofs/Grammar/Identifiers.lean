/-
Names in programs.

Every name that stands in a program is an identifier (`Expr.ofSource?_names`): it is a word that is neither
a keyword nor a literal.  Wherever the grammar has a name it asks for a token that is an identifier
(`Derives.names`), and the tokens of a text that are identifiers are spelled that way
(`TokenStream.isIdentifier`).

So the name that stands for functions without names is in no program.
-/
import Cyan.Proofs.Grammar.Nodes
import Cyan.Proofs.Grammar.Sources
import Cyan.Proofs.Token.RoundTrip

namespace Cyan

variable {Place : Type}

/-- A word that begins with a letter or an underscore, goes on with letters, numerals and underscores, and
is neither a keyword nor a literal. -/
structure IsIdentifier (name : String) : Prop where
  isWord : ∃ c cs, name.toList = c :: cs ∧ isWordStart c ∧ ∀ d ∈ cs, isWordPart d
  ne_keyword : ∀ word : Keyword, word.spelling ≠ name
  ne_literal : ∀ value : Literal, value.spelling ≠ name

theorem IsIdentifier.ne_anonymous {name : String} (h : IsIdentifier name) : name ≠ anonymousName := by
  rintro rfl
  obtain ⟨c, cs, hcs, hc, -⟩ := h.isWord
  cases hcs
  revert hc
  decide

theorem TokenStream.isIdentifier {source : Source} {s : TokenStream Span} (h : ofSource? source = .ok s)
    {t : Token Span} (ht : t ∈ s.tokens) {name : String} (hname : t.kind = .identifier name) :
    IsIdentifier name := by
  obtain ⟨cs, hspelled⟩ := exists_spelled h t.kind (List.mem_map_of_mem ht)
  rw [hname] at hspelled
  cases hspelled with
  | identifier hc hcs hkeyword hliteral =>
    exact ⟨⟨_, _, String.toList_ofList, hc, hcs⟩, hkeyword, hliteral⟩

namespace Expr

/-- The names in an expression that are in none of the expressions inside it. -/
def names : Expr Place → List String
  | reference _ name | assign _ name _ => [name]
  | function _ name? parameters _ => name?.toList ++ parameters
  | _ => []

theorem names_withPlace (p : Place) (e : Expr Place) : (e.withPlace p).names = e.names := by
  cases e <;> rfl

end Expr

namespace Grammar

variable {join : Place → Place → Place}
  {ok : Symbol Place → List (Token Place) → List (Token Place) → Prop} {ts rest : List (Token Place)}

/-- The name is one of the tokens. -/
def Occurs (name : String) (ts : List (Token Place)) : Prop := ∃ p, ⟨.identifier name, p⟩ ∈ ts

theorem Occurs.of_isSuffix {name : String} (h : Occurs name rest) (hrest : rest <:+ ts) :
    Occurs name ts := by
  obtain ⟨p, hp⟩ := h
  exact ⟨p, hrest.subset hp⟩

theorem Occurs.cons {name : String} (h : Occurs name ts) (t : Token Place) : Occurs name (t :: ts) :=
  h.of_isSuffix (List.suffix_cons t ts)

theorem Occurs.head (name : String) (p : Place) (ts : List (Token Place)) :
    Occurs name (⟨.identifier name, p⟩ :: ts) := ⟨p, List.mem_cons_self⟩

theorem MoreParameters.names {names : List String} (h : MoreParameters ts rest names) :
    ∀ name ∈ names, Occurs name ts := by
  induction h with
  | none | comma => exact fun _ hname => nomatch hname
  | more _ ih =>
    exact List.forall_mem_cons.mpr
      ⟨(Occurs.head ..).cons _, fun name hname => ((ih name hname).cons _).cons _⟩

theorem Parameters.names {names : List String} (h : Parameters ts rest names) :
    ∀ name ∈ names, Occurs name ts := by
  cases h with
  | none => exact fun _ hname => nomatch hname
  | some h =>
    exact List.forall_mem_cons.mpr
      ⟨(Occurs.head ..).cons _, fun name hname => ((h.names name hname).cons _).cons _⟩

theorem Signature.names {name? : Option String} {parameters : List String}
    (h : Signature ts rest (name?, parameters)) :
    ∀ name ∈ name?.toList ++ parameters, Occurs name ts := by
  cases h with
  | anonymous h => exact h.names
  | named h => exact List.forall_mem_cons.mpr ⟨.head .., fun name hname => (h.names name hname).cons _⟩

/-- The names of the expression that a repetition is behind. -/
def Symbol.names : Symbol Place → List String
  | .operators _ left | .calls left => left.names
  | _ => []

/-- A name in what derives from some tokens is one of them, or was there before the repetition. -/
theorem Derives.names {N : Symbol Place} {ts rest : List (Token Place)} {e : Expr Place} :
    Derives join ok N ts rest e → ∀ name ∈ e.names, name ∈ N.names ∨ Occurs name ts
  | .pass | .int | .float | .string | .literal | .signed .. | .blocks .. | .branches .. | .loop ..
  | .block _ => fun _ hname => nomatch hname
  | .statement h | .expression h => h.names
  | .assign _ _ => List.forall_mem_singleton.mpr (Or.inr ((Occurs.head ..).cons _))
  | .reference => List.forall_mem_singleton.mpr (Or.inr (.head ..))
  | .chain (l := l) hfirst h => by
    intro name hname
    rcases h.names name hname with hleft | hmid
    · rcases hfirst.names name hleft with hnone | hts
      · cases l <;> cases hnone
      · exact Or.inr hts
    · exact Or.inr (hmid.of_isSuffix hfirst.isSuffix)
  | .call hcallee h => by
    intro name hname
    rcases h.names name hname with hcallee' | hmid
    · exact (hcallee.names name hcallee').imp nofun id
    · exact Or.inr (hmid.of_isSuffix hcallee.isSuffix)
  | .noOperator | .noArguments => fun _ hname => Or.inl hname
  | .operator _ _ hright _ h => by
    intro name hname
    rcases h.names name hname with hnone | hmid
    · cases hnone
    · exact Or.inr ((hmid.of_isSuffix hright.isSuffix).cons _)
  | .applied hlist h => by
    intro name hname
    rcases h.names name hname with hnone | hmid
    · cases hnone
    · exact Or.inr (((hmid.cons _).of_isSuffix hlist.isSuffix).cons _)
  | .parenthesis h => by
    intro name hname
    rw [Expr.names_withPlace] at hname
    exact (h.names name hname).imp nofun (Occurs.cons · _)
  | .function hsignature _ => fun name hname => Or.inr ((hsignature.names name hname).cons _)

end Grammar

open Grammar in
/-- Every name in a program is an identifier. -/
theorem Expr.ofSource?_names {source : Source} {program : Expr Span}
    (h : Expr.ofSource? source = .ok program) :
    ∀ node ∈ program.nodes, ∀ name ∈ node.names, IsIdentifier name := by
  obtain ⟨pieces, dot, list, hcuts, rfl, hlist⟩ := Expr.ofSource?_block h
  have htokens := TokenStream.ofSource?_of_cuts hcuts
  have hoccurs {name : String} {ts : List (Token Span)}
      (hts : ts <:+ Piece.tokens source Position.origin pieces) (h : Occurs name ts) :
      IsIdentifier name := by
    obtain ⟨p, hp⟩ := h.of_isSuffix hts
    exact TokenStream.isIdentifier htokens hp rfl
  refine Expr.forall_nodes (by simp [names]) fun e he node hnode name hname => ?_
  cases hlist.parts (List.suffix_refl _) e he node hnode with
  | statement hts hderives | block hts hderives =>
    rcases hderives.names name hname with hnone | hname
    · cases hnone
    · exact hoccurs hts hname

end Cyan
