/-
Where the cursor can be.

A cursor within a row of tokens has read the first so many of them and has the others ahead.  Started
within a row of tokens, a rule never leaves it, and is never at a place in front of the one it was started
at: not when it ends, with a result or with an error, and not on the way there (`Grammar.visits_within`).
So a failed attempt has nothing to make up for but what it has read, and looking at the next token is
looking at the token with the cursor's number.

`Grammar.Visits` says what it is to be at a cursor on the way.  It follows a rule from one of its single
steps to the next, into the rules it tries, and back from these to where they were tried.

The steps of a rule also tell how far it comes.  Every production except the repetitions reads a token if
it succeeds, and a statement that fails has read one exactly if the token it was started at can begin a
statement.  A row of statements comes as far as past all separators behind it, so a program that might also
end in front of a newline would be no other (`Grammar.program_newline`).
-/
import Cyan.Proofs.Action.Secures
import Cyan.Proofs.Grammar.Foreseen

namespace Cyan

variable {Place : Type}

namespace Cursor

variable {ts : List (Token Place)} {c d : Cursor Place}

/-- The tokens ahead of the cursor are those of the row that have not been read. -/
structure Within (ts : List (Token Place)) (c : Cursor Place) : Prop where
  behind_le : c.behind ≤ ts.length
  ahead_eq : c.ahead = ts.drop c.behind

/-- What stands at each place of a row of tokens: the kind of the token, and behind the last of them the
end. -/
def entries (ts : List (Token Place)) : List (Option Token.Kind) := ts.map (fun t => some t.kind) ++ [none]

@[simp] theorem length_entries : (entries ts).length = ts.length + 1 := by simp [entries]

theorem Within.start (ts : List (Token Place)) : Within ts { ahead := ts } := ⟨Nat.zero_le _, rfl⟩

theorem Reaches.within (h : c.Reaches d) (hc : c.Within ts) : d.Within ts := by
  obtain ⟨u, hahead, hbehind⟩ := h
  have hdrop : ts.drop c.behind = u ++ d.ahead := hc.ahead_eq.symm.trans hahead
  constructor
  · have hlength := congrArg List.length hdrop
    rw [List.length_drop, List.length_append] at hlength
    have hle := hc.behind_le
    omega
  · rw [hbehind, ← List.drop_drop, hdrop, List.drop_left]

/-- The next token of a cursor within a row is the one with the cursor's number, and the end has the
number behind the last one. -/
theorem Within.getElem?_entries (hc : c.Within ts) :
    (entries ts)[c.behind]? = some (c.ahead.head?.map Token.kind) := by
  rw [hc.ahead_eq, List.head?_drop, entries, List.getElem?_append, List.length_map, List.getElem?_map]
  rcases Nat.lt_or_eq_of_le hc.behind_le with hlt | heq
  · rw [if_pos hlt, List.getElem?_eq_getElem hlt]
    rfl
  · rw [heq, if_neg (Nat.lt_irrefl _), Nat.sub_self, List.getElem?_eq_none (Nat.le_refl _)]
    rfl

end Cursor

namespace Rule

/-- A step that has read a token has moved on. -/
theorem Step.lt_of_done {α : Type} {reads : α → Bool} {rule : Rule Place α} {c d : Cursor Place}
    {a : α} (h : rule.Step reads) (hd : rule c = .done a d) (ha : reads a = true) : c.behind < d.behind := by
  cases h with
  | pure hreads =>
    cases hd
    rw [hreads] at ha
    cases ha
  | cutOff | fail => cases hd
  | unexpected finish fault =>
    rw [Rule.unexpected] at hd
    split at hd
    · split at hd <;> cases hd
    · cases hd
  | peek | skipSeparators => cases ha
  | take read? =>
    rcases take_cases read? c with ⟨t, rest, b, hc, -, htake⟩ | ⟨-, htake⟩
    · rw [htake] at hd
      cases hd
      rw [Cursor.next_of_ahead hc]
      exact Nat.lt_succ_self _
    · rw [htake] at hd
      cases hd
      cases ha

end Rule

namespace Grammar

/-! ## On the way -/

section

variable (join : Place → Place → Place) (finish : Place)

/-- Whether a rule that is started at the first cursor is at the second one at some time. -/
inductive Visits : {α : Type} → Rule Place α → Cursor Place → Cursor Place → Prop
  | start {α} (rule : Rule Place α) (c) : Visits rule c c
  | stop {α reads} {rule : Rule Place α} {c d} : rule.Step reads → (rule c).state? = some d → Visits rule c d
  | separator {c u v} : c.ahead = u ++ v → (∀ t ∈ u, t.kind.isSeparator) →
    Visits Rule.skipSeparators c ⟨v, c.behind + u.length, c.failure?⟩
  | first {α β} {rule : Rule Place α} {f : α → Rule Place β} {c d} :
    Visits rule c d → Visits (rule >>= f) c d
  | second {α β reads} {rule : Rule Place α} {f : α → Rule Place β} {a c m d} :
    Composed (rewinding join finish) reads rule → rule c = .done a m → Visits (f a) m d →
    Visits (rule >>= f) c d
  | tried {α} {rule : Rule Place α} {c d} : Visits rule c d → Visits (Rule.attempt rule) c d
  | resumed {α reads} {rule : Rule Place α} {c d} : Composed (rewinding join finish) reads rule →
    (Rule.attempt rule c).state? = some d → Visits (Rule.attempt rule) c d

variable {join finish} {α : Type} {reads : α → Bool} {rule : Rule Place α} {c d : Cursor Place}

theorem Visits.reaches (h : Visits join finish rule c d) : c.Reaches d := by
  have hforward := rewinding_forward join finish
  induction h with
  | start _ c => exact refl_of Cursor.Reaches c
  | stop hstep h => exact hstep.keeps Cursor.reaches_steps _ _ h
  | separator hahead _ => exact ⟨_, hahead, rfl⟩
  | first _ ih => exact ih
  | second hrule h _ ih => exact trans_of Cursor.Reaches ((hrule.keeps hforward).done h) ih
  | tried _ ih => exact ih
  | resumed hrule h => exact Rule.attempt_forward (hrule.keeps hforward) _ _ h

/-- Where a rule ends is on its way. -/
theorem Composed.visits (h : Composed (rewinding join finish) reads rule) (hd : (rule c).state? = some d) :
    Visits join finish rule c d := by
  induction h generalizing c with
  | step hstep => exact .stop hstep hd
  | bind hrule _ ih ihf =>
    rcases Action.state?_bind hd with ⟨e, hfailed⟩ | ⟨a, m, hdone, hd⟩
    · exact .first (ih (by rw [hfailed]; rfl))
    · exact .second hrule hdone (ihf a hd)
  | next hrule _ => exact .resumed hrule hd
  | weaken _ ih => exact ih hd

end

/-! ## Tokens that are read -/

section

variable {α : Type} {reads : α → Bool} {rule : Rule Place α} {c d : Cursor Place} {a : α}

/-- A rule that is seen from its steps to have read a token has moved on. -/
theorem Composed.lt_of_done {g : Setting Place} (hg : g.Passes Cursor.Reaches) (h : Composed g reads rule)
    (hd : rule c = .done a d) (ha : reads a = true) : c.behind < d.behind := by
  induction h generalizing c d with
  | step hstep => exact hstep.lt_of_done hd ha
  | @bind _ _ reads _ rule f hrule hf ih ihf =>
    rw [Action.bind_apply, Action.andThen] at hd
    cases hfirst : rule c with
    | done b m =>
      rw [hfirst] at hd
      have hle := ((hrule.keeps hg).done hfirst).behind_le
      have hle' := (((hf b).keeps hg).done hd).behind_le
      cases hb : reads b with
      | true =>
        have hlt := ih hfirst hb
        omega
      | false =>
        have hlt := ihf b hd (show (_ && !reads b) = true by rw [ha, hb]; rfl)
        omega
    | failed | unfinished =>
      rw [hfirst] at hd
      cases hd
  | next | weaken => cases ha

end

/-! ## Behind a row of statements -/

section

open Cyan.Action (Secures)

variable (join : Place → Place → Place) (finish : Place)

/-- A failed attempt leaves what was true of the tokens ahead. -/
theorem attempt_secures {α : Type} (rule : Rule Place α) (P : List (Token Place) → Prop) :
    Secures (fun c => P c.ahead) (Rule.attempt rule) (fun _ _ => True) fun a? c => a? = none → P c.ahead := by
  intro c hc
  rw [Rule.attempt]
  cases rule c with
  | done a d =>
    intro h
    cases h
  | failed e d => exact fun _ => hc
  | unfinished => trivial

theorem moreStatements_secures (n : Nat) (done : List (Expr Place)) :
    Secures (fun _ => True) (moreStatements (rewinding join finish) done n) (fun _ _ => True)
      fun _ c => ¬ Starts (·.isSeparator) c.ahead := by
  induction n generalizing done with
  | zero => exact .cutOff
  | succ n ih =>
    unfold moreStatements
    have hskip : Secures (fun _ => True) (Rule.skipSeparators : Rule Place Bool) (fun _ _ => True)
        fun _ c => ¬ Starts (·.isSeparator) c.ahead := fun c _ => not_starts_dropWhile c.ahead
    refine hskip.bind fun separated => ?_
    cases separated with
    | false => exact .pure fun _ h => h
    | true =>
      refine .bind (attempt_secures _ fun ts => ¬ Starts (·.isSeparator) ts) fun e? => ?_
      cases e? with
      | none => exact .pure fun _ h => h rfl
      | some e => exact (ih (e :: done)).pre fun _ _ => trivial

/-- A row of statements has passed all separators behind it. -/
theorem statements_secures (n : Nat) : Secures (fun _ => True) (statements (rewinding join finish) n)
    (fun _ _ => True) fun _ c => ¬ Starts (·.isSeparator) c.ahead := by
  cases n with
  | zero => exact .cutOff
  | succ n =>
    unfold statements
    have hany {α : Type} (rule : Rule Place α) :
        Secures (fun _ => True) rule (fun _ _ => True) fun _ _ => True := by
      intro c _
      cases rule c <;> trivial
    exact (hany _).bind fun _ => (hany _).bind fun first => moreStatements_secures join finish n [first]

/-- A program that may also end in front of a newline ends with the tokens all the same. -/
theorem program_newline (n : Nat) : program (rewinding join finish) n = (do
    let list ← statements (rewinding join finish) n
    let kind? ← Rule.peek
    if kind? = none ∨ kind? = some (.mark .newline) then
      return .block (extent (rewinding join finish) list) list
    else Rule.unexpected finish .leftover) := by
  funext c
  rw [program, Action.bind_apply, Action.bind_apply, Action.andThen, Action.andThen]
  have hsecures := statements_secures join finish n c trivial
  cases hlist : statements (rewinding join finish) n c with
  | done list d =>
    rw [hlist] at hsecures
    obtain ⟨ahead, behind, failure?⟩ := d
    cases ahead with
    | nil => rfl
    | cons t rest =>
      have hkind : t.kind ≠ .mark .newline := by
        intro hkind
        exact hsecures (starts_cons.mpr (by rw [hkind]; rfl))
      show _ = (if some t.kind = none ∨ some t.kind = some (.mark .newline) then _ else _ : Rule Place _) _
      rw [if_neg (by simp [hkind])]
      rfl
  | failed | unfinished => rfl

end

/-! ## Productions -/

/-- The rules, and the repetitions they are made of, by the type of what they read. -/
inductive Production (Place : Type) : Type → Type
  | program : Production Place (Expr Place)
  | statement : Production Place (Expr Place)
  | expression : Production Place (Expr Place)
  | call : Production Place (Expr Place)
  | atom : Production Place (Expr Place)
  | block : Production Place (Expr Place)
  | operation (l : Level) : Production Place (Expr Place)
  | operand (l : Level) : Production Place (Expr Place)
  | conditional (place : Place) : Production Place (Expr Place)
  | branch (braces : Bool) : Production Place (Expr Place)
  | loop (place : Place) : Production Place (Expr Place)
  | function (place : Place) : Production Place (Expr Place)
  | statements : Production Place (List (Expr Place))
  | signature : Production Place (Option String × List String)
  | identifier : Production Place String
  | expect (kind : Token.Kind) (what : Expectation) : Production Place Place
  | skipSeparators : Production Place Bool
  | parameters (names : List String) : Production Place (List String)
  | moreStatements (done : List (Expr Place)) : Production Place (List (Expr Place))
  | operators (l : Level) (left : Expr Place) : Production Place (Expr Place)
  | calls (callee : Expr Place) : Production Place (Expr Place)
  | arguments : Production Place (List (Expr Place))
  | moreArguments (done : List (Expr Place)) : Production Place (List (Expr Place))

namespace Production

variable {α : Type}

def rule (g : Setting Place) (n : Nat) : Production Place α → Rule Place α
  | program => Grammar.program g n
  | statement => Grammar.statement g n
  | expression => Grammar.expression g n
  | call => Grammar.call g n
  | atom => Grammar.atom g n
  | block => Grammar.block g n
  | operation l => Grammar.operation g l n
  | operand l => Grammar.operand g l n
  | conditional place => Grammar.conditional g place n
  | branch braces => Grammar.branch g braces n
  | loop place => Grammar.loop g place n
  | function place => Grammar.function g place n
  | statements => Grammar.statements g n
  | signature => Grammar.signature g n
  | identifier => Grammar.identifier g
  | expect kind what => Rule.expect g.finish kind what
  | skipSeparators => Rule.skipSeparators
  | parameters names => Grammar.parameters g names n
  | moreStatements done => Grammar.moreStatements g done n
  | operators l left => Grammar.operators g l left n
  | calls callee => Grammar.calls g callee n
  | arguments => Grammar.arguments g n
  | moreArguments done => Grammar.moreArguments g done n

/-- Whether a production is a rule, which reads something if it succeeds, and not a repetition, which may find
that there is nothing more. -/
def isRule : Production Place α → Bool
  | skipSeparators | parameters _ | moreStatements _ | operators _ _ | calls _ | arguments
  | moreArguments _ => false
  | _ => true

theorem composed (g : Setting Place) (n : Nat) (production : Production Place α) :
    Composed g (fun _ => production.isRule) (production.rule g n) := by
  cases production with
  | program => exact program_composed n
  | statement => exact statement_composed n
  | expression => exact expression_composed n
  | call => exact call_composed n
  | atom => exact atom_composed n
  | block => exact block_composed n
  | operation l => exact operation_composed l n
  | operand l => exact operand_composed l n
  | conditional place => exact conditional_composed place n
  | branch braces => exact branch_composed braces n
  | loop place => exact loop_composed place n
  | function place => exact function_composed place n
  | statements => exact statements_composed n
  | signature => exact signature_composed n
  | identifier => exact identifier_composed
  | expect kind what => exact .expect _ kind what
  | skipSeparators => exact .skipSeparators
  | parameters names => exact parameters_composed n names
  | moreStatements done => exact moreStatements_composed n done
  | operators l left => exact operators_composed l left n
  | calls callee => exact calls_composed callee n
  | arguments => exact arguments_composed n
  | moreArguments done => exact moreArguments_composed done n

end Production

/-- A statement that fails has read a token exactly if the token it was started at can begin one. -/
theorem statement_failed_iff {join : Place → Place → Place} {finish : Place} {n : Nat} {c d : Cursor Place}
    {e : SyntaxError Place} (h : statement (rewinding join finish) n c = .failed e d) :
    c.behind < d.behind ↔ ∃ t more, c.ahead = t :: more ∧
      ∃ ts rest e, Derives join anyhow .statement (t :: ts) rest e := by
  have hbegins := statement_begins (rewinding_forward join finish) n
  constructor
  · intro hlt
    by_cases hstarts : Starts beginsStatement c.ahead
    · obtain ⟨t, more, hahead, ht⟩ := hstarts
      exact ⟨t, more, hahead, beginsStatement_iff.mp ht⟩
    · rcases hbegins.stays c hstarts with hcut | ⟨e', hfailed⟩
      · cases hcut.symm.trans h
      · cases hfailed.symm.trans h
        exact absurd hlt (Nat.lt_irrefl _)
  · rintro ⟨t, more, hahead, hderives⟩
    exact hbegins.advances c d ⟨t, more, hahead, beginsStatement_iff.mpr hderives⟩ (by rw [h]; rfl)

/-- A statement that fails ends at no place in front of the one it was tried at, so the difference that
decides what an attempt remembers is the number of tokens that have been read. -/
theorem attempt_statement {join : Place → Place → Place} {finish : Place} {n : Nat} {c d : Cursor Place}
    {e : SyntaxError Place} (h : statement (rewinding join finish) n c = .failed e d) :
    c.behind + (d.behind - c.behind) = d.behind ∧
      Rule.attempt (statement (rewinding join finish) n) c = .done none
        { c with failure? := if d.behind - c.behind = 0 then d.failure? else some (c.behind, e) } := by
  have hreaches : c.Reaches d :=
    (statement_composed n).keeps (rewinding_forward join finish) _ _ (congrArg Outcome.state? h)
  refine ⟨Nat.add_sub_cancel' hreaches.behind_le, ?_⟩
  rw [Rule.attempt, h]
  by_cases hlt : c.behind < d.behind
  · simp only [hlt, if_true, if_neg (Nat.sub_ne_zero_of_lt hlt)]
  · simp only [hlt, if_false, Nat.sub_eq_zero_of_le (Nat.le_of_not_lt hlt), if_true]

/-- Started within a row of tokens, every production of the grammar stays within it and is never at a place
in front of its start, on its way and where it ends.  So the next token is always the one with the cursor's
number, and this number is never cut down to that of the end.  A rule that succeeds has read a token.  A
statement that fails ends at no place in front of the one it was tried at, and has read a token exactly if
the one it was started at can begin a statement. -/
theorem visits_within (join : Place → Place → Place) (finish : Place) (ts : List (Token Place)) :
    (∀ {α : Type} (production : Production Place α) (n : Nat) (c : Cursor Place), c.Within ts →
      let rule := production.rule (rewinding join finish) n
      (∀ d, Visits join finish rule c d → c.behind ≤ d.behind ∧ d.Within ts ∧
        min d.behind ((Cursor.entries ts).length - 1) = d.behind ∧
        ∃ kind?, (Cursor.entries ts)[d.behind]? = some kind? ∧ Rule.peek d = .done kind? d) ∧
      (∀ d, (rule c).state? = some d → Visits join finish rule c d) ∧
      (production.isRule = true → ∀ a d, rule c = .done a d → c.behind < d.behind)) ∧
    ∀ (n : Nat) (c d : Cursor Place) (e : SyntaxError Place),
      let rule := statement (rewinding join finish) n
      rule c = .failed e d →
      c.behind + (d.behind - c.behind) = d.behind ∧
      Rule.attempt rule c = .done none
        { c with failure? := if d.behind - c.behind = 0 then d.failure? else some (c.behind, e) } ∧
      (c.behind < d.behind ↔ ∃ t more, c.ahead = t :: more ∧
        ∃ ts rest e, Derives join anyhow .statement (t :: ts) rest e) := by
  refine ⟨fun production n c hc => ⟨fun d hd => ?_, fun d => ?_, fun hrule a d hd => ?_⟩,
    fun n c d e h => ?_⟩
  · have hwithin : d.Within ts := hd.reaches.within hc
    have hmin : min d.behind ((Cursor.entries ts).length - 1) = d.behind := by
      rw [Cursor.length_entries, Nat.add_sub_cancel]
      exact Nat.min_eq_left hwithin.behind_le
    exact ⟨hd.reaches.behind_le, hwithin, hmin, _, hwithin.getElem?_entries, rfl⟩
  · exact (production.composed _ n).visits
  · exact (production.composed _ n).lt_of_done (rewinding_forward join finish) hd hrule
  · obtain ⟨hconsumed, hattempt⟩ := attempt_statement h
    exact ⟨hconsumed, hattempt, statement_failed_iff h⟩

/-- A function with an assignment in its block that has no name: the assignment is tried behind the
newline, and the block does not end there either. -/
theorem visits_within_assignment :
    let ts : List (Token Nat) := [⟨.keyword .fun_, 0⟩, ⟨.mark .leftParen, 1⟩, ⟨.mark .rightParen, 2⟩,
      ⟨.mark .leftBrace, 3⟩, ⟨.keyword .pass, 4⟩, ⟨.mark .newline, 5⟩, ⟨.keyword .let_, 6⟩,
      ⟨.mark .rightBrace, 7⟩]
    let c : Cursor Nat := { ahead := ts }
    ∃ d : Cursor Nat, statement (rewinding (fun p _ => p) 8) 40 c = .failed ⟨.expectedIdentifier, 7⟩ d ∧
      d.behind = 6 ∧ c.behind < d.behind ∧ d.Within ts ∧
      (∃ kind?, (Cursor.entries ts)[6]? = some kind? ∧ Rule.peek d = .done kind? d) ∧
      Rule.attempt (statement (rewinding (fun p _ => p) 8) 40) c = .done none
        { c with failure? := some (0, ⟨.expectedIdentifier, 7⟩) } := by
  intro ts c
  have h : statement (rewinding (fun p _ => p) 8) 40 c =
      .failed ⟨.expectedIdentifier, 7⟩ ⟨ts.drop 6, 6, none⟩ := by rfl
  obtain ⟨hproduction, hstatement⟩ := visits_within (fun p _ : Nat => p) 8 ts
  obtain ⟨hwithin, hends, -⟩ := hproduction .statement 40 c (.start ts)
  obtain ⟨-, hd, -, hpeek⟩ := hwithin _ (hends _ (congrArg Outcome.state? h))
  obtain ⟨-, hattempt, hread⟩ := hstatement 40 c _ _ h
  exact ⟨_, h, rfl, hread.mpr ⟨_, _, rfl, beginsStatement_iff.mp rfl⟩, hd, hpeek, hattempt⟩

end Grammar
end Cyan
