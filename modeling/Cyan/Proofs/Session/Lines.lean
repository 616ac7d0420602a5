/-
Programs run line by line.

Two texts that are programs are a program when they are put together with a newline between them, and
running it does what running the two does, one after the other, in the same session
(`Session.run_lines`).  The second is only run if the first succeeds.

The three stages of a run each bring a law: the pieces of the first text are followed by a newline and
the pieces of the second (`Cuts.lines`), the statements of the first program by those of the second
(`DerivesRow.lines`), and running one statement after the other does not depend on how they are grouped
(`evaluate_block_append`).  The positions in the second text are others than those in the joined text,
so everything is compared with places sent to the one-point type.
-/
import Cyan.Proofs.Evaluation.Places
import Cyan.Proofs.Grammar.Lines
import Cyan.Proofs.Grammar.Sources
import Cyan.Proofs.Token.Lines

namespace Cyan

/-! ## The tokens of both texts -/

/-- The tokens among the pieces, without places. -/
def Piece.unplaced (pieces : List Piece) : List (Token Unit) :=
  pieces.filterMap fun p => p.kind?.map fun kind => ⟨kind, ()⟩

theorem Piece.map_tokens (source : Source) (start : Position) (pieces : List Piece) :
    (tokens source start pieces).map (Token.map fun _ => ()) = unplaced pieces := by
  induction pieces generalizing start with
  | nil => rfl
  | cons p rest ih =>
    rw [tokens, List.map_append, ih, unplaced, unplaced, List.filterMap_cons]
    cases p.kind? <;> rfl

/-- Two texts with a newline between them are cut up into pieces with the tokens of both. -/
theorem Cuts.lines {dot dot' : Bool} {text text' : List Char} {pieces more : List Piece}
    (h : Cuts false text pieces dot []) (h' : Cuts false text' more dot' []) :
    ∃ all, Cuts false (text ++ '\n' :: text') all dot' [] ∧
      Piece.unplaced all = Piece.unplaced pieces ++ ⟨.mark .newline, ()⟩ :: Piece.unplaced more := by
  obtain ⟨front, hall, -, htokens⟩ := h.behind_line .nil h'
  rw [List.append_nil] at hall
  refine ⟨_, hall, ?_⟩
  have hfront : Piece.unplaced front = Piece.unplaced pieces := by
    rw [← Piece.map_tokens default .origin, htokens, Piece.map_tokens]
  rw [← hfront]
  exact List.filterMap_append

/-! ## The statements of both programs -/

/-- Two programs with a newline between them are a program, and it has the statements of both. -/
theorem Source.Reads.lines {source source' joined : Source} {list list' : List (Expr Unit)}
    (h : source.Reads (fun _ => ()) list) (h' : source'.Reads (fun _ => ()) list')
    (htext : joined.text = source.text ++ "\n" ++ source'.text) :
    joined.Reads (fun _ => ()) (list ++ list') := by
  have hjoins : Grammar.Joins (fun _ => ()) Span.through (fun _ _ => ()) := fun _ _ => rfl
  obtain ⟨pieces, dot, hpieces⟩ := h.cuts
  obtain ⟨more, dot', hmore⟩ := h'.cuts
  obtain ⟨all, hjoined, hall⟩ := hpieces.lines hmore
  have hchars : joined.text.toList = source.text.toList ++ '\n' :: source'.text.toList := by
    simp [htext]
  rw [← hchars] at hjoined
  rw [reads_iff hjoins hpieces, Piece.map_tokens] at h
  rw [reads_iff hjoins hmore, Piece.map_tokens] at h'
  rw [reads_iff hjoins hjoined, Piece.map_tokens, hall]
  exact h.lines (t := ⟨.mark .newline, ()⟩) rfl h'

/-! ## The evaluation of both programs -/

theorem Action.each_append {σ ε α β : Type} (f : α → Action σ ε β) (list more : List α) :
    each f (list ++ more) = each f list >>= fun _ => each f more := by
  induction list with
  | nil => rfl
  | cons x rest ih => rw [List.cons_append, each_cons, each_cons, bind_assoc, ih]

/-- A block runs its statements one after the other. -/
theorem evaluate_block {Place : Type} (config : Config) (n : Nat) (place : Place)
    (list : List (Expr Place)) (scope : ScopeId) (stack : CallStack Place) :
    (evaluate config (n + 1) (.block place list) scope stack >>= fun _ => pure ()) =
      Action.each (fun e => evaluate config n e scope stack) list := by
  match list with
  | [statement] => rfl
  | [] => rfl
  | first :: second :: rest =>
    show ((Action.each (fun e => evaluate config n e scope stack) (first :: second :: rest) >>=
      fun _ => pure Value.none) >>= fun _ => pure ()) = _
    rw [bind_assoc]
    exact bind_pure _

theorem evaluate_block_append {Place : Type} (config : Config) (n : Nat) (p q r : Place)
    (list more : List (Expr Place)) (scope : ScopeId) (stack : CallStack Place) :
    (evaluate config n (.block p (list ++ more)) scope stack >>= fun _ => pure ()) =
      (evaluate config n (.block q list) scope stack >>= fun _ =>
        evaluate config n (.block r more) scope stack) >>= fun _ => pure () := by
  cases n with
  | zero => rfl
  | succ n =>
    rw [evaluate_block, Action.each_append, ← evaluate_block config n q, bind_assoc, bind_assoc]
    simp only [pure_bind, evaluate_block]

theorem Action.Maps.discard {σ σ' ε ε' α α' : Type} {onState : σ → σ'} {onError : ε → ε'}
    {onResult : α → α'} {a : Action σ ε α} {b : Action σ' ε' α'}
    (h : Maps onState onError onResult a b) :
    Maps onState onError (fun _ => ()) a (b >>= fun _ => Pure.pure ()) := by
  intro s
  rw [bind_apply, andThen, h s]
  cases a s <;> rfl

/-- Programs with the statements of one another do, up to positions, what the one with all of them
does. -/
theorem evaluate_lines {program program' whole : Expr Span} {list more : List (Expr Unit)}
    (h : program.map (fun _ => ()) = .block () list)
    (h' : program'.map (fun _ => ()) = .block () more)
    (hwhole : whole.map (fun _ => ()) = .block () (list ++ more)) (config : Config) (n : Nat)
    (scope : ScopeId) (w : World Span) :
    (evaluate config n whole scope {} w).map (World.map fun _ => ()) (RuntimeError.map fun _ => ())
        (fun _ => ()) =
      ((evaluate config n program scope {} >>= fun _ => evaluate config n program' scope {}) w).map
        (World.map fun _ => ()) (RuntimeError.map fun _ => ()) (fun _ => ()) := by
  have hmap (e : Expr Span) :
      Action.Maps (World.map fun _ => ()) (RuntimeError.map fun _ => ()) (Value.map fun _ => ())
        (evaluate config n e scope {}) (evaluate config n (e.map fun _ => ()) scope {}) :=
    evaluate_map (fun _ => ()) config n e scope {}
  have hone := (hmap whole).discard w
  have htwo := ((hmap program).bind (f := fun _ => evaluate config n program' scope {})
    (g := fun _ => evaluate config n (program'.map fun _ => ()) scope {}) fun _ =>
    hmap program').discard w
  rw [hwhole, evaluate_block_append config n () () ()] at hone
  rw [h, h'] at htwo
  exact hone.symm.trans htwo

/-! ## Sessions -/

theorem Diagnostic.message_of_fault {e e' : RuntimeError Span} (h : e.fault = e'.fault) :
    (runtime e).message = (runtime e').message := by
  have hdetail : (runtime e).detail = (runtime e').detail := by
    show e.fault.message = e'.fault.message
    rw [h]
  rw [message, hdetail]
  rfl

namespace Session

/-- Sessions with the same bindings, up to positions inside of function values, the same console and
the same settings. -/
structure Agrees (s s' : Session) : Prop where
  store_eq : s.world.store.map (fun _ => ()) = s'.world.store.map fun _ => ()
  console_eq : s.world.console = s'.world.console
  globals_eq : s.globals = s'.globals
  config_eq : s.config = s'.config

/-- Where a name has a number in one of two sessions that agree, it has it in the other. -/
theorem Agrees.get?_number {s s' : Session} (h : s.Agrees s') {id : ScopeId} {name : String} {a : Number}
    (hfound : s'.world.store.get? id name = some (.number a)) :
    s.world.store.get? id name = some (.number a) := by
  have hmap := congrArg (fun st : Store Unit => st.get? id name) h.store_eq
  simp only [Store.get?_map, hfound, Option.map_some, Value.map, Option.map_eq_some_iff] at hmap
  obtain ⟨v, hv, hnumber⟩ := hmap
  cases v with
  | number b =>
    cases hnumber
    exact hv
  | none | bool | string | builtin | function => cases hnumber

/-- Outcomes of sessions that agree, whatever the value of the last program is.  Errors are of the same
category and have the same message. -/
inductive SameEffect {α β : Type} :
    Outcome Session Diagnostic α → Outcome Session Diagnostic β → Prop
  | done {v : α} {v' : β} {s s' : Session} : s.Agrees s' → SameEffect (.done v s) (.done v' s')
  | failed {d d' : Diagnostic} {s s' : Session} : d.category = d'.category →
    d.message = d'.message → s.Agrees s' → SameEffect (.failed d s) (.failed d' s')
  | unfinished : SameEffect .unfinished .unfinished

/-- What the outcome of an evaluation means for a session. -/
def ended (s : Session) {α : Type} (o : Outcome (World Span) (RuntimeError Span) α) :
    Outcome Session Diagnostic α :=
  o.map (⟨·, s.globals, s.config⟩) .runtime id

theorem run_of_ok {source : Source} {program : Expr Span} (h : Expr.ofSource? source = .ok program)
    (bound : Nat) (s : Session) :
    run bound source s = s.ended (evaluate s.config bound program s.globals {} s.world) := by
  simp only [run, Source.execute, h]
  cases evaluate s.config bound program s.globals {} s.world <;> rfl

theorem run_bind_run {source source' : Source} {program program' : Expr Span}
    (h : Expr.ofSource? source = .ok program) (h' : Expr.ofSource? source' = .ok program')
    (bound : Nat) (s : Session) :
    (run bound source >>= fun _ => run bound source') s =
      s.ended ((evaluate s.config bound program s.globals {} >>= fun _ =>
        evaluate s.config bound program' s.globals {}) s.world) := by
  rw [Action.bind_apply, Action.andThen, run_of_ok h, Action.bind_apply, Action.andThen]
  cases evaluate s.config bound program s.globals {} s.world with
  | done v w => exact run_of_ok h' bound _
  | failed | unfinished => rfl

theorem sameEffect_ended {α β : Type} (s : Session)
    {o : Outcome (World Span) (RuntimeError Span) α} {o' : Outcome (World Span) (RuntimeError Span) β}
    (h : o.map (World.map fun _ => ()) (RuntimeError.map fun _ => ()) (fun _ => ()) =
      o'.map (World.map fun _ => ()) (RuntimeError.map fun _ => ()) fun _ => ()) :
    SameEffect (s.ended o) (s.ended o') := by
  have hagrees {w w' : World Span} (hw : w.map (fun _ => ()) = w'.map fun _ => ()) :
      Agrees ⟨w, s.globals, s.config⟩ ⟨w', s.globals, s.config⟩ :=
    ⟨congrArg (fun w : World Unit => w.store) hw, congrArg (fun w : World Unit => w.console) hw,
      rfl, rfl⟩
  cases o with
  | done v w =>
    cases o' with
    | done v' w' => exact .done (hagrees (Outcome.done.inj h).2)
    | failed | unfinished => cases h
  | failed e w =>
    cases o' with
    | failed e' w' =>
      obtain ⟨he, hw⟩ := Outcome.failed.inj h
      have hfault : e.fault = e'.fault := congrArg (fun e : RuntimeError Unit => e.fault) he
      exact .failed rfl (Diagnostic.message_of_fault hfault) (hagrees hw)
    | done | unfinished => cases h
  | unfinished =>
    cases o' with
    | unfinished => exact .unfinished
    | done | failed => cases h

/-- Running two programs with a newline between them has the effect of running the first and, if it
succeeds, the second in the same session. -/
theorem run_lines (s : Session) (bound : Nat) {name name' joined text text' : String}
    (h : (Expr.ofSource? ⟨name, text⟩).isOk) (h' : (Expr.ofSource? ⟨name', text'⟩).isOk) :
    SameEffect (run bound ⟨joined, text ++ "\n" ++ text'⟩ s)
      ((run bound ⟨name, text⟩ >>= fun _ => run bound ⟨name', text'⟩) s) := by
  obtain ⟨list, hlist⟩ := Source.exists_reads (fun _ => ()) h
  obtain ⟨more, hmore⟩ := Source.exists_reads (fun _ => ()) h'
  have hjoined := hlist.lines hmore (rfl : (Source.mk joined _).text = _)
  obtain ⟨program, hprogram, _, hprogramMap⟩ := hlist.program
  obtain ⟨program', hprogram', _, hprogramMap'⟩ := hmore.program
  obtain ⟨whole, hwhole, _, hwholeMap⟩ := hjoined.program
  rw [run_of_ok hwhole, run_bind_run hprogram hprogram']
  exact sameEffect_ended s (evaluate_lines hprogramMap hprogramMap' hwholeMap ..)

set_option maxRecDepth 4000 in
/-- The first text ends in a comment and defines a function that the second calls: either way a line is
printed, and the name that the second text gives a value has it. -/
theorem run_lines_function :
    let first : Source := ⟨"first", "fun f() \x7b out(x) \x7d # prints"⟩
    let second : Source := ⟨"second", "let x = 1; f()"⟩
    let both := run 20 ⟨"both", first.text ++ "\n" ++ second.text⟩ (start {} {})
    let apart := (run 20 first >>= fun _ => run 20 second) (start {} {})
    SameEffect both apart ∧ ∃ s s', both.state? = some s ∧ apart.state? = some s' ∧
      s.world.console.output = "1\n" ∧ s'.world.console.output = "1\n" ∧
      s.world.store.get? s.globals "x" = some (.number (.int 1)) ∧
      s'.world.store.get? s'.globals "x" = some (.number (.int 1)) := by
  intro first second both apart
  -- The texts are scanned first, which is all that does not reduce by itself.
  have hfirst : TokenStream.ofSource? first = .ok
      (let span (start stop : Nat) : Span := ⟨first, ⟨start, 0, start⟩, ⟨stop, 0, stop⟩⟩
      ⟨[⟨.keyword .fun_, span 0 3⟩, ⟨.identifier "f", span 4 5⟩, ⟨.mark .leftParen, span 5 6⟩,
        ⟨.mark .rightParen, span 6 7⟩, ⟨.mark .leftBrace, span 8 9⟩, ⟨.identifier "out", span 10 13⟩,
        ⟨.mark .leftParen, span 13 14⟩, ⟨.identifier "x", span 14 15⟩, ⟨.mark .rightParen, span 15 16⟩,
        ⟨.mark .rightBrace, span 17 18⟩], span 27 27⟩) := by cbv
  have hsecond : TokenStream.ofSource? second = .ok
      (let span (start stop : Nat) : Span := ⟨second, ⟨start, 0, start⟩, ⟨stop, 0, stop⟩⟩
      ⟨[⟨.keyword .let_, span 0 3⟩, ⟨.identifier "x", span 4 5⟩, ⟨.mark .equal, span 6 7⟩,
        ⟨.int 1, span 8 9⟩, ⟨.mark .semicolon, span 9 10⟩, ⟨.identifier "f", span 11 12⟩,
        ⟨.mark .leftParen, span 12 13⟩, ⟨.mark .rightParen, span 13 14⟩], span 14 14⟩) := by cbv
  have hsame : SameEffect both apart := by
    refine run_lines (start {} {}) 20 ?_ ?_
    · rw [Expr.ofSource?, hfirst]
      rfl
    · rw [Expr.ofSource?, hsecond]
      rfl
  obtain ⟨v', s', hapart, houtput, hx⟩ : ∃ v' s', apart = .done v' s' ∧
      s'.world.console.output = "1\n" ∧
      s'.world.store.get? s'.globals "x" = some (.number (.int 1)) := by
    simp only [apart, Action.bind_apply, Action.andThen, run, Source.execute, Expr.ofSource?, hfirst, hsecond]
    exact ⟨_, _, rfl, rfl, rfl⟩
  rw [hapart] at hsame ⊢
  cases hboth : both with
  | done v s =>
    rw [hboth] at hsame
    cases hsame with
    | done h =>
      refine ⟨.done h, s, s', rfl, rfl, ?_, houtput, ?_, hx⟩
      · rw [h.console_eq]
        exact houtput
      · rw [h.globals_eq]
        exact h.get?_number hx
  | failed | unfinished =>
    rw [hboth] at hsame
    cases hsame

end Session
end Cyan
