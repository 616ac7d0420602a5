/-
Layout does not matter.

Two texts with the same kinds of tokens are the same program, however they are laid out, whatever
comments they have and under whatever names they go.  They are read alike, and running them in sessions
that agree has the same effect (`Session.run_layout`): the same value up to positions, in sessions that
agree again, or errors with the same message.  A syntax error is found at the token of the same number
in both texts, and a number is told from a place (`TokenStream.placeAt_injective`); an error at run time
comes under the same active contexts.
-/
import Cyan.Proofs.Grammar.Numbered
import Cyan.Proofs.Session.Lines
import Cyan.Proofs.Token.Partition
import Mathlib.Data.List.TakeDrop

namespace Cyan

/-! ## Places of tokens -/

/-- A later token begins further on in the text, and the end is behind them all. -/
theorem TokenStream.placeAt_lt {source : Source} {s : TokenStream Span}
    (h : TokenStream.ofSource? source = .ok s) {k k' : Nat} (hlt : k < k')
    (hk' : k' ≤ s.tokens.length) : (s.placeAt k).start.index < (s.placeAt k').start.index := by
  obtain ⟨pieces, dot, hcuts, rfl⟩ := TokenStream.ofSource?_eq_ok.mp h
  have htext : source.text.toList = Piece.texts pieces := by rw [hcuts.text_eq, List.append_nil]
  dsimp only at hk'
  have hk : k < (Piece.tokens source .origin pieces).length := by omega
  have hsplit : Piece.tokens source .origin pieces = (Piece.tokens source .origin pieces).take k ++
      (Piece.tokens source .origin pieces)[k] :: (Piece.tokens source .origin pieces).drop (k + 1) := by
    rw [List.cons_getElem_drop_succ, List.take_append_drop]
  obtain ⟨front, p, back, hpieces, -, -, hplace, hback⟩ := Piece.of_tokens_eq hsplit
  -- The token is not empty, so what is behind it begins further on.
  have hpos : 0 < byteCount p.text := by
    rw [hpieces] at hcuts
    obtain ⟨_, _, -, hp⟩ := hcuts.split
    exact hp.byteCount_pos
  have hindex : (Position.origin.past (Piece.texts (front ++ [p]))).index =
      byteCount (Piece.texts front) + byteCount p.text := by
    rw [Position.index_past, Piece.texts_append, byteCount_append]
    simp [Position.origin]
  have hstart : ((Piece.tokens source .origin pieces)[k].place).start.index =
      byteCount (Piece.texts front) := by
    rw [hplace, Position.index_past]
    exact Nat.zero_add _
  rw [placeAt_of_lt _ hk, hstart]
  have hbehind : (Position.origin.past (Piece.texts (front ++ [p]))).index ≤
      (placeAt ⟨Piece.tokens source .origin pieces, ⟨source, Position.origin.past source.text.toList,
        Position.origin.past source.text.toList⟩⟩ k').start.index := by
    by_cases hlast : k' = (Piece.tokens source .origin pieces).length
    · rw [hlast, placeAt_length, htext, hpieces, hindex, Position.index_past, Piece.texts_append,
        byteCount_append, Piece.texts_cons, byteCount_append]
      omega
    · have hk' : k' < (Piece.tokens source .origin pieces).length := by omega
      have hmem : (Piece.tokens source .origin pieces)[k'] ∈
          Piece.tokens source (Position.origin.past (Piece.texts (front ++ [p]))) back := by
        rw [hback]
        refine List.mem_of_getElem? (i := k' - (k + 1)) ?_
        rw [List.getElem?_drop, List.getElem?_eq_some_iff]
        exact ⟨by omega, by congr 1; omega⟩
      rw [placeAt_of_lt _ hk']
      exact Piece.le_start_of_mem_tokens hmem
  omega

/-- A place in a scanned text belongs to one token, or to the end. -/
theorem TokenStream.placeAt_injective {source : Source} {s : TokenStream Span}
    (h : TokenStream.ofSource? source = .ok s) {k k' : Nat} (hk : k ≤ s.tokens.length)
    (hk' : k' ≤ s.tokens.length) (heq : s.placeAt k = s.placeAt k') : k = k' := by
  rcases Nat.lt_trichotomy k k' with hlt | rfl | hlt
  · have hindex := placeAt_lt h hlt hk'
    rw [heq] at hindex
    exact absurd hindex (Nat.lt_irrefl _)
  · rfl
  · have hindex := placeAt_lt h hlt hk
    rw [heq] at hindex
    exact absurd hindex (Nat.lt_irrefl _)

/-! ## Worlds up to positions -/

variable {Place Place' α β : Type}

theorem eq_biUnique : Relator.BiUnique (Eq : α → α → Prop) :=
  ⟨fun _ _ _ h h' => h.trans h'.symm, fun _ _ _ h h' => h.symm.trans h'⟩

theorem Store.map_addGlobal (f : Place → Place') (st : Store Place) :
    st.addGlobal.2.map f = (st.map f).addGlobal.2 :=
  ((st.alike_map f).addGlobal eq_biUnique).map_eq

theorem Store.map_release (f : Place → Place') (st : Store Place) (id : ScopeId) :
    (st.release id).map f = (st.map f).release id :=
  ((st.alike_map f).release eq_biUnique rfl).map_eq

theorem Outcome.relates_of_map_eq {σ τ ε δ γ : Type} {onState : σ → τ} {onError : ε → δ}
    {onResult : α → γ} {o o' : Outcome σ ε α}
    (h : o.map onState onError onResult = o'.map onState onError onResult) :
    o.Relates (fun s s' => onState s = onState s') (fun e e' => onError e = onError e')
      (fun x x' => onResult x = onResult x') o' := by
  cases o with
  | done x s =>
    cases o' with
    | done x' s' =>
      obtain ⟨hx, hs⟩ := done.inj h
      exact .done hx hs
    | failed | unfinished => cases h
  | failed e s =>
    cases o' with
    | failed e' s' =>
      obtain ⟨he, hs⟩ := failed.inj h
      exact .failed he hs
    | done | unfinished => cases h
  | unfinished =>
    cases o' with
    | unfinished => exact .unfinished
    | done | failed => cases h

/-- Worlds that are equal up to positions. -/
abbrev World.Agrees (w w' : World Span) : Prop := w.map (fun _ => ()) = w'.map fun _ => ()

/-- Values that are equal up to positions. -/
abbrev Value.Agrees (v v' : Value Span) : Prop := v.map (fun _ => ()) = v'.map fun _ => ()

/-- Programs that are equal up to positions are evaluated to the same in worlds that are. -/
theorem evaluate_agrees {e e' : Expr Span} (he : e.map (fun _ => ()) = e'.map fun _ => ())
    (config : Config) (n : Nat) (scope : ScopeId) {w w' : World Span} (hw : w.Agrees w') :
    (evaluate config n e scope {} w).Relates World.Agrees
      (fun e e' => e.map (fun _ => ()) = e'.map fun _ => ()) Value.Agrees
      (evaluate config n e' scope {} w') := by
  refine Outcome.relates_of_map_eq ?_
  have h := evaluate_map (fun _ => ()) config n e scope {} w
  have h' := evaluate_map (fun _ => ()) config n e' scope {} w'
  rw [← h, ← h', he]
  exact congrArg (evaluate config n (e'.map fun _ => ()) scope _) hw

/-! ## Sessions -/

theorem RuntimeError.contexts_map (f : Place → Place') (e : RuntimeError Place) :
    (e.map f).trace.map Prod.fst = e.trace.map Prod.fst := List.map_map

/-- Errors of two texts that are the same but for positions: with the same message, at the token of the
same number for a syntax error, and under the same active contexts for one at run time. -/
inductive Diagnostic.Alike (stream stream' : TokenStream Span) : Diagnostic → Diagnostic → Prop
  | syntactic {e e' : SyntaxError Span} (k : Nat) : k ≤ stream.tokens.length →
    e.place = stream.placeAt k → e'.place = stream'.placeAt k →
    (Diagnostic.syntactic e).message = (Diagnostic.syntactic e').message →
    Alike stream stream' (.syntactic e) (.syntactic e')
  | runtime {e e' : RuntimeError Span} : e.trace.map Prod.fst = e'.trace.map Prod.fst →
    (Diagnostic.runtime e).message = (Diagnostic.runtime e').message →
    Alike stream stream' (.runtime e) (.runtime e')

variable {source source' : Source} {stream stream' : TokenStream Span}

/-- Two texts with the same kinds of tokens do the same in worlds that are equal up to positions. -/
theorem Source.execute_agrees (h : TokenStream.ofSource? source = .ok stream)
    (h' : TokenStream.ofSource? source' = .ok stream') (hkinds : stream.kinds = stream'.kinds)
    (config : Config) (bound : Nat) (scope : ScopeId) {w w' : World Span} (hw : w.Agrees w') :
    (source.execute config bound scope w).Relates World.Agrees (Diagnostic.Alike stream stream')
      Value.Agrees (source'.execute config bound scope w') := by
  have hread := Expr.ofTokens?_alike hkinds
  rw [execute, execute, Expr.ofSource?_of_tokens h, Expr.ofSource?_of_tokens h', Expr.ofStream?,
    Expr.ofStream?]
  generalize Expr.ofTokens? Span.through stream = r at hread ⊢
  generalize Expr.ofTokens? Span.through stream' = r' at hread ⊢
  cases hread with
  | @error e e' k hk hfault hplace hplace' =>
    refine .failed (.syntactic k hk hplace hplace' ?_) hw
    have hdetail : (Diagnostic.syntactic e).detail = (Diagnostic.syntactic e').detail :=
      congrArg SyntaxFault.message hfault
    rw [Diagnostic.message, hdetail]
    rfl
  | @program e e' he =>
    have hends := evaluate_agrees he config bound scope hw
    simp only [Except.mapError]
    generalize evaluate config bound e scope {} w = o at hends ⊢
    generalize evaluate config bound e' scope {} w' = o' at hends ⊢
    cases hends with
    | done hv hw => exact .done hv hw
    | @failed e e' _ _ he hw =>
      refine .failed (.runtime ?_ ?_) hw
      · rw [← RuntimeError.contexts_map, he, RuntimeError.contexts_map]
      · exact Diagnostic.message_of_fault (congrArg (fun e : RuntimeError Unit => e.fault) he)
    | unfinished => exact .unfinished

namespace Session

variable {s s' : Session}

theorem Agrees.refl (s : Session) : s.Agrees s := ⟨rfl, rfl, rfl, rfl⟩

theorem Agrees.world (h : s.Agrees s') : s.world.Agrees s'.world :=
  congrArg₂ World.mk h.store_eq h.console_eq

theorem Agrees.of_world {w w' : World Span} (h : w.Agrees w') (globals : ScopeId) (config : Config) :
    Agrees ⟨w, globals, config⟩ ⟨w', globals, config⟩ :=
  ⟨congrArg (fun w : World Unit => w.store) h, congrArg (fun w : World Unit => w.console) h, rfl, rfl⟩

theorem resume_agrees {E : Diagnostic → Diagnostic → Prop} {R : α → β → Prop}
    {o : Outcome (World Span) Diagnostic α} {o' : Outcome (World Span) Diagnostic β}
    (h : o.Relates World.Agrees E R o') (config : Config) (globals : ScopeId) :
    (resume config globals o).Relates Agrees E R (resume config globals o') := by
  cases h with
  | done hv hw => exact .done hv (.of_world hw globals config)
  | failed he hw => exact .failed he (.of_world hw globals config)
  | unfinished => exact .unfinished

theorem releasing_agrees {E : Diagnostic → Diagnostic → Prop} {R : α → β → Prop}
    {o : Outcome (World Span) Diagnostic α} {o' : Outcome (World Span) Diagnostic β}
    (h : o.Relates World.Agrees E R o') (scope : ScopeId) :
    (releasing scope o).Relates World.Agrees E R (releasing scope o') := by
  have hrelease {w w' : World Span} (hw : w.Agrees w') :
      World.Agrees { w with store := w.store.release scope }
        { w' with store := w'.store.release scope } := by
    have hstore : w.store.map (fun _ => ()) = w'.store.map fun _ => () :=
      congrArg (fun w : World Unit => w.store) hw
    have hconsole : w.console = w'.console := congrArg (fun w : World Unit => w.console) hw
    refine congrArg₂ World.mk ?_ hconsole
    rw [Store.map_release, Store.map_release, hstore]
  cases h with
  | done hv hw => exact .done hv (hrelease hw)
  | failed he hw => exact .failed he (hrelease hw)
  | unfinished => exact .unfinished

/-- Two texts with the same kinds of tokens are read alike, under whatever names.  From sessions that
agree they are run alike, in the lasting scope as well as in a fresh one. -/
theorem run_layout (hs : s.Agrees s') (bound : Nat)
    (h : TokenStream.ofSource? source = .ok stream)
    (h' : TokenStream.ofSource? source' = .ok stream') (hkinds : stream.kinds = stream'.kinds) :
    Expr.ReadAlike stream stream' (Expr.ofStream? stream) (Expr.ofStream? stream') ∧
    (run bound source s).Relates Agrees (Diagnostic.Alike stream stream') Value.Agrees
      (run bound source' s') ∧
    (runFresh bound source s).Relates Agrees (Diagnostic.Alike stream stream') Value.Agrees
      (runFresh bound source' s') := by
  refine ⟨Expr.ofTokens?_alike hkinds, ?_, ?_⟩
  · obtain ⟨w, globals, config⟩ := s
    obtain ⟨w', globals', config'⟩ := s'
    have hw : w.Agrees w' := hs.world
    obtain ⟨-, -, rfl, rfl⟩ := hs
    exact resume_agrees (source.execute_agrees h h' hkinds config bound globals hw) config globals
  · obtain ⟨⟨store, console⟩, globals, config⟩ := s
    obtain ⟨⟨store', console'⟩, globals', config'⟩ := s'
    obtain ⟨hstore, rfl, rfl, rfl⟩ := hs
    have hscope : store.addGlobal.1 = store'.addGlobal.1 := by
      have hsize := congrArg Store.size hstore
      rwa [Store.size_map, Store.size_map] at hsize
    have hopened : World.Agrees ⟨store.addGlobal.2, console⟩ ⟨store'.addGlobal.2, console⟩ := by
      refine congrArg₂ World.mk ?_ rfl
      rw [Store.map_addGlobal, Store.map_addGlobal, hstore]
    have hends := source.execute_agrees h h' hkinds config bound store.addGlobal.1 hopened
    have hreleased := resume_agrees (releasing_agrees hends store.addGlobal.1) config globals
    rw [runFresh, runFresh]
    dsimp only
    rw [← hscope]
    exact hreleased

set_option maxRecDepth 4000 in
/-- A call that fails, with blanks and a comment in one of the texts that the other has not. -/
theorem run_layout_comment :
    let plain : Source := ⟨"plain", "fun f(x) \x7bx+none\x7d\nf(1)"⟩
    let spaced : Source := ⟨"spaced", "fun f( x )\t\x7b x + none \x7d # adds\n  f(1)"⟩
    ∃ stream stream', TokenStream.ofSource? plain = .ok stream ∧
      TokenStream.ofSource? spaced = .ok stream' ∧
      Expr.ReadAlike stream stream' (Expr.ofStream? stream) (Expr.ofStream? stream') ∧
      (run 20 plain (start {} {})).Relates Agrees (Diagnostic.Alike stream stream') Value.Agrees
        (run 20 spaced (start {} {})) ∧
      (runFresh 20 plain (start {} {})).Relates Agrees (Diagnostic.Alike stream stream') Value.Agrees
        (runFresh 20 spaced (start {} {})) ∧
      ∃ e e' s s', run 20 plain (start {} {}) = .failed (.runtime e) s ∧
        run 20 spaced (start {} {}) = .failed (.runtime e') s' ∧
        e.fault = .unsupported .number (.binary .add) .none ∧ e'.fault = e.fault := by
  intro plain spaced
  have hplain : TokenStream.ofSource? plain = .ok
      (let span (start stop : Nat) : Span := ⟨plain, ⟨start, 0, start⟩, ⟨stop, 0, stop⟩⟩
      ⟨[⟨.keyword .fun_, span 0 3⟩, ⟨.identifier "f", span 4 5⟩, ⟨.mark .leftParen, span 5 6⟩,
        ⟨.identifier "x", span 6 7⟩, ⟨.mark .rightParen, span 7 8⟩, ⟨.mark .leftBrace, span 9 10⟩,
        ⟨.identifier "x", span 10 11⟩, ⟨.mark .plus, span 11 12⟩, ⟨.literal .none, span 12 16⟩,
        ⟨.mark .rightBrace, span 16 17⟩, ⟨.mark .newline, ⟨plain, ⟨17, 0, 17⟩, ⟨18, 1, 0⟩⟩⟩,
        ⟨.identifier "f", ⟨plain, ⟨18, 1, 0⟩, ⟨19, 1, 1⟩⟩⟩,
        ⟨.mark .leftParen, ⟨plain, ⟨19, 1, 1⟩, ⟨20, 1, 2⟩⟩⟩, ⟨.int 1, ⟨plain, ⟨20, 1, 2⟩, ⟨21, 1, 3⟩⟩⟩,
        ⟨.mark .rightParen, ⟨plain, ⟨21, 1, 3⟩, ⟨22, 1, 4⟩⟩⟩], ⟨plain, ⟨22, 1, 4⟩, ⟨22, 1, 4⟩⟩⟩) := by
    cbv
  have hspaced : TokenStream.ofSource? spaced = .ok
      (let span (start stop : Nat) : Span := ⟨spaced, ⟨start, 0, start⟩, ⟨stop, 0, stop⟩⟩
      ⟨[⟨.keyword .fun_, span 0 3⟩, ⟨.identifier "f", span 4 5⟩, ⟨.mark .leftParen, span 5 6⟩,
        ⟨.identifier "x", span 7 8⟩, ⟨.mark .rightParen, span 9 10⟩, ⟨.mark .leftBrace, span 11 12⟩,
        ⟨.identifier "x", span 13 14⟩, ⟨.mark .plus, span 15 16⟩, ⟨.literal .none, span 17 21⟩,
        ⟨.mark .rightBrace, span 22 23⟩, ⟨.mark .newline, ⟨spaced, ⟨30, 0, 30⟩, ⟨31, 1, 0⟩⟩⟩,
        ⟨.identifier "f", ⟨spaced, ⟨33, 1, 2⟩, ⟨34, 1, 3⟩⟩⟩,
        ⟨.mark .leftParen, ⟨spaced, ⟨34, 1, 3⟩, ⟨35, 1, 4⟩⟩⟩,
        ⟨.int 1, ⟨spaced, ⟨35, 1, 4⟩, ⟨36, 1, 5⟩⟩⟩,
        ⟨.mark .rightParen, ⟨spaced, ⟨36, 1, 5⟩, ⟨37, 1, 6⟩⟩⟩],
        ⟨spaced, ⟨37, 1, 6⟩, ⟨37, 1, 6⟩⟩⟩) := by
    cbv
  obtain ⟨hread, hrun, hfresh⟩ := run_layout (.refl (start {} {})) 20 hplain hspaced rfl
  refine ⟨_, _, hplain, hspaced, hread, hrun, hfresh, ?_⟩
  simp only [run, Source.execute, Expr.ofSource?, hplain, hspaced]
  exact ⟨_, _, _, _, rfl, rfl, rfl, rfl⟩

end Session
end Cyan
