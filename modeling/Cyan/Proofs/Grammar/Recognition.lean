/-
Rules that recognize a language.

A piece of the grammar is a map `X` on conditions: `X K` holds of tokens that begin with this piece and
go on with tokens of which `K` holds.  `Recognizes finish Q X rule` says that the rule reads the piece
`X` with one token to look at.

* Where it succeeds, what it has read is of the piece, and with the same next token the piece has to
  end in the same place.
* Where it fails, what it has read can be completed to the piece, the next token cannot continue it, and
  this token is the one the error is placed at.

`Q` is asked of the `K` that follows.  Pieces are put together by composition as rules are put together
by `>>=`, and a choice that a rule makes by looking at the next token is one that the piece makes with
that token in front (`Behind`, `At`).
-/
import Cyan.Proofs.Grammar.Levels
import Cyan.Proofs.Grammar.Predictive

namespace Cyan
namespace Grammar

open Rule (take_cases accept_cases)

variable {Place α β : Type}

/-- What may follow, with a piece of the grammar put in front of it. -/
abbrev Piece (Place : Type) := Ahead Place → Ahead Place

/-- The tokens `u` are of the piece, and in front of a token like the first of `rest` it ends with
them. -/
structure Accepts (Q : Ahead Place → Prop) (X : Piece Place) (u rest : List (Token Place)) : Prop where
  sound : ∀ K v, K v → X K (u ++ v)
  complete : ∀ K, Q K → ∀ v, v.head? = rest.head? → X K (u ++ v) → K v

/-- The tokens `u` begin the piece, and a token like the first of `rest` does not go on with it. -/
structure Refuses (Q : Ahead Place → Prop) (X : Piece Place) (u rest : List (Token Place)) : Prop where
  viable : ∃ v, ∀ K x, K x → X K (u ++ (v ++ x))
  stuck : ∀ K, Q K → ∀ v, v.head? = rest.head? → ¬ X K (u ++ v)

/-- An outcome of reading `ts` that fits the piece. -/
def Fits (finish : Place) (Q : Ahead Place → Prop) (X : Piece Place) (ts : List (Token Place)) :
    Outcome (Cursor Place) (SyntaxError Place) α → Prop
  | .done _ c => c.failure? = none ∧ ∃ u, ts = u ++ c.ahead ∧ Accepts Q X u c.ahead
  | .failed e c => e.place = c.place finish ∧ ∃ u, ts = u ++ c.ahead ∧ Refuses Q X u c.ahead
  | .unfinished => True

/-- Started with no failure remembered, the rule reads the piece as far as one token tells. -/
def Recognizes (finish : Place) (Q : Ahead Place → Prop) (X : Piece Place) (rule : Rule Place α) :
    Prop :=
  ∀ c, c.failure? = none → Fits finish Q X c.ahead (rule c)

/-- There are tokens of the piece. -/
def Productive (X : Piece Place) : Prop := ∃ w, ∀ K x, K x → X K (w ++ x)

/-- Behind the token `t`, what is left of `X` is `Y`. -/
structure Behind (Q : Ahead Place → Prop) (t : Token Place) (X Y : Piece Place) : Prop where
  intro : ∀ K ts, Y K ts → X K (t :: ts)
  elim : ∀ K, Q K → ∀ ts, X K (t :: ts) → Y K ts

/-- In front of a token like the first of `ts`, `X` is `Y`. -/
structure At (Q : Ahead Place → Prop) (ts : List (Token Place)) (X Y : Piece Place) : Prop where
  intro : ∀ K v, Y K v → X K v
  elim : ∀ K, Q K → ∀ v, v.head? = ts.head? → X K v → Y K v

theorem starts_congr {p : Token.Kind → Bool} {ts v : List (Token Place)} (h : v.head? = ts.head?) :
    Starts p v ↔ Starts p ts := by
  cases v with
  | nil =>
    cases ts with
    | nil => rfl
    | cons => cases h
  | cons t v =>
    cases ts with
    | nil => cases h
    | cons t' ts =>
      obtain rfl := Option.some.inj h
      rw [starts_cons, starts_cons]

theorem head?_append_congr {u v w : List (Token Place)} (h : v.head? = w.head?) :
    (u ++ v).head? = (u ++ w).head? := by
  rw [List.head?_append, List.head?_append, h]

/-- What has to begin with a token of some kind, at a token of another kind. -/
theorem not_next_of_not_starts {kind : Token.Kind} {K : Ahead Place} {v : List (Token Place)}
    (h : ¬ Starts (· = kind) v) : ¬ Next kind K v := by
  intro ⟨p, rest, hv, _⟩
  exact h ⟨_, rest, hv, decide_eq_true rfl⟩

variable {finish : Place} {Q Q' : Ahead Place → Prop} {X Y : Piece Place} {t : Token Place}
  {ts : List (Token Place)}

theorem Behind.of_iff (h : ∀ K ts, X K (t :: ts) ↔ Y K ts) : Behind Q t X Y :=
  ⟨fun K ts => (h K ts).mpr, fun K _ ts => (h K ts).mp⟩

namespace Productive

theorem id : Productive (fun K : Ahead Place => K) := ⟨[], fun _ _ h => h⟩

theorem next (finish : Place) (kind : Token.Kind) : Productive (Next kind : Piece Place) :=
  ⟨[⟨kind, finish⟩], fun _ _ h => next_cons.mpr ⟨rfl, h⟩⟩

theorem comp (hX : Productive X) (hY : Productive Y) : Productive (fun K => X (Y K)) := by
  obtain ⟨w, hX⟩ := hX
  obtain ⟨w', hY⟩ := hY
  refine ⟨w ++ w', fun K x h => ?_⟩
  rw [List.append_assoc]
  exact hX (Y K) (w' ++ x) (hY K x h)

theorem mono (hX : Productive X) (h : ∀ K ts, X K ts → Y K ts) : Productive Y := by
  obtain ⟨w, hX⟩ := hX
  exact ⟨w, fun K x hx => h K _ (hX K x hx)⟩

end Productive

namespace Fits

theorem cons {o : Outcome (Cursor Place) (SyntaxError Place) α} (h : Fits finish Q Y ts o)
    (ht : Behind Q t X Y) : Fits finish Q X (t :: ts) o := by
  cases o with
  | done a c =>
    obtain ⟨hfailure, u, rfl, hu⟩ := h
    refine ⟨hfailure, t :: u, rfl, fun K v hv => ht.intro K _ (hu.sound K v hv), ?_⟩
    exact fun K hK v hv hX => hu.complete K hK v hv (ht.elim K hK _ hX)
  | failed e c =>
    obtain ⟨hplace, u, rfl, hu⟩ := h
    obtain ⟨v, hv⟩ := hu.viable
    refine ⟨hplace, t :: u, rfl, ⟨v, fun K x hx => ht.intro K _ (hv K x hx)⟩, ?_⟩
    exact fun K hK v hv hX => hu.stuck K hK v hv (ht.elim K hK _ hX)
  | unfinished => trivial

theorem congr {o : Outcome (Cursor Place) (SyntaxError Place) α} (h : Fits finish Q Y ts o)
    (hts : At Q ts X Y) : Fits finish Q X ts o := by
  cases o with
  | done a c =>
    obtain ⟨hfailure, u, rfl, hu⟩ := h
    refine ⟨hfailure, u, rfl, fun K v hv => hts.intro K _ (hu.sound K v hv), ?_⟩
    exact fun K hK v hv hX => hu.complete K hK v hv (hts.elim K hK _ (head?_append_congr hv) hX)
  | failed e c =>
    obtain ⟨hplace, u, rfl, hu⟩ := h
    obtain ⟨v, hv⟩ := hu.viable
    refine ⟨hplace, u, rfl, ⟨v, fun K x hx => hts.intro K _ (hv K x hx)⟩, ?_⟩
    exact fun K hK v hv hX => hu.stuck K hK v hv (hts.elim K hK _ (head?_append_congr hv) hX)
  | unfinished => trivial

/-- One piece behind another. -/
theorem bind {a : α} {c : Cursor Place} {o : Outcome (Cursor Place) (SyntaxError Place) β}
    (h : Fits finish Q' X ts (.done a c : Outcome _ _ α)) (ho : Fits finish Q Y c.ahead o)
    (hQ : ∀ K, Q K → Q' (Y K)) : Fits finish Q (fun K => X (Y K)) ts o := by
  obtain ⟨-, u, rfl, hu⟩ := h
  cases o with
  | done b d =>
    obtain ⟨hfailure, w, hw, hY⟩ := ho
    refine ⟨hfailure, u ++ w, by rw [hw, List.append_assoc], fun K v hv => ?_, ?_⟩
    · rw [List.append_assoc]
      exact hu.sound (Y K) (w ++ v) (hY.sound K v hv)
    · intro K hK v hv hX
      rw [List.append_assoc] at hX
      refine hY.complete K hK v hv (hu.complete (Y K) (hQ K hK) (w ++ v) ?_ hX)
      rw [hw]
      exact head?_append_congr hv
  | failed e d =>
    obtain ⟨hplace, w, hw, hY⟩ := ho
    obtain ⟨v, hv⟩ := hY.viable
    refine ⟨hplace, u ++ w, by rw [hw, List.append_assoc], ⟨v, fun K x hx => ?_⟩, ?_⟩
    · rw [List.append_assoc]
      exact hu.sound (Y K) (w ++ (v ++ x)) (hv K x hx)
    · intro K hK v hv hX
      rw [List.append_assoc] at hX
      refine hY.stuck K hK v hv (hu.complete (Y K) (hQ K hK) (w ++ v) ?_ hX)
      rw [hw]
      exact head?_append_congr hv
  | unfinished => trivial

theorem failed_bind {e : SyntaxError Place} {c : Cursor Place}
    (h : Fits finish Q' X ts (.failed e c : Outcome _ _ α)) (hY : Productive Y)
    (hQ : ∀ K, Q K → Q' (Y K)) :
    Fits finish Q (fun K => X (Y K)) ts (.failed e c : Outcome _ _ β) := by
  obtain ⟨hplace, u, rfl, hu⟩ := h
  obtain ⟨v, hv⟩ := hu.viable
  obtain ⟨w, hw⟩ := hY
  refine ⟨hplace, u, rfl, ⟨v ++ w, fun K x hx => ?_⟩, fun K hK => hu.stuck (Y K) (hQ K hK)⟩
  rw [List.append_assoc v w x]
  exact hv (Y K) (w ++ x) (hw K x hx)

theorem done {a : α} {c : Cursor Place} (hc : c.failure? = none) :
    Fits finish Q (fun K => K) c.ahead (.done a c : Outcome _ _ α) :=
  ⟨hc, [], rfl, fun _ _ h => h, fun _ _ _ _ h => h⟩

theorem fail {c : Cursor Place} {fault : SyntaxFault} (hX : Productive X)
    (hstuck : ∀ K, Q K → ∀ v, v.head? = c.ahead.head? → ¬ X K v) :
    Fits finish Q X c.ahead ((Rule.fail finish fault : Rule Place α) c) := by
  obtain ⟨w, hw⟩ := hX
  exact ⟨rfl, [], rfl, ⟨w, hw⟩, hstuck⟩

theorem unexpected {c : Cursor Place} {fault : SyntaxFault} (hc : c.failure? = none)
    (hX : Productive X) (hstuck : ∀ K, Q K → ∀ v, v.head? = c.ahead.head? → ¬ X K v) :
    Fits finish Q X c.ahead ((Rule.unexpected finish fault : Rule Place α) c) := by
  rw [Rule.unexpected, hc]
  exact fail hX hstuck

/-- What is read depends on whether the next token is of some kind. -/
theorem sees {kind : Token.Kind} {c : Cursor Place} {f : Bool → Rule Place β}
    (htrue : Starts (· = kind) c.ahead → Fits finish Q X c.ahead (f true c))
    (hfalse : ¬ Starts (· = kind) c.ahead → Fits finish Q X c.ahead (f false c)) :
    Fits finish Q X c.ahead ((Rule.sees kind >>= f) c) := by
  rw [Action.bind_apply, Action.andThen]
  have hsees : (Rule.sees kind : Rule Place Bool) c =
      .done (c.ahead.head?.map Token.kind = some kind) c := rfl
  have hhead : c.ahead.head?.map Token.kind = some kind ↔ Starts (· = kind) c.ahead := by
    cases c.ahead with
    | nil => simp [not_starts_nil]
    | cons t rest => simp [starts_cons]
  rw [hsees]
  by_cases h : Starts (· = kind) c.ahead
  · rw [decide_eq_true (hhead.mpr h)]
    exact htrue h
  · rw [decide_eq_false fun heq => h (hhead.mp heq)]
    exact hfalse h

end Fits

namespace Recognizes

theorem cutOff : Recognizes finish Q X (Action.cutOff : Rule Place α) := fun _ _ => trivial

theorem pure (a : α) : Recognizes finish Q (fun K => K) (Pure.pure a : Rule Place α) :=
  fun _ hc => Fits.done hc

theorem of_iff {rule : Rule Place α} (h : Recognizes finish Q Y rule)
    (hXY : ∀ K ts, X K ts ↔ Y K ts) : Recognizes finish Q X rule :=
  fun c hc => (h c hc).congr ⟨fun K v => (hXY K v).mpr, fun K _ v _ => (hXY K v).mp⟩

theorem bind {rule : Rule Place α} {f : α → Rule Place β} (h : Recognizes finish Q' X rule)
    (hf : ∀ a, Recognizes finish Q Y (f a)) (hY : Productive Y) (hQ : ∀ K, Q K → Q' (Y K)) :
    Recognizes finish Q (fun K => X (Y K)) (rule >>= f) := by
  intro c hc
  rw [Action.bind_apply, Action.andThen]
  have hX := h c hc
  cases hr : rule c with
  | done a d =>
    rw [hr] at hX
    exact hX.bind (hf a d hX.1) hQ
  | failed e d =>
    rw [hr] at hX
    exact hX.failed_bind hY hQ
  | unfinished => trivial

/-- A result that is only changed. -/
theorem bind_pure {rule : Rule Place α} (h : Recognizes finish Q X rule) (f : α → β) :
    Recognizes finish Q X (rule >>= fun a => Pure.pure (f a)) :=
  bind h (fun a => pure (f a)) .id fun _ hK => hK

theorem discard {rule : Rule Place α} (h : Recognizes finish Q X rule) :
    Recognizes finish Q X (Functor.discard rule) :=
  h.bind_pure _

theorem take {read? : Token.Kind → Option α} {f : Option (Place × α) → Rule Place β}
    (hsome : ∀ t a, read? t.kind = some a →
      ∃ Y, Behind Q t X Y ∧ Recognizes finish Q Y (f (some (t.place, a))))
    (hnone : ∀ c, c.failure? = none → ¬ Starts (fun kind => (read? kind).isSome) c.ahead →
      Fits finish Q X c.ahead (f none c)) :
    Recognizes finish Q X (Rule.take read? >>= f) := by
  intro c hc
  rw [Action.bind_apply, Action.andThen]
  rcases take_cases read? c with ⟨t, rest, a, hahead, ha, h⟩ | ⟨hread, h⟩
  · obtain ⟨Y, hY, hf⟩ := hsome t a ha
    rw [h, hahead, Cursor.next_of_ahead hahead]
    exact (hf ⟨rest, c.behind + 1, c.failure?⟩ hc).cons hY
  · rw [h]
    exact hnone c hc hread

theorem accept {kind : Token.Kind} {f : Option Place → Rule Place β}
    (hsome : ∀ t, t.kind = kind →
      ∃ Y, Behind Q t X Y ∧ Recognizes finish Q Y (f (some t.place)))
    (hnone : ∀ c, c.failure? = none → ¬ Starts (· = kind) c.ahead →
      Fits finish Q X c.ahead (f none c)) :
    Recognizes finish Q X (Rule.accept kind >>= f) := by
  intro c hc
  rw [Action.bind_apply, Action.andThen]
  rcases accept_cases kind c with ⟨t, rest, hahead, ht, h⟩ | ⟨hkind, h⟩
  · obtain ⟨Y, hY, hf⟩ := hsome t ht
    rw [h, hahead, Cursor.next_of_ahead hahead]
    exact (hf ⟨rest, c.behind + 1, c.failure?⟩ hc).cons hY
  · rw [h]
    exact hnone c hc hkind

theorem acceptIdentifier {f : Option String → Rule Place β}
    (hsome : ∀ t name, t.kind = .identifier name →
      ∃ Y, Behind Q t X Y ∧ Recognizes finish Q Y (f (some name)))
    (hnone : ∀ c, c.failure? = none → ¬ Starts (fun kind => kind.name?.isSome) c.ahead →
      Fits finish Q X c.ahead (f none c)) :
    Recognizes finish Q X (Rule.acceptIdentifier >>= f) := by
  rw [Rule.acceptIdentifier, bind_assoc]
  simp only [pure_bind]
  refine take (fun t name h => hsome t name ?_) hnone
  obtain ⟨kind, p⟩ := t
  cases kind <;> cases h
  rfl

theorem expect (kind : Token.Kind) (what : Expectation) :
    Recognizes finish Q (Next kind) (Rule.expect finish kind what) := by
  refine accept (fun t ht => ⟨_, .of_iff fun K ts => ?_, pure _⟩) fun c hc h => ?_
  · rw [next_cons]
    exact and_iff_right ht
  · refine .fail (.next finish kind) fun K _ v hv => not_next_of_not_starts ?_
    rw [starts_congr hv]
    exact h

/-- A token of some kind, and then another piece. -/
theorem expect_bind {kind : Token.Kind} {what : Expectation} {f : Place → Rule Place β}
    (hf : ∀ place, Recognizes finish Q Y (f place)) (hY : Productive Y) :
    Recognizes finish Q (fun K => Next kind (Y K)) (Rule.expect finish kind what >>= f) := by
  have hkind : Recognizes finish (fun _ => True) (Next kind) (Rule.expect finish kind what) :=
    expect kind what
  exact hkind.bind hf hY fun _ _ => trivial

theorem discard_expect_bind {kind : Token.Kind} {what : Expectation} {f : PUnit → Rule Place β}
    (hf : Recognizes finish Q Y (f ⟨⟩)) (hY : Productive Y) :
    Recognizes finish Q (fun K => Next kind (Y K))
      (Functor.discard (Rule.expect finish kind what) >>= f) := by
  have hkind : Recognizes finish (fun _ => True) (Next kind)
      (Functor.discard (Rule.expect finish kind what)) := (expect kind what).discard
  exact hkind.bind (fun _ => hf) hY fun _ _ => trivial

end Recognizes

end Grammar
end Cyan
