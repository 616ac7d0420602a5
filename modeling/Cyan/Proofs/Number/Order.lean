/-
The laws of comparing numbers, and where they end.

Two integers are compared exactly and any other pair as floats, so a float may equal two integers that
differ.  `Merged a c b` says this of the integers `a` and `c` and the float `b`; both integers are then
2 ^ 53 or more in magnitude.  `compare_laws` has the laws of an equality and an order for all other
numbers: nothing but such a triple breaks one, and `less` is transitive even there.

A pair with a float in it is compared by rank, and integers have ranks in their own order.  The
comparisons along a chain of numbers are therefore a chain of ranks, which decides how its ends compare
unless both are integers of one rank.
-/
import Cyan.Proofs.Number.Signed

namespace Cyan
namespace Number

def isNaN : Number → Bool
  | int _ => false
  | float x => x.isNaN

def isFloat : Number → Bool
  | int _ => false
  | float _ => true

/-- The place of a number, or of the float it is rounded to. -/
def rank (a : Number) : Int := Binary64.rank a.toFloat

/-- The integers `a` and `c` differ and the float `b` equals both. -/
inductive Merged : Number → Number → Number → Prop
  | intro {l r : Int64} {x : Float} : l ≠ r → equal (int l) (float x) = true →
    equal (int r) (float x) = true → 2 ^ 53 ≤ l.toInt.natAbs → 2 ^ 53 ≤ r.toInt.natAbs →
    Merged (int l) (int r) (float x)

variable {a b c : Number}

/-! ## Comparing by rank -/

theorem isNaN_toFloat (a : Number) : a.toFloat.isNaN = a.isNaN := by
  cases a with
  | int n => exact Binary64.isNaN_ofInt n.toInt
  | float x => rfl

/-- Two numbers are compared as floats unless they are integers. -/
theorem isFloat_or_int (a b : Number) : (a.isFloat ∨ b.isFloat) ∨ ∃ l r, a = int l ∧ b = int r := by
  cases a with
  | float x => exact Or.inl (Or.inl rfl)
  | int l =>
    cases b with
    | float y => exact Or.inl (Or.inr rfl)
    | int r => exact Or.inr ⟨l, r, rfl, rfl⟩

theorem compare?_of_isFloat (h : a.isFloat ∨ b.isFloat) :
    compare? a b = compareFloat? a.toFloat b.toFloat := by
  cases a with
  | float x => rfl
  | int l =>
    cases b with
    | float y => rfl
    | int r => rcases h with h | h <;> cases h

theorem compare?_of_isNaN (h : a.isNaN = true ∨ b.isNaN = true) : compare? a b = none := by
  rw [compare?_of_isFloat, Binary64.compareFloat?_of_isNaN]
  · rwa [isNaN_toFloat, isNaN_toFloat]
  · cases a <;> cases b <;> simp_all [isNaN, isFloat]

/-- Only numbers other than NaN are comparable. -/
theorem isNaN_of_compare? {o : Ordering} (h : compare? a b = some o) :
    a.isNaN = false ∧ b.isNaN = false := by
  have hnan : ¬ (a.isNaN = true ∨ b.isNaN = true) := by
    intro hnan
    rw [compare?_of_isNaN hnan] at h
    cases h
  rwa [not_or, Bool.not_eq_true, Bool.not_eq_true] at hnan

section

variable (ha : a.isNaN = false) (hb : b.isNaN = false)
include ha hb

theorem compare?_eq_rank (h : a.isFloat ∨ b.isFloat) : compare? a b = some (compare a.rank b.rank) := by
  rw [← isNaN_toFloat] at ha hb
  rw [compare?_of_isFloat h, Binary64.compareFloat?_eq ha hb]
  rfl

theorem compare?_of_rank_lt (h : a.rank < b.rank) : compare? a b = some .lt := by
  rcases isFloat_or_int a b with hfloat | ⟨l, r, rfl, rfl⟩
  · rw [compare?_eq_rank ha hb hfloat, Int.compare_eq_lt.mpr h]
  · refine congrArg some (Int.compare_eq_lt.mpr ?_)
    by_contra hle
    have hback : (int r).rank ≤ (int l).rank := Binary64.rank_ofInt_le (Int.not_lt.mp hle)
    omega

theorem compare?_of_rank_eq (hfloat : a.isFloat ∨ b.isFloat) (h : a.rank = b.rank) :
    compare? a b = some .eq := by
  rw [compare?_eq_rank ha hb hfloat, Int.compare_eq_eq.mpr h]

end

theorem compare?_swap (a b : Number) : compare? b a = (compare? a b).map Ordering.swap := by
  rcases isFloat_or_int a b with hfloat | ⟨l, r, rfl, rfl⟩
  · by_cases hnan : a.isNaN = true ∨ b.isNaN = true
    · rw [compare?_of_isNaN hnan, compare?_of_isNaN hnan.symm]
      rfl
    · rw [not_or, Bool.not_eq_true, Bool.not_eq_true] at hnan
      rw [compare?_eq_rank hnan.1 hnan.2 hfloat, compare?_eq_rank hnan.2 hnan.1 hfloat.symm]
      exact congrArg some (Int.compare_swap ..).symm
  · exact congrArg some (Int.compare_swap ..).symm

theorem compare?_eq_symm (h : compare? a b = some .eq) : compare? b a = some .eq := by
  rw [compare?_swap, h]
  rfl

/-- No number has a rank against its order. -/
theorem rank_le {o : Ordering} (h : compare? a b = some o) (ho : o ≠ .gt) : a.rank ≤ b.rank := by
  obtain ⟨ha, hb⟩ := isNaN_of_compare? h
  by_contra hlt
  have hback := compare?_of_rank_lt hb ha (Int.not_le.mp hlt)
  rw [compare?_swap, h] at hback
  cases o with
  | gt => exact ho rfl
  | _ => cases hback

theorem compare_rank {o : Ordering} (h : compare? a b = some o) (hfloat : a.isFloat ∨ b.isFloat) :
    compare a.rank b.rank = o := by
  obtain ⟨ha, hb⟩ := isNaN_of_compare? h
  rw [compare?_eq_rank ha hb hfloat] at h
  exact Option.some.inj h

/-! ## Chains -/

theorem Merged.of_rank {l r : Int64} {x : Float} (hne : l ≠ r) (hx : (float x).isNaN = false)
    (hl : (int l).rank = (float x).rank) (hr : (int r).rank = (float x).rank) :
    Merged (int l) (int r) (float x) := by
  have hequal {n : Int64} (hn : (int n).rank = (float x).rank) : equal (int n) (float x) = true := by
    rw [equal, compare?_of_rank_eq rfl hx (Or.inr rfl) hn]
    rfl
  have hvalue : l.toInt ≠ r.toInt := fun h => hne (Int64.toInt_inj.mp h)
  have hrank : Binary64.rank (Binary64.ofInt l.toInt) = Binary64.rank (Binary64.ofInt r.toInt) := hl.trans hr.symm
  have hlarge : 2 ^ 53 ≤ l.toInt.natAbs ∧ 2 ^ 53 ≤ r.toInt.natAbs := by
    by_contra hsmall
    rcases Int.lt_or_gt_of_ne hvalue with h | h
    · have hlt := Binary64.rank_ofInt_lt h (by omega)
      omega
    · have hlt := Binary64.rank_ofInt_lt h (by omega)
      omega
  exact .intro hne (hequal hl) (hequal hr) hlarge.1 hlarge.2

section

variable (h : Merged a c b)
include h

theorem Merged.left : compare? a b = some .eq := by
  obtain ⟨-, hl, -, -, -⟩ := h
  exact beq_iff_eq.mp hl

theorem Merged.right : compare? c b = some .eq := by
  obtain ⟨-, -, hr, -, -⟩ := h
  exact beq_iff_eq.mp hr

/-- The integers themselves are told apart. -/
theorem Merged.apart : compare? a c = some .lt ∨ compare? a c = some .gt := by
  cases h with
  | intro hne =>
    rcases Int.lt_or_gt_of_ne (fun h => hne (Int64.toInt_inj.mp h)) with h | h
    · exact Or.inl (congrArg some (Int.compare_eq_lt.mpr h))
    · exact Or.inr (congrArg some (Int.compare_eq_gt.mpr h))

theorem Merged.compare?_ne : compare? a c ≠ some .eq := by
  intro heq
  rcases h.apart with h | h <;> rw [h] at heq <;> cases heq

end

/-- Two integers that are one number, or that the float `x` does not tell apart. -/
theorem eq_or_merged {l r : Int64} {x : Float} (hx : (float x).isNaN = false)
    (hl : (int l).rank = (float x).rank) (hr : (int r).rank = (float x).rank) :
    l = r ∨ Merged (int l) (int r) (float x) := by
  by_cases heq : l = r
  · exact Or.inl heq
  · exact Or.inr (.of_rank heq hx hl hr)

theorem compare_chain {i j k : Int} (hij : compare i j ≠ .gt) (hjk : compare j k ≠ .gt) :
    compare i k = (compare i j).then (compare j k) := by
  rw [Ne, Int.compare_eq_gt, Int.not_lt] at hij hjk
  rcases Int.lt_or_eq_of_le hij with hij | rfl
  · rw [Int.compare_eq_lt.mpr hij, Int.compare_eq_lt.mpr (by omega)]
    rfl
  · rw [Int.compare_eq_eq.mpr rfl]
    rfl

theorem compare?_int_self (n : Int64) : compare? (int n) (int n) = some .eq :=
  congrArg some (Int.compare_eq_eq.mpr rfl)

section

variable {o p : Ordering} (hab : compare? a b = some o) (hbc : compare? b c = some p) (ho : o ≠ .gt)
  (hp : p ≠ .gt)
include hab hbc ho hp

theorem compare?_chain_of_rank_lt (h : a.rank < c.rank) : compare? a c = some (o.then p) := by
  obtain ⟨ha, -⟩ := isNaN_of_compare? hab
  obtain ⟨-, hc⟩ := isNaN_of_compare? hbc
  rw [compare?_of_rank_lt ha hc h]
  cases o with
  | lt => rfl
  | gt => exact absurd rfl ho
  | eq =>
    cases p with
    | lt => rfl
    | gt => exact absurd rfl hp
    | eq =>
      -- Equal numbers have one rank.
      have hleft : b.rank ≤ a.rank := rank_le (compare?_eq_symm hab) ho
      have hright : c.rank ≤ b.rank := rank_le (compare?_eq_symm hbc) hp
      omega

theorem compare?_chain_of_rank_eq (hfirst : a.rank = b.rank) (hsecond : b.rank = c.rank) :
    compare? a c = some (o.then p) ∨ Merged a c b ∨ Merged a b c ∨ Merged b c a := by
  obtain ⟨ha, hb⟩ := isNaN_of_compare? hab
  obtain ⟨-, hc⟩ := isNaN_of_compare? hbc
  rcases isFloat_or_int a b with hfloat | ⟨l, m, rfl, rfl⟩
  · obtain rfl : o = .eq := by rw [← compare_rank hab hfloat, Int.compare_eq_eq.mpr hfirst]
    rcases isFloat_or_int b c with hfloat' | ⟨m, r, rfl, rfl⟩
    · obtain rfl : p = .eq := by rw [← compare_rank hbc hfloat', Int.compare_eq_eq.mpr hsecond]
      rcases isFloat_or_int a c with hends | ⟨l, r, rfl, rfl⟩
      · exact Or.inl (compare?_of_rank_eq ha hc hends (hfirst.trans hsecond))
      · cases b with
        | int m => rcases hfloat with h | h <;> cases h
        | float x =>
          rcases eq_or_merged hb hfirst hsecond.symm with rfl | hmerged
          · exact Or.inl (compare?_int_self l)
          · exact Or.inr (Or.inl hmerged)
    · cases a with
      | int l => rcases hfloat with h | h <;> cases h
      | float x =>
        rcases eq_or_merged ha hfirst.symm (hfirst.trans hsecond).symm with rfl | hmerged
        · rw [compare?_int_self] at hbc
          rw [← Option.some.inj hbc]
          exact Or.inl hab
        · exact Or.inr (Or.inr (Or.inr hmerged))
  · cases c with
    | int r =>
      left
      rw [← Option.some.inj hab] at ho ⊢
      rw [← Option.some.inj hbc] at hp ⊢
      exact congrArg some (compare_chain ho hp)
    | float x =>
      obtain rfl : p = .eq := by rw [← compare_rank hbc (Or.inr rfl), Int.compare_eq_eq.mpr hsecond]
      rcases eq_or_merged hc (hfirst.trans hsecond) hsecond with rfl | hmerged
      · rw [compare?_int_self] at hab
        rw [← Option.some.inj hab]
        exact Or.inl hbc
      · exact Or.inr (Or.inr (Or.inl hmerged))

/-- The ends of a chain compare as its links do, unless two of the three numbers are integers that the
third one does not tell apart. -/
theorem compare?_chain :
    compare? a c = some (o.then p) ∨ Merged a c b ∨ Merged a b c ∨ Merged b c a := by
  have hleft := rank_le hab ho
  have hright := rank_le hbc hp
  rcases Int.lt_or_eq_of_le (Int.le_trans hleft hright) with hrank | hrank
  · exact Or.inl (compare?_chain_of_rank_lt hab hbc ho hp hrank)
  · exact compare?_chain_of_rank_eq hab hbc ho hp (by omega) (by omega)

end

/-! ## The laws -/

theorem equal_iff : a.equal b = true ↔ compare? a b = some .eq := beq_iff_eq

theorem less_iff : a.less b = true ↔ compare? a b = some .lt := beq_iff_eq

theorem greater_iff : a.greater b = true ↔ compare? a b = some .gt := beq_iff_eq

theorem lessEqual_eq (a b : Number) : a.lessEqual b = (a.less b || a.equal b) := rfl

theorem equal_comm (a b : Number) : a.equal b = b.equal a := by
  rw [equal, equal, compare?_swap a b]
  cases compare? a b with
  | none => rfl
  | some o => cases o <;> rfl

theorem less_eq_greater (a b : Number) : a.less b = b.greater a := by
  rw [less, greater, compare?_swap a b]
  cases compare? a b with
  | none => rfl
  | some o => cases o <;> rfl

theorem lessEqual_iff : a.lessEqual b = true ↔ ∃ o, compare? a b = some o ∧ o ≠ .gt := by
  rw [lessEqual_eq, Bool.or_eq_true, less_iff, equal_iff]
  constructor
  · rintro (h | h)
    · exact ⟨.lt, h, nofun⟩
    · exact ⟨.eq, h, nofun⟩
  · rintro ⟨o, h, ho⟩
    cases o with
    | lt => exact Or.inl h
    | eq => exact Or.inr h
    | gt => exact absurd rfl ho

theorem equal_chain (hab : a.equal b = true) (hbc : b.equal c = true) :
    a.equal c = true ↔ ¬ Merged a c b := by
  rw [equal_iff] at *
  constructor
  · intro hac h
    exact h.compare?_ne hac
  · intro hnot
    rcases compare?_chain hab hbc nofun nofun with h | h | h | h
    · exact h
    · exact absurd h hnot
    · exact absurd hab h.compare?_ne
    · exact absurd hbc h.compare?_ne

theorem less_trans (hab : a.less b = true) (hbc : b.less c = true) : a.less c = true := by
  rw [less_iff] at *
  rcases compare?_chain hab hbc nofun nofun with h | h | h | h
  · exact h
  · rw [h.left] at hab
    cases hab
  · rw [h.right] at hbc
    cases hbc
  · rw [compare?_eq_symm h.left] at hab
    cases hab

theorem lessEqual_chain (hab : a.lessEqual b = true) (hbc : b.lessEqual c = true) :
    a.lessEqual c = true ∨ Merged a c b ∧ a.greater c = true := by
  rw [lessEqual_iff] at *
  obtain ⟨o, hab, ho⟩ := hab
  obtain ⟨p, hbc, hp⟩ := hbc
  rcases compare?_chain hab hbc ho hp with h | h | h | h
  · left
    refine ⟨o.then p, h, ?_⟩
    cases o with
    | lt => exact nofun
    | eq => exact hp
    | gt => exact ho
  · rcases h.apart with hac | hac
    · exact Or.inl ⟨.lt, hac, nofun⟩
    · exact Or.inr ⟨h, greater_iff.mpr hac⟩
  · exact Or.inl ⟨.eq, h.left, nofun⟩
  · exact Or.inl ⟨.eq, compare?_eq_symm h.right, nofun⟩

theorem equal_less_chain (hab : a.equal b = true) (hbc : b.less c = true) :
    a.less c = true ∨ Merged b c a ∧ a.equal c = true := by
  rw [equal_iff] at hab
  rw [less_iff] at hbc
  rcases compare?_chain hab hbc nofun nofun with h | h | h | h
  · exact Or.inl (less_iff.mpr h)
  · rw [compare?_eq_symm h.right] at hbc
    cases hbc
  · exact absurd hab h.compare?_ne
  · exact Or.inr ⟨h, equal_iff.mpr (compare?_eq_symm h.right)⟩

theorem compare?_total (ha : a.isNaN = false) (hb : b.isNaN = false) : ∃ o, compare? a b = some o := by
  rcases isFloat_or_int a b with hfloat | ⟨l, r, rfl, rfl⟩
  · exact ⟨_, compare?_eq_rank ha hb hfloat⟩
  · exact ⟨_, rfl⟩

/-- The laws of an equality and an order.  Where one ends, a float does not tell two integers apart. -/
theorem compare_laws (a b c : Number) :
    a.equal b = b.equal a ∧
    (a.equal b → b.equal c → (a.equal c ↔ ¬ Merged a c b)) ∧
    (a.less b → b.less c → a.less c) ∧
    (a.lessEqual b → b.lessEqual c → a.lessEqual c ∨ Merged a c b ∧ a.greater c) ∧
    (a.lessEqual b ↔ a.less b ∨ a.equal b) ∧
    (a.less b ↔ b.greater a) ∧
    (a.equal b → b.less c → a.less c ∨ Merged b c a ∧ a.equal c) ∧
    (a.isNaN = false → b.isNaN = false →
      a.less b ∧ ¬ a.equal b ∧ ¬ a.greater b ∨ ¬ a.less b ∧ a.equal b ∧ ¬ a.greater b ∨
        ¬ a.less b ∧ ¬ a.equal b ∧ a.greater b) := by
  refine ⟨equal_comm a b, equal_chain, less_trans, lessEqual_chain, ?_, ?_, equal_less_chain, ?_⟩
  · rw [lessEqual_eq, Bool.or_eq_true]
  · rw [less_eq_greater]
  · intro ha hb
    obtain ⟨o, h⟩ := compare?_total ha hb
    rw [less_iff, equal_iff, greater_iff, h]
    cases o with
    | lt => exact Or.inl ⟨rfl, nofun, nofun⟩
    | eq => exact Or.inr (Or.inl ⟨nofun, rfl, nofun⟩)
    | gt => exact Or.inr (Or.inr ⟨nofun, nofun, rfl⟩)

/-- The integer 2 ^ 53 and its successor are one float, and the next integer is another. -/
theorem compare?_ofInt :
    let l := int 9007199254740992
    let r := int 9007199254740993
    let x := float (Binary64.ofInt 9007199254740992)
    let y := float (Binary64.ofInt 9007199254740994)
    compare? l x = some .eq ∧ compare? x r = some .eq ∧ compare? r y = some .lt ∧
      compare? l y = some .lt := by
  decide +kernel

theorem compare_laws_large :
    let l := int 9007199254740992
    let r := int 9007199254740993
    let x := float (Binary64.ofInt 9007199254740992)
    let y := float (Binary64.ofInt 9007199254740994)
    (l.equal x ∧ x.equal r ∧ ¬ l.equal r ∧ Merged l r x) ∧ (l.less r ∧ r.less y ∧ l.less y) ∧
      (l.lessEqual x ∧ x.lessEqual r ∧ (l.lessEqual r ∨ Merged l r x ∧ l.greater r)) ∧
      (x.equal l ∧ l.less y ∧ (x.less y ∨ Merged l y x ∧ x.equal y)) ∧
      l.isNaN = false ∧ x.isNaN = false ∧ (l.less x ∧ ¬ l.equal x ∧ ¬ l.greater x ∨
        ¬ l.less x ∧ l.equal x ∧ ¬ l.greater x ∨ ¬ l.less x ∧ ¬ l.equal x ∧ l.greater x) := by
  intro l r x y
  obtain ⟨hl, hr, hry, hly⟩ := compare?_ofInt
  have hlx : l.equal x = true := equal_iff.mpr hl
  have hxr : x.equal r = true := equal_iff.mpr hr
  have hlr : ¬ l.equal r = true := by decide
  have hless : l.less r = true := by decide
  have hry : r.less y = true := less_iff.mpr hry
  have hly : l.less y = true := less_iff.mpr hly
  have hle : l.lessEqual x = true := lessEqual_iff.mpr ⟨.eq, hl, nofun⟩
  have hle' : x.lessEqual r = true := lessEqual_iff.mpr ⟨.eq, hr, nofun⟩
  have hxl : x.equal l = true := (equal_comm l x).symm.trans hlx
  have hx : x.isNaN = false := Binary64.isNaN_ofInt _
  obtain ⟨-, heq, -, hchain, -, -, -, htotal⟩ := compare_laws l x r
  exact ⟨⟨hlx, hxr, hlr, not_not.mp (mt (heq hlx hxr).mpr hlr)⟩,
    ⟨hless, hry, (compare_laws l r y).2.2.1 hless hry⟩, ⟨hle, hle', hchain hle hle'⟩,
    ⟨hxl, hly, (compare_laws x l y).2.2.2.2.2.2.1 hxl hly⟩, rfl, hx, htotal rfl hx⟩

/-- An integer and its successor that one float does not tell apart.  Equality is not transitive there,
nor is `lessEqual`, and a number equal to the lesser one is not below the greater one. -/
theorem compare_laws_end :
    let l := int 9007199254740992
    let r := int 9007199254740993
    let x := float (Binary64.ofInt 9007199254740992)
    (l.equal x ∧ x.equal r ∧ ¬ l.equal r) ∧ (r.lessEqual x ∧ x.lessEqual l ∧ ¬ r.lessEqual l) ∧
      (x.equal l ∧ l.less r ∧ ¬ x.less r) := by
  intro l r x
  obtain ⟨hl, hr, -, -⟩ := compare?_ofInt
  have hlx : l.equal x = true := equal_iff.mpr hl
  have hxr : x.equal r = true := equal_iff.mpr hr
  have hxl : x.equal l = true := (equal_comm l x).symm.trans hlx
  have hrx : r.equal x = true := (equal_comm x r).symm.trans hxr
  have hnot : ¬ x.less r = true := by
    rw [less_iff, hr]
    exact nofun
  refine ⟨⟨hlx, hxr, by decide⟩, ⟨?_, ?_, by decide⟩, hxl, by decide, hnot⟩
  · rw [lessEqual_eq, hrx, Bool.or_true]
  · rw [lessEqual_eq, hxl, Bool.or_true]

end Number
end Cyan
