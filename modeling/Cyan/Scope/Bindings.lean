/-
Bindings of names.

A scope's bindings are a list of names with what they are bound to, in the order in which the names
were first bound.  `Bindings.set` replaces what a name is bound to, so that no name occurs twice.  The
look-up laws are `get?_set_self` and `get?_set_of_ne`.
-/

namespace Cyan

abbrev Bindings (α : Type) := List (String × α)

namespace Bindings

variable {α : Type}

def get? : Bindings α → String → Option α
  | [], _ => none
  | (key, a) :: rest, name => if key = name then some a else get? rest name

/-- The bindings with `name` bound to `a`, and to nothing else. -/
def set : Bindings α → String → α → Bindings α
  | [], name, a => [(name, a)]
  | (key, b) :: rest, name, a =>
    if key = name then (key, a) :: rest else (key, b) :: set rest name a

/-- The bound names in the order of their code points. -/
def names (b : Bindings α) : List String :=
  (b.map Prod.fst).mergeSort fun x y => x ≤ y

@[simp] theorem get?_set_self (b : Bindings α) (name : String) (a : α) :
    (b.set name a).get? name = some a := by
  induction b with
  | nil => simp [set, get?]
  | cons entry rest ih =>
    obtain ⟨key, c⟩ := entry
    rw [set]
    split
    · next h => simp [get?, h]
    · next h => simp [get?, h, ih]

theorem get?_set_of_ne (b : Bindings α) {name other : String} (h : other ≠ name) (a : α) :
    (b.set name a).get? other = b.get? other := by
  induction b with
  | nil => simp [set, get?, Ne.symm h]
  | cons entry rest ih =>
    obtain ⟨key, c⟩ := entry
    rw [set]
    split
    · next hkey =>
      subst hkey
      simp [get?, Ne.symm h]
    · simp only [get?, ih]

/-- A name that was bound stays bound, whatever is bound next. -/
theorem isSome_get?_set {b : Bindings α} {other : String} (h : (b.get? other).isSome)
    (name : String) (a : α) : ((b.set name a).get? other).isSome := by
  by_cases hname : other = name
  · subst hname
    simp
  · rwa [get?_set_of_ne b hname]

/-- Binding a name keeps the names distinct. -/
theorem nodup_set {b : Bindings α} (h : (b.map Prod.fst).Nodup) (name : String) (a : α) :
    ((b.set name a).map Prod.fst).Nodup := by
  have hmem : ∀ (b : Bindings α) (key : String),
      key ∈ (b.set name a).map Prod.fst → key ∈ b.map Prod.fst ∨ key = name := by
    intro b key
    induction b with
    | nil => simp [set]
    | cons entry rest ih =>
      rw [set]
      split
      · intro hk
        exact Or.inl hk
      · simp only [List.map_cons, List.mem_cons]
        intro h
        rcases h with hk | hk
        · exact Or.inl (Or.inl hk)
        · exact (ih hk).imp Or.inr id
  induction b with
  | nil => simp [set]
  | cons entry rest ih =>
    obtain ⟨hnot, hrest⟩ := List.nodup_cons.mp h
    rw [set]
    split
    · exact h
    · next hkey =>
      rw [List.map_cons, List.nodup_cons]
      exact ⟨fun hk => (hmem rest entry.1 hk).elim hnot hkey, ih hrest⟩

/-- If the names are distinct, every one is found with what it is bound to. -/
theorem get?_of_mem {b : Bindings α} (h : (b.map Prod.fst).Nodup)
    {entry : String × α} (hentry : entry ∈ b) : b.get? entry.1 = some entry.2 := by
  induction b with
  | nil => cases hentry
  | cons first rest ih =>
    obtain ⟨hfirst, hrest⟩ := List.nodup_cons.mp h
    rcases List.mem_cons.mp hentry with rfl | hentry
    · exact if_pos rfl
    · have hne : first.1 ≠ entry.1 := by
        intro heq
        rw [heq] at hfirst
        exact hfirst (List.mem_map_of_mem hentry)
      exact (if_neg hne).trans (ih hrest hentry)

end Bindings
end Cyan
