import Mathlib.Data.Finset.Card
import Mathlib.Data.Set.Defs
import Mathlib.Tactic.ByContra
import TypeScriptComposer.Tracker

/-!
# Free names

A tracker gives an import the name it asks for, or the first of its numbered forms that is neither
in use nor reserved. The forms of a name are all different, so that no more of them can be tried in
vain than there are names to avoid, and one is found.
-/

set_option autoImplicit false

namespace TypeScriptComposer

/-- `name` is `preferred` if that is not taken, and otherwise its numbered form with the least
number, from one on, that is not taken. -/
def LeastFree (taken : Set String) (preferred name : String) : Prop :=
  (preferred ∉ taken ∧ name = preferred) ∨
  (preferred ∈ taken ∧ ∃ n, 1 ≤ n ∧ name = Tracker.numbered preferred n ∧ name ∉ taken ∧
    ∀ k, 1 ≤ k → k < n → Tracker.numbered preferred k ∈ taken)

theorem LeastFree.not_mem {taken : Set String} {preferred name : String}
    (h : LeastFree taken preferred name) : name ∉ taken := by
  rcases h with ⟨hfree, rfl⟩ | ⟨-, n, -, -, hfree, -⟩
  · exact hfree
  · exact hfree

namespace Tracker

theorem numbered_injective (name : String) {m n : Nat} (h : numbered name m = numbered name n) :
    m = n := by
  have hdigits : Nat.toDigits 10 m = Nat.toDigits 10 n := by
    rw [← Nat.toList_repr, ← Nat.toList_repr, (String.append_right_inj name).mp h]
  have hread := congrArg (fun ds => Nat.ofDigitChars 10 ds 0) hdigits
  simpa using hread

theorem isTaken_iff (t : Tracker) (name : String) :
    t.isTaken name = true ↔ name ∈ t.declared ∨ name ∈ t.imports.map (·.localName) := by
  unfold isTaken owner?
  by_cases hname : name ∈ t.declared
  · simp [hname]
  · simp [hname]

theorem isFree_iff (t : Tracker) (name : String) : t.isFree name = true ↔ name ∉ t.unavailable := by
  have htaken : t.isTaken name = false ↔
      ¬ (name ∈ t.declared ∨ name ∈ t.imports.map (·.localName)) := by
    rw [← isTaken_iff, Bool.not_eq_true]
  simp only [isFree, unavailable, Bool.and_eq_true, Bool.not_eq_true', htaken, List.mem_append]
  simp

/-- The forms in which a name is tried: as it is, and then numbered from one on. -/
def form (preferred : String) : Nat → String
  | 0 => preferred
  | n + 1 => numbered preferred (n + 1)

theorem numbered_ne (name : String) (n : Nat) : numbered name n ≠ name := by
  intro h
  have hnone : n.repr = "" := by
    apply (String.append_right_inj name).mp
    rw [String.append_empty]
    exact h
  exact Nat.repr_ne_empty hnone

theorem form_injective (preferred : String) : Function.Injective (form preferred) := by
  intro m n h
  cases m with
  | zero =>
    cases n with
    | zero => rfl
    | succ n => exact (numbered_ne preferred (n + 1) h.symm).elim
  | succ m =>
    cases n with
    | zero => exact (numbered_ne preferred (m + 1) h).elim
    | succ n => exact numbered_injective preferred h

/-- When the first `n` forms are among certain names, there are at least `n` such names. -/
theorem le_card_of_forms_mem {preferred : String} {names : Finset String} {n : Nat}
    (h : ∀ k, k < n → form preferred k ∈ names) : n ≤ names.card := by
  have hsubset : (Finset.range n).image (form preferred) ⊆ names := by
    intro name hname
    obtain ⟨k, hk, rfl⟩ := Finset.mem_image.mp hname
    exact h k (Finset.mem_range.mp hk)
  calc
    n = ((Finset.range n).image (form preferred)).card := by
      rw [Finset.card_image_of_injective _ (form_injective preferred), Finset.card_range]
    _ ≤ names.card := Finset.card_le_card hsubset

theorem exists_form_of_leastFree {taken : Set String} {preferred name : String}
    (h : LeastFree taken preferred name) :
    ∃ n, name = form preferred n ∧ ∀ k, k < n → form preferred k ∈ taken := by
  rcases h with ⟨-, rfl⟩ | ⟨htaken, n, hn, rfl, -, hleast⟩
  · exact ⟨0, rfl, by omega⟩
  · obtain ⟨n, rfl⟩ : ∃ m, n = m + 1 := ⟨n - 1, by omega⟩
    refine ⟨n + 1, rfl, ?_⟩
    intro k hk
    cases k with
    | zero => exact htaken
    | succ k => exact hleast (k + 1) (by omega) hk

/-- A name that is not available has a numbered form that is. -/
theorem exists_free_number {t : Tracker} {preferred : String} (htaken : preferred ∈ t.unavailable) :
    ∃ i, i < t.unavailable.length + 1 ∧ numbered preferred (i + 1) ∉ t.unavailable := by
  by_contra hnone
  have hforms : ∀ k, k < t.unavailable.length + 2 →
      form preferred k ∈ t.unavailable.toFinset := by
    intro k hk
    rw [List.mem_toFinset]
    cases k with
    | zero => exact htaken
    | succ i =>
      by_contra hfree
      exact hnone ⟨i, by omega, hfree⟩
  have hmany := le_card_of_forms_mem hforms
  have hfew := t.unavailable.toFinset_card_le
  omega

theorem leastFree_freeName (t : Tracker) (preferred : String) :
    LeastFree {name | name ∈ t.unavailable} preferred (t.freeName preferred) := by
  unfold freeName
  split
  · rename_i hfree
    exact Or.inl ⟨(t.isFree_iff preferred).mp hfree, rfl⟩
  · rename_i htaken
    have htaken' : preferred ∈ t.unavailable := by
      by_contra hfree
      exact htaken ((t.isFree_iff preferred).mpr hfree)
    refine Or.inr ⟨htaken', ?_⟩
    rw [List.find?_map]
    cases hfound : (List.range (t.unavailable.length + 1)).find?
        (t.isFree ∘ fun i => numbered preferred (i + 1)) with
    | none =>
      obtain ⟨i, hi, hfree⟩ := exists_free_number htaken'
      have hno := List.find?_eq_none.mp hfound i (List.mem_range.mpr hi)
      exact (hno ((t.isFree_iff _).mpr hfree)).elim
    | some i =>
      obtain ⟨hfree, -, hleast⟩ := List.find?_range_eq_some.mp hfound
      refine ⟨i + 1, by omega, rfl, (t.isFree_iff _).mp hfree, ?_⟩
      intro k hk hki
      have hnot := hleast (k - 1) (by omega)
      have hsucc : k - 1 + 1 = k := by omega
      by_contra hfree'
      have hk' := (t.isFree_iff (numbered preferred k)).mpr hfree'
      simp [hsucc, hk'] at hnot

end Tracker

end TypeScriptComposer
