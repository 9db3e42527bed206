import Mathlib.Data.List.Forall2

/-!
# Lists that agree up to a place

Two lists fork when they agree up to a place and have members there that are apart. What follows the
place does not matter, so that lists which fork go on to do so whatever is put behind them. Texts
fork when they have different characters at the same place, after which no text makes them equal.
-/

set_option autoImplicit false

namespace TypeScriptComposer

variable {α : Type} {R : α → α → Prop} {xs ys as bs : List α}

/-- Behind what they have in common, the lists go on with members that are apart in the sense of
`R`. -/
def Forks (R : α → α → Prop) (xs ys : List α) : Prop :=
  ∃ front x xs' y ys', R x y ∧ xs = front ++ x :: xs' ∧ ys = front ++ y :: ys'

namespace Forks

/-- Lists that fork go on to do so when more is put behind them. -/
theorem mono (h : Forks R xs ys) (hxs : xs <+: as) (hys : ys <+: bs) : Forks R as bs := by
  obtain ⟨front, x, xs', y, ys', hxy, rfl, rfl⟩ := h
  obtain ⟨xs'', rfl⟩ := hxs
  obtain ⟨ys'', rfl⟩ := hys
  exact ⟨front, x, xs' ++ xs'', y, ys' ++ ys'', hxy, by simp, by simp⟩

theorem prepend (h : Forks R xs ys) (front : List α) : Forks R (front ++ xs) (front ++ ys) := by
  obtain ⟨more, x, xs', y, ys', hxy, rfl, rfl⟩ := h
  exact ⟨front ++ more, x, xs', y, ys', hxy, by simp, by simp⟩

theorem ne (h : Forks (· ≠ ·) xs ys) : xs ≠ ys := by
  obtain ⟨front, x, xs', y, ys', hxy, rfl, rfl⟩ := h
  intro heq
  rw [List.append_cancel_left_eq] at heq
  exact hxy (List.cons.inj heq).1

/-- Words that do not have a mark and are different fork as soon as the mark follows them. -/
theorem of_ne {mark : α} (hxs : mark ∉ xs) (hys : mark ∉ ys) (hne : xs ≠ ys) (as bs : List α) :
    Forks (· ≠ ·) (xs ++ mark :: as) (ys ++ mark :: bs) := by
  induction xs generalizing ys with
  | nil =>
    cases ys with
    | nil => exact (hne rfl).elim
    | cons y ys => exact ⟨[], mark, as, y, _, fun h => hys (h ▸ List.mem_cons_self), rfl, rfl⟩
  | cons x xs ih =>
    cases ys with
    | nil => exact ⟨[], x, _, mark, bs, fun h => hxs (h ▸ List.mem_cons_self), rfl, rfl⟩
    | cons y ys =>
      by_cases hxy : x = y
      · subst y
        have hrest := ih (fun h => hxs (List.mem_cons_of_mem _ h))
          (fun h => hys (List.mem_cons_of_mem _ h)) fun h => hne (congrArg _ h)
        exact hrest.prepend [x]
      · exact ⟨[], x, _, y, _, hxy, rfl, rfl⟩

end Forks

/-- Two lists that agree to the end, or to a place where they have members that are apart. -/
inductive AgreeUntil (R : α → α → Prop) : List α → List α → Prop
  | nil : AgreeUntil R [] []
  | cons (x : α) {xs ys : List α} : AgreeUntil R xs ys → AgreeUntil R (x :: xs) (x :: ys)
  | fork {x y : α} (xs ys : List α) : R x y → AgreeUntil R (x :: xs) (y :: ys)

namespace AgreeUntil

theorem refl (xs : List α) : AgreeUntil R xs xs := by
  induction xs with
  | nil => exact .nil
  | cons x xs ih => exact .cons x ih

theorem append (h : AgreeUntil R xs ys) (h' : AgreeUntil R as bs) :
    AgreeUntil R (xs ++ as) (ys ++ bs) := by
  induction h with
  | nil => exact h'
  | cons x _ ih => exact .cons x ih
  | fork xs ys hxy => exact .fork _ _ hxy

theorem eq_or_forks (h : AgreeUntil R xs ys) : xs = ys ∨ Forks R xs ys := by
  induction h with
  | nil => exact Or.inl rfl
  | cons x _ ih =>
    rcases ih with rfl | hforks
    · exact Or.inl rfl
    · exact Or.inr (hforks.prepend [x])
  | @fork x y xs ys hxy => exact Or.inr ⟨[], x, xs, y, ys, hxy, rfl, rfl⟩

end AgreeUntil

end TypeScriptComposer
