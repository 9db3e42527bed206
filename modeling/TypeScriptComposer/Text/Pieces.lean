/-!
# Pieces

A text cut at every occurrence of one character, as lines are cut at line breaks and paths at
slashes. There is always one piece more than there are cuts, and gluing undoes the cutting.
-/

set_option autoImplicit false

namespace TypeScriptComposer

def pieces (separator : Char) : List Char → List (List Char)
  | [] => [[]]
  | c :: cs =>
    if c = separator then [] :: pieces separator cs
    else
      match pieces separator cs with
      | [] => [[c]]
      | p :: ps => (c :: p) :: ps

def glue (separator : Char) : List (List Char) → List Char
  | [] => []
  | [p] => p
  | p :: ps => p ++ separator :: glue separator ps

theorem pieces_ne_nil (separator : Char) (cs : List Char) : pieces separator cs ≠ [] := by
  cases cs with
  | nil => simp [pieces]
  | cons c cs =>
    rw [pieces]
    split
    · simp
    · split <;> simp

theorem pieces_cons_of_ne {separator c : Char} (h : c ≠ separator) (cs : List Char) :
    ∃ p ps, pieces separator cs = p :: ps ∧ pieces separator (c :: cs) = (c :: p) :: ps := by
  obtain ⟨p, ps, hp⟩ := List.exists_cons_of_ne_nil (pieces_ne_nil separator cs)
  exact ⟨p, ps, hp, by rw [pieces, if_neg h, hp]⟩

@[simp] theorem glue_pieces (separator : Char) (cs : List Char) :
    glue separator (pieces separator cs) = cs := by
  induction cs with
  | nil => rfl
  | cons c cs ih =>
    by_cases h : c = separator
    · obtain ⟨p, ps, hp⟩ := List.exists_cons_of_ne_nil (pieces_ne_nil separator cs)
      rw [pieces, if_pos h, h]
      rw [hp] at ih ⊢
      rw [glue, ih, List.nil_append]
      exact List.cons_ne_nil p ps
    · obtain ⟨p, ps, hp, hc⟩ := pieces_cons_of_ne h cs
      rw [hp] at ih
      rw [hc]
      cases ps with
      | nil => rw [← ih, glue, glue]
      | cons q qs => rw [← ih]; rfl

end TypeScriptComposer
