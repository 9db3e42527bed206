import Mathlib
import TypeScriptComposer.Proofs.Tracker.FreeName

/-!
# The search for a free name

How far a tracker has to count for a free name. A search that tries more forms of the name than
there are names to avoid finds the one that `freeName` gives, wherever it stops. So a counter of 32
bits does not overflow before there are as many names to avoid as forms that it can try.
-/

set_option autoImplicit false

namespace TypeScriptComposer

theorem startsIdentifier_of_isDigit {c : Char} (h : c.isDigit = true) :
    startsIdentifier c = false := by
  have hother : ∀ d : Char, d.isDigit = false → (c == d) = false := by
    intro d hd
    rw [beq_eq_false_iff_ne]
    rintro rfl
    simp [h] at hd
  have halpha : c.isAlpha = false := by
    simp only [Char.isDigit, Char.isAlpha, Char.isUpper, Char.isLower] at *
    grind
  simp [startsIdentifier, halpha, hother]

/-- A number at the end makes an identifier of an identifier, and of no other name. -/
theorem isIdentifier_numbered (name : String) (n : Nat) :
    isIdentifier (Tracker.numbered name n) = isIdentifier name := by
  have hdigit : ∀ c ∈ n.repr.toList, c.isDigit = true := by
    intro c hc
    rw [Nat.toList_repr] at hc
    exact Nat.isDigit_of_mem_toDigits (by decide) (by decide) hc
  have hlist : (Tracker.numbered name n).toList = name.toList ++ n.repr.toList :=
    String.toList_append
  unfold isIdentifier
  rw [hlist]
  cases name.toList with
  | nil =>
    cases hdigits : n.repr.toList with
    | nil => rfl
    | cons c cs =>
      have hstart := startsIdentifier_of_isDigit (hdigit c (by simp [hdigits]))
      simp [hstart]
  | cons c cs =>
    have hdigits : n.repr.toList.all continuesIdentifier = true := by
      rw [List.all_eq_true]
      intro c hc
      rw [continuesIdentifier, hdigit c hc, Bool.or_true]
    rw [List.cons_append]
    dsimp only
    rw [List.all_append, hdigits, Bool.and_true]

theorem lt_maxValue_iff (n : Int32) : n < Int32.maxValue ↔ n.toInt < 2 ^ 31 - 1 := by
  rw [Int32.lt_iff_toInt_lt, Int32.toInt_maxValue]

theorem toInt_add_one {n : Int32} (h : n < Int32.maxValue) : (n + 1).toInt = n.toInt + 1 := by
  have hlt := (lt_maxValue_iff n).mp h
  have hle := n.le_toInt
  have hone : (1 : Int32).toInt = 1 := by decide
  rw [Int32.toInt_add, hone]
  apply Int.bmod_eq_of_le
  · omega
  · omega

namespace Tracker

theorem isIdentifier_form (preferred : String) (n : Nat) :
    isIdentifier (form preferred n) = isIdentifier preferred := by
  cases n with
  | zero => rfl
  | succ n => exact isIdentifier_numbered preferred (n + 1)

theorem exists_form_freeName (t : Tracker) (preferred : String) :
    ∃ n, n ≤ t.unavailable.toFinset.card ∧ t.freeName preferred = form preferred n ∧
      form preferred n ∉ t.unavailable ∧ ∀ k, k < n → form preferred k ∈ t.unavailable := by
  have hleast := t.leastFree_freeName preferred
  obtain ⟨n, hn, htaken⟩ := exists_form_of_leastFree hleast
  refine ⟨n, ?_, hn, ?_, htaken⟩
  · apply le_card_of_forms_mem
    exact fun k hk => List.mem_toFinset.mpr (htaken k hk)
  · rw [← hn]
    exact hleast.not_mem

/-- The first of so many forms of a name that is free, if there is one among them. -/
def firstFree? (t : Tracker) (preferred : String) (tries : Nat) : Option String :=
  ((List.range tries).map (form preferred)).find? t.isFree

theorem firstFree?_of_card_lt {t : Tracker} {tries : Nat}
    (h : t.unavailable.toFinset.card < tries) (preferred : String) :
    t.firstFree? preferred tries = some (t.freeName preferred) := by
  obtain ⟨n, hn, hname, hfree, htaken⟩ := t.exists_form_freeName preferred
  have hfirst : (List.range tries).find? (t.isFree ∘ form preferred) = some n := by
    rw [List.find?_range_eq_some]
    refine ⟨(t.isFree_iff _).mpr hfree, List.mem_range.mpr (by omega), ?_⟩
    intro k hk
    have hno : t.isFree (form preferred k) ≠ true :=
      fun hyes => (t.isFree_iff _).mp hyes (htaken k hk)
    simpa using hno
  rw [firstFree?, List.find?_map, hfirst, hname]
  rfl

/-- The numbered forms from `n` on, tried with a counter of 32 bits. The counter goes on before the
form with its number is tried; when it cannot, the search ends without a name. -/
def countFrom? (t : Tracker) (preferred : String) (n : Int32) : Option String :=
  if _more : n < Int32.maxValue then
    if t.isFree (preferred ++ toString n) then some (preferred ++ toString n)
    else t.countFrom? preferred (n + 1)
  else none
termination_by (Int32.maxValue.toInt - n.toInt).toNat
decreasing_by
  have hlt := Int32.lt_iff_toInt_lt.mp _more
  rw [toInt_add_one _more]
  omega

/-- The search of `freeName` with a counter of 32 bits. -/
def countedName? (t : Tracker) (preferred : String) : Option String :=
  if t.isFree preferred then some preferred else t.countFrom? preferred 1

theorem append_toString (preferred : String) {n : Int32} {k : Nat}
    (h : n.toInt = (k + 1 : Nat)) : preferred ++ toString n = form preferred (k + 1) := by
  simp only [toString, h]
  rfl

theorem countFrom?_eq_find? (t : Tracker) (preferred : String) (n : Int32) {k m : Nat}
    (hn : n.toInt = (k + 1 : Nat)) (hm : k + 1 + m = 2 ^ 31 - 1) : t.countFrom? preferred n =
      ((List.range' (k + 1) m).map (form preferred)).find? t.isFree := by
  fun_induction countFrom? t preferred n generalizing k m with
  | case1 n more hfree =>
    have hlt := (lt_maxValue_iff n).mp more
    obtain ⟨m, rfl⟩ : ∃ m', m = m' + 1 := ⟨m - 1, by omega⟩
    rw [append_toString preferred hn] at hfree ⊢
    rw [List.range'_succ, List.map_cons, List.find?_cons_of_pos hfree]
  | case2 n more htaken ih =>
    have hlt := (lt_maxValue_iff n).mp more
    obtain ⟨m, rfl⟩ : ∃ m', m = m' + 1 := ⟨m - 1, by omega⟩
    rw [append_toString preferred hn] at htaken
    rw [List.range'_succ, List.map_cons, List.find?_cons_of_neg htaken]
    apply ih
    · rw [toInt_add_one more, hn]
      rfl
    · omega
  | case3 n hlast =>
    rw [lt_maxValue_iff] at hlast
    obtain rfl : m = 0 := by omega
    rfl

/-- With 32 bits, a name can be tried without a number and with each number in front of the last
one. -/
theorem countedName?_eq_firstFree? (t : Tracker) (preferred : String) :
    t.countedName? preferred = t.firstFree? preferred (2 ^ 31 - 1) := by
  have hcount : t.countFrom? preferred 1 =
      ((List.range' 1 (2 ^ 31 - 2)).map (form preferred)).find? t.isFree :=
    t.countFrom?_eq_find? preferred 1 (by decide) (by omega)
  have hrange : List.range (2 ^ 31 - 1) = 0 :: List.range' 1 (2 ^ 31 - 2) := by
    rw [List.range_eq_range']
    exact List.range'_succ
  have hfirst : form preferred 0 = preferred := rfl
  rw [countedName?, firstFree?, hcount, hrange, List.map_cons, List.find?_cons, hfirst]
  cases t.isFree preferred <;> rfl

/-- A name that is neither claimed nor reserved is given as it is, any other one with the least
number that makes it so, and this is at most the number of the names that are claimed or reserved.
Hence a search that tries more forms than there are such names finds the same name, and one with a
counter of 32 bits does while there are fewer of them than forms that it can try. The given name is
an identifier exactly when the preferred one is. -/
theorem freeName_has_least_number (t : Tracker) (preferred : String) :
    let avoided := t.unavailable.toFinset
    (∀ name, name ∈ avoided ↔ (∃ id, t.owner? name = some id) ∨ name ∈ t.reserved) ∧
    (preferred ∉ avoided → t.freeName preferred = preferred) ∧
    (preferred ∈ avoided → ∃ n, 1 ≤ n ∧ n ≤ avoided.card ∧
      t.freeName preferred = preferred ++ n.repr ∧ preferred ++ n.repr ∉ avoided ∧
      ∀ k, 1 ≤ k → k < n → preferred ++ k.repr ∈ avoided) ∧
    (∀ tries, avoided.card < tries →
      t.firstFree? preferred tries = some (t.freeName preferred)) ∧
    (avoided.card < 2 ^ 31 - 1 → t.countedName? preferred = some (t.freeName preferred)) ∧
    isIdentifier (t.freeName preferred) = isIdentifier preferred := by
  intro avoided
  have havoided (name : String) : name ∈ avoided ↔ name ∈ t.unavailable := List.mem_toFinset
  obtain ⟨n, hn, hname, hfree, htaken⟩ := t.exists_form_freeName preferred
  refine ⟨?_, ?_, ?_, ?_, ?_, ?_⟩
  · intro name
    have howner : (∃ id, t.owner? name = some id) ↔ t.isTaken name = true :=
      Option.isSome_iff_exists.symm
    rw [havoided, howner, isTaken_iff, unavailable, List.mem_append, List.mem_append]
  · intro hpreferred
    cases n with
    | zero => exact hname
    | succ n => exact (hpreferred ((havoided _).mpr (htaken 0 (by omega)))).elim
  · intro hpreferred
    cases n with
    | zero => exact (hfree ((havoided _).mp hpreferred)).elim
    | succ n =>
      refine ⟨n + 1, by omega, hn, hname, fun h => hfree ((havoided _).mp h), ?_⟩
      intro k hk hkn
      obtain ⟨k, rfl⟩ : ∃ k', k = k' + 1 := ⟨k - 1, by omega⟩
      exact (havoided _).mpr (htaken (k + 1) hkn)
  · exact fun tries htries => firstFree?_of_card_lt htries preferred
  · intro hfew
    rw [countedName?_eq_firstFree?]
    exact firstFree?_of_card_lt hfew preferred
  · rw [hname]
    exact isIdentifier_form preferred n

/-- Numbered forms may be taken as plain names; one behind the least free number does not count. -/
theorem freeName_has_least_number_among_forms :
    let settings : Settings := { Settings.standard with reservedWords := ["Foo2"] }
    let t := (ofSettings settings).run [.define "Foo", .register (.named "Foo1" "./a"),
      .register (.named "Foo11" "./b")]
    let avoided := t.unavailable.toFinset
    ("Bar" ∉ avoided ∧ t.freeName "Bar" = "Bar") ∧
    ("Foo" ∈ avoided ∧ ∃ n, 1 ≤ n ∧ n ≤ avoided.card ∧ t.freeName "Foo" = "Foo" ++ n.repr ∧
      "Foo" ++ n.repr ∉ avoided) ∧
    avoided.card < 5 ∧ t.firstFree? "Foo" 5 = some "Foo3" ∧
    avoided.card < 2 ^ 31 - 1 ∧ t.countedName? "Foo" = some "Foo3" ∧
    isIdentifier "Foo3" = isIdentifier "Foo" := by
  intro settings t avoided
  have havoided : avoided = {"Foo", "Foo1", "Foo11", "Foo2"} := by decide +kernel
  have hname : t.freeName "Foo" = "Foo3" := by decide +kernel
  have hcard : avoided.card = 4 := by
    rw [havoided]
    decide +kernel
  have hbar : "Bar" ∉ avoided := by
    rw [havoided]
    decide +kernel
  have hfoo : "Foo" ∈ avoided := by
    rw [havoided]
    decide +kernel
  have hfew : avoided.card < 5 := by omega
  have hfew' : avoided.card < 2 ^ 31 - 1 := by omega
  obtain ⟨-, hfree, -⟩ := t.freeName_has_least_number "Bar"
  obtain ⟨-, -, hnumber, htries, hcounted, hidentifier⟩ := t.freeName_has_least_number "Foo"
  obtain ⟨n, hn, hle, hnumbered, hunused, -⟩ := hnumber hfoo
  rw [hname] at htries hcounted hidentifier
  exact ⟨⟨hbar, hfree hbar⟩, ⟨hfoo, n, hn, hle, hnumbered, hunused⟩, hfew, htries 5 hfew, hfew',
    hcounted hfew', hidentifier⟩

end Tracker

end TypeScriptComposer
