import Mathlib
import TypeScriptComposer.TypeExpr.Print

/-!
# Types given by specs

A type can be given by a spec, and is then the use of an imported symbol. Two readers look at the
spec: the one of symbols cuts it at the first marker, and the one of types at the first marker
other than `=`. Where both cut at the same place, the type prints the name of its symbol and what
follows the first segment of the name; where the first marker is `=`, the type takes the marker and
the beginning of the module for a part of its usage.
-/

set_option autoImplicit false

namespace TypeScriptComposer

/-- A usage that begins with the value is printed with the name when a dot or nothing follows. -/
theorem useAs_append {value : String} (hvalue : value ≠ "") (name : String) (cs : List Char) :
    useAs name value (value ++ String.ofList cs) =
      (if cs = [] ∨ cs.head? = some '.' then name else value) ++ String.ofList cs := by
  have hself : value.toList.isPrefixOf (value.toList ++ cs) = true :=
    List.isPrefixOf_iff_prefix.mpr (List.prefix_append _ _)
  unfold useAs
  rw [String.toList_append, String.toList_ofList, if_neg (by simp [hvalue, hself]), List.drop_left]
  cases cs with
  | nil => simp
  | cons c cs => by_cases hc : c = '.' <;> simp [hc]

theorem isMarker_eq (c : Char) : isMarker c = (TypeExpr.isTypeMarker c || c == '=') := by
  unfold isMarker ImportStyle.ofMarker? TypeExpr.isTypeMarker
  split <;> simp_all

theorem takeTypeMark_of_ne {cs : List Char} (h : ∀ rest, cs ≠ 't' :: ':' :: rest) :
    takeTypeMark cs = (false, cs) := by
  unfold takeTypeMark
  split
  · exact (h _ rfl).elim
  · rfl

/-- What does not cut at a type mark may be cut off before or behind taking the mark. -/
theorem takeTypeMark_takeWhile {p : Char → Bool} (ht : p 't' = true) (hcolon : p ':' = true)
    (cs : List Char) : (takeTypeMark (cs.takeWhile p)).2 = (takeTypeMark cs).2.takeWhile p := by
  by_cases h : ∃ rest, cs = 't' :: ':' :: rest
  · obtain ⟨rest, rfl⟩ := h
    simp [takeTypeMark, ht, hcolon]
  · have hne (rest : List Char) : cs.takeWhile p ≠ 't' :: ':' :: rest := by
      intro heq
      obtain ⟨more, hmore⟩ := List.takeWhile_prefix (l := cs) p
      rw [heq] at hmore
      exact h ⟨rest ++ more, hmore.symm⟩
    rw [takeTypeMark_of_ne hne, takeTypeMark_of_ne fun rest heq => h ⟨rest, heq⟩]

/-- What follows the first segment of a name is nothing or begins with a dot. -/
theorem dropWhile_ne_dot (name : List Char) :
    name.dropWhile (· != '.') = [] ∨ (name.dropWhile (· != '.')).head? = some '.' := by
  have h := List.head?_dropWhile_not (· != '.') name
  cases hrest : name.dropWhile (· != '.') with
  | nil => exact Or.inl rfl
  | cons c rest => exact Or.inr (by simpa [hrest] using h)

namespace Symbol

/-- The characters of a spec, behind its type mark, are a name without markers, a marker and a
module, and `s` is the symbol that they give. -/
structure GivenBy (s : Symbol) (cs name : List Char) (marker : Char) (specifier : List Char) :
    Prop where
  split : cs = name ++ marker :: specifier
  plain : ∀ c ∈ name, isMarker c = false
  style : ImportStyle.ofMarker? marker = some s.style
  origin : s.origin = .module (String.ofList specifier)
  value : s.value = String.ofList (name.takeWhile (· != '.'))
  bound : s.value = "" → s.style = .sideEffect

namespace GivenBy
variable {s : Symbol} {cs name specifier : List Char} {marker : Char}

theorem isMarker (h : s.GivenBy cs name marker specifier) : isMarker marker = true := by
  simp [TypeScriptComposer.isMarker, h.style]

theorem takeWhile_eq (h : s.GivenBy cs name marker specifier) :
    cs.takeWhile (!TypeScriptComposer.isMarker ·) = name := by
  rw [h.split, List.takeWhile_append_of_pos fun c hc => by simp [h.plain c hc]]
  simp [h.isMarker]

theorem dropWhile_eq (h : s.GivenBy cs name marker specifier) :
    cs.dropWhile (!TypeScriptComposer.isMarker ·) = marker :: specifier := by
  rw [h.split, List.dropWhile_append_of_pos fun c hc => by simp [h.plain c hc]]
  simp [h.isMarker]

end GivenBy

theorem givenBy_of_read {cs : List Char} {s : Symbol} (h : Symbol.read cs = .ok s) :
    ∃ name marker specifier, s.GivenBy cs name marker specifier := by
  unfold Symbol.read at h
  cases hrest : cs.dropWhile (!isMarker ·) with
  | nil => simp [hrest] at h
  | cons marker specifier =>
    have hsplit := List.takeWhile_append_dropWhile (p := (!isMarker ·)) (l := cs)
    rw [hrest] at hsplit
    have hmarker : isMarker marker = true := by
      have hhead := List.head?_dropWhile_not (!isMarker ·) cs
      simpa [hrest] using hhead
    obtain ⟨style, hstyle⟩ := Option.isSome_iff_exists.mp hmarker
    simp only [hrest, hstyle, Option.getD_some] at h
    split at h
    · simp at h
    · split at h
      · simp at h
      · split at h
        · simp at h
        · rename_i hbound
          obtain rfl := Except.ok.inj h
          refine ⟨_, marker, specifier, hsplit.symm, ?_, hstyle, rfl, rfl, ?_⟩
          · intro c hc
            simpa using List.mem_takeWhile_imp hc
          · intro hvalue
            have hempty : (String.ofList ((cs.takeWhile (!isMarker ·)).takeWhile
                (· != '.'))).isEmpty = true := String.isEmpty_iff.mpr hvalue
            have hstyleOf : style = .sideEffect := by simpa [hempty] using hbound
            exact hstyleOf

theorem givenBy_of_parse {spec : String} {s : Symbol} (h : Symbol.parse spec = .ok s) :
    ∃ name marker specifier, s.GivenBy (takeTypeMark spec.toList).2 name marker specifier := by
  unfold Symbol.parse at h
  split at h
  rename_i typeOnly cs htake
  split at h
  · rename_i read hread
    obtain rfl := Except.ok.inj h
    obtain ⟨name, marker, specifier, hgiven⟩ := givenBy_of_read hread
    refine ⟨name, marker, specifier, ?_⟩
    rw [htake]
    exact ⟨hgiven.split, hgiven.plain, hgiven.style, hgiven.origin, hgiven.value, hgiven.bound⟩
  · simp at h

end Symbol

namespace TypeExpr

/-- A name that stands for a symbol is a spec, used up to its first marker other than `=`. -/
theorem ofName_eq_named {spec usage : String} {s : Symbol}
    (h : ofName spec = .named usage (some s)) : Symbol.parse spec = .ok s ∧
      usage = (let shown := (takeTypeMark spec.toList).2.takeWhile (!isTypeMarker ·)
        if shown.isEmpty then s.value else String.ofList shown) := by
  unfold ofName at h
  split at h
  · split at h
    · rename_i s' hparse
      simp only [takeTypeMark_takeWhile (p := (!isTypeMarker ·)) rfl rfl] at h
      injection h with husage hsymbol
      cases hsymbol
      exact ⟨hparse, husage.symm⟩
    · simp [literal] at h
  · simp [literal] at h

/-- How the use of a symbol prints whose usage begins with its value. The value is empty only when
nothing is bound. -/
theorem print_named_append (s : Symbol) (cs : List Char) (tracker : Tracker)
    (hempty : s.value = "" → s.style = .sideEffect) :
    (named (s.value ++ String.ofList cs) (some s)).print tracker =
      ((if cs = [] ∨ cs.head? = some '.' then (tracker.register s).1 else s.value) ++
        String.ofList cs, (tracker.register s).2) := by
  simp only [TypeExpr.print]
  by_cases hvalue : s.value = ""
  · have hname : (tracker.register s).1 = s.value := by
      unfold Tracker.register
      cases s.origin <;> simp [hempty hvalue]
    rw [hname, ite_self]
    simp [useAs, hvalue]
  · rw [useAs_append hvalue]

/-- The usage of a type given by a spec, when it is cut off `tail` behind the name. -/
theorem usage_of_ofName {spec usage : String} {s : Symbol} {name specifier tail : List Char}
    {marker : Char} (h : ofName spec = .named usage (some s))
    (hgiven : s.GivenBy (takeTypeMark spec.toList).2 name marker specifier)
    (hcut : (name ++ marker :: specifier).takeWhile (!isTypeMarker ·) = name ++ tail) :
    usage = s.value ++ String.ofList (name.dropWhile (· != '.') ++ tail) := by
  have husage := (ofName_eq_named h).2
  have hsplit :
      name.takeWhile (· != '.') ++ (name.dropWhile (· != '.') ++ tail) = name ++ tail := by
    rw [← List.append_assoc, List.takeWhile_append_dropWhile]
  rw [hgiven.split, hcut] at husage
  rw [husage, hgiven.value, ← String.ofList_append, hsplit]
  dsimp only
  split
  · rename_i hnil
    have hboth : name = [] ∧ tail = [] := by simpa using hnil
    simp [hboth.1, hboth.2]
  · rfl

/-- What a type given by a spec prints. Behind any marker but `=`, it is the name of the symbol and
what follows the first segment of the spec's name, in which there is no marker. Behind `=`, it is
also the marker and the module up to its first marker of another kind, and the name of the symbol
stands in it only before a dot. -/
theorem print_ofName {spec usage : String} {s : Symbol}
    (h : ofName spec = .named usage (some s)) :
    let cs := (takeTypeMark spec.toList).2
    let marked := cs.dropWhile (!isMarker ·)
    let rest := (cs.takeWhile (!isMarker ·)).dropWhile (· != '.')
    Symbol.parse spec = .ok s ∧ s.module? = some (String.ofList marked.tail) ∧
    s.value ++ String.ofList rest = String.ofList (cs.takeWhile (!isMarker ·)) ∧
    (∀ c ∈ rest, isMarker c = false) ∧
    (marked.head? ≠ some '=' → ∀ tracker : Tracker, (ofName spec).print tracker =
      ((tracker.register s).1 ++ String.ofList rest, (tracker.register s).2)) ∧
    (marked.head? = some '=' → ∀ tracker : Tracker, (ofName spec).print tracker =
      ((if rest = [] then s.value else (tracker.register s).1) ++
        String.ofList (rest ++ '=' :: marked.tail.takeWhile (!isTypeMarker ·)),
        (tracker.register s).2)) := by
  intro cs marked rest
  have hparse := (ofName_eq_named h).1
  obtain ⟨name, marker, specifier, hgiven⟩ := Symbol.givenBy_of_parse hparse
  have hmarked : marked = marker :: specifier := hgiven.dropWhile_eq
  have hrest : rest = name.dropWhile (· != '.') :=
    congrArg (List.dropWhile (· != '.')) hgiven.takeWhile_eq
  have hdot : rest = [] ∨ rest.head? = some '.' := dropWhile_ne_dot _
  have hplain : ∀ c ∈ name, (!isTypeMarker c) = true := by
    intro c hc
    have hmark := hgiven.plain c hc
    rw [isMarker_eq, Bool.or_eq_false_iff] at hmark
    simp [hmark.1]
  rw [hmarked]
  refine ⟨hparse, by simp [Symbol.module?, hgiven.origin, Origin.module?], ?_, ?_, ?_, ?_⟩
  · rw [hrest, hgiven.takeWhile_eq, hgiven.value, ← String.ofList_append,
      List.takeWhile_append_dropWhile]
  · intro c hc
    exact hgiven.plain c ((List.dropWhile_sublist _).subset (hrest ▸ hc))
  · intro hne tracker
    have hmarker : isTypeMarker marker = true := by
      have hmark := hgiven.isMarker
      have hequals : marker ≠ '=' := by simpa using hne
      simpa [isMarker_eq, hequals] using hmark
    have hcut : (name ++ marker :: specifier).takeWhile (!isTypeMarker ·) = name ++ [] := by
      rw [List.takeWhile_append_of_pos hplain]
      simp [hmarker]
    rw [h, usage_of_ofName h hgiven hcut, ← hrest, List.append_nil,
      print_named_append s _ _ hgiven.bound, if_pos hdot]
  · intro hequals tracker
    obtain rfl : marker = '=' := by simpa using hequals
    have hcut : (name ++ '=' :: specifier).takeWhile (!isTypeMarker ·) =
        name ++ '=' :: specifier.takeWhile (!isTypeMarker ·) := by
      rw [List.takeWhile_append_of_pos hplain]
      rfl
    rw [h, usage_of_ofName h hgiven hcut, ← hrest, print_named_append s _ _ hgiven.bound,
      List.tail_cons]
    cases hcases : rest with
    | nil => simp
    | cons c cs =>
      have hc : c = '.' := by simpa [hcases] using hdot
      simp [hc]

/-- The namespace of a dotted name, when its own name is taken. -/
theorem print_ofName_renamed_namespace :
    let s := (Symbol.star "rxjs" "rxjs").asType
    let tracker := ((Tracker.ofSettings .standard).define "rxjs").2
    ofName "t:rxjs.Observable*rxjs" = .named "rxjs.Observable" (some s) ∧
      ((ofName "t:rxjs.Observable*rxjs").print tracker).1 = "rxjs1.Observable" := by
  intro s tracker
  have hname : ofName "t:rxjs.Observable*rxjs" = .named "rxjs.Observable" (some s) := by rfl
  have hregister : (tracker.register s).1 = "rxjs1" := by cbv
  refine ⟨hname, ?_⟩
  rw [(print_ofName hname).2.2.2.2.1 (by decide) tracker, hregister]
  cbv

/-- The default import of a scoped module prints its marker, although its name is free. -/
theorem print_ofName_shows_marker :
    let s := Symbol.defaultExport "React" "@types/react"
    let tracker := Tracker.ofSettings .standard
    ofName "React=@types/react" = .named "React=" (some s) ∧
      (tracker.register s).1 = "React" ∧
      ((ofName "React=@types/react").print tracker).1 = "React=" := by
  intro s tracker
  have hname : ofName "React=@types/react" = .named "React=" (some s) := by rfl
  have hregister : (tracker.register s).1 = "React" := by cbv
  have husage : "React" ++ String.ofList ['='] = "React=" := by decide
  have hprint := print_named_append s ['='] tracker fun h => absurd h (by decide)
  rw [if_neg (by decide)] at hprint
  refine ⟨hname, hregister, ?_⟩
  rw [hname, ← husage]
  exact congrArg Prod.fst hprint

end TypeExpr

end TypeScriptComposer
