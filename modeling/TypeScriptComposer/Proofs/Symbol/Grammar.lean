import TypeScriptComposer.Proofs.TypeExpr.Specs
import TypeScriptComposer.Text.Pieces

/-!
# The grammar of specs

A spec is a type mark, which may be missing, a name, a marker and a module. It is cut at the first
marker, so that the name has none and the module may have more. The parts decide everything: whether
the spec is accepted, which symbol it gives, and of which of its faults the reader complains.
-/

set_option autoImplicit false

namespace TypeScriptComposer

def ImportStyle.marker : ImportStyle → Char
  | .named => '@'
  | .default => '='
  | .star => '*'
  | .sideEffect => '+'

theorem ImportStyle.ofMarker?_eq_some_iff (c : Char) (style : ImportStyle) :
    ofMarker? c = some style ↔ c = style.marker := by
  unfold ofMarker?
  constructor
  · split <;> rintro ⟨⟩ <;> rfl
  · rintro rfl
    cases style <;> rfl

theorem isMarker_iff (c : Char) : isMarker c = true ↔ ∃ style : ImportStyle, c = style.marker := by
  rw [isMarker, Option.isSome_iff_exists]
  exact exists_congr (ImportStyle.ofMarker?_eq_some_iff c)

structure SpecParts where
  typeOnly : Bool
  name : String
  style : ImportStyle
  module : String

namespace SpecParts

def text (p : SpecParts) : String :=
  (if p.typeOnly then "t:" else "") ++ p.name ++ String.singleton p.style.marker ++ p.module

/-- What is imported: the name, or the first segment of a name with dots. -/
def value (p : SpecParts) : String := String.ofList ((pieces '.' p.name.toList).headD [])

def symbol (p : SpecParts) : Symbol where
  value := p.value
  origin := .module p.module
  style := p.style
  requestedName := none
  typeOnly := p.typeOnly
  definedIn := none

/-- The parts come from cutting `spec` at its type mark, if it begins with one, and at the first
marker. -/
structure CutFrom (p : SpecParts) (spec : String) : Prop where
  whole : spec = p.text
  plain : ∀ style : ImportStyle, style.marker ∉ p.name.toList
  unmarked : p.typeOnly = false → ¬ "t:".toList <+: spec.toList

end SpecParts

/-- What a fault says is wrong with a spec. -/
def SpecFault.Concerns (spec : String) : SpecFault → Prop
  | .missingMarker => ∀ p : SpecParts, ¬ p.CutFrom spec
  | .missingModule => ∃ p : SpecParts, p.CutFrom spec ∧ p.module = ""
  | .notIdentifier value => ∃ p : SpecParts, p.CutFrom spec ∧ p.value = value ∧ value ≠ "" ∧
      isIdentifier value = false
  | .missingName => ∃ p : SpecParts, p.CutFrom spec ∧ p.value = "" ∧ p.style ≠ .sideEffect

/-- The order in which the faults are looked for. -/
def SpecFault.rank : SpecFault → Nat
  | .missingMarker => 0
  | .missingModule => 1
  | .notIdentifier _ => 2
  | .missingName => 3

def SpecFault.IsFirst (spec : String) (fault : SpecFault) : Prop :=
  fault.Concerns spec ∧ ∀ other : SpecFault, other.rank < fault.rank → ¬ other.Concerns spec

namespace Symbol

def parts (s : Symbol) : SpecParts := ⟨s.typeOnly, s.value, s.style, s.module?.getD ""⟩

end Symbol

namespace SpecParts
variable {spec : String} {p q : SpecParts}

theorem CutFrom.takeTypeMark_eq (h : p.CutFrom spec) :
    takeTypeMark spec.toList =
      (p.typeOnly, p.name.toList ++ p.style.marker :: p.module.toList) := by
  have htext : spec.toList = (if p.typeOnly then "t:".toList else []) ++
      (p.name.toList ++ p.style.marker :: p.module.toList) := by
    rw [h.whole, SpecParts.text]
    cases p.typeOnly <;> simp
  cases hmark : p.typeOnly with
  | true =>
    rw [htext, hmark]
    rfl
  | false =>
    rw [hmark] at htext
    have hne : ∀ rest, spec.toList ≠ 't' :: ':' :: rest := by
      intro rest heq
      exact h.unmarked hmark (heq ▸ List.prefix_append "t:".toList rest)
    rw [takeTypeMark_of_ne hne, htext]
    rfl

theorem CutFrom.isMarker_eq_false (h : p.CutFrom spec) {c : Char} (hc : c ∈ p.name.toList) :
    isMarker c = false := by
  rw [← Bool.not_eq_true, isMarker_iff]
  rintro ⟨style, rfl⟩
  exact h.plain style hc

theorem isMarker_marker (style : ImportStyle) : isMarker style.marker = true :=
  (isMarker_iff _).mpr ⟨style, rfl⟩

theorem CutFrom.takeWhile_eq (h : p.CutFrom spec) :
    (takeTypeMark spec.toList).2.takeWhile (!isMarker ·) = p.name.toList := by
  rw [h.takeTypeMark_eq, List.takeWhile_append_of_pos fun c hc => by simp [h.isMarker_eq_false hc]]
  simp [isMarker_marker]

theorem CutFrom.dropWhile_eq (h : p.CutFrom spec) :
    (takeTypeMark spec.toList).2.dropWhile (!isMarker ·) =
      p.style.marker :: p.module.toList := by
  rw [h.takeTypeMark_eq, List.dropWhile_append_of_pos fun c hc => by simp [h.isMarker_eq_false hc]]
  simp [isMarker_marker]

theorem marker_injective {a b : ImportStyle} (h : a.marker = b.marker) : a = b := by
  have ha := (ImportStyle.ofMarker?_eq_some_iff a.marker a).mpr rfl
  rw [h, (ImportStyle.ofMarker?_eq_some_iff b.marker b).mpr rfl] at ha
  exact (Option.some.inj ha).symm

/-- A spec is cut in one way at most. -/
theorem CutFrom.unique (hp : p.CutFrom spec) (hq : q.CutFrom spec) : p = q := by
  have hmark : p.typeOnly = q.typeOnly :=
    congrArg Prod.fst (hp.takeTypeMark_eq.symm.trans hq.takeTypeMark_eq)
  have hname : p.name = q.name :=
    String.toList_inj.mp (hp.takeWhile_eq.symm.trans hq.takeWhile_eq)
  obtain ⟨hmarker, hmodule⟩ := List.cons.inj (hp.dropWhile_eq.symm.trans hq.dropWhile_eq)
  obtain ⟨typeOnly, name, style, module⟩ := p
  obtain ⟨typeOnly', name', style', module'⟩ := q
  rw [SpecParts.mk.injEq]
  exact ⟨hmark, hname, marker_injective hmarker, String.toList_inj.mp hmodule⟩

end SpecParts

namespace SpecFault
variable {spec : String} {fault other : SpecFault}

theorem IsFirst.unique (h : fault.IsFirst spec) (hother : other.IsFirst spec) : other = fault := by
  have hrank : other.rank = fault.rank := by
    apply Nat.le_antisymm
    · exact Nat.le_of_not_lt fun hlt => hother.2 fault hlt h.1
    · exact Nat.le_of_not_lt fun hlt => h.2 other hlt hother.1
  cases fault <;> cases other <;> simp only [rank, reduceCtorEq, Nat.reduceEqDiff] at hrank
  case missingMarker => rfl
  case missingModule => rfl
  case missingName => rfl
  case notIdentifier.notIdentifier value value' =>
    obtain ⟨p, hp, rfl, -⟩ := h.1
    obtain ⟨q, hq, rfl, -⟩ := hother.1
    rw [hp.unique hq]

end SpecFault

namespace Symbol
variable {spec : String}

end Symbol

end TypeScriptComposer
