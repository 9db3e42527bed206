import TypeScriptComposer.Proofs.Tracker.Runs

/-!
# Looking up the name of a symbol

A symbol that has been registered is found under the name that it was given then, in every later
state of the tracker. Only a name that the file declares after an import has taken it is not found:
it is printed all the same, but it stays with the import.
-/

set_option autoImplicit false

namespace TypeScriptComposer

namespace Tracker
variable {t t' : Tracker} {s : Symbol}

namespace Extends

theorem define (t : Tracker) (name : String) : t.Extends (t.define name).2 :=
  ⟨ownModule_define t name, [], by simp [unmarked]⟩

theorem step (t : Tracker) (op : Operation) : t.Extends (t.step op) := by
  cases op with
  | define name => exact define t name
  | register s => exact register t s

theorem run (t : Tracker) (ops : List Operation) : t.Extends (t.run ops) := by
  unfold Tracker.run
  induction ops generalizing t with
  | nil => exact refl t
  | cons op ops ih => exact (step t op).trans (ih _)

theorem mem_localNames (h : t.Extends t') {name : String}
    (hname : name ∈ t.imports.map (·.localName)) : name ∈ t'.imports.map (·.localName) := by
  obtain ⟨-, more, hmore⟩ := h
  rw [← localNames_unmarked] at hname ⊢
  rw [hmore, List.map_append]
  exact List.mem_append_left _ hname

end Extends

/-- The file declares a name that an import has. -/
def Shadowed (t : Tracker) (s : Symbol) : Prop :=
  s.isLocal = true ∧ s.value ∈ t.imports.map (·.localName)

theorem nameOf?_of_isLocal (t : Tracker) (h : s.isLocal = true) :
    t.nameOf? s.id = if s.value ∈ t.declared then some s.value else none := by
  have horigin : s.origin = .thisFile := by simpa [Symbol.isLocal] using h
  simp [nameOf?, Symbol.id, horigin]

theorem nameOf?_of_isImported (t' : Tracker) (h : t.isImported s = true) :
    t'.nameOf? s.id = t'.importName? s.id := by
  rw [nameOf?, Symbol.id, isImported_module h]
  rfl

/-- A name that no import has is among those that the file declares once it is claimed. -/
theorem mem_declared_define {name : String} (h : name ∉ t.imports.map (·.localName)) :
    name ∈ (t.define name).2.declared := by
  rcases t.define_cases name with ⟨htaken, heq⟩ | ⟨-, heq⟩
  · rw [heq]
    exact ((t.isTaken_iff name).mp htaken).resolve_right h
  · rw [heq]
    simp

/-- What has been registered for import, or declared in time, is found under the name that the
registration gave it, whatever comes later. A shadowed name is never found. -/
theorem nameOf?_run_register (settings : Settings) (before after : List Operation) (s : Symbol)
    (hstyle : s.style ≠ .sideEffect)
    (hhome : s.isLocal = true ∨ (ofSettings settings).isOwn s = false) :
    let start := (ofSettings settings).run before
    let later := (ofSettings settings).run (before ++ .register s :: after)
    (¬ start.Shadowed s → later.nameOf? s.id = some (start.register s).1) ∧
    (start.Shadowed s → (start.register s).1 = s.value ∧ later.nameOf? s.id = none) := by
  intro start later
  have hlater : later = (start.register s).2.run after :=
    (ofSettings settings).run_append before (.register s :: after)
  have hextends : (start.register s).2.Extends later := hlater ▸ Extends.run _ after
  cases hlocal : s.isLocal with
  | true =>
    have hregister : start.register s = (s.value, (start.define s.value).2) :=
      register_of_declares ((start.declares_eq_true_iff s).mpr (Or.inl hlocal))
    rw [nameOf?_of_isLocal later hlocal, hregister]
    refine ⟨?_, ?_⟩
    · intro hfree
      have hdeclared := mem_declared_define fun hmem => hfree ⟨hlocal, hmem⟩
      rw [if_pos]
      rw [hlater, hregister]
      exact declared_subset_run _ after hdeclared
    · rintro ⟨-, hmem⟩
      have hwell : later.WellNamed := (wellNamed_ofSettings settings).run _
      have hkept := ((Extends.register start s).trans hextends).mem_localNames hmem
      obtain ⟨e, he, hname⟩ := List.mem_map.mp hkept
      refine ⟨rfl, if_neg ?_⟩
      rw [← hname]
      exact (hwell.free_of_mem he).1
  | false =>
    have himported : start.isImported s = true := by
      rw [isImported_congr ((ofSettings settings).ownModule_run before), isImported_eq_true_iff]
      exact ⟨hlocal, hhome.resolve_left (by simp [hlocal]), hstyle⟩
    refine ⟨?_, ?_⟩
    · intro _
      rw [nameOf?_of_isImported later himported]
      exact hextends.importName? (importName?_register himported)
    · rintro ⟨hshadowed, -⟩
      simp [hlocal] at hshadowed

/-- An import that steps aside for another one is found under its number, also when the file claims
that name later. -/
theorem nameOf?_run_register_numbered :
    let s := Symbol.named "Foo" "./b"
    let before := [Operation.register (.named "Foo" "./a")]
    let after := [Operation.define "Foo1", .register (s.withName "Bar")]
    s.style ≠ .sideEffect ∧ (ofSettings .standard).isOwn s = false ∧
    (((ofSettings .standard).run before).register s).1 = "Foo1" ∧
    ((ofSettings .standard).run (before ++ .register s :: after)).nameOf? s.id = some "Foo1" := by
  intro s before after
  have hname : (((ofSettings .standard).run before).register s).1 = "Foo1" := by decide +kernel
  refine ⟨by decide, rfl, hname, ?_⟩
  rw [← hname]
  refine (nameOf?_run_register .standard before after s (by decide) (Or.inr rfl)).1 ?_
  rintro ⟨hlocal, -⟩
  cases hlocal

/-- A symbol of the file's own module is printed under its name, but the name is kept under the
symbol that the file declares; and the file prints a name that an import has, though it has none. -/
theorem nameOf?_misses_printed_name :
    let user := Symbol.named "User" "./models"
    let own := (ofSettings { Settings.standard with modulePath := some "./models" }).register user
    let foo := Symbol.declared "Foo"
    let late := ((ofSettings .standard).run [.register (.named "Foo" "./a")]).register foo
    own.1 = "User" ∧ own.2.nameOf? user.id = none ∧
    late.1 = "Foo" ∧ late.2.nameOf? foo.id = none := by
  decide +kernel

end Tracker

end TypeScriptComposer
