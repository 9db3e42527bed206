import Mathlib.Data.List.Induction
import TypeScriptComposer.Proofs.Tracker.Runs

/-!
# What later registrations change

The first registration of an imported symbol enters it; all later ones find the entry, whatever they
ask for and whatever has come in between. They have the name of the first one as their answer, and
they change nothing but the type mark of the entry, which is lost with the first use as a value.
-/

set_option autoImplicit false

namespace TypeScriptComposer

/-- The entry after a use that needs the symbol as a type only, or as a value. -/
def ImportEntry.usedAs (e : ImportEntry) (typeOnly : Bool) : ImportEntry :=
  { e with typeOnly := e.typeOnly && typeOnly }

@[simp] theorem ImportEntry.usedAs_true (e : ImportEntry) : e.usedAs true = e := by
  simp [usedAs]

theorem ImportEntry.usedAs_usedAs (e : ImportEntry) (a b : Bool) :
    (e.usedAs a).usedAs b = e.usedAs (a && b) := by
  simp [usedAs, Bool.and_assoc]

namespace Tracker
variable {t : Tracker} {i : Nat} {e : ImportEntry}

/-- The tracker after a use of the symbol that the entry at `i` is for. -/
def useAt (t : Tracker) (i : Nat) (typeOnly : Bool) : Tracker :=
  { t with imports := t.imports.modify i (·.usedAs typeOnly) }

@[simp] theorem useAt_true (t : Tracker) (i : Nat) : t.useAt i true = t := by
  have hid : (fun e : ImportEntry => e.usedAs true) = id := funext ImportEntry.usedAs_true
  rw [useAt, hid, List.modify_id]

theorem getElem?_imports_useAt (h : t.imports[i]? = some e) (typeOnly : Bool) :
    (t.useAt i typeOnly).imports[i]? = some (e.usedAs typeOnly) := by
  simp [useAt, h]

@[simp] theorem unmarked_useAt (t : Tracker) (i : Nat) (typeOnly : Bool) :
    (t.useAt i typeOnly).unmarked = t.unmarked := by
  apply List.ext_getElem?
  intro j
  simp only [unmarked, useAt, List.getElem?_map, List.getElem?_modify]
  by_cases hij : i = j
  · cases t.imports[j]? <;> simp [hij, ImportEntry.usedAs, ImportEntry.unmarked]
  · simp [hij]

/-- Only the entry at `i` is for the symbol, so only that one loses its mark. -/
theorem WellNamed.needValue_eq_useAt (h : t.WellNamed) (hi : t.imports[i]? = some e) :
    t.needValue e.id = t.useAt i false := by
  unfold needValue useAt
  congr 1
  apply List.ext_getElem?
  intro j
  simp only [List.getElem?_map, List.getElem?_modify]
  by_cases hij : i = j
  · subst hij
    simp [hi, ImportEntry.usedAs]
  · cases hj : t.imports[j]? with
    | none => simp [hij]
    | some e' =>
      have hne : e'.id ≠ e.id := by
        intro hid
        have hids : (t.imports.map (·.id))[i]? = (t.imports.map (·.id))[j]? := by
          simp [hi, hj, hid]
        have hlt : i < (t.imports.map (·.id)).length := by
          simpa using (List.getElem?_eq_some_iff.mp hi).1
        exact hij ((List.getElem?_inj hlt h.nodup_ids).mp hids)
      simp [hij, hne]

/-- A symbol that has an entry is found there, and nothing but the mark of the entry changes. -/
theorem WellNamed.register_eq_useAt (h : t.WellNamed) (hi : t.imports[i]? = some e) {s : Symbol}
    (himported : t.isImported s = true) (hid : s.id = e.id) :
    t.register s = (e.localName, t.useAt i s.typeOnly) := by
  have hentry : t.entry? s.id = some e :=
    h.entry?_eq_some_iff.mpr ⟨List.mem_of_getElem? hi, hid.symm⟩
  obtain ⟨hdeclares, hstyle⟩ := (t.isImported_iff s).mp himported
  rcases t.register_cases s with ⟨hdecl, -⟩ | ⟨m, -, hside, -⟩ | ⟨e', -, hentry', heq⟩ |
    ⟨m, -, -, hnone, -⟩
  · simp [hdeclares] at hdecl
  · exact (hstyle hside).elim
  · rw [hentry] at hentry'
    cases hentry'
    rw [heq, hid]
    cases s.typeOnly with
    | true => simp
    | false => simp [h.needValue_eq_useAt hi]
  · simp [hentry] at hnone

/-- The symbols with this identity that the operations register for import, in order. -/
def registrations (home : Tracker) (id : SymbolId) (ops : List Operation) : List Symbol :=
  ops.filterMap fun
    | .define _ => none
    | .register s => if home.isImported s && s.id == id then some s else none

@[simp] theorem registrations_nil (home : Tracker) (id : SymbolId) :
    home.registrations id [] = [] := rfl

theorem registrations_append (home : Tracker) (id : SymbolId) (a b : List Operation) :
    home.registrations id (a ++ b) = home.registrations id a ++ home.registrations id b :=
  List.filterMap_append

theorem registrations_congr {t t' : Tracker} (h : t'.ownModule = t.ownModule) :
    t'.registrations = t.registrations := by
  funext id ops
  unfold registrations
  rw [isImported_congr h]

/-- An operation uses the entry at `i` if it registers the symbol, and otherwise leaves it alone. -/
theorem WellNamed.getElem?_imports_step (h : t.WellNamed) (hi : t.imports[i]? = some e)
    (op : Operation) : (t.step op).imports[i]? =
      some (e.usedAs ((t.registrations e.id [op]).all (·.typeOnly))) := by
  cases op with
  | define name => simp [Tracker.step, registrations, hi]
  | register s =>
    by_cases hsame : t.isImported s = true ∧ s.id = e.id
    · obtain ⟨himported, hid⟩ := hsame
      rw [Tracker.step, h.register_eq_useAt hi himported hid, getElem?_imports_useAt hi]
      simp [registrations, himported, hid]
    · have hnone : t.registrations e.id [.register s] = [] := by simpa [registrations] using hsame
      rw [hnone, List.all_nil, ImportEntry.usedAs_true, Tracker.step]
      rcases t.register_cases s with ⟨-, heq⟩ | ⟨m, -, -, heq⟩ | ⟨e', himported, -, heq⟩ |
        ⟨m, -, -, -, heq⟩
      · simp [heq, hi]
      · simp [heq, hi]
      · have hne : e.id ≠ s.id := fun hid => hsame ⟨himported, hid.symm⟩
        rw [heq]
        dsimp only
        split
        · exact hi
        · simp [needValue, hi, hne]
      · have hlt : i < t.imports.length := (List.getElem?_eq_some_iff.mp hi).1
        simp [heq, addImport, List.getElem?_append_left hlt, hi]

/-- An entry keeps its place through any operations, and all of it but the mark. -/
theorem WellNamed.getElem?_imports_run (h : t.WellNamed) (hi : t.imports[i]? = some e)
    (ops : List Operation) : (t.run ops).imports[i]? =
      some (e.usedAs ((t.registrations e.id ops).all (·.typeOnly))) := by
  induction ops using List.reverseRecOn with
  | nil => simpa [Tracker.run] using hi
  | append_singleton ops op ih =>
    have hhome : (t.run ops).registrations = t.registrations :=
      registrations_congr (t.ownModule_run ops)
    have hstep := (h.run ops).getElem?_imports_step ih op
    rw [hhome] at hstep
    rw [run_append, registrations_append, List.all_append, ← ImportEntry.usedAs_usedAs]
    exact hstep

/-- A symbol has an entry once it has been registered for import. -/
theorem mem_ids_step_iff (t : Tracker) (op : Operation) (id : SymbolId) :
    id ∈ (t.step op).unmarked.map (·.id) ↔
      id ∈ t.unmarked.map (·.id) ∨ t.registrations id [op] ≠ [] := by
  cases op with
  | define name => simp [step, registrations, unmarked]
  | register s =>
    rw [step, unmarked_register]
    by_cases hs : t.isImported s = true
    · have hself (name : String) : (s.entry name).id = s.id := id_entry hs name
      by_cases hnew : t.importName? s.id = none
      · simp [hs, hnew, registrations, hself, eq_comm (a := id)]
      · have hold : s.id ∈ t.unmarked.map (·.id) := by
          rwa [importName?_eq_none_iff, not_not] at hnew
        rw [if_neg fun h => hnew h.2]
        by_cases hid : s.id = id
        · subst hid
          simp [registrations, hs, hold]
        · simp [registrations, hs, hid]
    · simp [hs, registrations]

theorem mem_ids_run_iff (t : Tracker) (ops : List Operation) (id : SymbolId) :
    id ∈ (t.run ops).unmarked.map (·.id) ↔
      id ∈ t.unmarked.map (·.id) ∨ t.registrations id ops ≠ [] := by
  induction ops using List.reverseRecOn with
  | nil => simp [run]
  | append_singleton ops op ih =>
    have hhome : (t.run ops).registrations = t.registrations :=
      registrations_congr (t.ownModule_run ops)
    have hstep : t.run (ops ++ [op]) = (t.run ops).step op := t.run_append ops [op]
    rw [hstep, mem_ids_step_iff, ih, hhome, registrations_append, or_assoc, ne_eq (_ ++ _),
      List.append_eq_nil_iff, not_and_or]

/-- The first registration of an imported symbol puts its entry behind all others. -/
theorem imports_register_of_new {s : Symbol} (himported : t.isImported s = true)
    (hnew : t.entry? s.id = none) : (t.register s).2.imports =
      t.imports ++ [⟨s.module?.getD "", s.value, (t.register s).1, s.style, s.typeOnly⟩] := by
  obtain ⟨hdeclares, hstyle⟩ := (t.isImported_iff s).mp himported
  rcases t.register_cases s with ⟨hdecl, -⟩ | ⟨m, -, hside, -⟩ | ⟨e', -, hentry, -⟩ |
    ⟨m, horigin, -, -, heq⟩
  · simp [hdeclares] at hdecl
  · exact (hstyle hside).elim
  · simp [hnew] at hentry
  · simp [heq, addImport, Symbol.module?, Origin.module?, horigin]

/-- The first registration of an imported symbol settles its entry, whatever follows: the entry
keeps its place, module, name, printed name and style, and its type mark tells whether all
registrations so far were type-only. Every later registration of the symbol has the name that the
first one gave as its answer, and leaves everything else in the tracker as it is. -/
theorem registration_stable_run (settings : Settings) (before after : List Operation) (s : Symbol)
    (himported : (ofSettings settings).isImported s = true)
    (hfirst : (ofSettings settings).registrations s.id before = []) :
    let home := ofSettings settings
    let start := home.run before
    let t := home.run (before ++ .register s :: after)
    let name := (start.register s).1
    let place := start.imports.length
    let entry : ImportEntry := ⟨s.module?.getD "", s.value, name, s.style,
      (home.registrations s.id (.register s :: after)).all (·.typeOnly)⟩
    t.imports[place]? = some entry ∧ t.entry? s.id = some entry ∧
    ∀ s', home.isImported s' = true → s'.id = s.id →
      t.register s' = (name, t.useAt place s'.typeOnly) ∧
      (t.register s').2.nameOf? = t.nameOf? ∧ (t.register s').2.owner? = t.owner? := by
  intro home start t name place entry
  have hwell : start.WellNamed := (wellNamed_ofSettings settings).run before
  have himportedStart : start.isImported s = true := by
    rwa [isImported_congr (home.ownModule_run before)]
  have hnew : start.entry? s.id = none := by
    have hstart : s.id ∉ home.unmarked.map (·.id) := List.not_mem_nil
    have hids : s.id ∉ start.unmarked.map (·.id) := by
      rw [home.mem_ids_run_iff]
      exact not_or.mpr ⟨hstart, not_not.mpr hfirst⟩
    simpa [importName?] using (start.importName?_eq_none_iff s.id).mpr hids
  let first : ImportEntry := ⟨s.module?.getD "", s.value, name, s.style, s.typeOnly⟩
  have hid : first.id = s.id := by
    simp only [first, ImportEntry.id, Symbol.id, isImported_module himported]
  have hplace : (start.register s).2.imports[place]? = some first := by
    rw [imports_register_of_new himportedStart hnew]
    exact List.getElem?_concat_length
  have ht : t = (start.register s).2.run after := home.run_append before (.register s :: after)
  have hhome : (start.register s).2.registrations = home.registrations :=
    registrations_congr ((ownModule_register start s).trans (home.ownModule_run before))
  have hentry : t.imports[place]? = some entry := by
    have hrun := (hwell.register s).getElem?_imports_run hplace after
    have hall : (home.registrations s.id (.register s :: after)).all (·.typeOnly) =
        (s.typeOnly && (home.registrations s.id after).all (·.typeOnly)) := by
      simp [registrations, home, himported]
    rw [ht, hrun, hhome, hid]
    simp only [entry, hall]
    rfl
  have hwellEnd : t.WellNamed := (wellNamed_ofSettings settings).run _
  have hidEnd : entry.id = s.id := hid
  refine ⟨hentry, hwellEnd.entry?_eq_some_iff.mpr ⟨List.mem_of_getElem? hentry, hidEnd⟩, ?_⟩
  intro s' himported' hsame
  have himportedEnd : t.isImported s' = true := by
    rwa [isImported_congr (home.ownModule_run _)]
  have hregister : t.register s' = (name, t.useAt place s'.typeOnly) :=
    hwellEnd.register_eq_useAt hentry himportedEnd (hsame.trans hidEnd.symm)
  refine ⟨hregister, ?_, ?_⟩
  · rw [hregister]
    exact nameOf?_congr rfl (t.unmarked_useAt place _)
  · rw [hregister]
    exact owner?_congr rfl (t.unmarked_useAt place _)

/-- A type-only symbol that steps aside for another import, is then used as a value under another
style and requested name, and keeps its place and name. -/
theorem registration_stable_run_value_use :
    let s := (Symbol.named "Foo" "./a").asType
    let later := (Symbol.defaultExport "Foo" "./a").withName "Bar"
    let before := [Operation.register (.named "Foo" "./b")]
    let after := [.define "Bar", Operation.register later]
    let t := (ofSettings .standard).run (before ++ .register s :: after)
    t.imports = [⟨"./b", "Foo", "Foo", .named, false⟩, ⟨"./a", "Foo", "Foo1", .named, false⟩] ∧
    (t.register later).1 = "Foo1" := by
  intro s later before after t
  obtain ⟨-, -, hlater⟩ := registration_stable_run .standard before after s (by decide) (by decide)
  have hname : (((ofSettings .standard).run before).register s).1 = "Foo1" := by decide +kernel
  have himports : t.imports = [⟨"./b", "Foo", "Foo", .named, false⟩,
      ⟨"./a", "Foo", "Foo1", .named, false⟩] := by decide +kernel
  have hlate := congrArg Prod.fst (hlater later (by decide) (by decide)).1
  exact ⟨himports, hlate.trans hname⟩

end Tracker

end TypeScriptComposer
