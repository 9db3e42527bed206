import Mathlib.Data.List.Nodup
import TypeScriptComposer.Proofs.Tracker.FreeName

/-!
# What a registration does

A registration does one of four things: it declares a name, it loads a module, it finds the entry
that the symbol has, or it enters the symbol. From these cases follows that registrations only ever
append entries, apart from their type marks, so that a symbol keeps the name it has been given.
-/

set_option autoImplicit false

namespace TypeScriptComposer

namespace Tracker

/-- Whether `s` comes from another module, neither declared here nor exported by this file. -/
def isForeign (t : Tracker) (s : Symbol) : Bool := !s.isLocal && !t.isOwn s

def isImported (t : Tracker) (s : Symbol) : Bool := t.isForeign s && s.style != .sideEffect

def registerAll (t : Tracker) (ss : List Symbol) : Tracker :=
  ss.foldl (fun t s => (t.register s).2) t

@[simp] theorem registerAll_nil (t : Tracker) : t.registerAll [] = t := rfl

@[simp] theorem registerAll_cons (t : Tracker) (s : Symbol) (ss : List Symbol) :
    t.registerAll (s :: ss) = (t.register s).2.registerAll ss := rfl

theorem registerAll_append (t : Tracker) (a b : List Symbol) :
    t.registerAll (a ++ b) = (t.registerAll a).registerAll b := by
  simp [registerAll]

theorem register_cases (t : Tracker) (s : Symbol) :
    (t.declares s = true ∧ t.register s = (s.value, (t.define s.value).2)) ∨
    (∃ m, s.origin = .module m ∧ s.style = .sideEffect ∧ t.register s = (s.value, t.addModule m)) ∨
    (∃ e, t.isImported s = true ∧ t.entry? s.id = some e ∧
      t.register s = (e.localName, if s.typeOnly then t else t.needValue s.id)) ∨
    (∃ m, s.origin = .module m ∧ t.isImported s = true ∧ t.entry? s.id = none ∧
      t.register s = t.addImport m s) := by
  cases horigin : s.origin with
  | thisFile =>
    refine Or.inl ⟨?_, ?_⟩
    · simp [declares, Symbol.isLocal, horigin]
    · simp [register, horigin]
  | module m =>
    have hlocal : s.isLocal = false := by simp [Symbol.isLocal, horigin]
    by_cases hstyle : s.style = .sideEffect
    · refine Or.inr (Or.inl ⟨m, rfl, hstyle, ?_⟩)
      simp [register, horigin, hstyle]
    · by_cases hown : t.isOwn s = true
      · refine Or.inl ⟨?_, ?_⟩
        · simp [declares, hown, hstyle]
        · simp [register, horigin, hstyle, hown]
      · have himported : t.isImported s = true := by
          simp [isImported, isForeign, hlocal, hown, hstyle]
        cases hentry : t.entry? s.id with
        | some e =>
          refine Or.inr (Or.inr (Or.inl ⟨e, himported, rfl, ?_⟩))
          simp [register, horigin, hstyle, hown, hentry]
        | none =>
          refine Or.inr (Or.inr (Or.inr ⟨m, rfl, himported, rfl, ?_⟩))
          simp [register, horigin, hstyle, hown, hentry]

theorem isImported_eq_true_iff (t : Tracker) (s : Symbol) : t.isImported s = true ↔
    s.isLocal = false ∧ t.isOwn s = false ∧ s.style ≠ .sideEffect := by
  simp [isImported, isForeign, and_assoc]

theorem declares_eq_true_iff (t : Tracker) (s : Symbol) : t.declares s = true ↔
    s.isLocal = true ∨ (t.isOwn s = true ∧ s.style ≠ .sideEffect) := by
  simp [declares, and_comm]

theorem isImported_iff (t : Tracker) (s : Symbol) :
    t.isImported s = true ↔ t.declares s = false ∧ s.style ≠ .sideEffect := by
  unfold isImported isForeign declares
  cases hlocal : s.isLocal <;> cases hown : t.isOwn s <;> simp

theorem isOwn_congr {t t' : Tracker} (h : t'.ownModule = t.ownModule) : t'.isOwn = t.isOwn := by
  funext s
  unfold isOwn
  rw [h]

theorem declares_congr {t t' : Tracker} (h : t'.ownModule = t.ownModule) :
    t'.declares = t.declares := by
  funext s
  unfold declares
  rw [isOwn_congr h]

theorem isForeign_congr {t t' : Tracker} (h : t'.ownModule = t.ownModule) :
    t'.isForeign = t.isForeign := by
  funext s
  unfold isForeign
  rw [isOwn_congr h]

theorem isImported_congr {t t' : Tracker} (h : t'.ownModule = t.ownModule) :
    t'.isImported = t.isImported := by
  funext s
  unfold isImported
  rw [isForeign_congr h]

theorem define_cases (t : Tracker) (name : String) :
    (t.isTaken name = true ∧ (t.define name).2 = t) ∨
    (t.isTaken name = false ∧ (t.define name).2 = { t with declared := t.declared ++ [name] }) := by
  unfold define isTaken
  cases howner : t.owner? name with
  | some id => exact Or.inl ⟨rfl, rfl⟩
  | none => exact Or.inr ⟨rfl, rfl⟩

@[simp] theorem imports_define (t : Tracker) (name : String) :
    (t.define name).2.imports = t.imports := by
  rcases t.define_cases name with ⟨-, h⟩ | ⟨-, h⟩ <;> rw [h]

@[simp] theorem modules_define (t : Tracker) (name : String) :
    (t.define name).2.modules = t.modules := by
  rcases t.define_cases name with ⟨-, h⟩ | ⟨-, h⟩ <;> rw [h]

@[simp] theorem reserved_define (t : Tracker) (name : String) :
    (t.define name).2.reserved = t.reserved := by
  rcases t.define_cases name with ⟨-, h⟩ | ⟨-, h⟩ <;> rw [h]

@[simp] theorem ownModule_define (t : Tracker) (name : String) :
    (t.define name).2.ownModule = t.ownModule := by
  rcases t.define_cases name with ⟨-, h⟩ | ⟨-, h⟩ <;> rw [h]

@[simp] theorem imports_addModule (t : Tracker) (m : String) :
    (t.addModule m).imports = t.imports := by
  unfold addModule
  split <;> rfl

@[simp] theorem declared_addModule (t : Tracker) (m : String) :
    (t.addModule m).declared = t.declared := by
  unfold addModule
  split <;> rfl

@[simp] theorem reserved_addModule (t : Tracker) (m : String) :
    (t.addModule m).reserved = t.reserved := by
  unfold addModule
  split <;> rfl

@[simp] theorem ownModule_addModule (t : Tracker) (m : String) :
    (t.addModule m).ownModule = t.ownModule := by
  unfold addModule
  split <;> rfl

theorem modules_addModule (t : Tracker) (m : String) :
    (t.addModule m).modules = if m ∈ t.modules then t.modules else t.modules ++ [m] := by
  unfold addModule
  by_cases hm : m ∈ t.modules <;> simp [hm]

end Tracker

/-- The entry without its type mark, which is all of it that ever changes. To the list of entries
with the marks left out, registrations can only append. -/
def ImportEntry.unmarked (e : ImportEntry) : ImportEntry := { e with typeOnly := false }

/-- The entry, without a type mark, of a symbol that the file prints as `localName`. -/
def Symbol.entry (s : Symbol) (localName : String) : ImportEntry :=
  ⟨s.module?.getD "", s.value, localName, s.style, false⟩

namespace Tracker

def unmarked (t : Tracker) : List ImportEntry := t.imports.map (·.unmarked)

theorem localNames_unmarked (t : Tracker) :
    t.unmarked.map (·.localName) = t.imports.map (·.localName) := by
  rw [unmarked, List.map_map]
  rfl

@[simp] theorem unmarked_needValue (t : Tracker) (id : SymbolId) :
    (t.needValue id).unmarked = t.unmarked := by
  simp only [unmarked, needValue, List.map_map]
  apply List.map_congr_left
  intro e _
  simp only [Function.comp_apply]
  split <;> rfl

def importName? (t : Tracker) (id : SymbolId) : Option String :=
  (t.entry? id).map (·.localName)

theorem importName?_eq (t : Tracker) (id : SymbolId) :
    t.importName? id = (t.unmarked.find? (·.id == id)).map (·.localName) := by
  simp only [importName?, entry?, unmarked, List.find?_map, Option.map_map]
  rfl

def preferred (s : Symbol) : String := s.requestedName.getD s.value

theorem isImported_module {t : Tracker} {s : Symbol} (h : t.isImported s = true) :
    s.origin = .module (s.module?.getD "") := by
  cases horigin : s.origin with
  | thisFile => simp [isImported, isForeign, Symbol.isLocal, horigin] at h
  | module m => simp [Symbol.module?, Origin.module?, horigin]

theorem id_entry {t : Tracker} {s : Symbol} (h : t.isImported s = true) (name : String) :
    (s.entry name).id = s.id := by
  simp only [ImportEntry.id, Symbol.entry, Symbol.id, isImported_module h]

@[simp] theorem style_entry (s : Symbol) (name : String) : (s.entry name).style = s.style := rfl

/-- A registration appends the entry of an imported symbol that has none, and changes no other. -/
theorem unmarked_register (t : Tracker) (s : Symbol) : (t.register s).2.unmarked =
    if t.isImported s = true ∧ t.importName? s.id = none
    then t.unmarked ++ [s.entry (t.freeName (preferred s))] else t.unmarked := by
  rcases t.register_cases s with ⟨hdecl, heq⟩ | ⟨m, -, hstyle, heq⟩ | ⟨e, himp, hentry, heq⟩ |
    ⟨m, horigin, himp, hentry, heq⟩
  · have hnot : t.isImported s ≠ true := by simp [isImported_iff, hdecl]
    simp [heq, hnot, unmarked]
  · have hnot : t.isImported s ≠ true := by simp [isImported_iff, hstyle]
    simp [heq, hnot, unmarked]
  · have hname : t.importName? s.id ≠ none := by simp [importName?, hentry]
    have hkeep : (if s.typeOnly then t else t.needValue s.id).unmarked = t.unmarked := by
      split
      · rfl
      · exact unmarked_needValue t s.id
    simp [heq, hkeep, hname]
  · have hname : t.importName? s.id = none := by simp [importName?, hentry]
    rw [heq, if_pos ⟨himp, hname⟩]
    simp [addImport, unmarked, preferred, Symbol.entry, ImportEntry.unmarked, Symbol.module?,
      Origin.module?, horigin]

@[simp] theorem ownModule_register (t : Tracker) (s : Symbol) :
    (t.register s).2.ownModule = t.ownModule := by
  rcases t.register_cases s with ⟨-, heq⟩ | ⟨m, -, -, heq⟩ | ⟨e, -, -, heq⟩ | ⟨m, -, -, -, heq⟩
  · simp [heq]
  · simp [heq]
  · rw [heq]
    dsimp only
    split <;> rfl
  · simp [heq, addImport]

@[simp] theorem reserved_register (t : Tracker) (s : Symbol) :
    (t.register s).2.reserved = t.reserved := by
  rcases t.register_cases s with ⟨-, heq⟩ | ⟨m, -, -, heq⟩ | ⟨e, -, -, heq⟩ | ⟨m, -, -, -, heq⟩
  · simp [heq]
  · simp [heq]
  · rw [heq]
    dsimp only
    split <;> rfl
  · simp [heq, addImport]

/-- Registrations declare no new name while the names to be declared are declared already. -/
theorem declared_register {t : Tracker} {s : Symbol}
    (h : t.declares s = true → s.value ∈ t.declared) : (t.register s).2.declared = t.declared := by
  rcases t.register_cases s with ⟨hdecl, heq⟩ | ⟨m, -, -, heq⟩ | ⟨e, -, -, heq⟩ | ⟨m, -, -, -, heq⟩
  · have htaken := (t.isTaken_iff s.value).mpr (Or.inl (h hdecl))
    rcases t.define_cases s.value with ⟨-, hdef⟩ | ⟨hfree, -⟩
    · rw [heq, hdef]
    · simp [htaken] at hfree
  · simp [heq]
  · rw [heq]
    dsimp only
    split <;> rfl
  · simp [heq, addImport]

theorem fst_register_of_not_imported {t : Tracker} {s : Symbol} (h : t.isImported s ≠ true) :
    (t.register s).1 = s.value := by
  rcases t.register_cases s with ⟨-, heq⟩ | ⟨m, -, -, heq⟩ | ⟨e, himp, -, -⟩ | ⟨m, -, himp, -, -⟩
  · rw [heq]
  · rw [heq]
  · exact (h himp).elim
  · exact (h himp).elim

theorem fst_register_of_known {t : Tracker} {s : Symbol} {name : String}
    (h : t.isImported s = true) (hname : t.importName? s.id = some name) :
    (t.register s).1 = name := by
  obtain ⟨hdecl, hstyle⟩ := (t.isImported_iff s).mp h
  rcases t.register_cases s with ⟨hdecl', -⟩ | ⟨m, -, hstyle', -⟩ | ⟨e, -, hentry, heq⟩ |
    ⟨m, -, -, hentry, -⟩
  · simp [hdecl] at hdecl'
  · exact (hstyle hstyle').elim
  · simpa [heq, importName?, hentry] using hname
  · simp [importName?, hentry] at hname

theorem fst_register_of_new {t : Tracker} {s : Symbol} (h : t.isImported s = true)
    (hname : t.importName? s.id = none) : (t.register s).1 = t.freeName (preferred s) := by
  obtain ⟨hdecl, hstyle⟩ := (t.isImported_iff s).mp h
  rcases t.register_cases s with ⟨hdecl', -⟩ | ⟨m, -, hstyle', -⟩ | ⟨e, -, hentry, -⟩ |
    ⟨m, -, -, -, heq⟩
  · simp [hdecl] at hdecl'
  · exact (hstyle hstyle').elim
  · simp [importName?, hentry] at hname
  · rw [heq]
    rfl

theorem importName?_register {t : Tracker} {s : Symbol} (h : t.isImported s = true) :
    (t.register s).2.importName? s.id = some (t.register s).1 := by
  rw [importName?_eq, unmarked_register]
  cases hname : t.importName? s.id with
  | none =>
    have hnone : t.unmarked.find? (·.id == s.id) = none := by
      simpa [importName?_eq] using hname
    have hid : ((s.entry (t.freeName (preferred s))).id == s.id) = true := by simp [id_entry h]
    rw [fst_register_of_new h hname, if_pos ⟨h, rfl⟩, List.find?_append, hnone, Option.none_or,
      List.find?_singleton, if_pos hid]
    rfl
  | some name =>
    rw [fst_register_of_known h hname]
    simpa [importName?_eq] using hname

/-- `t'` has the entries of `t`, in front of any others, and the same own module. -/
def Extends (t t' : Tracker) : Prop :=
  t'.ownModule = t.ownModule ∧ ∃ more, t'.unmarked = t.unmarked ++ more

namespace Extends
variable {t t' t'' : Tracker}

theorem refl (t : Tracker) : t.Extends t := ⟨rfl, [], by simp⟩

theorem trans (h : t.Extends t') (h' : t'.Extends t'') : t.Extends t'' := by
  obtain ⟨hown, more, hmore⟩ := h
  obtain ⟨hown', more', hmore'⟩ := h'
  exact ⟨hown'.trans hown, more ++ more', by rw [hmore', hmore, List.append_assoc]⟩

theorem register (t : Tracker) (s : Symbol) : t.Extends (t.register s).2 := by
  refine ⟨ownModule_register t s, ?_⟩
  rw [unmarked_register]
  split
  · exact ⟨_, rfl⟩
  · exact ⟨[], by simp⟩

theorem registerAll (t : Tracker) (ss : List Symbol) : t.Extends (t.registerAll ss) := by
  induction ss generalizing t with
  | nil => exact refl t
  | cons s ss ih => exact (register t s).trans (ih _)

theorem importName? (h : t.Extends t') {id : SymbolId} {name : String}
    (hname : t.importName? id = some name) : t'.importName? id = some name := by
  obtain ⟨-, more, hmore⟩ := h
  rw [importName?_eq] at hname ⊢
  obtain ⟨e, hfind, hlocal⟩ := Option.map_eq_some_iff.mp hname
  rw [hmore, List.find?_append, hfind]
  simp [hlocal]

/-- A symbol prints as it did when it was registered first. -/
theorem register_again {s : Symbol} (h : (t.register s).2.Extends t') :
    (t'.register s).1 = (t.register s).1 := by
  have himp : t'.isImported = t.isImported :=
    isImported_congr (h.1.trans (ownModule_register t s))
  by_cases hs : t.isImported s = true
  · exact fst_register_of_known (by rw [himp, hs]) (h.importName? (importName?_register hs))
  · rw [fst_register_of_not_imported hs, fst_register_of_not_imported (by rwa [himp])]

end Extends

def nameOf (t : Tracker) (s : Symbol) : String := (t.register s).1

theorem nameOf_registerAll (t : Tracker) (s : Symbol) (ss : List Symbol) :
    (t.registerAll (s :: ss)).nameOf s = (t.register s).1 :=
  (Extends.registerAll (t.register s).2 ss).register_again

theorem registerAll_eq_run (t : Tracker) (ss : List Symbol) :
    t.registerAll ss = t.run (ss.map .register) := by
  rw [run, List.foldl_map]
  rfl

/-- The symbols that operations register, in order. -/
def registered (ops : List Operation) : List Symbol :=
  ops.filterMap fun
    | .define _ => none
    | .register s => some s

theorem registered_append (a b : List Operation) :
    registered (a ++ b) = registered a ++ registered b := List.filterMap_append

@[simp] theorem registered_map_register (ss : List Symbol) :
    registered (ss.map .register) = ss := by
  induction ss with
  | nil => rfl
  | cons s ss ih => rw [List.map_cons, registered, List.filterMap_cons, ← registered, ih]

theorem run_append (t : Tracker) (before after : List Operation) :
    t.run (before ++ after) = (t.run before).run after := List.foldl_append

@[simp] theorem ownModule_step (t : Tracker) (op : Operation) :
    (t.step op).ownModule = t.ownModule := by
  cases op with
  | define name => exact t.ownModule_define name
  | register s => exact t.ownModule_register s

theorem ownModule_run (t : Tracker) (ops : List Operation) :
    (t.run ops).ownModule = t.ownModule := by
  unfold run
  induction ops generalizing t with
  | nil => rfl
  | cons op ops ih => rw [List.foldl_cons, ih, ownModule_step]

end Tracker

end TypeScriptComposer
