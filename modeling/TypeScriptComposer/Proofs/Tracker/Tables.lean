import Std.Data.HashMap
import TypeScriptComposer.Proofs.Tracker.WellNamed

/-!
# Trackers that keep tables

A tracker finds the name of a symbol and the owner of a name in the names that the file declares and
in the entries. `Tables` looks nothing up there: it has a table of names and a table of owners
besides the entries, and every operation updates each of them. After any operations the tables hold
what the tracker finds, and each operation has had the same answer from both.
-/

set_option autoImplicit false

namespace TypeScriptComposer

namespace Tracker

theorem nameOf?_eq (t : Tracker) (id : SymbolId) : t.nameOf? id =
    if id.origin = .thisFile then if t.declared.contains id.name then some id.name else none
    else (t.unmarked.find? (·.id == id)).map (·.localName) := by
  obtain ⟨origin, name⟩ := id
  cases origin with
  | thisFile => rfl
  | module m => exact t.importName?_eq ⟨.module m, name⟩

theorem owner?_eq (t : Tracker) (name : String) : t.owner? name =
    if t.declared.contains name then some ⟨.thisFile, name⟩
    else (t.unmarked.find? (·.localName == name)).map (·.id) := by
  simp only [owner?, unmarked, List.find?_map, Option.map_map]
  rfl

theorem nameOf?_congr {t t' : Tracker} (hdeclared : t'.declared = t.declared)
    (hentries : t'.unmarked = t.unmarked) : t'.nameOf? = t.nameOf? := by
  funext id
  rw [nameOf?_eq, nameOf?_eq, hdeclared, hentries]

theorem owner?_congr {t t' : Tracker} (hdeclared : t'.declared = t.declared)
    (hentries : t'.unmarked = t.unmarked) : t'.owner? = t.owner? := by
  funext name
  rw [owner?_eq, owner?_eq, hdeclared, hentries]

theorem nameOf?_declare (t : Tracker) (name : String) (id : SymbolId) :
    ({ t with declared := t.declared ++ [name] } : Tracker).nameOf? id =
      if ⟨.thisFile, name⟩ = id then some name else t.nameOf? id := by
  obtain ⟨origin, value⟩ := id
  cases origin with
  | thisFile =>
    by_cases hvalue : name = value
    · simp [nameOf?, hvalue]
    · simp [nameOf?, hvalue, Ne.symm hvalue]
  | module m => simp [nameOf?, entry?]

theorem owner?_declare (t : Tracker) (name name' : String) :
    ({ t with declared := t.declared ++ [name] } : Tracker).owner? name' =
      if name = name' then some ⟨.thisFile, name⟩ else t.owner? name' := by
  by_cases hname : name = name'
  · simp [owner?, hname]
  · simp [owner?, hname, Ne.symm hname]

/-- The entry of a symbol that had none gives the symbol its name, and changes no other. -/
theorem nameOf?_enter {t t' : Tracker} {e : ImportEntry} (hdeclared : t'.declared = t.declared)
    (hentries : t'.unmarked = t.unmarked ++ [e]) (hnew : e.id ∉ t.unmarked.map (·.id))
    (id : SymbolId) : t'.nameOf? id = if e.id = id then some e.localName else t.nameOf? id := by
  rw [nameOf?_eq, nameOf?_eq, hdeclared, hentries, List.find?_append]
  by_cases hid : e.id = id
  · subst hid
    have hnone : t.unmarked.find? (·.id == e.id) = none := by
      rw [List.find?_eq_none]
      intro e' he' heq
      exact hnew (List.mem_map.mpr ⟨e', he', beq_iff_eq.mp heq⟩)
    have hmodule : e.id.origin ≠ .thisFile := by simp [ImportEntry.id]
    rw [if_neg hmodule, hnone]
    simp
  · simp [hid]

/-- The entry under a free name gives the name its owner, and changes no other. -/
theorem owner?_enter {t t' : Tracker} {e : ImportEntry} (hdeclared : t'.declared = t.declared)
    (hentries : t'.unmarked = t.unmarked ++ [e]) (hfree : t.owner? e.localName = none)
    (name : String) : t'.owner? name = if e.localName = name then some e.id else t.owner? name := by
  rw [owner?_eq, hdeclared, hentries, List.find?_append]
  by_cases hname : e.localName = name
  · subst hname
    rw [owner?_eq] at hfree
    split at hfree
    · cases hfree
    · rename_i hdecl
      rw [if_neg hdecl, Option.map_eq_none_iff.mp hfree]
      simp
  · simp [hname, owner?_eq]

theorem owner?_freeName (t : Tracker) (preferred : String) :
    t.owner? (t.freeName preferred) = none := by
  obtain ⟨hdeclared, hentries, -⟩ := t.freeName_not_mem preferred
  have hfree : t.isTaken (t.freeName preferred) ≠ true := by
    rw [Ne, t.isTaken_iff_unmarked]
    exact not_or.mpr ⟨hdeclared, hentries⟩
  simpa [isTaken] using hfree

end Tracker

instance : Hashable SymbolId := ⟨fun id => hash (id.origin.module?, id.name)⟩

structure Tables where
  names : Std.HashMap SymbolId String
  owners : Std.HashMap String SymbolId
  /-- Entries in the order in which their symbols came. -/
  entries : List (SymbolId × ImportEntry)
  modules : List String
  reserved : List String
  ownModule : Option String

namespace Tables

def ofSettings (s : Settings) : Tables where
  names := ∅
  owners := ∅
  entries := []
  modules := []
  reserved := s.reservedWords
  ownModule := s.modulePath

def isFree (t : Tables) (name : String) : Bool :=
  !t.owners.contains name && !t.reserved.contains name

def freeName (t : Tables) (preferred : String) : String :=
  if t.isFree preferred then preferred
  else
    (((List.range (t.owners.size + t.reserved.length + 1)).map fun i =>
      Tracker.numbered preferred (i + 1)).find? t.isFree).getD preferred

def isOwn (t : Tables) (s : Symbol) : Bool :=
  t.ownModule.any fun path => s.module? == some path || s.definedIn == some path

def addName (t : Tables) (id : SymbolId) (name : String) : Tables :=
  { t with names := t.names.insert id name, owners := t.owners.insert name id }

def define (t : Tables) (name : String) : Bool × Tables :=
  match t.owners[name]? with
  | some id => (id == ⟨.thisFile, name⟩, t)
  | none => (true, t.addName ⟨.thisFile, name⟩ name)

def addModule (t : Tables) (specifier : String) : Tables :=
  { t with modules := if t.modules.contains specifier then t.modules else t.modules ++ [specifier] }

def needValue (t : Tables) (id : SymbolId) : Tables :=
  { t with entries := t.entries.map fun p =>
      if p.1 = id then (p.1, { p.2 with typeOnly := false }) else p }

/-- Takes the place of the entry that `id` has, and otherwise the last place. -/
def addEntry (t : Tables) (id : SymbolId) (e : ImportEntry) : Tables :=
  { t with entries :=
      if t.entries.any (·.1 == id) then t.entries.map fun p => if p.1 = id then (id, e) else p
      else t.entries ++ [(id, e)] }

def addImport (t : Tables) (specifier : String) (s : Symbol) : String × Tables :=
  let name := t.freeName (s.requestedName.getD s.value)
  let entry : ImportEntry := ⟨specifier, s.value, name, s.style, s.typeOnly⟩
  (name, ((t.addName s.id name).addModule specifier).addEntry s.id entry)

def register (t : Tables) (s : Symbol) : String × Tables :=
  match s.origin with
  | .thisFile => (s.value, (t.define s.value).2)
  | .module specifier =>
    if s.style = .sideEffect then (s.value, t.addModule specifier)
    else if t.isOwn s then (s.value, (t.define s.value).2)
    else match t.names[s.id]? with
      | some name => (name, if s.typeOnly then t else t.needValue s.id)
      | none => t.addImport specifier s

def step (t : Tables) : Tracker.Operation → Tables
  | .define name => (t.define name).2
  | .register s => (t.register s).2

def run (t : Tables) (operations : List Tracker.Operation) : Tables := operations.foldl step t

/-- The tables hold what the tracker finds. -/
structure Holds (tables : Tables) (t : Tracker) : Prop where
  names : ∀ id, tables.names[id]? = t.nameOf? id
  owners : ∀ name, tables.owners[name]? = t.owner? name
  size : tables.owners.size = t.declared.length + t.imports.length
  entries : tables.entries = t.imports.map fun e => (e.id, e)
  modules : tables.modules = t.modules
  reserved : tables.reserved = t.reserved
  ownModule : tables.ownModule = t.ownModule

variable {tables : Tables} {t : Tracker}

theorem holds_ofSettings (settings : Settings) :
    (ofSettings settings).Holds (Tracker.ofSettings settings) := by
  refine ⟨?_, ?_, rfl, rfl, rfl, rfl, rfl⟩
  · intro id
    obtain ⟨origin, name⟩ := id
    cases origin <;> simp [ofSettings, Tracker.ofSettings, Tracker.nameOf?, Tracker.entry?]
  · intro name
    simp [ofSettings, Tracker.ofSettings, Tracker.owner?]

theorem Holds.isFree_eq (h : tables.Holds t) : tables.isFree = t.isFree := by
  funext name
  rw [isFree, Tracker.isFree, Tracker.isTaken, h.reserved, ← h.owners,
    Std.HashMap.contains_eq_isSome_getElem?]

/-- Both try as many numbers, since every name that is in use has one owner. -/
theorem Holds.freeName_eq (h : tables.Holds t) (preferred : String) :
    tables.freeName preferred = t.freeName preferred := by
  have hbound : tables.owners.size + tables.reserved.length = t.unavailable.length := by
    simp [h.size, h.reserved, Tracker.unavailable, Nat.add_assoc]
  rw [freeName, Tracker.freeName, h.isFree_eq, hbound]

theorem Holds.isOwn_eq (h : tables.Holds t) (s : Symbol) : tables.isOwn s = t.isOwn s := by
  rw [isOwn, Tracker.isOwn, h.ownModule]
  cases t.ownModule <;> rfl

theorem names_addName (tables : Tables) (id : SymbolId) (name : String) (id' : SymbolId) :
    (tables.addName id name).names[id']? = if id = id' then some name else tables.names[id']? := by
  simp only [addName, Std.HashMap.getElem?_insert, beq_iff_eq]

theorem owners_addName (tables : Tables) (id : SymbolId) (name name' : String) :
    (tables.addName id name).owners[name']? =
      if name = name' then some id else tables.owners[name']? := by
  simp only [addName, Std.HashMap.getElem?_insert, beq_iff_eq]

/-- A name without an owner is new to the table of owners. -/
theorem Holds.size_addName (h : tables.Holds t) (id : SymbolId) {name : String}
    (hfree : t.owner? name = none) :
    (tables.addName id name).owners.size = t.declared.length + t.imports.length + 1 := by
  have hnew : name ∉ tables.owners := by simpa [hfree] using h.owners name
  rw [addName, Std.HashMap.size_insert, if_neg hnew, h.size]

/-- A claim has the same answer from the tables, and they hold what the tracker then finds. -/
theorem Holds.define (h : tables.Holds t) (name : String) :
    (tables.define name).1 = (t.define name).1 ∧
      (tables.define name).2.Holds (t.define name).2 := by
  unfold Tables.define Tracker.define
  rw [h.owners]
  cases howner : t.owner? name with
  | some id => exact ⟨rfl, h⟩
  | none =>
    refine ⟨rfl, ?_, ?_, ?_, h.entries, h.modules, h.reserved, h.ownModule⟩
    · intro id
      rw [names_addName, Tracker.nameOf?_declare, h.names]
    · intro name'
      rw [owners_addName, Tracker.owner?_declare, h.owners]
    · rw [h.size_addName _ howner, List.length_append, List.length_singleton, Nat.add_right_comm]

theorem Holds.addModule (h : tables.Holds t) (m : String) :
    (tables.addModule m).Holds (t.addModule m) := by
  have hentries : (t.addModule m).unmarked = t.unmarked := by
    rw [Tracker.unmarked, Tracker.imports_addModule, Tracker.unmarked]
  refine ⟨?_, ?_, ?_, ?_, ?_, ?_, ?_⟩
  · rw [Tracker.nameOf?_congr (t.declared_addModule m) hentries]
    exact h.names
  · rw [Tracker.owner?_congr (t.declared_addModule m) hentries]
    exact h.owners
  · rw [Tracker.declared_addModule, Tracker.imports_addModule]
    exact h.size
  · rw [Tracker.imports_addModule]
    exact h.entries
  · rw [Tracker.modules_addModule, Tables.addModule, h.modules]
    simp
  · rw [Tracker.reserved_addModule]
    exact h.reserved
  · rw [Tracker.ownModule_addModule]
    exact h.ownModule

theorem Holds.needValue (h : tables.Holds t) (id : SymbolId) :
    (tables.needValue id).Holds (t.needValue id) := by
  have hentries := t.unmarked_needValue id
  have hnames : (t.needValue id).nameOf? = t.nameOf? := Tracker.nameOf?_congr rfl hentries
  have howners : (t.needValue id).owner? = t.owner? := Tracker.owner?_congr rfl hentries
  refine ⟨?_, ?_, ?_, ?_, h.modules, h.reserved, h.ownModule⟩
  · rw [hnames]
    exact h.names
  · rw [howners]
    exact h.owners
  · rw [Tracker.needValue, List.length_map]
    exact h.size
  · simp only [Tables.needValue, Tracker.needValue, h.entries, List.map_map]
    apply List.map_congr_left
    intro e _
    simp only [Function.comp_apply]
    split
    · rfl
    · rfl

theorem entries_addEntry_of_new (tables : Tables) {id : SymbolId}
    (hnew : ∀ p ∈ tables.entries, p.1 ≠ id) (e : ImportEntry) :
    (tables.addEntry id e).entries = tables.entries ++ [(id, e)] := by
  have hany : tables.entries.any (·.1 == id) = false := by simpa using hnew
  rw [addEntry, hany]
  rfl

/-- The tracker only looks for an entry, and the tables only for a name, but a symbol that has no
entry has no name, either; nor has the free name an owner, so nothing in the tables is replaced. -/
theorem Holds.addImport (h : tables.Holds t) {s : Symbol} {m : String}
    (horigin : s.origin = .module m) (hnew : t.entry? s.id = none) :
    (tables.addImport m s).1 = (t.addImport m s).1 ∧
      (tables.addImport m s).2.Holds (t.addImport m s).2 := by
  let name := t.freeName (s.requestedName.getD s.value)
  let e : ImportEntry := ⟨m, s.value, name, s.style, s.typeOnly⟩
  have htables : tables.addImport m s =
      (name, ((tables.addName s.id name).addModule m).addEntry s.id e) := by
    rw [Tables.addImport, h.freeName_eq]
  have hid : e.id = s.id := by rw [Symbol.id, horigin]; rfl
  have hid' : e.unmarked.id = s.id := hid
  have himports : (t.addImport m s).2.imports = t.imports ++ [e] :=
    congrArg (· ++ [e]) (t.imports_addModule m)
  have hdeclared : (t.addImport m s).2.declared = t.declared := t.declared_addModule m
  have hentries : (t.addImport m s).2.unmarked = t.unmarked ++ [e.unmarked] := by
    rw [Tracker.unmarked, himports, List.map_append, List.map_singleton, Tracker.unmarked]
  have hunused : e.unmarked.id ∉ t.unmarked.map (·.id) := by
    have hnone : t.importName? s.id = none := by rw [Tracker.importName?, hnew]; rfl
    rw [hid']
    exact (t.importName?_eq_none_iff s.id).mp hnone
  have hfree : t.owner? name = none := t.owner?_freeName _
  rw [htables]
  refine ⟨rfl, ?_, ?_, ?_, ?_, ?_, ?_, ?_⟩
  · intro id
    rw [Tracker.nameOf?_enter hdeclared hentries hunused, hid', ← h.names]
    exact tables.names_addName s.id name id
  · intro name'
    rw [Tracker.owner?_enter hdeclared hentries hfree, hid', ← h.owners]
    exact tables.owners_addName s.id name name'
  · rw [hdeclared, himports, List.length_append, List.length_singleton, ← Nat.add_assoc]
    exact h.size_addName s.id hfree
  · have hnone : ∀ p ∈ tables.entries, p.1 ≠ s.id := by
      rw [h.entries]
      simpa [Tracker.entry?] using hnew
    rw [himports, List.map_append, List.map_singleton, hid, ← h.entries]
    exact entries_addEntry_of_new ((tables.addName s.id name).addModule m) hnone e
  · exact (h.addModule m).modules
  · exact (h.addModule m).reserved
  · exact (h.addModule m).ownModule

/-- A registration gives the same name from the tables, and they hold what the tracker then
finds. -/
theorem Holds.register (h : tables.Holds t) (s : Symbol) :
    (tables.register s).1 = (t.register s).1 ∧
      (tables.register s).2.Holds (t.register s).2 := by
  unfold Tables.register Tracker.register
  cases horigin : s.origin with
  | thisFile => exact ⟨rfl, (h.define s.value).2⟩
  | module m =>
    dsimp only
    rw [h.isOwn_eq]
    split
    · exact ⟨rfl, h.addModule m⟩
    split
    · exact ⟨rfl, (h.define s.value).2⟩
    have hlookup : tables.names[s.id]? = (t.entry? s.id).map (·.localName) := by
      rw [h.names, Tracker.nameOf?, Symbol.id, horigin]
    rw [hlookup]
    cases hentry : t.entry? s.id with
    | none => exact h.addImport horigin hentry
    | some e =>
      refine ⟨rfl, ?_⟩
      dsimp only [Option.map_some]
      split
      · exact h
      · exact h.needValue s.id

theorem Holds.step (h : tables.Holds t) (op : Tracker.Operation) :
    (tables.step op).Holds (t.step op) := by
  cases op with
  | define name => exact (h.define name).2
  | register s => exact (h.register s).2

theorem Holds.run (h : tables.Holds t) (ops : List Tracker.Operation) :
    (tables.run ops).Holds (t.run ops) := by
  unfold Tables.run Tracker.run
  induction ops generalizing tables t with
  | nil => exact h
  | cons op ops ih => exact ih (h.step op)

end Tables

end TypeScriptComposer
