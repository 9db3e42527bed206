import Mathlib.Data.List.Induction
import Mathlib.Data.Set.Operations
import TypeScriptComposer.Proofs.Tracker.WellNamed

/-!
# What a tracker records

A tracker that has imported nothing registers a list of symbols. Its entries are then the imported
symbols of the list, each at its first occurrence, and its modules are those of the foreign symbols.
When the names that the list declares have been declared before, an entry has the least name that
was free at the first occurrence of its symbol.
-/

set_option autoImplicit false

namespace TypeScriptComposer

section Firsts
variable {α κ : Type} [DecidableEq κ] (key : α → κ)

/-- The members of a list that have another key than every member in front of them. -/
def firstsBy (l : List α) : List α := l.eraseDupsBy fun a b => key a == key b

theorem firstsBy_cons (a : α) (l : List α) :
    firstsBy key (a :: l) = a :: firstsBy key (l.filter fun b => key b != key a) := by
  rw [firstsBy, List.eraseDupsBy_cons, firstsBy]
  congr 3
  funext b
  by_cases h : key b = key a <;> simp [h]

theorem mem_map_firstsBy (l : List α) (k : κ) : k ∈ (firstsBy key l).map key ↔ k ∈ l.map key := by
  match l with
  | [] => rfl
  | a :: l =>
    have hrest := mem_map_firstsBy (l.filter fun b => key b != key a) k
    rw [firstsBy_cons, List.map_cons, List.mem_cons, hrest, List.map_cons, List.mem_cons]
    by_cases hk : k = key a
    · simp [hk]
    · simp only [hk, false_or, List.mem_map, List.mem_filter, bne_iff_ne]
      constructor
      · rintro ⟨b, ⟨hb, -⟩, hkey⟩
        exact ⟨b, hb, hkey⟩
      · rintro ⟨b, hb, rfl⟩
        exact ⟨b, ⟨hb, hk⟩, rfl⟩
termination_by l.length
decreasing_by exact Nat.lt_succ_of_le (List.length_filter_le _ _)

theorem firstsBy_concat (l : List α) (a : α) : firstsBy key (l ++ [a]) =
    if key a ∈ l.map key then firstsBy key l else firstsBy key l ++ [a] := by
  match l with
  | [] => rfl
  | b :: l =>
    rw [List.cons_append, firstsBy_cons, firstsBy_cons, List.filter_append]
    by_cases hab : key a = key b
    · simp [hab]
    · have hrest := firstsBy_concat (l.filter fun c => key c != key b) a
      have hmem : key a ∈ (l.filter fun c => key c != key b).map key ↔
          key a ∈ (b :: l).map key := by
        rw [← mem_map_firstsBy, ← mem_map_firstsBy key (b :: l), firstsBy_cons, List.map_cons,
          List.mem_cons, or_iff_right hab]
      have hkeep : [a].filter (fun c => key c != key b) = [a] := by simp [hab]
      rw [hkeep, hrest]
      simp only [hmem]
      split <;> rfl
termination_by l.length
decreasing_by exact Nat.lt_succ_of_le (List.length_filter_le _ _)

end Firsts

namespace Tracker
variable {t : Tracker}

@[simp] theorem ownModule_registerAll (t : Tracker) (ss : List Symbol) :
    (t.registerAll ss).ownModule = t.ownModule := (Extends.registerAll t ss).1

@[simp] theorem reserved_registerAll (t : Tracker) (ss : List Symbol) :
    (t.registerAll ss).reserved = t.reserved := by
  induction ss generalizing t with
  | nil => rfl
  | cons s ss ih => rw [registerAll_cons, ih, reserved_register]

theorem declared_registerAll {ss : List Symbol}
    (h : ∀ s ∈ ss, t.declares s = true → s.value ∈ t.declared) :
    (t.registerAll ss).declared = t.declared := by
  induction ss generalizing t with
  | nil => rfl
  | cons s ss ih =>
    obtain ⟨hs, hss⟩ := List.forall_mem_cons.mp h
    have hdeclared := declared_register hs
    rw [registerAll_cons, ih, hdeclared]
    rwa [hdeclared, declares_congr (ownModule_register t s)]

/-- The entries after a run: the first occurrences of the imported symbols. -/
theorem entries_run (hnone : t.imports = []) (ops : List Operation) :
    (t.run ops).unmarked.map (fun e => (e.id, e.style)) =
      (firstsBy Symbol.id ((registered ops).filter t.isImported)).map fun s => (s.id, s.style) := by
  induction ops using List.reverseRecOn with
  | nil => simp [run, registered, unmarked, hnone, firstsBy]
  | append_singleton ops op ih =>
    have hstep : t.run (ops ++ [op]) = (t.run ops).step op := t.run_append ops [op]
    rw [hstep, registered_append]
    cases op with
    | define name => simpa [step, unmarked, registered] using ih
    | register s =>
      have himported : (t.run ops).isImported = t.isImported :=
        isImported_congr (t.ownModule_run ops)
      have hids : (t.run ops).unmarked.map (·.id) =
          (firstsBy Symbol.id ((registered ops).filter t.isImported)).map Symbol.id := by
        simpa [Function.comp_def] using congrArg (List.map Prod.fst) ih
      have hnew : (t.run ops).importName? s.id = none ↔
          s.id ∉ ((registered ops).filter t.isImported).map Symbol.id := by
        rw [importName?_eq_none_iff, hids, mem_map_firstsBy]
      have hlast : registered [.register s] = [s] := rfl
      rw [step, unmarked_register, himported, hlast, List.filter_append]
      simp only [hnew]
      by_cases hs : t.isImported s = true
      · have hid : (s.entry ((t.run ops).freeName (preferred s))).id = s.id :=
          id_entry (t := t) hs _
        by_cases hold : s.id ∈ ((registered ops).filter t.isImported).map Symbol.id
        · simp [hs, hold, firstsBy_concat, ih]
        · simp [hs, hold, firstsBy_concat, ih, hid]
      · simp [hs, ih]

theorem entries_registerAll (hnone : t.imports = []) (ss : List Symbol) :
    (t.registerAll ss).unmarked.map (fun e => (e.id, e.style)) =
      (firstsBy Symbol.id (ss.filter t.isImported)).map fun s => (s.id, s.style) := by
  rw [registerAll_eq_run, entries_run hnone, registered_map_register]

theorem mem_ids_iff (hnone : t.imports = []) (ss : List Symbol) (id : SymbolId) :
    id ∈ (t.registerAll ss).unmarked.map (·.id) ↔
      ∃ s ∈ ss, t.isImported s = true ∧ s.id = id := by
  have hids := congrArg (List.map Prod.fst) (entries_registerAll hnone ss)
  simp only [List.map_map, Function.comp_def] at hids
  rw [hids, mem_map_firstsBy]
  simp [and_assoc]

/-- The modules after a run: those of the symbols that the file does not declare. -/
theorem modules_run (hwell : t.WellNamed) (hnone : t.modules = []) (ops : List Operation) :
    (t.run ops).modules =
      (((registered ops).filter fun s => !t.declares s).filterMap Symbol.module?).eraseDups := by
  induction ops using List.reverseRecOn with
  | nil => simp [run, registered, hnone]
  | append_singleton ops op ih =>
    have hstep : t.run (ops ++ [op]) = (t.run ops).step op := t.run_append ops [op]
    rw [hstep, registered_append]
    cases op with
    | define name => simpa [step, registered] using ih
    | register s =>
      have hdeclares : (t.run ops).declares = t.declares := declares_congr (t.ownModule_run ops)
      have hlast : registered [.register s] = [s] := rfl
      rw [step, modules_register (hwell.run ops).listed, hdeclares, ih, hlast, List.filter_append,
        List.filterMap_append]
      cases hs : t.declares s with
      | true => simp [hs]
      | false =>
        obtain ⟨m, hm⟩ : ∃ m, s.module? = some m := by
          cases horigin : s.origin with
          | thisFile => simp [declares, Symbol.isLocal, horigin] at hs
          | module m => exact ⟨m, by simp [Symbol.module?, Origin.module?, horigin]⟩
        have hconcat := firstsBy_concat id
          (((registered ops).filter fun s => !t.declares s).filterMap Symbol.module?) m
        rw [List.map_id] at hconcat
        simp only [hs, hm, Bool.not_false, Bool.false_eq_true, false_or, Option.getD_some,
          List.mem_eraseDups, List.filter_cons_of_pos, List.filter_nil, List.filterMap_cons,
          List.filterMap_nil]
        exact hconcat.symm

/-- The modules after a list of registrations: the modules of the foreign symbols, unless one is
loaded only for its side effects and is the file itself. -/
theorem modules_registerAll (hwell : t.WellNamed) (hnone : t.modules = []) {ss : List Symbol}
    (hloaded : ∀ s ∈ ss, s.style = .sideEffect → t.isOwn s = false) :
    (t.registerAll ss).modules = ((ss.filter t.isForeign).filterMap Symbol.module?).eraseDups := by
  have hforeign : ss.filter (fun s => !t.declares s) = ss.filter t.isForeign := by
    apply List.filter_congr
    intro s hs
    by_cases hstyle : s.style = .sideEffect
    · simp [declares, isForeign, hstyle, hloaded s hs hstyle]
    · have hbne : (s.style != .sideEffect) = true := by simpa using hstyle
      simp [declares, isForeign, hbne]
  rw [registerAll_eq_run, modules_run hwell hnone, registered_map_register, hforeign]

/-- A symbol in a list prints as it did at any of its occurrences. -/
theorem nameOf_split (t : Tracker) (before after : List Symbol) (s : Symbol) :
    (t.registerAll (before ++ s :: after)).nameOf s = ((t.registerAll before).register s).1 := by
  rw [registerAll_append, nameOf_registerAll]

theorem nameOf_of_not_imported {s : Symbol} (ss : List Symbol) (h : t.isImported s ≠ true) :
    (t.registerAll ss).nameOf s = s.value :=
  fst_register_of_not_imported (by rwa [isImported_congr (ownModule_registerAll t ss)])

theorem importName?_registerAll {ss : List Symbol} {s : Symbol} (hs : s ∈ ss)
    (himported : t.isImported s = true) :
    (t.registerAll ss).importName? s.id = some ((t.registerAll ss).nameOf s) := by
  obtain ⟨before, after, rfl⟩ := List.append_of_mem hs
  have hthen : (t.registerAll before).isImported s = true := by
    rwa [isImported_congr (ownModule_registerAll t before)]
  rw [nameOf_split, registerAll_append, registerAll_cons]
  exact (Extends.registerAll _ after).importName? (importName?_register hthen)

theorem mem_localNames_iff (hwell : t.WellNamed) (hnone : t.imports = [])
    (before after : List Symbol) (name : String) :
    name ∈ (t.registerAll before).unmarked.map (·.localName) ↔
      ∃ s ∈ before, t.isImported s = true ∧ (t.registerAll (before ++ after)).nameOf s = name := by
  have hlater : (t.registerAll before).Extends (t.registerAll (before ++ after)) := by
    rw [registerAll_append]
    exact Extends.registerAll _ after
  constructor
  · intro hname
    obtain ⟨e, he, rfl⟩ := List.mem_map.mp hname
    obtain ⟨s, hs, himported, hid⟩ := (mem_ids_iff hnone before e.id).mp
      (List.mem_map.mpr ⟨e, he, rfl⟩)
    have hthen := hlater.importName? ((hwell.registerAll before).importName?_of_mem he)
    rw [← hid, importName?_registerAll (List.mem_append_left after hs) himported] at hthen
    exact ⟨s, hs, himported, Option.some.inj hthen⟩
  · rintro ⟨s, hs, himported, rfl⟩
    have hthen := importName?_registerAll hs himported
    have hfinal := hlater.importName? hthen
    rw [importName?_registerAll (List.mem_append_left after hs) himported] at hfinal
    rw [Option.some.inj hfinal]
    exact mem_localNames_of_importName? hthen

/-- The first occurrence of an imported symbol decides its name: the least one that is not reserved,
not declared, and not the name of a symbol imported before. -/
theorem leastFree_nameOf (hwell : t.WellNamed) (hnone : t.imports = [])
    {before : List Symbol} (after : List Symbol) {s : Symbol}
    (hdeclared : ∀ s ∈ before, t.declares s = true → s.value ∈ t.declared)
    (himported : t.isImported s = true)
    (hfirst : ∀ s' ∈ before, t.isImported s' = true → s'.id ≠ s.id) :
    LeastFree {name | name ∈ t.reserved ∨ name ∈ t.declared ∨ ∃ s' ∈ before,
        t.isImported s' = true ∧ (t.registerAll (before ++ s :: after)).nameOf s' = name}
      (preferred s) ((t.registerAll (before ++ s :: after)).nameOf s) := by
  have hthen : (t.registerAll before).isImported s = true := by
    rwa [isImported_congr (ownModule_registerAll t before)]
  have hnew : (t.registerAll before).importName? s.id = none := by
    rw [importName?_eq_none_iff, mem_ids_iff hnone]
    rintro ⟨s', hs', himported', hid⟩
    exact hfirst s' hs' himported' hid
  have hset : {name | name ∈ (t.registerAll before).unavailable} =
      {name | name ∈ t.reserved ∨ name ∈ t.declared ∨ ∃ s' ∈ before, t.isImported s' = true ∧
        (t.registerAll (before ++ s :: after)).nameOf s' = name} := by
    ext name
    have hnames := mem_localNames_iff hwell hnone before (s :: after) name
    simp only [Set.mem_ofPred_eq, unavailable, List.mem_append, ← localNames_unmarked, hnames,
      declared_registerAll hdeclared, reserved_registerAll]
    exact or_comm
  rw [← hset, nameOf_split, fst_register_of_new hthen hnew]
  exact leastFree_freeName _ _

end Tracker

end TypeScriptComposer
