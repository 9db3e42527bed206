import TypeScriptComposer.Proofs.Tracker.FreeName
import TypeScriptComposer.Proofs.Tracker.Register

/-!
# The order of declared names

A tracker lists the names that the file declares in the order in which they were claimed, and looks
only at which names they are. Two trackers that differ in this order give the same names and stay
alike.
-/

set_option autoImplicit false

namespace TypeScriptComposer

theorem LeastFree.unique {taken : Set String} {preferred name name' : String}
    (h : LeastFree taken preferred name) (h' : LeastFree taken preferred name') : name = name' := by
  rcases h with ⟨hfree, rfl⟩ | ⟨htaken, n, hn, rfl, hfree, hleast⟩
  · rcases h' with ⟨-, rfl⟩ | ⟨htaken, -⟩
    · rfl
    · exact (hfree htaken).elim
  · rcases h' with ⟨hfree', -⟩ | ⟨-, n', hn', rfl, hfree', hleast'⟩
    · exact (hfree' htaken).elim
    · have heq : n = n' := by
        rcases Nat.lt_trichotomy n n' with hlt | heq | hlt
        · exact (hfree (hleast' n hn hlt)).elim
        · exact heq
        · exact (hfree' (hleast n' hn' hlt)).elim
      rw [heq]

namespace Tracker

/-- Two trackers that differ at most in the order of the declared names. -/
structure Reordered (t t' : Tracker) : Prop where
  declared : ∀ name, name ∈ t'.declared ↔ name ∈ t.declared
  imports : t'.imports = t.imports
  modules : t'.modules = t.modules
  reserved : t'.reserved = t.reserved
  ownModule : t'.ownModule = t.ownModule

namespace Reordered
variable {t t' : Tracker}

theorem isTaken_eq (h : t.Reordered t') (name : String) : t'.isTaken name = t.isTaken name := by
  rw [Bool.eq_iff_iff, isTaken_iff, isTaken_iff, h.declared, h.imports]

theorem freeName_eq (h : t.Reordered t') (preferred : String) :
    t'.freeName preferred = t.freeName preferred := by
  have htaken : {name | name ∈ t'.unavailable} = {name | name ∈ t.unavailable} := by
    apply Set.ext
    intro name
    change name ∈ t'.unavailable ↔ name ∈ t.unavailable
    simp only [unavailable, List.mem_append, h.declared, h.imports, h.reserved]
  have hleast := t'.leastFree_freeName preferred
  rw [htaken] at hleast
  exact hleast.unique (t.leastFree_freeName preferred)

theorem define (h : t.Reordered t') (name : String) :
    (t.define name).2.Reordered (t'.define name).2 := by
  rcases t.define_cases name with ⟨htaken, heq⟩ | ⟨hfree, heq⟩
  · rcases t'.define_cases name with ⟨-, heq'⟩ | ⟨hfree, -⟩
    · rwa [heq, heq']
    · rw [h.isTaken_eq, htaken] at hfree
      cases hfree
  · rcases t'.define_cases name with ⟨htaken, -⟩ | ⟨-, heq'⟩
    · rw [h.isTaken_eq, hfree] at htaken
      cases htaken
    · rw [heq, heq']
      refine ⟨?_, h.imports, h.modules, h.reserved, h.ownModule⟩
      intro other
      simp only [List.mem_append, h.declared]

theorem addModule (h : t.Reordered t') (m : String) :
    (t.addModule m).Reordered (t'.addModule m) := by
  refine ⟨?_, ?_, ?_, ?_, ?_⟩
  · simpa using h.declared
  · simpa using h.imports
  · rw [modules_addModule, modules_addModule, h.modules]
  · simpa using h.reserved
  · simpa using h.ownModule

theorem needValue (h : t.Reordered t') (id : SymbolId) :
    (t.needValue id).Reordered (t'.needValue id) :=
  ⟨h.declared, by rw [Tracker.needValue, Tracker.needValue, h.imports], h.modules, h.reserved,
    h.ownModule⟩

theorem addImport (h : t.Reordered t') (m : String) (s : Symbol) :
    (t'.addImport m s).1 = (t.addImport m s).1 ∧
      (t.addImport m s).2.Reordered (t'.addImport m s).2 := by
  have hname := h.freeName_eq (s.requestedName.getD s.value)
  have hmodule := h.addModule m
  refine ⟨hname, hmodule.declared, ?_, hmodule.modules, hmodule.reserved, hmodule.ownModule⟩
  simp only [Tracker.addImport, hmodule.imports, hname]

/-- Registering a symbol gives the same name and leaves trackers alike. -/
theorem register (h : t.Reordered t') (s : Symbol) :
    (t'.register s).1 = (t.register s).1 ∧ (t.register s).2.Reordered (t'.register s).2 := by
  have hown : t'.isOwn s = t.isOwn s := congrFun (isOwn_congr h.ownModule) s
  have hentry : t'.entry? s.id = t.entry? s.id := by
    unfold entry?
    rw [h.imports]
  unfold Tracker.register
  rw [hown, hentry]
  cases s.origin with
  | thisFile => exact ⟨rfl, h.define s.value⟩
  | module m =>
    dsimp only
    split
    · exact ⟨rfl, h.addModule m⟩
    · split
      · exact ⟨rfl, h.define s.value⟩
      · split
        · refine ⟨rfl, ?_⟩
          dsimp only
          split
          · exact h
          · exact h.needValue s.id
        · exact h.addImport m s

theorem registerAll (h : t.Reordered t') (ss : List Symbol) :
    (t.registerAll ss).Reordered (t'.registerAll ss) := by
  induction ss generalizing t t' with
  | nil => exact h
  | cons s ss ih => exact ih (h.register s).2

theorem nameOf_eq (h : t.Reordered t') : t'.nameOf = t.nameOf :=
  funext fun s => (h.register s).1

end Reordered

end Tracker

end TypeScriptComposer
