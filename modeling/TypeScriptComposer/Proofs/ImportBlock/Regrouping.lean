import Mathlib.Data.List.Perm.Basic
import TypeScriptComposer.ImportBlock
import TypeScriptComposer.Proofs.Tracker.WellNamed

/-!
# Regrouping

The import block takes the entries from the tracker and regroups them by module and style, which
loses none and repeats none.
-/

set_option autoImplicit false

namespace TypeScriptComposer

/-- Sorting a list into buckets by a key keeps its members, each as often as before. -/
theorem perm_buckets {α κ : Type} [DecidableEq κ] (key : α → κ) {ks : List κ} (hks : ks.Nodup)
    {l : List α} (hl : ∀ a ∈ l, key a ∈ ks) :
    (ks.flatMap fun k => l.filter fun a => key a == k).Perm l := by
  induction ks generalizing l with
  | nil =>
    have hnil : l = [] := List.eq_nil_iff_forall_not_mem.mpr fun a ha => by simpa using hl a ha
    simp [hnil]
  | cons k ks ih =>
    obtain ⟨hk, hks⟩ := List.nodup_cons.mp hks
    have hothers : (ks.flatMap fun j => l.filter fun a => key a == j) =
        ks.flatMap fun j => (l.filter fun a => !(key a == k)).filter fun a => key a == j := by
      apply List.flatMap_congr
      intro j hj
      rw [List.filter_filter]
      apply List.filter_congr
      intro a _
      by_cases haj : key a = j
      · have hjk : j ≠ k := fun hjk => hk (hjk ▸ hj)
        simp [haj, hjk]
      · simp [haj]
    have hrest : ∀ a ∈ l.filter (fun a => !(key a == k)), key a ∈ ks := by
      intro a ha
      obtain ⟨hal, hak⟩ := List.mem_filter.mp ha
      have hne : key a ≠ k := by simpa using hak
      exact (List.mem_cons.mp (hl a hal)).resolve_left hne
    rw [List.flatMap_cons, hothers]
    exact ((ih hks hrest).append_left _).trans (List.filter_append_perm _ l)

namespace ModuleImports

theorem mem_entries_ofEntries {m : String} {l : List ImportEntry} {e : ImportEntry}
    (h : e ∈ (ofEntries m l).entries) : e.module = m := by
  simp only [entries, ofEntries, List.mem_append, List.mem_filter, Bool.and_eq_true,
    beq_iff_eq] at h
  rcases h with (⟨-, h, -⟩ | ⟨-, h, -⟩) | ⟨-, h, -⟩ <;> exact h

theorem entries_ofEntries_perm (m : String) {l : List ImportEntry}
    (hstyle : ∀ e ∈ l, e.style ≠ .sideEffect) :
    (ofEntries m l).entries.Perm (l.filter fun e => e.module == m) := by
  have hstyles : ∀ e ∈ l.filter (fun e => e.module == m),
      e.style ∈ [ImportStyle.star, .default, .named] := by
    intro e he
    have hbinds := hstyle e (List.mem_filter.mp he).1
    cases h : e.style with
    | sideEffect => exact (hbinds h).elim
    | _ => simp
  have hperm := perm_buckets ImportEntry.style (by decide) hstyles
  have hentries : (ofEntries m l).entries = [ImportStyle.star, .default, .named].flatMap fun k =>
      (l.filter fun e => e.module == m).filter fun e => e.style == k := by
    simp [entries, ofEntries, List.filter_filter, Bool.and_comm]
  rwa [hentries]

end ModuleImports

namespace ImportBlock
variable {t : Tracker}

theorem module_of_mem_groups {quote : Quote} {g : ModuleImports}
    (hg : g ∈ (ofTracker t quote).groups) : ∀ e ∈ g.entries, e.module = g.module := by
  obtain ⟨m, -, rfl⟩ := List.mem_map.mp hg
  intro e he
  exact ModuleImports.mem_entries_ofEntries he

theorem entries_ofTracker_perm (h : t.WellNamed) (quote : Quote) :
    (ofTracker t quote).entries.Perm t.imports := by
  have hunmarked {e : ImportEntry} (he : e ∈ t.imports) : e.unmarked ∈ t.unmarked :=
    List.mem_map.mpr ⟨e, he, rfl⟩
  have hgroups : (ofTracker t quote).entries.Perm
      (t.modules.flatMap fun m => t.imports.filter fun e => e.module == m) := by
    rw [entries, ofTracker, List.flatMap_map]
    apply List.Perm.flatMap_left
    intro m _
    exact ModuleImports.entries_ofEntries_perm m fun e he => h.style e.unmarked (hunmarked he)
  have hlisted : ∀ e ∈ t.imports, e.module ∈ t.modules :=
    fun e he => h.listed e.unmarked (hunmarked he)
  exact hgroups.trans (perm_buckets ImportEntry.module h.modules hlisted)

end ImportBlock

end TypeScriptComposer
