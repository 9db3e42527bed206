import TypeScriptComposer.Template.Mentions
import TypeScriptComposer.Template.Script

/-!
# What a script mentions

A script mentions what its template mentions, in the same order: laying out a template neither
loses nor moves a symbol, a use or a declaration site. One induction over templates serves all three
kinds of mentions.
-/

set_option autoImplicit false

namespace TypeScriptComposer

namespace Action

def symbols : Action → List Symbol
  | .printType t => t.symbols
  | .printSymbol s => [s]
  | _ => []

def references : Action → List OutputId
  | .reference o => [o]
  | .usage o => [o]
  | _ => []

def sites : Action → List OutputId
  | .declare o => [o]
  | _ => []

end Action

variable {α : Type}

/-- A list function on templates that takes from each part what `f` takes from its action, and
nothing from texts. -/
structure Gathers (f : Action → List α) (ofPart : Part → List α) (ofParts : List Part → List α) :
    Prop where
  write : ∀ s, f (.write s) = []
  raise : f .raise = []
  lower : f .lower = []
  text : ∀ s, ofPart (.text s) = []
  type : ∀ t, ofPart (.type t) = f (.printType t)
  symbol : ∀ s, ofPart (.symbol s) = f (.printSymbol s)
  reference : ∀ o, ofPart (.reference o) = f (.reference o)
  usage : ∀ o, ofPart (.usage o) = f (.usage o)
  declaration : ∀ o, ofPart (.declaration o) = f (.declare o)
  nested : ∀ parts, ofPart (.nested parts) = ofParts parts
  list : ∀ items separator, ofPart (.list items separator) = ofParts items
  nil : ofParts [] = []
  cons : ∀ p ps, ofParts (p :: ps) = ofPart p ++ ofParts ps

namespace Gathers
variable {f : Action → List α} {ofPart : Part → List α} {ofParts : List Part → List α}

theorem flatMap_held (h : Gathers f ofPart ofParts) (held : Option String) :
    (held.map Action.write).toList.flatMap f = [] := by
  cases held <;> simp [h.write]

/-- Placing a part among others adds and removes layout only. -/
theorem flatMap_placed (h : Gathers f ofPart ofParts) (held : Option String) (p : Part) :
    (p.placed held p.script).flatMap f = p.script.flatMap f := by
  unfold Part.placed
  split
  · simp [h.raise, h.lower]
  · rw [List.flatMap_append, h.flatMap_held, List.nil_append]
    cases p with
    | text s =>
      simp only [Part.script, List.flatMap_singleton, h.write]
      split <;> simp [h.write]
    | _ => rfl

mutual

theorem script_part (h : Gathers f ofPart ofParts) :
    ∀ p : Part, p.script.flatMap f = ofPart p
  | .text s => by simp [Part.script, h.write, h.text]
  | .nested parts => by rw [Part.script, h.nested, script_after h none parts]
  | .type t => by simp [Part.script, h.type]
  | .symbol s => by simp [Part.script, h.symbol]
  | .reference o => by simp [Part.script, h.reference]
  | .usage o => by simp [Part.script, h.usage]
  | .declaration o => by simp [Part.script, h.declaration]
  | .list items separator => by rw [Part.script, h.list, script_items h separator items]

theorem script_items (h : Gathers f ofPart ofParts) (separator : String) :
    ∀ ps : List Part, (Part.scriptOfItems separator ps).flatMap f = ofParts ps
  | [] => by simp [Part.scriptOfItems, h.nil]
  | p :: ps => by
    rw [Part.scriptOfItems, List.flatMap_append, script_part h p, script_rest h separator ps,
      h.cons]

theorem script_rest (h : Gathers f ofPart ofParts) (separator : String) :
    ∀ ps : List Part, (Part.scriptOfRest separator ps).flatMap f = ofParts ps
  | [] => by simp [Part.scriptOfRest, h.nil]
  | p :: ps => by
    rw [Part.scriptOfRest, List.cons_append, List.flatMap_cons, h.write, List.nil_append,
      List.flatMap_append, script_part h p, script_rest h separator ps, h.cons]

theorem script_after (h : Gathers f ofPart ofParts) (held : Option String) :
    ∀ ps : List Part, (Template.scriptAfter held ps).flatMap f = ofParts ps
  | [] => by rw [Template.scriptAfter, h.flatMap_held, h.nil]
  | p :: ps => by
    rw [Template.scriptAfter, List.flatMap_append, h.flatMap_placed, script_part h p,
      script_after h p.held? ps, h.cons]

end

end Gathers

namespace Template

theorem gathers_symbols : Gathers Action.symbols Part.symbols Template.symbols := by
  constructor <;> intros <;> simp [Action.symbols, Part.symbols, Template.symbols]

theorem gathers_references :
    Gathers Action.references Part.references Template.references := by
  constructor <;> intros <;> simp [Action.references, Part.references, Template.references]

theorem gathers_sites : Gathers Action.sites Part.sites Template.sites := by
  constructor <;> intros <;> simp [Action.sites, Part.sites, Template.sites]

theorem flatMap_symbols_script (t : Template) :
    t.script.flatMap Action.symbols = Template.symbols t :=
  gathers_symbols.script_after none t

theorem flatMap_references_script (t : Template) :
    t.script.flatMap Action.references = Template.references t :=
  gathers_references.script_after none t

theorem flatMap_sites_script (t : Template) :
    t.script.flatMap Action.sites = Template.sites t :=
  gathers_sites.script_after none t

theorem mem_symbols_iff_script (t : Template) (s : Symbol) :
    s ∈ Template.symbols t ↔ ∃ a ∈ t.script, s ∈ a.symbols := by
  rw [← flatMap_symbols_script, List.mem_flatMap]

theorem mem_references_iff_script (t : Template) (o : OutputId) :
    o ∈ Template.references t ↔ ∃ a ∈ t.script, o ∈ a.references := by
  rw [← flatMap_references_script, List.mem_flatMap]

theorem mem_sites_iff_script (t : Template) (o : OutputId) :
    o ∈ Template.sites t ↔ .declare o ∈ t.script := by
  rw [← flatMap_sites_script, List.mem_flatMap]
  constructor
  · rintro ⟨a, ha, ho⟩
    cases a with
    | declare p =>
      have hop : o = p := by simpa [Action.sites] using ho
      exact hop ▸ ha
    | _ => simp [Action.sites] at ho
  · intro h
    exact ⟨_, h, by simp [Action.sites]⟩

end Template

end TypeScriptComposer
