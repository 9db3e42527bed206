import TypeScriptComposer.Proofs.Layout.Margins

/-!
# What a writer has after any operations

A writer is given texts and changes of level in any order. Its text can be said line by line from
all that it was given: an empty line is empty, and any other line stands behind the margin of the
level that was in force when its first character was written, wherever in the line the level
changes later and however the line was cut into texts.
-/

set_option autoImplicit false

namespace TypeScriptComposer

namespace Writer

namespace Operation

def text : Operation → String
  | .write s => s
  | .line s => s ++ "\n"
  | .raise | .lower => ""

/-- The level behind an operation; there is none below zero. -/
def levelAfter (level : Nat) : Operation → Nat
  | .write _ | .line _ => level
  | .raise => level + 1
  | .lower => level - 1

def isText : Operation → Bool
  | .write _ | .line _ => true
  | .raise | .lower => false

end Operation

/-- All that operations write, one text behind the other. -/
def written (ops : List Operation) : String := String.join (ops.map (·.text))

def levelAfter (level : Nat) (ops : List Operation) : Nat :=
  ops.foldl Operation.levelAfter level

/-- All characters that operations write, each with the level in force when it is written. -/
def stamped (level : Nat) : List Operation → List (Char × Nat)
  | [] => []
  | op :: ops => op.text.toList.map (·, level) ++ stamped (op.levelAfter level) ops

def stampedLines (cs : List (Char × Nat)) : List (List (Char × Nat)) :=
  cs.splitOnP (·.1 == '\n')

/-- A line behind the margin of its first character. -/
def laidOut (indent : Indent) : List (Char × Nat) → List Char
  | [] => []
  | (c, level) :: cs => (indent.margin level).toList ++ c :: cs.map (·.1)

@[simp] theorem written_nil : written [] = "" := rfl

theorem toList_written_cons (op : Operation) (ops : List Operation) :
    (written (op :: ops)).toList = op.text.toList ++ (written ops).toList := by
  simp [written]

theorem map_fst_stamped (level : Nat) (ops : List Operation) :
    (stamped level ops).map (·.1) = (written ops).toList := by
  induction ops generalizing level with
  | nil => rfl
  | cons op ops ih =>
    rw [stamped, List.map_append, ih, toList_written_cons, List.map_map]
    simp [Function.comp_def]

theorem stampedLines_cons (c : Char × Nat) (cs : List (Char × Nat)) : stampedLines (c :: cs) =
    if c.1 = '\n' then [] :: stampedLines cs else (stampedLines cs).modifyHead (c :: ·) := by
  rw [stampedLines, List.splitOnP_cons_eq_if_modifyHead, ← stampedLines]
  simp only [beq_iff_eq]

theorem map_stampedLines (cs : List (Char × Nat)) :
    (stampedLines cs).map (·.map (·.1)) = lines (cs.map (·.1)) := by
  induction cs with
  | nil => rfl
  | cons c cs ih =>
    rw [stampedLines_cons]
    unfold lines at ih ⊢
    by_cases hc : c.1 = '\n'
    · simp [pieces, hc, ih]
    · obtain ⟨l, ls, hls⟩ := List.exists_cons_of_ne_nil (cs.splitOnP_ne_nil (·.1 == '\n'))
      rw [stampedLines, hls] at ih ⊢
      simp [pieces, hc, ← ih]

theorem step_of_isText (w : Writer) {op : Operation} (h : op.isText = true) :
    w.step op = w.write op.text := by
  cases op with
  | write s => rfl
  | line s => exact (w.write_append s "\n").symm
  | raise | lower => cases h

theorem exists_openStampedLine (cs : List (Char × Nat)) : ∃ closed last,
    stampedLines cs = closed ++ [last] ∧ ∀ c, stampedLines (cs ++ [c]) =
      if c.1 = '\n' then closed ++ [last, []] else closed ++ [last ++ [c]] := by
  induction cs with
  | nil =>
    refine ⟨[], [], rfl, fun c => ?_⟩
    rw [List.nil_append, stampedLines_cons]
    rfl
  | cons b cs ih =>
    obtain ⟨closed, last, hlines, happend⟩ := ih
    simp only [List.cons_append, stampedLines_cons, hlines, happend]
    by_cases hb : b.1 = '\n'
    · refine ⟨[] :: closed, last, by simp [hb], fun c => ?_⟩
      by_cases hc : c.1 = '\n' <;> simp [hb, hc]
    · cases closed with
      | nil =>
        refine ⟨[], b :: last, by simp [hb], fun c => ?_⟩
        by_cases hc : c.1 = '\n' <;> simp [hb, hc]
      | cons l closed =>
        refine ⟨(b :: l) :: closed, last, by simp [hb], fun c => ?_⟩
        by_cases hc : c.1 = '\n' <;> simp [hb, hc]

theorem laidOut_concat (indent : Indent) (l : List (Char × Nat)) (c : Char) (level : Nat) :
    laidOut indent (l ++ [(c, level)]) = laidOut indent l ++
      if l = [] then (indent.margin level).toList ++ [c] else [c] := by
  cases l <;> simp [laidOut]

/-- The writer has the lines of all characters that it was given, `cs`, each one laid out. -/
structure LaysOut (w : Writer) (cs : List (Char × Nat)) : Prop where
  lines : lines w.text.toList = (stampedLines cs).map (laidOut w.indent)
  atLineStart : w.atLineStart = endsLine (cs.map (·.1))

namespace LaysOut
variable {w : Writer} {cs : List (Char × Nat)}

theorem start (indent : Indent) (level : Nat) : (start indent level).LaysOut [] := ⟨rfl, rfl⟩

/-- The line that is open in the writer is the last one of the characters, laid out. A character
that is no break goes to its end, behind a margin if the line is empty. -/
theorem put (h : w.LaysOut cs) (c : Char) : (w.put c).LaysOut (cs ++ [(c, w.level)]) := by
  obtain ⟨hlines, hstart⟩ := h
  obtain ⟨closed, last, hcs, hconcat⟩ := exists_openStampedLine cs
  obtain ⟨front, line, hopen⟩ := exists_openLine w.text.toList
  obtain ⟨front', line', hopen'⟩ := exists_openLine (cs.map (·.1))
  have hempty : w.atLineStart = true ↔ last = [] := by
    have hlast := hopen'.lines_eq
    rw [← map_stampedLines, hcs, List.map_append, List.map_singleton] at hlast
    obtain rfl : last.map (·.1) = line' := by simpa using (List.append_inj' hlast rfl).2
    rw [hstart, ← hopen'.last_eq_nil_iff, List.map_eq_nil_iff]
  rw [hopen.lines_eq, hcs, List.map_append, List.map_singleton] at hlines
  obtain ⟨rfl, hline⟩ := List.append_inj' hlines rfl
  obtain rfl : line = laidOut w.indent last := by simpa using hline
  refine ⟨?_, ?_⟩
  · rw [hconcat, put_eq]
    dsimp only
    rw [String.toList_ofList]
    by_cases hc : c = '\n'
    · have hlead : w.lead c = [] := by simp [lead, hc]
      rw [hlead, List.nil_append, hc, hopen.append_break]
      simp [laidOut]
    · rw [hopen.append_line (w.not_mem_lead hc), if_neg hc, List.map_append, List.map_singleton,
        laidOut_concat]
      by_cases hlast : last = []
      · simp [lead, hc, hempty.mpr hlast, hlast]
      · simp [lead, mt hempty.mp hlast, hlast]
  · rw [put_eq, List.map_append, List.map_singleton, endsLine_concat]

theorem write (h : w.LaysOut cs) (s : String) :
    (w.write s).LaysOut (cs ++ s.toList.map (·, w.level)) := by
  unfold Writer.write
  induction s.toList generalizing w cs with
  | nil => simpa using h
  | cons c rest ih =>
    have hlevel : (w.put c).level = w.level := by rw [put_eq]
    have hrest := ih (h.put c)
    rw [hlevel, List.append_assoc] at hrest
    exact hrest

theorem step (h : w.LaysOut cs) (op : Operation) :
    (w.step op).LaysOut (cs ++ op.text.toList.map (·, w.level)) := by
  cases htext : op.isText with
  | true =>
    rw [w.step_of_isText htext]
    exact h.write op.text
  | false =>
    cases op with
    | write s | line s => cases htext
    | raise | lower =>
      rw [Operation.text, String.toList_empty, List.map_nil, List.append_nil]
      exact ⟨h.lines, h.atLineStart⟩

end LaysOut

theorem indent_step (w : Writer) (op : Operation) : (w.step op).indent = w.indent := by
  cases op with
  | write s | line s => rw [w.step_of_isText rfl, indent_write]
  | raise | lower => rfl

theorem level_step (w : Writer) (op : Operation) : (w.step op).level = op.levelAfter w.level := by
  cases op with
  | write s | line s =>
    rw [w.step_of_isText rfl, level_write]
    rfl
  | raise | lower => rfl

theorem run_append (w : Writer) (before after : List Operation) :
    w.run (before ++ after) = (w.run before).run after := by
  rw [run, List.foldl_append]
  rfl

theorem indent_run (w : Writer) (ops : List Operation) : (w.run ops).indent = w.indent := by
  unfold run
  induction ops generalizing w with
  | nil => rfl
  | cons op ops ih => rw [List.foldl_cons, ih, indent_step]

theorem level_run (w : Writer) (ops : List Operation) :
    (w.run ops).level = levelAfter w.level ops := by
  unfold run levelAfter
  induction ops generalizing w with
  | nil => rfl
  | cons op ops ih => rw [List.foldl_cons, ih, level_step, List.foldl_cons]

theorem LaysOut.run {w : Writer} {cs : List (Char × Nat)} (h : w.LaysOut cs)
    (ops : List Operation) : (w.run ops).LaysOut (cs ++ stamped w.level ops) := by
  unfold Writer.run
  induction ops generalizing w cs with
  | nil => simpa [stamped] using h
  | cons op ops ih =>
    have hops := ih (h.step op)
    rwa [level_step, List.append_assoc, ← stamped] at hops

/-- Without changes of level only the text as a whole matters. -/
theorem run_texts (w : Writer) {ops : List Operation} (h : ∀ op ∈ ops, op.isText = true) :
    w.run ops = w.write (written ops) := by
  unfold run
  induction ops generalizing w with
  | nil => rfl
  | cons op ops ih =>
    obtain ⟨hop, hops⟩ := List.forall_mem_cons.mp h
    have hwritten : written (op :: ops) = op.text ++ written ops := by simp [written]
    rw [List.foldl_cons, ih _ hops, hwritten, write_append, w.step_of_isText hop]

/-- Whatever a writer is given, and in whatever order: it has as many lines as the text that it was
given; each of them is empty where that text has an empty line, and is otherwise the line of the
text behind the margin of the level in force when its first character was written. The writer knows
itself at the beginning of a line exactly when the text is empty or ends in a break, and how a text
without changes of level in between is cut does not matter. -/
theorem run_line_by_line (indent : Indent) (level : Nat) (ops : List Operation) :
    let w := (start indent level).run ops
    let text := (written ops).toList
    let given := stampedLines (stamped level ops)
    w.level = levelAfter level ops ∧
    given.map (·.map (·.1)) = lines text ∧
    lines w.text.toList = given.map (laidOut indent) ∧
    (lines w.text.toList).length = (lines text).length ∧
    (w.atLineStart = true ↔ text = [] ∨ text.getLast? = some '\n') ∧
    ∀ before between after, ops = before ++ between ++ after →
      (∀ op ∈ between, op.isText = true) → ∀ between', (∀ op ∈ between', op.isText = true) →
      written between' = written between →
      (start indent level).run (before ++ between' ++ after) = w := by
  intro w text given
  have hlays : w.LaysOut (stamped level ops) := (LaysOut.start indent level).run ops
  have hgiven : given.map (·.map (·.1)) = lines text := by
    rw [map_stampedLines, map_fst_stamped]
  have hlines : lines w.text.toList = given.map (laidOut indent) := by
    rw [hlays.lines, indent_run]
    rfl
  refine ⟨level_run _ ops, hgiven, hlines, ?_, ?_, ?_⟩
  · rw [hlines, ← hgiven, List.length_map, List.length_map]
  · rw [hlays.atLineStart, map_fst_stamped, endsLine]
    cases hlast : text.getLast? with
    | none => simp [List.getLast?_eq_none_iff.mp hlast]
    | some c =>
      have hne : text ≠ [] := by
        intro hnil
        simp [hnil] at hlast
      simp [hne]
  · intro before between after hops htexts between' htexts' hsame
    simp only [w, hops, run_append]
    rw [run_texts _ htexts, run_texts _ htexts', hsame]

/-- Levels change inside of lines and below zero, and a text with an empty line is cut anew. -/
theorem run_line_by_line_recut :
    let ops := [Operation.lower, .write "a", .raise, .write "b\n\nc", .lower, .line "d", .write "e"]
    let recut := [Operation.lower, .write "a", .raise, .line "b", .write "\n", .write "c", .lower,
      .line "d", .write "e"]
    let w := (start (.spaces 2) 0).run ops
    w.text = "ab\n\n  cd\ne" ∧ w.atLineStart = false ∧
    (lines w.text.toList).length = (lines (written ops).toList).length ∧
    (start (.spaces 2) 0).run recut = w := by
  intro ops recut w
  obtain ⟨-, -, -, hlength, -, hrecut⟩ := run_line_by_line (.spaces 2) 0 ops
  refine ⟨by decide +kernel, by decide +kernel, hlength, ?_⟩
  exact hrecut [.lower, .write "a", .raise] [.write "b\n\nc"] [.lower, .line "d", .write "e"] rfl
    (by simp [Operation.isText]) [.line "b", .write "\n", .write "c"] (by simp [Operation.isText])
    (by decide +kernel)

end Writer

end TypeScriptComposer
