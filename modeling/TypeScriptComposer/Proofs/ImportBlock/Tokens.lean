import TypeScriptComposer.ImportBlock

/-!
# Import statements as tokens

TypeScript reads an import statement as words, marks and strings with blanks between them. In a
string a backslash begins an escape, and no line ends. The text between the quotes is therefore
what the string stands for only when it has neither.

What identifiers may contain outside ASCII is left to the Unicode standard, and which words are
reserved to the version of the language: both are given by a lexicon.
-/

set_option autoImplicit false

namespace TypeScriptComposer

structure Lexicon where
  /-- The characters outside ASCII that begin an identifier. -/
  isStart : Char → Bool
  /-- The characters outside ASCII that go on with one. -/
  isPart : Char → Bool
  /-- The identifiers that cannot be bound. -/
  reserved : List String

namespace Lexicon

def startsName (x : Lexicon) (c : Char) : Bool :=
  startsIdentifier c || (128 ≤ c.toNat && x.isStart c)

def continuesName (x : Lexicon) (c : Char) : Bool :=
  continuesIdentifier c || (128 ≤ c.toNat && (x.isStart c || x.isPart c))

/-- Whether a text is an identifier, reserved words included. -/
def isName (x : Lexicon) (s : String) : Bool :=
  match s.toList with
  | [] => false
  | c :: cs => x.startsName c && cs.all x.continuesName

def binds (x : Lexicon) (s : String) : Bool := x.isName s && !x.reserved.contains s

theorem continuesName_eq_false {c : Char} (h : continuesIdentifier c = false)
    (hascii : c.toNat < 128) (x : Lexicon) : x.continuesName c = false := by
  have hlow : ¬ 128 ≤ c.toNat := by omega
  simp [continuesName, h, hlow]

theorem continuesName_of_startsName {x : Lexicon} {c : Char} (h : x.startsName c = true) :
    x.continuesName c = true := by
  simp only [startsName, Bool.or_eq_true, Bool.and_eq_true] at h
  rcases h with h | ⟨hhigh, h⟩
  · simp [continuesName, continuesIdentifier, h]
  · simp only [continuesName, hhigh, h]
    simp

theorem isName_cases {x : Lexicon} {s : String} (h : x.isName s = true) :
    s.toList ≠ [] ∧ ∀ c ∈ s.toList, x.continuesName c = true := by
  unfold isName at h
  split at h
  · simp at h
  · rename_i c cs hs
    obtain ⟨hc, hcs⟩ := (Bool.and_eq_true _ _).mp h
    rw [hs]
    refine ⟨by simp, List.forall_mem_cons.mpr ⟨continuesName_of_startsName hc, ?_⟩⟩
    exact List.all_eq_true.mp hcs

theorem isName_of_isIdentifier {s : String} (h : isIdentifier s = true) (x : Lexicon) :
    x.isName s = true := by
  unfold isIdentifier at h
  unfold isName
  cases hs : s.toList with
  | nil => simp [hs] at h
  | cons c cs =>
    simp only [hs, Bool.and_eq_true, List.all_eq_true] at h ⊢
    obtain ⟨hc, hcs⟩ := h
    refine ⟨by simp [startsName, hc], ?_⟩
    intro d hd
    simp [continuesName, hcs d hd]

end Lexicon

/-- What has been read of a string, as far as it decides how the string goes on. -/
inductive StringState where
  /-- Not in TypeScript: all characters up to the quote stand for themselves. -/
  | verbatim
  | plain
  /-- Behind a backslash. -/
  | escape
  /-- Behind an escaped zero, which is not the beginning of a number. -/
  | afterNull
  /-- Behind an escaped carriage return, which a line feed may complete. -/
  | afterReturn
  /-- Behind the letter of an escape by a code. -/
  | code
  | digits (left value : Nat)
  /-- Between the braces of an escape by a code point. -/
  | codePoint (value? : Option Nat)
  deriving DecidableEq

namespace StringState

def hexValue? (c : Char) : Option Nat :=
  if '0' ≤ c ∧ c ≤ '9' then some (c.toNat - 48)
  else if 'a' ≤ c ∧ c ≤ 'f' then some (c.toNat - 87)
  else if 'A' ≤ c ∧ c ≤ 'F' then some (c.toNat - 55)
  else none

/-- The character with a code point. Halves of a surrogate pair are none, and are not put together
here. -/
def character? (n : Nat) : Option Char := if n.isValidChar then some (Char.ofNat n) else none

def stepPlain (c : Char) : Option (StringState × Option Char) :=
  if c == '\\' then some (.escape, none)
  else if c == '\n' || c == '\r' then none
  else some (.plain, some c)

def stepEscape (c : Char) : Option (StringState × Option Char) :=
  match c with
  | 'b' => some (.plain, some '\x08')
  | 't' => some (.plain, some '\t')
  | 'n' => some (.plain, some '\n')
  | 'v' => some (.plain, some '\x0b')
  | 'f' => some (.plain, some '\x0c')
  | 'r' => some (.plain, some '\r')
  | '0' => some (.afterNull, some '\x00')
  | 'x' => some (.digits 2 0, none)
  | 'u' => some (.code, none)
  -- an escaped line break is no part of the string
  | '\n' | '\u2028' | '\u2029' => some (.plain, none)
  | '\r' => some (.afterReturn, none)
  | c => if c.isDigit then none else some (.plain, some c)

/-- The state behind a character of a string, and the character that is then complete. -/
def step : StringState → Char → Option (StringState × Option Char)
  | .verbatim, c => some (.verbatim, some c)
  | .plain, c => stepPlain c
  | .escape, c => stepEscape c
  | .afterNull, c => if c.isDigit then none else stepPlain c
  | .afterReturn, c => if c == '\n' then some (.plain, none) else stepPlain c
  | .code, c =>
    if c == '\x7b' then some (.codePoint none, none)
    else (hexValue? c).map fun d => (.digits 3 d, none)
  | .digits left value, c => do
    let value := 16 * value + (← hexValue? c)
    if left ≤ 1 then return (.plain, some (← character? value))
    else return (.digits (left - 1) value, none)
  | .codePoint value?, c =>
    if c == '\x7d' then do return (.plain, some (← character? (← value?)))
    else do return (.codePoint (some (16 * value?.getD 0 + (← hexValue? c))), none)

/-- Whether a quote ends the string. -/
def ends : StringState → Bool
  | .verbatim | .plain | .afterNull | .afterReturn => true
  | _ => false

def run : StringState → List Char → Option (StringState × List Char)
  | s, [] => some (s, [])
  | s, c :: cs =>
    match s.step c with
    | none => none
    | some (s, complete) => (run s cs).map fun (s, text) => (s, complete.toList ++ text)

theorem run_of_step {s next : StringState} {c : Char} {complete : Option Char}
    (h : s.step c = some (next, complete)) (cs : List Char) :
    s.run (c :: cs) = (next.run cs).map fun (s, text) => (s, complete.toList ++ text) := by
  rw [run, h]

/-- What the text between two quotes stands for. -/
def value? (s : StringState) (content : String) : Option String :=
  match s.run content.toList with
  | some (s, text) => if s.ends then some (String.ofList text) else none
  | none => none

theorem run_verbatim (cs : List Char) : run .verbatim cs = some (.verbatim, cs) := by
  induction cs with
  | nil => rfl
  | cons c cs ih => simp [run, step, ih]

theorem value?_verbatim (content : String) : value? .verbatim content = some content := by
  simp [value?, run_verbatim, ends]

theorem length_run_le {s s' : StringState} {cs text : List Char}
    (h : s.run cs = some (s', text)) : text.length ≤ cs.length := by
  induction cs generalizing s text with
  | nil =>
    cases h
    exact Nat.le_refl _
  | cons c cs ih =>
    rw [run] at h
    split at h
    · simp at h
    · rename_i next complete _
      obtain ⟨⟨last, rest⟩, hrest, heq⟩ := Option.map_eq_some_iff.mp h
      cases heq
      have hle := ih hrest
      cases complete with
      | none => exact Nat.le_succ_of_le hle
      | some d => exact Nat.succ_le_succ hle

/-- Whether a character stands for itself in a string. -/
def isOrdinary (c : Char) : Bool := c != '\\' && c != '\n' && c != '\r'

theorem isOrdinary_iff (c : Char) :
    isOrdinary c = true ↔ c ≠ '\\' ∧ c ≠ '\n' ∧ c ≠ '\r' := by
  simp [isOrdinary, and_assoc]

theorem run_plain_of_ordinary {cs : List Char} (h : ∀ c ∈ cs, isOrdinary c = true) :
    run .plain cs = some (.plain, cs) := by
  induction cs with
  | nil => rfl
  | cons c cs ih =>
    obtain ⟨hc, hcs⟩ := List.forall_mem_cons.mp h
    obtain ⟨hescape, hfeed, hreturn⟩ := (isOrdinary_iff c).mp hc
    have hstep : step .plain c = some (.plain, some c) := by
      simp [step, stepPlain, hescape, hfeed, hreturn]
    rw [run_of_step hstep, ih hcs]
    rfl

/-- An escape is longer than what it stands for, so that a text with one is not the same again. -/
theorem ordinary_of_run_plain {s : StringState} {cs : List Char}
    (h : run .plain cs = some (s, cs)) : ∀ c ∈ cs, isOrdinary c = true := by
  induction cs with
  | nil => simp
  | cons c cs ih =>
    by_cases hescape : c = '\\'
    · have hstep : step .plain c = some (.escape, none) := by simp [step, stepPlain, hescape]
      rw [run_of_step hstep] at h
      obtain ⟨⟨last, rest⟩, hrest, heq⟩ := Option.map_eq_some_iff.mp h
      cases heq
      have hle := length_run_le hrest
      rw [List.length_cons] at hle
      omega
    · by_cases hbreak : c = '\n' ∨ c = '\r'
      · have hstep : step .plain c = none := by
          rcases hbreak with rfl | rfl <;> decide
        simp [run, hstep] at h
      · obtain ⟨hfeed, hreturn⟩ := not_or.mp hbreak
        have hstep : step .plain c = some (.plain, some c) := by
          simp [step, stepPlain, hescape, hfeed, hreturn]
        rw [run_of_step hstep] at h
        obtain ⟨⟨last, rest⟩, hrest, heq⟩ := Option.map_eq_some_iff.mp h
        cases heq
        exact List.forall_mem_cons.mpr
          ⟨(isOrdinary_iff c).mpr ⟨hescape, hfeed, hreturn⟩, ih hrest⟩

/-- A string stands for the text between its quotes exactly when all of it is ordinary. -/
theorem value?_plain_eq_iff (content : String) :
    value? .plain content = some content ↔ ∀ c ∈ content.toList, isOrdinary c = true := by
  unfold value?
  constructor
  · intro h
    split at h
    · rename_i s text hrun
      split at h
      · have htext : text = content.toList := by
          have heq := congrArg String.toList (Option.some.inj h)
          rwa [String.toList_ofList] at heq
        exact ordinary_of_run_plain (htext ▸ hrun)
      · simp at h
    · simp at h
  · intro h
    simp [run_plain_of_ordinary h, ends]

end StringState

def Quote.char : Quote → Char
  | .double => '"'
  | .single => '\''

theorem Quote.toList_mark (q : Quote) : q.mark.toList = [q.char] := by
  cases q <;> rfl

inductive ImportToken where
  | word (s : String)
  | mark (c : Char)
  | string (s : String)
  deriving DecidableEq

namespace Lexicon
variable (x : Lexicon) (strings : StringState)

def isQuote (c : Char) : Bool := c == '"' || c == '\''

def isSpace (c : Char) : Bool := c == ' ' || ('\t' ≤ c && c ≤ '\r')

def ofWord (word : List Char) : List ImportToken :=
  if word.isEmpty then [] else [.word (String.ofList word)]

inductive ScanState where
  /-- Outside of strings, behind the beginning of a word. -/
  | between (word : List Char)
  | inside (quote : Char) (state : StringState) (text : List Char)

/-- The tokens of a text, when strings begin in the state `strings`. -/
def scan : ScanState → List Char → Option (List ImportToken)
  | .between word, [] => some (ofWord word)
  | .inside .., [] => none
  | .between word, c :: cs =>
    if x.continuesName c then scan (.between (word ++ [c])) cs
    else if isQuote c then (scan (.inside c strings []) cs).map (ofWord word ++ ·)
    else if isSpace c then (scan (.between []) cs).map (ofWord word ++ ·)
    else (scan (.between []) cs).map fun ts => ofWord word ++ .mark c :: ts
  | .inside quote state text, c :: cs =>
    if c == quote && state.ends then
      (scan (.between []) cs).map fun ts => .string (String.ofList text) :: ts
    else
      match state.step c with
      | none => none
      | some (state, complete) => scan (.inside quote state (text ++ complete.toList)) cs

def tokens (text : String) : Option (List ImportToken) := x.scan strings (.between []) text.toList

/-- The text has these tokens, whatever follows it. -/
def Scans (text : List Char) (ts : List ImportToken) : Prop :=
  ∀ rest, x.scan strings (.between []) (text ++ rest) =
    (x.scan strings (.between []) rest).map (ts ++ ·)

variable {x strings}

theorem scan_continues {c : Char} (h : x.continuesName c = true) (word cs : List Char) :
    x.scan strings (.between word) (c :: cs) = x.scan strings (.between (word ++ [c])) cs := by
  rw [scan, if_pos h]

theorem scan_word {word : List Char} (h : ∀ c ∈ word, x.continuesName c = true)
    (begun rest : List Char) : x.scan strings (.between begun) (word ++ rest) =
      x.scan strings (.between (begun ++ word)) rest := by
  induction word generalizing begun with
  | nil => simp
  | cons c word ih =>
    obtain ⟨hc, hword⟩ := List.forall_mem_cons.mp h
    rw [List.cons_append, scan_continues hc, ih hword, List.append_assoc]
    rfl

/-- A character that is in no word ends the word in front of it. -/
theorem scan_breaks {c : Char} (h : x.continuesName c = false) (word cs : List Char) :
    x.scan strings (.between word) (c :: cs) =
      (x.scan strings (.between []) (c :: cs)).map (ofWord word ++ ·) := by
  rw [scan, scan]
  simp only [h, Bool.false_eq_true, if_false]
  split
  · simp [ofWord]
  · split
    · simp [ofWord]
    · simp [ofWord, Function.comp_def]

theorem Scans.nil : x.Scans strings [] [] := by
  intro rest
  simp

theorem Scans.append {a b : List Char} {ts us : List ImportToken} (ha : x.Scans strings a ts)
    (hb : x.Scans strings b us) : x.Scans strings (a ++ b) (ts ++ us) := by
  intro rest
  rw [List.append_assoc, ha, hb, Option.map_map]
  simp [Function.comp_def]

theorem Scans.blank_cons {text : List Char} {ts : List ImportToken}
    (h : x.Scans strings text ts) : x.Scans strings (' ' :: text) ts := by
  intro rest
  have hblank : x.continuesName ' ' = false := continuesName_eq_false rfl (by decide) x
  rw [List.cons_append, scan, if_neg (by simp [hblank]), if_neg (by decide), if_pos (by decide), h]
  simp [ofWord, Function.comp_def]

/-- Whether a character is a token by itself in every lexicon. -/
def isMark (c : Char) : Bool :=
  !continuesIdentifier c && decide (c.toNat < 128) && !isQuote c && !isSpace c

theorem continuesName_of_isMark {c : Char} (h : isMark c = true) :
    x.continuesName c = false := by
  simp only [isMark, Bool.and_eq_true, Bool.not_eq_true', decide_eq_true_eq] at h
  exact continuesName_eq_false h.1.1.1 h.1.1.2 x

theorem Scans.mark_cons {c : Char} (hc : isMark c = true) {text : List Char}
    {ts : List ImportToken} (h : x.Scans strings text ts) :
    x.Scans strings (c :: text) (.mark c :: ts) := by
  intro rest
  have hword : x.continuesName c = false := continuesName_of_isMark hc
  simp only [isMark, Bool.and_eq_true, Bool.not_eq_true'] at hc
  rw [List.cons_append, scan, if_neg (by simp [hword]), if_neg (by simp [hc.1.2]),
    if_neg (by simp [hc.2]), h]
  simp [ofWord, Function.comp_def]

/-- A word ends in front of a character that is in no word. -/
theorem Scans.word_append {s : String} (hs : x.isName s = true) {c : Char} {text : List Char}
    {ts : List ImportToken} (hc : x.continuesName c = false)
    (h : x.Scans strings (c :: text) ts) :
    x.Scans strings (s.toList ++ c :: text) (.word s :: ts) := by
  obtain ⟨hne, hall⟩ := isName_cases hs
  intro rest
  rw [List.append_assoc, scan_word hall, List.cons_append, List.nil_append, scan_breaks hc,
    ← List.cons_append, h]
  simp [ofWord, hne, Function.comp_def]

theorem scan_inside {quote : Char} {cs : List Char} (h : quote ∉ cs) (state : StringState)
    (text rest : List Char) : x.scan strings (.inside quote state text) (cs ++ rest) =
      match state.run cs with
      | none => none
      | some (state, more) => x.scan strings (.inside quote state (text ++ more)) rest := by
  induction cs generalizing state text with
  | nil => simp [StringState.run]
  | cons c cs ih =>
    obtain ⟨hc, hcs⟩ := List.ne_and_not_mem_of_not_mem_cons h
    have hquote : (c == quote) = false := by simp [Ne.symm hc]
    rw [List.cons_append, scan, StringState.run]
    simp only [hquote, Bool.false_and, Bool.false_eq_true, if_false]
    cases state.step c with
    | none => rfl
    | some next =>
      obtain ⟨state, complete⟩ := next
      simp only [ih hcs]
      cases state.run cs <;> simp

/-- A string that is not ended is none. -/
theorem scan_inside_of_not_mem {quote : Char} {cs : List Char} (h : quote ∉ cs)
    (state : StringState) (text : List Char) :
    x.scan strings (.inside quote state text) cs = none := by
  have hinside : x.scan strings (.inside quote state text) (cs ++ []) = none := by
    rw [scan_inside h]
    split <;> rfl
  rwa [List.append_nil] at hinside

theorem scan_quote (quote : Quote) (cs : List Char) :
    x.scan strings (.between []) (quote.char :: cs) =
      x.scan strings (.inside quote.char strings []) cs := by
  have hword : x.continuesName quote.char = false := by
    cases quote <;> exact continuesName_eq_false (by decide) (by decide) x
  have hquote : isQuote quote.char = true := by cases quote <;> rfl
  rw [scan, if_neg (by simp [hword]), if_pos hquote]
  simp [ofWord]

/-- The end of a statement is the string that the text between the quotes stands for, and nothing
at all when the closing quote is escaped. -/
theorem scan_string {quote : Quote} {m : String} (h : quote.char ∉ m.toList) :
    x.scan strings (.between []) (quote.char :: (m.toList ++ [quote.char, ';'])) =
      (strings.value? m).map fun m => [.string m, .mark ';'] := by
  have hmark : x.scan strings (.between []) [';'] = some [.mark ';'] := by
    have hscans : x.Scans strings [';'] [.mark ';'] := .mark_cons rfl .nil
    simpa [scan, ofWord] using hscans []
  rw [scan_quote, scan_inside h, StringState.value?]
  cases strings.run m.toList with
  | none => rfl
  | some next =>
    obtain ⟨state, text⟩ := next
    dsimp only
    cases hends : state.ends with
    | true =>
      rw [scan, if_pos (by simp [hends]), hmark]
      rfl
    | false =>
      have hlast : quote.char ∉ [';'] := by cases quote <;> decide
      rw [scan, if_neg (by simp [hends])]
      split
      · rfl
      · rw [scan_inside_of_not_mem hlast]
        rfl

end Lexicon

end TypeScriptComposer
