/-!
# Settings documents

Settings are written as TOML documents. The values of a document are texts, whole numbers, truth
values, arrays and tables; fractions, dates, times and arrays of tables occur in no setting, and a
document with one of them is refused.

A table can be opened by a header or come from a key with dots. A key is set once, a header occurs
once, and a table that dots have made is not opened again, so no entry is ever replaced.
-/

set_option autoImplicit false

namespace TypeScriptComposer

namespace Document

inductive TableForm where
  /-- Written in braces; nothing can be added. -/
  | inline
  /-- Opened by a header of its own. -/
  | header
  /-- On the way of the header of another table. -/
  | passed
  /-- On the way of a key with dots. -/
  | dotted
  deriving DecidableEq

inductive Value where
  | text (s : String)
  | integer (n : Int)
  | boolean (b : Bool)
  | array (items : List Value)
  | table (form : TableForm) (entries : List (String × Value))

abbrev Entries := List (String × Value)

def hasKey (es : Entries) (k : String) : Bool := es.any (·.1 == k)

def replace (es : Entries) (k : String) (v : Value) : Entries :=
  es.map fun e => if e.1 == k then (k, v) else e

def assign (es : Entries) : List String → Value → Option Entries
  | [], _ => none
  | [k], v => if hasKey es k then none else some (es ++ [(k, v)])
  | k :: ks, v =>
    match es.lookup k with
    | none => (assign [] ks v).map fun sub => es ++ [(k, .table .dotted sub)]
    | some (.table .dotted sub) =>
      (assign sub ks v).map fun sub => replace es k (.table .dotted sub)
    | some _ => none

def openTable (es : Entries) : List String → Option Entries
  | [] => none
  | [k] =>
    match es.lookup k with
    | none => some (es ++ [(k, .table .header [])])
    | some (.table .passed sub) => some (replace es k (.table .header sub))
    | some _ => none
  | k :: ks =>
    match es.lookup k with
    | none => (openTable [] ks).map fun sub => es ++ [(k, .table .passed sub)]
    | some (.table form sub) =>
      if form = .inline then none
      else (openTable sub ks).map fun sub => replace es k (.table form sub)
    | some _ => none

def assignIn (es : Entries) (keys : List String) (v : Value) : List String → Option Entries
  | [] => assign es keys v
  | k :: ks =>
    match es.lookup k with
    | some (.table form sub) =>
      (assignIn sub keys v ks).map fun sub => replace es k (.table form sub)
    | _ => none

def isControl (c : Char) : Bool := (c.toNat < 0x20 && c != '\t') || c.toNat == 0x7F

def isGap (c : Char) : Bool := c == ' ' || c == '\t'

def isBareKeyChar (c : Char) : Bool := c.isAlphanum || c == '_' || c == '-'

def endsScalar (c : Char) : Bool :=
  isControl c || isGap c || [',', ']', '\x7d', '[', '\x7b', '#', '=', '"', '\''].contains c

def skipGaps (cs : List Char) : List Char := cs.dropWhile isGap

def skipBetween (inComment : Bool) : List Char → Option (List Char)
  | [] => some []
  | '\r' :: '\n' :: cs => skipBetween false cs
  | c :: cs =>
    if c == '\n' then skipBetween false cs
    else if inComment then if isControl c then none else skipBetween true cs
    else if isGap c then skipBetween false cs
    else if c == '#' then skipBetween true cs
    else some (c :: cs)

/-- Skips the rest of a line, which holds at most a comment. -/
def endLine (inComment : Bool) : List Char → Option (List Char)
  | [] => some []
  | '\r' :: '\n' :: cs => some cs
  | c :: cs =>
    if c == '\n' then some cs
    else if inComment then if isControl c then none else endLine true cs
    else if isGap c then endLine false cs
    else if c == '#' then endLine true cs
    else none

def digitValue? (radix : Nat) (c : Char) : Option Nat :=
  let value :=
    if c.isDigit then c.toNat - '0'.toNat
    else if 'a' ≤ c && c ≤ 'f' then c.toNat - 'a'.toNat + 10
    else if 'A' ≤ c && c ≤ 'F' then c.toNat - 'A'.toNat + 10
    else radix
  if value < radix then some value else none

/-- Digits with single underscores between them, behind digits of the value `before`. -/
def digits? (radix : Nat) (before : Nat) (afterDigit : Bool) : List Char → Option Nat
  | [] => if afterDigit then some before else none
  | c :: cs =>
    if c == '_' then if afterDigit then digits? radix before false cs else none
    else (digitValue? radix c).bind fun d => digits? radix (before * radix + d) true cs

def decimal? : List Char → Option Nat
  | ['0'] => some 0
  | '0' :: _ => none
  | cs => digits? 10 0 false cs

def integer? : List Char → Option Int
  | '+' :: cs => (decimal? cs).map Int.ofNat
  | '-' :: cs => (decimal? cs).map fun n => -(n : Int)
  | '0' :: 'x' :: cs => (digits? 16 0 false cs).map Int.ofNat
  | '0' :: 'o' :: cs => (digits? 8 0 false cs).map Int.ofNat
  | '0' :: 'b' :: cs => (digits? 2 0 false cs).map Int.ofNat
  | cs => (decimal? cs).map Int.ofNat

def scalar? (cs : List Char) : Option Value :=
  if cs = ['t', 'r', 'u', 'e'] then some (.boolean true)
  else if cs = ['f', 'a', 'l', 's', 'e'] then some (.boolean false)
  else (integer? cs).map .integer

inductive EscapeState where
  | plain
  | returned
  | escape
  /-- Within the digits of a code point: how many are to come, and the value of those read. -/
  | codePoint (left value : Nat)
  /-- Behind a backslash and gaps: a line break has to come. -/
  | beforeBreak
  /-- Behind a backslash and a line break: everything blank is skipped. -/
  | skipping
  | skippingReturned
  deriving DecidableEq

def scalarValue? (n : Nat) : Option Char :=
  if h : n.isValidChar then some (Char.ofNatAux n h) else none

def plainStep (multiline : Bool) (c : Char) : Option (List Char × EscapeState) :=
  if c == '\\' then some ([], .escape)
  else if c == '\n' then if multiline then some ([c], .plain) else none
  else if c == '\r' then if multiline then some ([], .returned) else none
  else if isControl c then none
  else some ([c], .plain)

def escapeStep (multiline : Bool) : Char → Option (List Char × EscapeState)
  | 'b' => some (['\x08'], .plain)
  | 't' => some (['\t'], .plain)
  | 'n' => some (['\n'], .plain)
  | 'f' => some (['\x0c'], .plain)
  | 'r' => some (['\r'], .plain)
  | 'e' => some (['\x1b'], .plain)
  | '"' => some (['"'], .plain)
  | '\\' => some (['\\'], .plain)
  | 'x' => some ([], .codePoint 2 0)
  | 'u' => some ([], .codePoint 4 0)
  | 'U' => some ([], .codePoint 8 0)
  | ' ' | '\t' => if multiline then some ([], .beforeBreak) else none
  | '\n' => if multiline then some ([], .skipping) else none
  | '\r' => if multiline then some ([], .skippingReturned) else none
  | _ => none

/-- One character of a text with escapes: what it adds, and where the reader is behind it. -/
def escapeRead (multiline : Bool) (c : Char) : EscapeState → Option (List Char × EscapeState)
  | .plain => plainStep multiline c
  | .returned => if c == '\n' then some (['\r', '\n'], .plain) else none
  | .escape => escapeStep multiline c
  | .codePoint left value =>
    (digitValue? 16 c).bind fun d =>
      let value := value * 16 + d
      if left ≤ 1 then (scalarValue? value).map fun c => ([c], .plain)
      else some ([], .codePoint (left - 1) value)
  | .beforeBreak =>
    if isGap c then some ([], .beforeBreak)
    else if c == '\n' then some ([], .skipping)
    else if c == '\r' then some ([], .skippingReturned)
    else none
  | .skipping =>
    if isGap c || c == '\n' then some ([], .skipping)
    else if c == '\r' then some ([], .skippingReturned)
    else plainStep multiline c
  | .skippingReturned => if c == '\n' then some ([], .skipping) else none

def unescape (multiline : Bool) : EscapeState → List Char → Option (List Char)
  | state, [] => if state = .plain || state = .skipping then some [] else none
  | state, c :: cs => do
    let (added, state) ← escapeRead multiline c state
    let rest ← unescape multiline state cs
    some (added ++ rest)

/-- Whether a text without escapes holds no control character apart from line breaks, and those
only where they are allowed. -/
def isLiteral (multiline : Bool) : List Char → Bool
  | [] => true
  | '\r' :: '\n' :: cs => multiline && isLiteral multiline cs
  | c :: cs => (!isControl c || (multiline && c == '\n')) && isLiteral multiline cs

/-- Cuts at the quote that ends a text of one line; a backslash hides the character behind it. -/
def cutLine (escapes : Bool) (quote : Char) (hidden : Bool) :
    List Char → Option (List Char × List Char)
  | [] => none
  | c :: cs =>
    if !hidden && c == quote then some ([], cs)
    else (cutLine escapes quote (escapes && !hidden && c == '\\') cs).map
      fun (text, rest) => (c :: text, rest)

/-- Cuts at the three quotes that end a text of several lines; up to two quotes in front of them
belong to the text. -/
def cutLines (escapes : Bool) (quote : Char) (hidden : Bool) :
    List Char → Option (List Char × List Char)
  | [] => none
  | c :: cs =>
    if !hidden && [quote, quote, quote].isPrefixOf (c :: cs) then
      let quotes := (cs.take 4).takeWhile (· == quote)
      some (quotes.drop 2, cs.drop quotes.length)
    else (cutLines escapes quote (escapes && !hidden && c == '\\') cs).map
      fun (text, rest) => (c :: text, rest)

def dropFirstBreak : List Char → List Char
  | '\n' :: cs => cs
  | '\r' :: '\n' :: cs => cs
  | cs => cs

def readText (escapes : Bool) (quote : Char) (cs : List Char) : Option (String × List Char) := do
  let (raw, rest) ← cutLine escapes quote false cs
  let text ← if escapes then unescape false .plain raw
    else if isLiteral false raw then some raw else none
  some (String.ofList text, rest)

def readTextLines (escapes : Bool) (quote : Char) (cs : List Char) :
    Option (String × List Char) := do
  let (raw, rest) ← cutLines escapes quote false (dropFirstBreak cs)
  let text ← if escapes then unescape true .plain raw
    else if isLiteral true raw then some raw else none
  some (String.ofList text, rest)

def readKey : List Char → Option (String × List Char)
  | '"' :: cs => readText true '"' cs
  | '\'' :: cs => readText false '\'' cs
  | cs =>
    let key := cs.takeWhile isBareKeyChar
    if key.isEmpty then none else some (String.ofList key, cs.dropWhile isBareKeyChar)

/-- The readers of nested things take the number of steps that they may go down. The document
reader gives them twice the length of the document, which they cannot use up. -/
def readKeys : Nat → List Char → Option (List String × List Char)
  | 0, _ => none
  | steps + 1, cs => do
    let (key, rest) ← readKey (skipGaps cs)
    match skipGaps rest with
    | '.' :: rest =>
      let (keys, rest) ← readKeys steps rest
      some (key :: keys, rest)
    | rest => some ([key], rest)

mutual

def readValue : Nat → List Char → Option (Value × List Char)
  | 0, _ => none
  | steps + 1, cs =>
    match cs with
    | '"' :: '"' :: '"' :: rest => (readTextLines true '"' rest).map fun (s, rest) => (.text s, rest)
    | '"' :: rest => (readText true '"' rest).map fun (s, rest) => (.text s, rest)
    | '\'' :: '\'' :: '\'' :: rest =>
      (readTextLines false '\'' rest).map fun (s, rest) => (.text s, rest)
    | '\'' :: rest => (readText false '\'' rest).map fun (s, rest) => (.text s, rest)
    | '[' :: rest => (readItems steps rest).map fun (items, rest) => (.array items, rest)
    | '\x7b' :: rest =>
      (readEntries steps [] rest).map fun (entries, rest) => (.table .inline entries, rest)
    | cs => (scalar? (cs.takeWhile (!endsScalar ·))).map (·, cs.dropWhile (!endsScalar ·))

def readItems : Nat → List Char → Option (List Value × List Char)
  | 0, _ => none
  | steps + 1, cs => do
    match ← skipBetween false cs with
    | ']' :: rest => some ([], rest)
    | cs =>
      let (item, rest) ← readValue steps cs
      match ← skipBetween false rest with
      | ',' :: rest =>
        let (items, rest) ← readItems steps rest
        some (item :: items, rest)
      | ']' :: rest => some ([item], rest)
      | _ => none

/-- The entries of a table in braces, added to those read before, and its closing brace. Lines may
break anywhere between its keys, its values and the signs around them, but not within a key. -/
def readEntries : Nat → Entries → List Char → Option (Entries × List Char)
  | 0, _, _ => none
  | steps + 1, entries, cs => do
    match ← skipBetween false cs with
    | '\x7d' :: rest => some (entries, rest)
    | cs =>
      let (keys, rest) ← readKeys steps cs
      match ← skipBetween false rest with
      | '=' :: rest =>
        let (value, rest) ← readValue steps (← skipBetween false rest)
        let entries ← assign entries keys value
        match ← skipBetween false rest with
        | ',' :: rest => readEntries steps entries rest
        | '\x7d' :: rest => some (entries, rest)
        | _ => none
      | _ => none

end

def readLines (depth : Nat) : Nat → Entries → List String → List Char → Option Entries
  | 0, _, _, _ => none
  | steps + 1, entries, header, cs => do
    match skipGaps cs with
    | [] => some entries
    | '[' :: rest =>
      let (keys, rest) ← readKeys depth rest
      match rest with
      | ']' :: rest =>
        let entries ← openTable entries keys
        let rest ← endLine false rest
        readLines depth steps entries keys rest
      | _ => none
    | c :: cs =>
      if c == '\n' || c == '\r' || c == '#' then
        let rest ← endLine false (c :: cs)
        readLines depth steps entries header rest
      else
        let (keys, rest) ← readKeys depth (c :: cs)
        match rest with
        | '=' :: rest =>
          let (value, rest) ← readValue depth (skipGaps rest)
          let rest ← endLine false rest
          let entries ← assignIn entries keys value header
          readLines depth steps entries header rest
        | _ => none

/-- Reads a document. A byte order mark in front is skipped. -/
def read (source : String) : Option Entries :=
  let cs := match source.toList with
    | '\ufeff' :: cs => cs
    | cs => cs
  readLines (2 * cs.length + 2) (cs.length + 1) [] [] cs

end Document

end TypeScriptComposer
