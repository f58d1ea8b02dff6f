/-
# Texts in a TOML document

A text is written between quotes or apostrophes.  Between quotes a backslash
begins an escape, between apostrophes every character stands for itself.  A text
between triple quotes or apostrophes may go over several lines: a line end right
after the opening is dropped, every other one counts as a line feed, and at most
two quotes may stand right before the closing ones.

Blanks are spaces and tabs.  No other control character stands in a document, line
ends apart.
-/

import Reconciliation.Text.Decimal

namespace Reconciliation
namespace Toml

/-- A reader takes a text and gives what it read with the text that is left. -/
abbrev Reader (α : Type) := List Char → Option (α × List Char)

/-! ## Between tokens -/

/-- Whether a character is a space or a tab. -/
def isBlank (c : Char) : Bool := c = ' ' || c = '\t'

/-- Whether a character never stands for itself: a control character other than
the tab. -/
def isControl (c : Char) : Bool := (c.toNat < 0x20 && c ≠ '\t') || c = '\x7f'

/-- The text from its first character on that is no blank. -/
def skipBlanks (text : List Char) : List Char := text.dropWhile isBlank

/-- The text after a line end, if it begins with one. -/
def lineEnd? : List Char → Option (List Char)
  | '\n' :: rest => some rest
  | '\r' :: '\n' :: rest => some rest
  | _ => none

theorem lineEnd?_length {text rest : List Char} (h : lineEnd? text = some rest) :
    rest.length < text.length := by
  unfold lineEnd? at h
  split at h
  · obtain rfl := Option.some.inj h
    exact Nat.lt_succ_self _
  · obtain rfl := Option.some.inj h
    exact Nat.lt_succ_of_lt (Nat.lt_succ_self _)
  · cases h

/-- The text after blanks, line ends and comments; `comment` says whether it begins
inside a comment.  A comment goes to the end of its line. -/
def skipFiller (comment : Bool) : List Char → List Char
  | [] => []
  | '\r' :: '\n' :: rest => skipFiller false rest
  | c :: rest =>
    if c = '\n' then skipFiller false rest
    else if comment then
      if isControl c then c :: rest else skipFiller true rest
    else if isBlank c then skipFiller false rest
    else if c = '#' then skipFiller true rest
    else c :: rest

/-- Passes over exactly the characters of `word`. -/
def expectWord : List Char → List Char → Option (List Char)
  | [], text => some text
  | _ :: _, [] => none
  | w :: word, c :: rest => if c = w then expectWord word rest else none

/-! ## Escapes -/

/-- The character that a short escape stands for. -/
def shortEscaped? (c : Char) : Option Char :=
  if c = 'b' then some '\x08'
  else if c = 't' then some '\t'
  else if c = 'n' then some '\n'
  else if c = 'f' then some '\x0c'
  else if c = 'r' then some '\r'
  else if c = '"' then some '"'
  else if c = '\\' then some '\\'
  else none

/-- The number that a run of hexadecimal digits spells. -/
def hexNumber? (digits : List Char) : Option Nat :=
  digits.foldl (fun n c => do some ((← n) * 16 + (← hexDigit? c))) (some 0)

/-- The character of a code point, surrogates and what is out of range apart. -/
def scalar? (n : Nat) : Option Char :=
  if h : n.isValidChar then some (Char.ofNatAux n h) else none

/-- Reads a code point of `count` hexadecimal digits. -/
def readCodePoint (count : Nat) : Reader Char := fun text =>
  if text.length < count then none
  else do
    let c ← scalar? (← hexNumber? (text.take count))
    some (c, text.drop count)

/-- Reads an escape after its backslash. -/
def readEscape : Reader Char
  | [] => none
  | e :: rest =>
    match shortEscaped? e with
    | some c => some (c, rest)
    | none =>
      if e = 'u' then readCodePoint 4 rest
      else if e = 'U' then readCodePoint 8 rest
      else none

theorem readCodePoint_length {count : Nat} {text rest : List Char} {c : Char}
    (h : readCodePoint count text = some (c, rest)) : rest.length ≤ text.length := by
  unfold readCodePoint at h
  split at h
  · simp at h
  · simp only [Option.bind_eq_bind, Option.bind_eq_some_iff, Option.some.injEq,
      Prod.mk.injEq] at h
    obtain ⟨_, _, _, _, _, rfl⟩ := h
    simp

theorem readEscape_length {text rest : List Char} {c : Char}
    (h : readEscape text = some (c, rest)) : rest.length < text.length := by
  unfold readEscape at h
  split at h
  · simp at h
  · rename_i e after
    split at h
    · simp_all
    · split at h
      · exact Nat.lt_succ_of_le (readCodePoint_length h)
      · split at h
        · exact Nat.lt_succ_of_le (readCodePoint_length h)
        · simp at h

/-! ## Texts on one line -/

/-- Puts characters before what was read. -/
def before (chars : List Char) (read : Option (List Char × List Char)) :
    Option (List Char × List Char) :=
  read.map fun (content, rest) => (chars ++ content, rest)

/-- Reads a text up to its closing quote. -/
def readBasic (text : List Char) : Option (List Char × List Char) :=
  match text with
  | [] => none
  | c :: rest =>
    if c = '"' then some ([], rest)
    else if c = '\\' then
      match h : readEscape rest with
      | none => none
      | some (e, after) =>
        have := readEscape_length h
        before [e] (readBasic after)
    else if isControl c then none
    else before [c] (readBasic rest)
termination_by text.length

/-- Reads a text up to its closing apostrophe. -/
def readLiteral : Reader (List Char)
  | [] => none
  | c :: rest =>
    if c = '\'' then some ([], rest)
    else if isControl c then none
    else before [c] (readLiteral rest)

/-! ## Texts on several lines -/

/-- The text after the closing quotes, and the quotes before them that belong to
the content. -/
def closing? (quote : Char) (text : List Char) : Option (List Char × List Char) :=
  match expectWord [quote, quote, quote] text with
  | none => none
  | some rest =>
    let extra := (rest.takeWhile (· = quote)).take 2
    some (extra, rest.drop extra.length)

/-- The text after a line end that is escaped, with all blanks and line ends that
follow it. -/
def escapedLineEnd? (text : List Char) : Option (List Char) :=
  (lineEnd? (skipBlanks text)).map skip
where
  /-- The text after blanks and line ends. -/
  skip : List Char → List Char
    | [] => []
    | '\r' :: '\n' :: rest => skip rest
    | c :: rest => if c = '\n' || isBlank c then skip rest else c :: rest

theorem skip_length (text : List Char) :
    (escapedLineEnd?.skip text).length ≤ text.length := by
  fun_induction escapedLineEnd?.skip text <;> simp_all <;> omega

theorem escapedLineEnd?_length {text rest : List Char}
    (h : escapedLineEnd? text = some rest) : rest.length < text.length := by
  obtain ⟨after, ha, rfl⟩ := Option.map_eq_some_iff.1 h
  have h₁ := lineEnd?_length ha
  have h₂ := skip_length after
  have h₃ : (skipBlanks text).length ≤ text.length :=
    (List.dropWhile_sublist isBlank).length_le
  omega

/-- Reads a text up to its closing triple quotes. -/
def readBasicLines (text : List Char) : Option (List Char × List Char) :=
  match closing? '"' text with
  | some closed => some closed
  | none =>
    match hl : lineEnd? text with
    | some rest =>
      have := lineEnd?_length hl
      before ['\n'] (readBasicLines rest)
    | none =>
      match text with
      | [] => none
      | c :: rest =>
        if c = '\\' then
          match hs : escapedLineEnd? rest with
          | some after =>
            have := escapedLineEnd?_length hs
            readBasicLines after
          | none =>
            match he : readEscape rest with
            | none => none
            | some (e, after) =>
              have := readEscape_length he
              before [e] (readBasicLines after)
        else if isControl c then none
        else before [c] (readBasicLines rest)
termination_by text.length

/-- Reads a text up to its closing triple apostrophes. -/
def readLiteralLines (text : List Char) : Option (List Char × List Char) :=
  match closing? '\'' text with
  | some closed => some closed
  | none =>
    match hl : lineEnd? text with
    | some rest =>
      have := lineEnd?_length hl
      before ['\n'] (readLiteralLines rest)
    | none =>
      match text with
      | [] => none
      | c :: rest =>
        if isControl c then none else before [c] (readLiteralLines rest)
termination_by text.length

/-! ## Texts and keys -/

/-- The text after a line end, or the text itself. -/
def dropLineEnd (text : List Char) : List Char := (lineEnd? text).getD text

/-- Reads a text of any form. -/
def readText : Reader String := fun text =>
  let asString (read : Option (List Char × List Char)) : Option (String × List Char) :=
    read.map fun (content, rest) => (String.ofList content, rest)
  match expectWord ['"', '"', '"'] text, expectWord ['\'', '\'', '\''] text with
  | some rest, _ => asString (readBasicLines (dropLineEnd rest))
  | _, some rest => asString (readLiteralLines (dropLineEnd rest))
  | none, none =>
    match text with
    | '"' :: rest => asString (readBasic rest)
    | '\'' :: rest => asString (readLiteral rest)
    | _ => none

/-- Whether a character may stand in a bare key. -/
def isKeyChar (c : Char) : Bool := c.isAlphanum || c = '_' || c = '-'

/-- Reads a single key: bare, or a text on one line. -/
def readKey : Reader String
  | '"' :: rest => (readBasic rest).map fun (content, rest) => (String.ofList content, rest)
  | '\'' :: rest => (readLiteral rest).map fun (content, rest) => (String.ofList content, rest)
  | text =>
    let bare := text.takeWhile isKeyChar
    if bare.isEmpty then none else some (String.ofList bare, text.drop bare.length)

/-- Keys and values nest less deep than this. -/
def nestingBound : Nat := 80

/-- Reads keys parted by dots, at most so many, with the blanks around them. -/
def readKeys : Nat → Reader (List String)
  | 0, _ => none
  | limit + 1, text => do
    let (key, rest) ← readKey (skipBlanks text)
    match skipBlanks rest with
    | '.' :: rest => do
      let (keys, rest) ← readKeys limit rest
      some (key :: keys, rest)
    | rest => some ([key], rest)

/-- Reads a path of keys. -/
def readPath : Reader (List String) := readKeys (nestingBound - 1)

end Toml
end Reconciliation
