/-
# TOML documents

A document is a list of lines: a header in brackets opens a table, doubled brackets
open another table of a list, and a key with its value belongs to the table that was
opened last.  Values are texts, numbers, flags, instants, lists and tables in braces.
-/

import Reconciliation.Settings.Toml.Block
import Reconciliation.Settings.Toml.Number

namespace Reconciliation
namespace Toml

/-! ## Values -/

/-- Reads the items of a list up to its closing bracket. -/
def readItems (inner : Reader Setting) : Nat → Reader (List Setting)
  | 0, _ => none
  | fuel + 1, text =>
    match skipFiller false text with
    | ']' :: rest => some ([], rest)
    | text => do
      let (item, rest) ← inner text
      match skipFiller false rest with
      | ']' :: rest => some ([item], rest)
      | ',' :: rest => do
        let (items, rest) ← readItems inner fuel rest
        some (item :: items, rest)
      | _ => none

/-- Reads a path of keys, the equals sign and a value. -/
def readPair (inner : Reader Setting) : Reader (List String × Setting) := fun text => do
  let (path, rest) ← readPath text
  let rest ← expectWord ['='] rest
  let (setting, rest) ← inner (skipBlanks rest)
  some ((path, setting), rest)

/-- Reads the members of a table in braces up to the closing one. -/
def readMembers (inner : Reader Setting) : Nat → Block → Reader Block
  | 0, _, _ => none
  | fuel + 1, block, text => do
    let ((path, setting), rest) ← readPair inner text
    let block ← block.assign path setting
    match skipBlanks rest with
    | '}' :: rest => some (block, rest)
    | ',' :: rest => readMembers inner fuel block rest
    | _ => none

/-- Reads a table after its opening brace. -/
def readBraces (inner : Reader Setting) : Reader Setting := fun text =>
  match skipBlanks text with
  | '}' :: rest => some (.table [], rest)
  | text => do
    let (block, rest) ← readMembers inner (text.length + 1) .opened text
    some (.table block.settings, rest)

/-- Reads a value in which lists and tables nest at most so deep. -/
def readNested : Nat → Reader Setting
  | 0 => readScalar
  | depth + 1 => fun text =>
    match text with
    | '[' :: rest => do
      let (items, rest) ← readItems (readNested depth) (rest.length + 1) rest
      some (.list items, rest)
    | '{' :: rest => readBraces (readNested depth) rest
    | text => readScalar text

/-- Reads a value. -/
def readValue : Reader Setting := readNested (nestingBound - 1)

/-! ## Lines -/

/-- A document as far as it was read. -/
structure Draft where
  root : Block
  /-- The path of the table that was opened last. -/
  header : List String

/-- The draft before the first line. -/
def Draft.start : Draft := ⟨.opened, []⟩

instance : Inhabited Draft := ⟨.start⟩

/-- Opens a table. -/
def Draft.openTable (draft : Draft) (path : List String) : Option Draft :=
  (draft.root.openTable path).map fun root => ⟨root, path⟩

/-- Opens another table of a list. -/
def Draft.openItem (draft : Draft) (path : List String) : Option Draft :=
  (draft.root.openItem path).map fun root => ⟨root, path⟩

/-- Gives a key of the table that was opened last its value. -/
def Draft.assign (draft : Draft) (path : List String) (setting : Setting) : Option Draft :=
  (draft.root.change .implied (fun block => block.assign path setting) draft.header).map
    fun root => { draft with root := root }

/-- Reads a line that begins neither with a blank nor with a comment. -/
def readLine (draft : Draft) : Reader Draft
  | '[' :: '[' :: text => do
    let (path, rest) ← readPath text
    let rest ← expectWord [']', ']'] rest
    some (← draft.openItem path, rest)
  | '[' :: text => do
    let (path, rest) ← readPath text
    let rest ← expectWord [']'] rest
    some (← draft.openTable path, rest)
  | text => do
    let ((path, setting), rest) ← readPair readValue text
    some (← draft.assign path setting, rest)

/-- Whether nothing but blanks and a comment stands before the end of the line. -/
def endsLine (text : List Char) : Bool :=
  match skipBlanks text with
  | [] => true
  | c :: rest => c = '#' || (lineEnd? (c :: rest)).isSome

/-- Reads all lines. -/
def readLines : Nat → Draft → List Char → Option Draft
  | 0, _, _ => none
  | fuel + 1, draft, text =>
    match skipFiller false text with
    | [] => some draft
    | c :: rest => do
      let (draft, rest) ← readLine draft (c :: rest)
      if endsLine rest then readLines fuel draft rest else none

/-- The text without a byte order mark. -/
def dropMark : List Char → List Char
  | '\uFEFF' :: text => text
  | text => text

/-- The entries of a document.  A document that stands for an instant has none and is
refused. -/
def parse (text : String) : Option (List (String × Setting)) := do
  let text := dropMark text.toList
  let draft ← readLines (text.length + 1) .start text
  match ← withInstants? (.table draft.root.settings) with
  | .table entries => some entries
  | _ => none

end Toml
end Reconciliation
