import JointGuard.Toml.Moments
import JointGuard.Toml.Numbers
import JointGuard.Toml.Strings
import JointGuard.Toml.Tree

/-! # Documents

A document is a run of assignments followed by sections, each under a header of its own.
`Document.ofText?` reads the lines of a text, and `Document.toTable?` builds the table that they
describe; it fails if a key is given twice or a table is opened where none can be. -/

namespace JointGuard.Toml
open Scan

/-- Arrays and inline tables nest at most this deep. -/
def maxDepth : Nat := 79

/-- A dotted key has at most this many parts. -/
def maxKeyParts : Nat := 79

def isBareKey (c : Char) : Bool := c.isAlphanum || c = '_' || c = '-'

def simpleKey : Scan String
  | '\x22' :: rest => Strings.basic rest
  | '\x27' :: rest => Strings.literal rest
  | s => (run1 isBareKey s).map fun (cs, rest) => (String.ofList cs, rest)

/-- A key with dots between its parts; blanks around the parts do not count. -/
def path : Scan Path := fun s => do
  let part := fun s => (simpleKey (skipBlanks s)).map fun (key, rest) => (key, skipBlanks rest)
  let (keys, rest) ← separated '.' part s
  if maxKeyParts < keys.length then none
  else (Path.ofList? keys).map (·, rest)

def scalar : Scan Value := fun s =>
  ((Strings.string s).map fun (text, rest) => (.string text, rest)) <|>
    ((Moments.moment s).map fun (moment, rest) => (.moment moment, rest)) <|>
    Numbers.number s <|>
    ((after? ['t', 'r', 'u', 'e'] s).map (.boolean true, ·)) <|>
    ((after? ['f', 'a', 'l', 's', 'e'] s).map (.boolean false, ·))

/-- The items of an array, with the closing bracket.  A comma may follow the last one. -/
def array (item : Scan Value) : Scan Value := fun s =>
  let item := fun s => (item (skipGaps s)).map fun (value, rest) => (value, skipGaps rest)
  match separated ',' item s with
  | none => (after? [']'] (skipGaps s)).map (.array [], ·)
  | some (items, ',' :: s) => (after? [']'] (skipGaps s)).map (.array items, ·)
  | some (items, s) => (after? [']'] s).map (.array items, ·)

/-- A key, the sign of assignment and a value. -/
def assignment (value : Scan Value) : Scan (Path × Value) := fun s => do
  let (path, s) ← path s
  let s ← after? ['='] s
  let (value, rest) ← value (skipBlanks s)
  return ((path, value), rest)

/-- The entries of an inline table, with the closing brace. -/
def inlineTable (value : Scan Value) : Scan Value := fun s => do
  let entry := fun s => (assignment value s).map fun (entry, rest) => (entry, skipBlanks rest)
  let (entries, s) := (separated ',' entry s).getD ([], skipBlanks s)
  let rest ← after? ['\x7d'] s
  let tree ← Tree.assignAll [] entries
  return (.table tree.toTable, rest)

/-- A value with room for `depth` levels of arrays and inline tables. -/
def value : (depth : Nat) → Scan Value
  | 0 => scalar
  | depth + 1 => fun s =>
    match s with
    | '[' :: rest => array (value depth) rest
    | '\x7b' :: rest => inlineTable (value depth) rest
    | s => scalar s

inductive Header where
  | table (path : Path)
  | element (path : Path)

structure Document where
  top : List (Path × Value)
  sections : List (Header × List (Path × Value))

namespace Document

/-- A line with an assignment, or one without. -/
def line : Scan (Option (Path × Value)) := fun s =>
  match lineEnd? s with
  | some rest => some (none, rest)
  | none => do
    let (entry, s) ← assignment (value maxDepth) s
    let rest ← lineEnd? s
    return (some entry, rest)

def lines (s : List Char) : List (Path × Value) × List Char :=
  let (entries, rest) := many line s
  (entries.filterMap id, rest)

def header : Scan Header := fun s =>
  match skipBlanks s with
  | '[' :: '[' :: s => do
    let (path, s) ← path s
    let s ← after? [']', ']'] s
    let rest ← lineEnd? s
    return (.element path, rest)
  | '[' :: s => do
    let (path, s) ← path s
    let s ← after? [']'] s
    let rest ← lineEnd? s
    return (.table path, rest)
  | _ => none

def block : Scan (Header × List (Path × Value)) := fun s => do
  let (header, s) ← header s
  let (entries, rest) := lines s
  return ((header, entries), rest)

/-- A byte order mark in front of the text is skipped. -/
def skipMark : List Char → List Char
  | '\ufeff' :: s => s
  | s => s

def ofText? (text : String) : Option Document :=
  let (top, s) := lines (skipMark text.toList)
  match many block s with
  | (sections, []) => some { top, sections }
  | _ => none

def addSection (tree : Tree) : Header × List (Path × Value) → Option Tree
  | (.table path, entries) => tree.addTable path entries
  | (.element path, entries) => tree.addElement path entries

def toTable? (document : Document) : Option Table := do
  let tree ← Tree.assignAll [] document.top
  let tree ← document.sections.foldlM addSection tree
  return tree.toTable

end Document

/-- The table that a text describes, if the text is a TOML document. -/
def parse? (text : String) : Option Table :=
  (Document.ofText? text).bind Document.toTable?

end JointGuard.Toml
