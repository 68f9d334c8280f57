/-! # Scanning

A scan reads a value off the front of a text and returns what is left, or fails.  `many` and
`separated` repeat a scan for as long as it consumes something, and so always end. -/

namespace JointGuard.Toml

abbrev Scan (α : Type) := List Char → Option (α × List Char)

namespace Scan

variable {α : Type}

/-- As many items as can be read one after the other. -/
def many (item : Scan α) (s : List Char) : List α × List Char :=
  match item s with
  | none => ([], s)
  | some (a, rest) =>
    if rest.length < s.length then
      let (items, rest) := many item rest
      (a :: items, rest)
    else ([], s)
termination_by s.length

/-- One item or more with `mark` between them.  A mark that no item follows is left unread. -/
def separated (mark : Char) (item : Scan α) (s : List Char) : Option (List α × List Char) :=
  match item s with
  | none => none
  | some (a, []) => some ([a], [])
  | some (a, c :: rest) =>
    if c = mark ∧ rest.length < s.length then
      match separated mark item rest with
      | none => some ([a], c :: rest)
      | some (items, rest) => some (a :: items, rest)
    else some ([a], c :: rest)
termination_by s.length

/-- The rest of the text behind `word`. -/
def after? (word s : List Char) : Option (List Char) :=
  if word.isPrefixOf s then some (s.drop word.length) else none

/-- A run of at least one character of a class. -/
def run1 (is : Char → Bool) : Scan (List Char) := fun s =>
  match s.takeWhile is with
  | [] => none
  | cs => some (cs, s.dropWhile is)

/-- Exactly `n` characters of a class. -/
def exactly (n : Nat) (is : Char → Bool) : Scan (List Char) := fun s =>
  let cs := s.take n
  if cs.length = n ∧ cs.all is then some (cs, s.drop n) else none

end Scan

def isBlank (c : Char) : Bool := c = ' ' || c = '\t'

/-- Text is everything but the control characters of ASCII; a tab is text. -/
def isText (c : Char) : Bool := c = '\t' || (' ' ≤ c && c ≠ '\x7f')

def skipBlanks (s : List Char) : List Char := s.dropWhile isBlank

def newline? : List Char → Option (List Char)
  | '\n' :: rest => some rest
  | '\r' :: '\n' :: rest => some rest
  | _ => none

def skipComment : List Char → List Char
  | '#' :: rest => rest.dropWhile isText
  | s => s

/-- The end of a line, after blanks and a comment.  The end of the text ends a line too. -/
def lineEnd? (s : List Char) : Option (List Char) :=
  match skipComment (skipBlanks s) with
  | [] => some []
  | s => newline? s

/-- Blanks and line breaks. -/
def skipSpace (s : List Char) : List Char :=
  (Scan.many (fun s => (newline? (skipBlanks s)).map ((), ·)) s).2.dropWhile isBlank

/-- Blanks, comments and line breaks. -/
def skipGaps (s : List Char) : List Char :=
  (Scan.many (fun s => (newline? (skipComment (skipBlanks s))).map ((), ·)) s).2.dropWhile isBlank

/-- The value of a digit in a base up to sixteen. -/
def digitValue (c : Char) : Nat :=
  if c.isDigit then c.toNat - '0'.toNat
  else if c.isLower then c.toNat - 'a'.toNat + 10
  else c.toNat - 'A'.toNat + 10

def digitsValue (base : Nat) (digits : List Char) : Nat :=
  digits.foldl (fun n c => n * base + digitValue c) 0

def isHexDigit (c : Char) : Bool :=
  c.isDigit || ('a' ≤ c && c ≤ 'f') || ('A' ≤ c && c ≤ 'F')

end JointGuard.Toml
