import JointGuard.Toml.Scan

/-! # Strings

The four notations: basic strings with escapes and literal strings without, each on one line or on
many.  On many lines a line break right after the opening quotes is dropped, every other one reads
as a line feed, and up to two quotes may stand anywhere, also before the closing three. -/

namespace JointGuard.Toml.Strings
open Scan

def hexChar (n : Nat) : Scan (List Char) := fun s => do
  let (digits, rest) ← exactly n isHexDigit s
  let code := digitsValue 16 digits
  if code.isValidChar then some ([Char.ofNat code], rest) else none

/-- What follows a backslash. -/
def escape : Scan (List Char)
  | 'b' :: rest => some (['\x08'], rest)
  | 't' :: rest => some (['\t'], rest)
  | 'n' :: rest => some (['\n'], rest)
  | 'f' :: rest => some (['\x0c'], rest)
  | 'r' :: rest => some (['\r'], rest)
  | '\x22' :: rest => some (['\x22'], rest)
  | '\\' :: rest => some (['\\'], rest)
  | 'u' :: rest => hexChar 4 rest
  | 'U' :: rest => hexChar 8 rest
  | _ => none

def isBasic (c : Char) : Bool := isText c && c ≠ '\x22' && c ≠ '\\'

def isLiteral (c : Char) : Bool := isText c && c ≠ '\x27'

def basicPiece : Scan (List Char)
  | '\\' :: rest => escape rest
  | s => run1 isBasic s

/-- The body of a basic string, with the closing quote. -/
def basic : Scan String := fun s =>
  match many basicPiece s with
  | (pieces, '\x22' :: rest) => some (String.ofList pieces.flatten, rest)
  | _ => none

/-- The body of a literal string, with the closing quote. -/
def literal : Scan String := fun s =>
  match s.dropWhile isLiteral with
  | '\x27' :: rest => some (String.ofList (s.takeWhile isLiteral), rest)
  | _ => none

/-- One or two quotes with something else behind them. -/
def innerQuotes (quote : Char) : Scan (List Char) := fun s =>
  let quotes := s.takeWhile (· = quote)
  if quotes.length = 1 ∨ quotes.length = 2 then some (quotes, s.drop quotes.length) else none

/-- The closing quotes; what they have beyond three belongs to the string. -/
def closingQuotes (quote : Char) : Scan (List Char) := fun s =>
  let quotes := s.takeWhile (· = quote)
  if 3 ≤ quotes.length ∧ quotes.length ≤ 5 then some (quotes.drop 3, s.drop quotes.length)
  else none

def lineFeed : Scan (List Char) := fun s =>
  (newline? s).map (['\n'], ·)

/-- A backslash at the end of a line drops the line break and all space after it. -/
def continuation : Scan (List Char) := fun s =>
  (newline? (skipBlanks s)).map fun rest => ([], skipSpace rest)

def longBasicPiece : Scan (List Char)
  | '\\' :: rest => continuation rest <|> escape rest
  | s => run1 isBasic s <|> lineFeed s <|> innerQuotes '\x22' s

def longLiteralPiece : Scan (List Char) := fun s =>
  run1 isLiteral s <|> lineFeed s <|> innerQuotes '\x27' s

/-- The body of a string on many lines, with the closing quotes. -/
def long (quote : Char) (piece : Scan (List Char)) : Scan String := fun s => do
  let (pieces, s) := many piece ((newline? s).getD s)
  let (last, rest) ← closingQuotes quote s
  return (String.ofList (pieces.flatten ++ last), rest)

def string : Scan String
  | '\x22' :: '\x22' :: '\x22' :: rest => long '\x22' longBasicPiece rest
  | '\x22' :: rest => basic rest
  | '\x27' :: '\x27' :: '\x27' :: rest => long '\x27' longLiteralPiece rest
  | '\x27' :: rest => literal rest
  | _ => none

end JointGuard.Toml.Strings
