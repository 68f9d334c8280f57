import JointGuard.Decimal.Nearest
import JointGuard.Toml.Scan
import JointGuard.Toml.Value

/-! # Integers and floats

Digits may be grouped by single underscores.  A decimal integer has no leading zero; integers in
base 16, 8 and 2 have no sign.  Integers outside the 64-bit range are refused, and so are decimals
that round to positive infinity. -/

namespace JointGuard.Toml.Numbers
open Scan

def startsWith (is : Char → Bool) : List Char → Bool
  | [] => false
  | c :: _ => is c

/-- Digits with single underscores between them, from the first digit on. -/
def grouped (is : Char → Bool) : List Char → List Char × List Char
  | [] => ([], [])
  | c :: s =>
    if is c then
      let (digits, rest) := grouped is s
      (c :: digits, rest)
    else if c = '_' && startsWith is s then grouped is s
    else ([], c :: s)

def digits (is : Char → Bool) : Scan (List Char) := fun s =>
  if startsWith is s then some (grouped is s) else none

/-- Whether there is a minus, and what follows the sign. -/
def sign : List Char → Bool × List Char
  | '-' :: rest => (true, rest)
  | '+' :: rest => (false, rest)
  | s => (false, s)

/-- The digits of a whole number without leading zeros. -/
def whole : Scan (List Char)
  | '0' :: rest => some (['0'], rest)
  | s => digits Char.isDigit s

def int64? (n : Int) : Option Int64 :=
  if Int64.minValue.toInt ≤ n ∧ n ≤ Int64.maxValue.toInt then some (Int64.ofInt n) else none

def inBase (base : Nat) (is : Char → Bool) : Scan Int64 := fun s => do
  let (ds, rest) ← digits is s
  let n ← int64? (digitsValue base ds)
  return (n, rest)

def integer : Scan Int64
  | '0' :: 'x' :: rest => inBase 16 isHexDigit rest
  | '0' :: 'o' :: rest => inBase 8 (fun c => '0' ≤ c && c ≤ '7') rest
  | '0' :: 'b' :: rest => inBase 2 (fun c => c = '0' || c = '1') rest
  | s => do
    let (negative, s) := sign s
    let (ds, rest) ← whole s
    let size : Int := digitsValue 10 ds
    let n ← int64? (if negative then -size else size)
    return (n, rest)

def fraction : Scan (List Char)
  | '.' :: rest => digits Char.isDigit rest
  | _ => none

def exponent : Scan Int
  | c :: s =>
    if c = 'e' ∨ c = 'E' then do
      let (negative, s) := sign s
      let (ds, rest) ← digits Char.isDigit s
      let size : Int := digitsValue 10 ds
      return (if negative then -size else size, rest)
    else none
  | [] => none

/-- The fraction and the exponent of a float, at least one of which is there. -/
def tail : Scan (List Char × Int) := fun s =>
  match fraction s with
  | some (ds, s) =>
    match exponent s with
    | some (e, rest) => some ((ds, e), rest)
    | none => some ((ds, 0), s)
  | none => (exponent s).map fun (e, rest) => (([], e), rest)

def signed (negative : Bool) (x : Float) : Float := if negative then -x else x

def special : Scan Float := fun s =>
  let (negative, s) := sign s
  ((after? ['i', 'n', 'f'] s).map (signed negative Decimal.infinity, ·)) <|>
    ((after? ['n', 'a', 'n'] s).map (signed negative Decimal.nan, ·))

def decimal : Scan Float := fun s => do
  let (negative, s) := sign s
  let (front, s) ← whole s
  let ((back, e), rest) ← tail s
  let x := signed negative
    (Decimal.nearest (digitsValue 10 (front ++ back)) (e - (back.length : Int)))
  if x == Decimal.infinity then none else some (x, rest)

def number : Scan Value := fun s =>
  ((decimal s <|> special s).map fun (x, rest) => (.float x, rest)) <|>
    ((integer s).map fun (n, rest) => (.integer n, rest))

end JointGuard.Toml.Numbers
