import JointGuard.Toml.Scan
import JointGuard.Toml.Value

/-! # Dates and times

A date, a time of day, or both with an optional offset.  A date may be followed by a blank that
does not belong to it, so what comes behind it is read as a time only if it is one. -/

namespace JointGuard.Toml.Moments
open Scan

/-- A number of exactly `n` digits between `least` and `most`. -/
def number (n least most : Nat) : Scan Nat := fun s => do
  let (digits, rest) ← exactly n Char.isDigit s
  let value := digitsValue 10 digits
  if least ≤ value ∧ value ≤ most then some (value, rest) else none

def date : Scan Date := fun s => do
  let (year, s) ← number 4 0 9999 s
  let s ← after? ['-'] s
  let (month, s) ← number 2 1 12 s
  let s ← after? ['-'] s
  let (day, rest) ← number 2 1 (Date.daysInMonth year month) s
  return (⟨year, month, day⟩, rest)

/-- Digits of a second beyond the ninth are dropped. -/
def nanosecond : Scan Nat
  | '.' :: s => do
    let (digits, rest) ← run1 Char.isDigit s
    let kept := digits.take 9
    return (digitsValue 10 kept * Nat.pow 10 (9 - kept.length), rest)
  | _ => none

/-- The second may be a leap second. -/
def time : Scan Time := fun s => do
  let (hour, s) ← number 2 0 23 s
  let s ← after? [':'] s
  let (minute, s) ← number 2 0 59 s
  let s ← after? [':'] s
  let (second, s) ← number 2 0 60 s
  let (nanosecond, rest) := (nanosecond s).getD (0, s)
  return (⟨hour, minute, second, nanosecond⟩, rest)

def hoursMinutes : Scan (Nat × Nat) := fun s => do
  let (hours, s) ← number 2 0 23 s
  let s ← after? [':'] s
  let (minutes, rest) ← number 2 0 59 s
  return ((hours, minutes), rest)

def offset : Scan Offset
  | 'Z' :: rest => some (.zulu, rest)
  | 'z' :: rest => some (.zulu, rest)
  | '+' :: s => (hoursMinutes s).map fun ((h, m), rest) => (.ahead h m, rest)
  | '-' :: s => (hoursMinutes s).map fun ((h, m), rest) => (.behind h m, rest)
  | _ => none

/-- The time behind a date. -/
def clock : Scan (Time × Option Offset)
  | c :: s =>
    if c ∈ ['T', 't', ' '] then do
      let (time, s) ← time s
      match offset s with
      | some (offset, rest) => some ((time, some offset), rest)
      | none => some ((time, none), s)
    else none
  | [] => none

def moment : Scan Moment := fun s =>
  match date s with
  | some (date, s) =>
    match clock s with
    | some ((time, offset), rest) => some (.dateTime date time offset, rest)
    | none => some (.date date, s)
  | none => (time s).map fun (time, rest) => (.time time, rest)

end JointGuard.Toml.Moments
