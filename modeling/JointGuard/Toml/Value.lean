/-! # Values of a TOML document

A document is a table; the entries of a table keep their order.  Arrays of tables are arrays. -/

namespace JointGuard.Toml

structure Date where
  year : Nat
  month : Nat
  day : Nat
  deriving DecidableEq

structure Time where
  hour : Nat
  minute : Nat
  second : Nat
  nanosecond : Nat
  deriving DecidableEq

/-- The distance of a local time from universal time. -/
inductive Offset where
  | zulu
  | ahead (hours minutes : Nat)
  | behind (hours minutes : Nat)
  deriving DecidableEq

inductive Moment where
  | date (date : Date)
  | time (time : Time)
  | dateTime (date : Date) (time : Time) (offset : Option Offset)
  deriving DecidableEq

inductive Value where
  | string (text : String)
  | integer (value : Int64)
  | float (value : Float)
  | boolean (value : Bool)
  | moment (moment : Moment)
  | array (items : List Value)
  | table (entries : List (String × Value))

abbrev Table := List (String × Value)

/-- `n` in decimal, filled up with zeros to `width` digits. -/
def padded (width n : Nat) : List Char :=
  let digits := Nat.toDigits 10 n
  List.replicate (width - digits.length) '0' ++ digits

namespace Date

def text (date : Date) : List Char :=
  padded 4 date.year ++ '-' :: padded 2 date.month ++ '-' :: padded 2 date.day

def isLeap (year : Nat) : Bool :=
  year % 4 = 0 && (year % 100 ≠ 0 || year % 400 = 0)

def daysInMonth (year month : Nat) : Nat :=
  if month = 2 then (if isLeap year then 29 else 28)
  else if month ∈ [4, 6, 9, 11] then 30
  else 31

end Date

/-- The fraction of a second is written without trailing zeros. -/
def Time.text (time : Time) : List Char :=
  let fraction := (padded 9 time.nanosecond).reverse.dropWhile (· = '0')
  padded 2 time.hour ++ ':' :: padded 2 time.minute ++ ':' :: padded 2 time.second ++
    if time.nanosecond = 0 then [] else '.' :: fraction.reverse

/-- An offset behind universal time by nothing at all is written with a plus. -/
def Offset.text : Offset → List Char
  | .zulu => ['Z']
  | .ahead hours minutes => '+' :: padded 2 hours ++ ':' :: padded 2 minutes
  | .behind hours minutes =>
    (if hours = 0 ∧ minutes = 0 then '+' else '-') :: padded 2 hours ++ ':' :: padded 2 minutes

def Moment.text : Moment → String
  | .date d => String.ofList d.text
  | .time t => String.ofList t.text
  | .dateTime d t offset =>
    String.ofList (d.text ++ 'T' :: t.text ++ (offset.map Offset.text).getD [])

end JointGuard.Toml
