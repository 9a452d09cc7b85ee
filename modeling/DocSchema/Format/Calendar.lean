/-
  DocSchema/Format/Calendar.lean
  ==============================
  **Dates and times, written in digits.**

  A second may be the sixtieth only in the last minute of a day in universal time.
-/
import DocSchema.Text.Ascii

namespace DocSchema.Format

open DocSchema.Text

/-- The number that two digits write. -/
def twoDigits? (a b : Char) : Option Nat :=
  if isDigit a && isDigit b then some (digitValue a * 10 + digitValue b) else none

def isLeapYear (year : Nat) : Bool :=
  year % 4 == 0 && (year % 100 != 0 || year % 400 == 0)

def daysOf (year month : Nat) : Nat :=
  if month == 2 then (if isLeapYear year then 29 else 28)
  else if [4, 6, 9, 11].contains month then 30
  else 31

def isDate (cs : List Char) : Bool :=
  match cs with
  | [y1, y2, y3, y4, '-', m1, m2, '-', d1, d2] =>
    match twoDigits? y1 y2, twoDigits? y3 y4, twoDigits? m1 m2, twoDigits? d1 d2 with
    | some century, some year, some month, some day =>
      1 ≤ month && month ≤ 12 && 1 ≤ day && day ≤ daysOf (century * 100 + year) month
    | _, _, _, _ => false
  | _ => false

/-- Passes the fraction of a second, if one is given. -/
def skipFraction? (cs : List Char) : Option (List Char) :=
  match cs with
  | '.' :: rest =>
    let digits := rest.takeWhile isDigit
    if digits.isEmpty then none else some (rest.drop digits.length)
  | cs => some cs

/-- The minutes that an offset is ahead of universal time. -/
def offset? (cs : List Char) : Option Int :=
  match cs with
  | ['Z'] => some 0
  | ['z'] => some 0
  | [sign, h1, h2, ':', m1, m2] =>
    match twoDigits? h1 h2, twoDigits? m1 m2 with
    | some hour, some minute =>
      let size : Int := (hour * 60 + minute : Nat)
      if 23 < hour || 59 < minute then none
      else if sign == '+' then some size
      else if sign == '-' then some (-size)
      else none
    | _, _ => none
  | _ => none

/-- A time with its offset: `23:59:60Z`. -/
def isTime (cs : List Char) : Bool :=
  match cs with
  | h1 :: h2 :: ':' :: m1 :: m2 :: ':' :: s1 :: s2 :: rest =>
    match twoDigits? h1 h2, twoDigits? m1 m2, twoDigits? s1 s2,
        (skipFraction? rest).bind offset? with
    | some hour, some minute, some second, some offset =>
      hour ≤ 23 && minute ≤ 59 && second ≤ 60 &&
        (second != 60 || (((hour * 60 + minute : Nat) : Int) - offset) % 1440 == 1439)
    | _, _, _, _ => false
  | _ => false

/-- A date and a time, with a `T` between them. -/
def isDateTime (cs : List Char) : Bool :=
  match cs.drop 10 with
  | c :: time => (c == 'T' || c == 't') && isDate (cs.take 10) && isTime time
  | [] => false

end DocSchema.Format
