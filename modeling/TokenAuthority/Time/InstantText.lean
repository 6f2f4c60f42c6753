import TokenAuthority.Text.Blank
import TokenAuthority.Text.Decimal
import TokenAuthority.Text.Letters
import TokenAuthority.Time.Calendar
import TokenAuthority.Time.Instant

/-!
# Instants as text

An instant is written as date and time in UTC, `2023-11-14T22:13:20Z`, with a fraction of 3, 6 or 9
digits if it has one. The reader is more generous: it takes any offset, fields without leading
zeros, and blanks between the fields.
-/

namespace TokenAuthority.Time

open Text (isBlank padded digits ofDigits)

/-- A year has four digits, and a sign if it needs more or lies before the year 0. -/
def yearText (year : Int) : List Char :=
  if 0 ≤ year ∧ year ≤ 9999 then padded 4 year.toNat
  else (if year < 0 then '-' else '+') :: padded 4 year.natAbs

/-- The fraction of a second in as few groups of three digits as hold it. -/
def fractionText (nanos : Nat) : List Char :=
  if nanos = 0 then []
  else if nanos % 1000000 = 0 then '.' :: padded 3 (nanos / 1000000)
  else if nanos % 1000 = 0 then '.' :: padded 6 (nanos / 1000)
  else '.' :: padded 9 nanos

/-- Date and time in UTC. A leap second is the second 60. -/
def Instant.print (t : Instant) : List Char :=
  let date := Date.ofDay (t.seconds / 86400 + epochDay)
  let second := (t.seconds % 86400).toNat
  let leap := if t.nanos < 1000000000 then 0 else 1
  yearText date.year ++ '-' :: padded 2 date.month ++ '-' :: padded 2 date.day
    ++ 'T' :: padded 2 (second / 3600) ++ ':' :: padded 2 (second / 60 % 60)
    ++ ':' :: padded 2 (second % 60 + leap) ++ fractionText (t.nanos % 1000000000) ++ ['Z']

def Instant.text (t : Instant) : String := String.ofList t.print

namespace InstantText

/-- A number of at least one digit, of which at most `width` are taken. -/
def number (width : Nat) (s : List Char) : Option (Nat × List Char) :=
  let ds := (s.take width).takeWhile Char.isDigit
  if ds.isEmpty then none else some (ofDigits ds, s.drop ds.length)

def skipBlanks (s : List Char) : List Char := s.dropWhile isBlank

/-- A number behind blanks. -/
def field (width : Nat) (s : List Char) : Option (Nat × List Char) :=
  number width (skipBlanks s)

/-- A year of four digits at most, or of any number behind a sign. -/
def year (s : List Char) : Option (Int × List Char) :=
  match skipBlanks s with
  | '-' :: s => (number s.length s).map fun (n, r) => (-n, r)
  | '+' :: s => (number s.length s).map fun (n, r) => (n, r)
  | s => (number 4 s).map fun (n, r) => (n, r)

/-- A separator that may have blanks in front of it. -/
def separator (c : Char) (s : List Char) : Option (List Char) :=
  match skipBlanks s with
  | d :: r => if c = d then some r else none
  | [] => none

/-- Nanoseconds behind a point: nine digits, filled up with zeros. Further digits are passed
over. -/
def fraction : List Char → Option (Nat × List Char)
  | '.' :: s =>
    let ds := s.takeWhile Char.isDigit
    if ds.isEmpty then none
    else
      some (ofDigits ((ds ++ List.replicate 9 '0').take 9), s.drop ds.length)
  | s => some (0, s)

def twoDigits : List Char → Option (Nat × List Char)
  | a :: b :: r => if a.isDigit && b.isDigit then some (ofDigits [a, b], r) else none
  | _ => none

/-- The seconds that local time is ahead of UTC. -/
def offset (s : List Char) : Option (Int × List Char) :=
  let s := skipBlanks s
  if Text.sameLetters (String.ofList (s.take 3)) "UTC" then some (0, s.drop 3)
  else
    match s with
    | c :: r =>
      if c = 'z' || c = 'Z' then some (0, r)
      else if c = '+' || c = '-' || c = '−' then do
        let (hours, r) ← twoDigits r
        let (minutes, r) ← twoDigits (r.dropWhile fun c => c = ':' || isBlank c)
        guard (hours < 24 ∧ minutes < 60)
        let seconds : Int := 3600 * hours + 60 * minutes
        return (if c = '+' then seconds else -seconds, r)
      else none
    | [] => none

def dateMark : List Char → Option (List Char)
  | c :: r => if c = 't' || c = 'T' || c = ' ' then some r else none
  | [] => none

/-- The first and the last day of the calendar. -/
def firstDay : Int := daysBefore (-262143)

def lastDay : Int := daysBefore 262143 - 1

def read (s : List Char) : Option Instant := do
  let (year, s) ← year s
  let s ← separator '-' s
  let (month, s) ← field 2 s
  let s ← separator '-' s
  let (day, s) ← field 2 s
  let s ← dateMark s
  let (hour, s) ← field 2 s
  let s ← separator ':' s
  let (minute, s) ← field 2 s
  let s ← separator ':' s
  let (second, s) ← field 2 s
  let (nanos, s) ← fraction s
  let (offset, s) ← offset s
  guard (skipBlanks s).isEmpty
  let date ← (Date.mk year month day).day?
  guard (firstDay ≤ date ∧ date ≤ lastDay ∧ hour < 24 ∧ minute < 60 ∧ second ≤ 60)
  let leap := if second = 60 then 1 else 0
  let wall := 86400 * (date - epochDay) + (3600 * hour + 60 * minute + (second - leap) : Nat)
  let utc := wall - offset
  guard (86400 * (firstDay - epochDay) ≤ utc ∧ utc < 86400 * (lastDay + 1 - epochDay))
  return ⟨utc, nanos + 1000000000 * leap⟩

end InstantText

def Instant.ofText? (s : String) : Option Instant := InstantText.read s.toList

end TokenAuthority.Time
