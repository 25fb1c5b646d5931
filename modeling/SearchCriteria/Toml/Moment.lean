import SearchCriteria.Toml.Reading

/-!
# Dates and times

A moment is a date, a time of day, or both with or without the distance from
universal time. Days exist in the Gregorian calendar; a minute may have a leap second.
-/

namespace SearchCriteria.Toml

/-- A day. -/
structure Date where
  year : Nat
  month : Nat
  day : Nat

/-- A time of day, with the digits behind its seconds. -/
structure Time where
  hour : Nat
  minute : Nat
  second : Nat
  fraction : List Char

/-- A date, a time of day, or both; the distance is in minutes. -/
structure Moment where
  date : Option Date
  time : Option Time
  distance : Option Int

/-- So many digits, as a number between the bounds. -/
def readDigits (count low high : Nat) : Reading Nat := fun text =>
  let digits := text.take count
  let number := Nat.ofDigitChars 10 digits 0
  if digits.length = count ∧ digits.all Char.isDigit ∧ low ≤ number ∧ number ≤ high then
    some (number, text.drop count)
  else none

/-- The given character. -/
def readMark (mark : Char) : Reading Unit
  | c :: rest => if c = mark then some ((), rest) else none
  | [] => none

/-- The number of days in a month. -/
def daysInMonth (year month : Nat) : Nat :=
  if month = 2 then
    if year % 4 = 0 ∧ (year % 100 ≠ 0 ∨ year % 400 = 0) then 29 else 28
  else if month = 4 ∨ month = 6 ∨ month = 9 ∨ month = 11 then 30
  else 31

/-- A date: year, month and day with hyphens between them. -/
def readDate : Reading Date := fun text => do
  let (year, text) ← readDigits 4 0 9999 text
  let ((), text) ← readMark '-' text
  let (month, text) ← readDigits 2 1 12 text
  let ((), text) ← readMark '-' text
  let (day, text) ← readDigits 2 1 (daysInMonth year month) text
  some (⟨year, month, day⟩, text)

/-- The digits behind a point. -/
def readFraction : Reading (List Char)
  | '.' :: rest =>
    let digits := rest.takeWhile Char.isDigit
    if digits.isEmpty then none else some (digits, rest.dropWhile Char.isDigit)
  | text => some ([], text)

/-- A time of day: hour, minute and second with colons between them. -/
def readTime : Reading Time := fun text => do
  let (hour, text) ← readDigits 2 0 23 text
  let ((), text) ← readMark ':' text
  let (minute, text) ← readDigits 2 0 59 text
  let ((), text) ← readMark ':' text
  let (second, text) ← readDigits 2 0 60 text
  let (fraction, text) ← readFraction text
  some (⟨hour, minute, second, fraction⟩, text)

/-- The distance from universal time, in hours and minutes. -/
def readDistance : Reading Int
  | 'Z' :: rest | 'z' :: rest => some (0, rest)
  | sign :: text => do
    if sign ≠ '+' ∧ sign ≠ '-' then none
    let (hour, text) ← readDigits 2 0 23 text
    let ((), text) ← readMark ':' text
    let (minute, text) ← readDigits 2 0 59 text
    let minutes : Int := 60 * hour + minute
    some (if sign = '-' then -minutes else minutes, text)
  | [] => none

/-- The moment whose date is known, at the time of a word. -/
def timeOn? (date : Date) (word : List Char) : Option Moment := do
  let (time, rest) ← readTime word
  if rest.isEmpty then return ⟨some date, some time, none⟩
  let (distance, rest) ← readDistance rest
  if rest.isEmpty then return ⟨some date, some time, some distance⟩
  none

/-- The moment of a word: a date, a time, or both with a letter `T` between them. -/
def moment? (word : List Char) : Option Moment :=
  match readDate word with
  | some (date, []) => some ⟨some date, none, none⟩
  | some (date, mark :: rest) => if mark = 'T' ∨ mark = 't' then timeOn? date rest else none
  | none =>
    match readTime word with
    | some (time, []) => some ⟨none, some time, none⟩
    | _ => none

end SearchCriteria.Toml
