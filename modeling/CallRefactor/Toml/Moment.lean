import CallRefactor.Toml.Number

/-!
# Dates and times of a TOML document

A date, a time, or both with a `T` or a space between them, in which case an offset may follow. All
fields have a fixed width. A date has to exist in the calendar and a time on the clock, where the
second sixty counts as one. Moments are kept as they are written.
-/

namespace CallRefactor.Toml

/-- Reads a number of exactly `count` digits between two bounds. -/
def field (count low high : Nat) : Reader (List Char) := do
  let digits ← Reader.takeExactly count isDecimal
  let value := digitsValue 10 digits
  if low ≤ value ∧ value ≤ high then return digits else failure

/-- The number of days of a month. -/
def daysOfMonth (year month : Nat) : Nat :=
  if month = 2 then
    if year % 4 = 0 ∧ (year % 100 ≠ 0 ∨ year % 400 = 0) then 29 else 28
  else if month ∈ [4, 6, 9, 11] then 30 else 31

/-- Reads a date. -/
def date : Reader (List Char) := do
  let year ← field 4 0 9999
  Reader.exactly ['-']
  let month ← field 2 1 12
  Reader.exactly ['-']
  let day ← field 2 1 (daysOfMonth (digitsValue 10 year) (digitsValue 10 month))
  return year ++ '-' :: month ++ '-' :: day

/-- Reads a time of day. -/
def time : Reader (List Char) := do
  let hour ← field 2 0 23
  Reader.exactly [':']
  let minute ← field 2 0 59
  Reader.exactly [':']
  let second ← field 2 0 60
  let part ← Reader.optional do
    Reader.exactly ['.']
    Reader.takeSome isDecimal
  let tail := match part with
    | some digits => '.' :: digits
    | none => []
  return hour ++ ':' :: minute ++ ':' :: second ++ tail

/-- Reads the offset of a time from universal time. -/
def offset : Reader (List Char) :=
  (do Reader.exactly ['Z'] <|> Reader.exactly ['z']; return ['Z']) <|> do
    let sign ← sign
    if sign.isEmpty then failure
    let hour ← field 2 0 23
    Reader.exactly [':']
    let minute ← field 2 0 59
    return sign ++ hour ++ ':' :: minute

/-- Reads what separates a date from a time. -/
def dateMark : Reader Unit :=
  Reader.exactly ['T'] <|> Reader.exactly ['t'] <|> Reader.exactly [' ']

/-- Reads a date with or without a time, or a time. -/
def moment : Reader String := do
  let cs ←
    (do
      let date ← date
      let rest ← Reader.optional do
        dateMark
        let time ← time
        return 'T' :: time ++ (← Reader.optional offset).getD []
      return date ++ rest.getD [])
    <|> time
  return String.ofList cs

end CallRefactor.Toml
