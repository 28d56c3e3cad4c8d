/-!
Points in time and how they are shown: date and time of day of the Gregorian calendar in UTC, with as many
decimals of a second as are needed.
-/
namespace StepTrace

/-- Nanoseconds since the start of 1970. -/
structure Moment where
  nanoseconds : Nat
deriving DecidableEq, Repr, Inhabited

structure Date where
  year : Nat
  month : Nat
  day : Nat
deriving DecidableEq, Repr, Inhabited

/-- The date after a number of days since the start of 1970. Years are counted from March, in cycles of
400, so that the day that some years add is the last one of its year. -/
def Date.ofDays (days : Nat) : Date :=
  let days := days + 719468
  let cycle := days / 146097
  let inCycle := days % 146097
  let year := (inCycle - inCycle / 1460 + inCycle / 36524 - inCycle / 146096) / 365
  let inYear := inCycle - (365 * year + year / 4 - year / 100)
  let month := (5 * inYear + 2) / 153
  let day := inYear - (153 * month + 2) / 5 + 1
  let year := year + 400 * cycle
  if month < 10 then ⟨year, month + 3, day⟩ else ⟨year + 1, month - 9, day⟩

namespace Moment

def perSecond : Nat := 1000000000

def milliseconds (m : Moment) : UInt64 := .ofNat (m.nanoseconds / 1000000)

/-- The digits of a number, with zeros before them up to a width. -/
def digits (width n : Nat) : List Char :=
  let ds := (toString n).toList
  List.replicate (width - ds.length) '0' ++ ds

/-- The decimals of the second, without zeros at the end. -/
def fraction (m : Moment) : List Char :=
  let ds := (digits 9 (m.nanoseconds % perSecond)).reverse.dropWhile (· == '0')
  if ds.isEmpty then [] else '.' :: ds.reverse

def text (m : Moment) : String :=
  let seconds := m.nanoseconds / perSecond
  let date := Date.ofDays (seconds / 86400)
  let time := seconds % 86400
  String.ofList <| digits 4 date.year ++ '-' :: digits 2 date.month ++ '-' :: digits 2 date.day
    ++ 'T' :: digits 2 (time / 3600) ++ ':' :: digits 2 (time / 60 % 60)
    ++ ':' :: digits 2 (time % 60) ++ m.fraction ++ ['Z']

end Moment
end StepTrace
