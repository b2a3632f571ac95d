/-!
Texts that are points in time, in the format of RFC 3339 as RFC 4287 narrows it: a date, the
letter `T`, the time of the day to fractions of a second, and the difference to UTC, which may be
the letter `Z`.
-/

namespace JsonPath.Timestamp

/-- The number that digits stand for. -/
def digits? (cs : List Char) : Option Nat :=
  if cs.all Char.isDigit then some (cs.foldl (fun n c => 10 * n + (c.toNat - 48)) 0) else none

def isLeapYear (year : Nat) : Bool := year % 4 = 0 && (year % 100 ≠ 0 || year % 400 = 0)

/-- The number of days of a month, from 1 to 12. -/
def monthLength (year month : Nat) : Nat :=
  if month = 2 then (if isLeapYear year then 29 else 28)
  else if [4, 6, 9, 11].contains month then 30
  else 31

/-- The month and the day of a date. -/
def date? : List Char → Option (Nat × Nat)
  | [a, b, c, d, '-', e, f, '-', g, h] => do
    let year ← digits? [a, b, c, d]
    let month ← digits? [e, f]
    let day ← digits? [g, h]
    if 1 ≤ month ∧ month ≤ 12 ∧ 1 ≤ day ∧ day ≤ monthLength year month then
      return (month, day)
    else none
  | _ => none

/-- Hours and minutes, in minutes. -/
def minutes? : List Char → Option Nat
  | [a, b, ':', c, d] => do
    let hour ← digits? [a, b]
    let minute ← digits? [c, d]
    if hour < 24 ∧ minute < 60 then return 60 * hour + minute else none
  | _ => none

/-- The minutes since midnight and the seconds after them. -/
def time? : List Char → Option (Nat × Nat)
  | [a, b, c, d, e, ':', f, g] => return (← minutes? [a, b, c, d, e], ← digits? [f, g])
  | _ => none

/-- What follows the fraction of a second, which may be left out. -/
def afterFraction? : List Char → Option (List Char)
  | '.' :: cs => if (cs.head?.any Char.isDigit) then some (cs.dropWhile Char.isDigit) else none
  | cs => some cs

/-- The minutes ahead of UTC. -/
def offset? : List Char → Option Int
  | ['Z'] => some 0
  | '+' :: cs => (minutes? cs).map fun n => n
  | '-' :: cs => (minutes? cs).map fun n => -n
  | _ => none

/-- The minute, told by the date and by its distance from midnight in UTC, is the last one of June
or of December, which may be a second longer. -/
def mayLeap (date : Nat × Nat) (minutes : Int) : Bool :=
  [((6, 30), 1439), ((12, 31), 1439), ((6, 29), 2879), ((12, 30), 2879), ((7, 1), -1),
    ((1, 1), -1)].contains (date, minutes)

/-- The text is a point in time. -/
def isTimestamp (s : String) : Bool :=
  let cs := s.toList
  match date? (cs.take 10), cs[10]?, time? ((cs.drop 11).take 8),
    (afterFraction? (cs.drop 19)).bind offset? with
  | some date, some 'T', some (minutes, second), some offset =>
    second < 60 || second = 60 && mayLeap date (minutes - offset)
  | _, _, _, _ => false

example : isTimestamp "1990-12-31T15:59:60.5-08:00" = true := by decide

example : isTimestamp "1990-02-29T15:59:59Z" = false := by decide

end JsonPath.Timestamp
