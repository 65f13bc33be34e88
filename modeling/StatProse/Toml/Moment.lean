import StatProse.Number.Literal
import StatProse.Text.Reader

/-!
# Moments

A moment is a date, a time of day or both, written as `1979-05-27T07:32:00.5Z`. Only a date
with a time has an offset. Days that no calendar has and times that no clock shows are not
moments.
-/

namespace StatProse.Toml

def isLeapYear (year : Nat) : Bool := year % 4 = 0 && (year % 100 ≠ 0 || year % 400 = 0)

def monthLength (year month : Nat) : Nat :=
  if month = 2 then (if isLeapYear year then 29 else 28)
  else if month = 4 ∨ month = 6 ∨ month = 9 ∨ month = 11 then 30
  else 31

structure Date where
  year : Nat
  month : Nat
  day : Nat
  inYear : 1 ≤ month ∧ month ≤ 12
  inMonth : 1 ≤ day ∧ day ≤ monthLength year month
deriving DecidableEq

structure TimeOfDay where
  hour : Nat
  minute : Nat
  second : Nat
  nanosecond : Nat
  inDay : hour < 24
  inHour : minute < 60
  /-- The second after the last of a minute is a leap second. -/
  inMinute : second ≤ 60
deriving DecidableEq

inductive Offset where
  | universal
  | minutes (n : Int)
deriving DecidableEq

inductive Moment where
  | date (d : Date)
  | time (t : TimeOfDay)
  | dateTime (d : Date) (t : TimeOfDay) (offset : Option Offset)
deriving DecidableEq

namespace Moment

def readMark (mark : Char) : Reader Unit
  | [] => none
  | c :: cs => if c = mark then some ((), cs) else none

def readDigits (count : Nat) : Reader Nat := fun cs =>
  let digits := cs.take count
  if digits.length = count && digits.all Char.isDigit then
    some (digitsValue digits, cs.drop count)
  else none

def readDate : Reader Date := fun cs => do
  let (year, cs) ← readDigits 4 cs
  let ((), cs) ← readMark '-' cs
  let (month, cs) ← readDigits 2 cs
  let ((), cs) ← readMark '-' cs
  let (day, cs) ← readDigits 2 cs
  if h : (1 ≤ month ∧ month ≤ 12) ∧ 1 ≤ day ∧ day ≤ monthLength year month then
    return (⟨year, month, day, h.1, h.2⟩, cs)
  else none

def readClock : Reader (Nat × Nat) := fun cs => do
  let (hour, cs) ← readDigits 2 cs
  let ((), cs) ← readMark ':' cs
  let (minute, cs) ← readDigits 2 cs
  return ((hour, minute), cs)

/-- Digits after a point as nanoseconds; those past the ninth are dropped. -/
def nanoseconds (fraction : List Char) : Nat :=
  digitsValue ((fraction ++ List.replicate 9 '0').take 9)

def readTime : Reader TimeOfDay := fun cs => do
  let ((hour, minute), cs) ← readClock cs
  let ((), cs) ← readMark ':' cs
  let (second, cs) ← readDigits 2 cs
  let (fraction, cs) ← Literal.readFraction cs
  if h : hour < 24 ∧ minute < 60 ∧ second ≤ 60 then
    return (⟨hour, minute, second, nanoseconds fraction, h.1, h.2.1, h.2.2⟩, cs)
  else none

def readShift (sign : Int) : Reader (Option Offset) := fun cs => do
  let ((hours, minutes), cs) ← readClock cs
  if hours < 24 ∧ minutes < 60 then
    return (some (.minutes (sign * (hours * 60 + minutes : Nat))), cs)
  else none

def readOffset : Reader (Option Offset)
  | 'Z' :: cs | 'z' :: cs => some (some .universal, cs)
  | '+' :: cs => readShift 1 cs
  | '-' :: cs => readShift (-1) cs
  | cs => some (none, cs)

/-- What stands after a date: a mark, a time and maybe an offset. -/
def readTimeOfDate : Reader (TimeOfDay × Option Offset)
  | [] => none
  | c :: cs =>
    if c = 'T' ∨ c = 't' ∨ c = ' ' then do
      let (t, cs) ← readTime cs
      let (offset, cs) ← readOffset cs
      return ((t, offset), cs)
    else none

def read : Reader Moment := fun cs =>
  match readDate cs with
  | none => (readTime cs).map (fun (t, cs) => (.time t, cs))
  | some (d, cs) =>
    match readTimeOfDate cs with
    -- a blank after a date may stand before something else
    | none => some (.date d, cs)
    | some ((t, offset), cs) => some (.dateTime d t offset, cs)

end Moment

end StatProse.Toml
