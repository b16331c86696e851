namespace CredentialIssuance

namespace Calendar

def isLeap (year : Int) : Bool := year % 4 = 0 && (year % 100 ≠ 0 || year % 400 = 0)

def daysIn (year : Int) (month : Nat) : Nat :=
  if month = 2 then (if isLeap year then 29 else 28)
  else if month = 4 ∨ month = 6 ∨ month = 9 ∨ month = 11 then 30
  else 31

-- A date between the years -262143 and 262142.
def IsDate (year : Int) (month day : Nat) : Prop :=
  -262143 ≤ year ∧ year ≤ 262142 ∧ 1 ≤ month ∧ month ≤ 12 ∧ 1 ≤ day ∧ day ≤ daysIn year month

instance (year : Int) (month day : Nat) : Decidable (IsDate year month day) :=
  inferInstanceAs (Decidable (_ ∧ _))

-- Any minute may have a leap second.
def IsTime (hour minute second nano : Nat) : Prop :=
  hour < 24 ∧ minute < 60 ∧ second ≤ 60 ∧ nano < Nat.pow 10 9

instance (hour minute second nano : Nat) : Decidable (IsTime hour minute second nano) :=
  inferInstanceAs (Decidable (_ ∧ _))

def nextDay (year : Int) (month day : Nat) : Int × Nat × Nat :=
  if day < daysIn year month then (year, month, day + 1)
  else if month < 12 then (year, month + 1, 1)
  else (year + 1, 1, 1)

def previousDay (year : Int) (month day : Nat) : Int × Nat × Nat :=
  if 1 < day then (year, month, day - 1)
  else if 1 < month then (year, month - 1, daysIn year (month - 1))
  else (year - 1, 12, 31)

end Calendar

-- A point in time, in coordinated universal time to the nanosecond.
structure Timestamp where
  year : Int
  month : Nat
  day : Nat
  hour : Nat
  minute : Nat
  second : Nat
  nano : Nat
  isDate : Calendar.IsDate year month day
  isTime : Calendar.IsTime hour minute second nano
  deriving DecidableEq

namespace Timestamp

-- At least `width` digits.
def padded (width n : Nat) : List Char :=
  let digits := Nat.toDigits 10 n
  List.replicate (width - digits.length) '0' ++ digits

-- Years of four digits stand alone, all others have a sign.
def yearChars (year : Int) : List Char :=
  if 0 ≤ year ∧ year ≤ 9999 then padded 4 year.toNat
  else (if year < 0 then '-' else '+') :: padded 4 year.natAbs

-- Nothing, or a fraction of three, six or nine digits.
def fractionChars (nano : Nat) : List Char :=
  if nano = 0 then []
  else if nano % 1000000 = 0 then '.' :: padded 3 (nano / 1000000)
  else if nano % 1000 = 0 then '.' :: padded 6 (nano / 1000)
  else '.' :: padded 9 nano

def chars (t : Timestamp) : List Char :=
  yearChars t.year ++ '-' :: (padded 2 t.month ++ '-' :: (padded 2 t.day ++ 'T' ::
    (padded 2 t.hour ++ ':' :: (padded 2 t.minute ++ ':' :: (padded 2 t.second ++
      (fractionChars t.nano ++ ['Z']))))))

def text (t : Timestamp) : String := String.ofList t.chars

-- White space of any script.
def blank (c : Char) : Bool :=
  let n := c.toNat
  (9 ≤ n && n ≤ 13) || n = 0x20 || n = 0x85 || n = 0xa0 || n = 0x1680 ||
    (0x2000 ≤ n && n ≤ 0x200a) || n = 0x2028 || n = 0x2029 || n = 0x202f || n = 0x205f || n = 0x3000

def skip (cs : List Char) : List Char := cs.dropWhile blank

def natural (digits : List Char) : Nat :=
  digits.foldl (fun total c => total * 10 + (c.toNat - 48)) 0

-- A number of one to `width` digits.
def number? (width : Nat) (cs : List Char) : Option (Nat × List Char) :=
  match (cs.take width).takeWhile Char.isDigit with
  | [] => none
  | digits => some (natural digits, cs.drop digits.length)

-- A year has up to four digits, or a sign and any number of them.
def year? (cs : List Char) : Option (Int × List Char) :=
  match skip cs with
  | '-' :: cs => (number? cs.length cs).map fun (n, rest) => (-(n : Int), rest)
  | '+' :: cs => (number? cs.length cs).map fun (n, rest) => ((n : Int), rest)
  | cs => (number? 4 cs).map fun (n, rest) => ((n : Int), rest)

def field? (cs : List Char) : Option (Nat × List Char) := number? 2 (skip cs)

-- The next field, set off by a mark that may have space around it.
def markedField? (mark : Char) (cs : List Char) : Option (Nat × List Char) :=
  match skip cs with
  | c :: rest => if c = mark then field? rest else none
  | [] => none

def separator? : List Char → Option (List Char)
  | 'T' :: rest | 't' :: rest | ' ' :: rest => some rest
  | _ => none

-- Digits beyond the ninth are dropped.
def fraction? : List Char → Option (Nat × List Char)
  | '.' :: cs =>
    match cs.takeWhile Char.isDigit with
    | [] => none
    | digits =>
      let kept := digits.take 9
      some (natural kept * Nat.pow 10 (9 - kept.length), cs.drop digits.length)
  | cs => some (0, cs)

def twoDigits? : List Char → Option (Nat × List Char)
  | a :: b :: rest =>
    if a.isDigit ∧ b.isDigit then some (natural [a, b], rest) else none
  | _ => none

-- The offset of a zone from the universal one, in minutes.
def offset? (cs : List Char) : Option (Int × List Char) :=
  match cs with
  | 'Z' :: rest | 'z' :: rest => some (0, rest)
  | u :: t :: c :: rest =>
    if u.toUpper = 'U' ∧ t.toUpper = 'T' ∧ c.toUpper = 'C' then some (0, rest)
    else do
      let sign : Int ← if u = '+' then some 1 else if u = '-' ∨ u = '\u2212' then some (-1) else none
      let (hours, rest) ← twoDigits? (t :: c :: rest)
      let (minutes, rest) ← twoDigits? (rest.dropWhile fun c => c = ':' || blank c)
      if minutes < 60 ∧ hours < 24 then some (sign * (hours * 60 + minutes), rest) else none
  | _ => none

-- The timestamp of a date and time of day in the zone with that offset.
def ofZone? (date : Int × Nat × Nat) (hour minute second nano : Nat) (offset : Int) :
    Option Timestamp :=
  if Calendar.IsDate date.1 date.2.1 date.2.2 ∧ Calendar.IsTime hour minute second nano then
    let minutes : Int := (hour * 60 + minute : Nat) - offset
    let (year, month, day) :=
      if minutes < 0 then Calendar.previousDay date.1 date.2.1 date.2.2
      else if 1440 ≤ minutes then Calendar.nextDay date.1 date.2.1 date.2.2
      else date
    let minutes := (minutes % 1440).toNat
    if isDate : Calendar.IsDate year month day then
      if isTime : Calendar.IsTime (minutes / 60) (minutes % 60) second nano then
        some ⟨year, month, day, minutes / 60, minutes % 60, second, nano, isDate, isTime⟩
      else none
    else none
  else none

def ofChars? (cs : List Char) : Option Timestamp := do
  let (year, cs) ← year? cs
  let (month, cs) ← markedField? '-' cs
  let (day, cs) ← markedField? '-' cs
  let cs ← separator? cs
  let (hour, cs) ← field? cs
  let (minute, cs) ← markedField? ':' cs
  let (second, cs) ← markedField? ':' cs
  let (nano, cs) ← fraction? cs
  let (offset, cs) ← offset? (skip cs)
  if skip cs = [] then ofZone? (year, month, day) hour minute second nano offset else none

def ofText? (text : String) : Option Timestamp := ofChars? text.toList

end Timestamp

end CredentialIssuance
