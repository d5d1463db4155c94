import HamiCloud.Api.Listings
import HamiCloud.Library.Calendar
import HamiCloud.Library.Numerals

/-!
# How dates and identifiers are written

`datetime.isoformat` and `str(uuid.UUID)` of Python, and `datetime.fromisoformat` and `uuid.UUID` as far as they read
those texts: the other forms of ISO 8601, and the braces and the `urn:` of an identifier, are left out. An identifier of
more than 128 bits, which its type does not exclude, has a longer first group.
-/

namespace HamiCloud

open Library

/-! ### Dates -/

def dayMicros : Nat := 86400000000

/-- The days from the beginning of the year 1 to that of 1970. -/
def epochDays : Nat := 719162

def dateText (date : Date) : List Char :=
  numeral 10 4 date.year ++ '-' :: (numeral 10 2 date.month ++ '-' :: numeral 10 2 date.day)

def fractionText (micros : Nat) : List Char := if micros = 0 then [] else '.' :: numeral 10 6 micros

def secondsText (micros : Nat) : List Char :=
  ':' :: (numeral 10 2 (micros / 1000000) ++ fractionText (micros % 1000000))

def minutesText (micros : Nat) : List Char :=
  numeral 10 2 (micros / 3600000000) ++ ':' :: numeral 10 2 (micros / 60000000 % 60)

def timeText (micros : Nat) : List Char := minutesText micros ++ secondsText (micros % 60000000)

def offsetText (offset : Int) : List Char :=
  let micros := offset.natAbs
  (if offset < 0 then '-' else '+') :: (minutesText micros ++
    if micros % 60000000 = 0 then [] else secondsText (micros % 60000000))

def isoformat (dt : DateTime) : String :=
  let moment := (dt.wall + (epochDays * dayMicros : Nat)).toNat
  String.ofList (dateText (Date.ofDays (moment / dayMicros)) ++ 'T' :: (timeText (moment % dayMicros) ++
    dt.offset.elim [] offsetText))

/-- A numeral of a given width, and what follows it. -/
def takeNumeral (width : Nat) (text : List Char) : Option (Nat × List Char) := do
  guard (width ≤ text.length)
  let n ← readNumeral 10 (text.take width)
  pure (n, text.drop width)

def takeChar (c : Char) (text : List Char) : Option (List Char) :=
  if text.head? = some c then some text.tail else none

def takeDate (text : List Char) : Option (Date × List Char) := do
  let (year, text) ← takeNumeral 4 text
  let text ← takeChar '-' text
  let (month, text) ← takeNumeral 2 text
  let text ← takeChar '-' text
  let (day, text) ← takeNumeral 2 text
  guard (⟨year, month, day⟩ : Date).IsValid
  pure (⟨year, month, day⟩, text)

def takeFraction (text : List Char) : Option (Nat × List Char) :=
  if text.head? = some '.' then takeNumeral 6 text.tail else some (0, text)

def takeSeconds (text : List Char) : Option (Nat × List Char) :=
  if text.head? = some ':' then do
    let (second, text) ← takeNumeral 2 text.tail
    guard (second < 60)
    let (fraction, text) ← takeFraction text
    pure (second * 1000000 + fraction, text)
  else some (0, text)

def takeTime (text : List Char) : Option (Nat × List Char) := do
  let (hour, text) ← takeNumeral 2 text
  let text ← takeChar ':' text
  let (minute, text) ← takeNumeral 2 text
  guard (hour < 24 ∧ minute < 60)
  let (rest, text) ← takeSeconds text
  pure (hour * 3600000000 + minute * 60000000 + rest, text)

def readOffset : List Char → Option (Option Int)
  | [] => some none
  | sign :: text => do
    guard (sign = '+' ∨ sign = '-')
    let (micros, text) ← takeTime text
    guard (text = [])
    pure (some (if sign = '-' then -micros else micros))

def fromisoformat (text : String) : Option DateTime := do
  let (date, text) ← takeDate text.toList
  let text ← takeChar 'T' text
  let (time, text) ← takeTime text
  let offset ← readOffset text
  pure ⟨(date.toDays * dayMicros + time : Nat) - (epochDays * dayMicros : Nat), offset⟩

/-! ### Identifiers -/

def uuidText (id : Uuid) : String :=
  let width := max 8 (Nat.log 16 (id / 16 ^ 24) + 1)
  String.ofList (numeral 16 width (id / 16 ^ 24) ++ '-' :: (numeral 16 4 (id / 16 ^ 20) ++
    '-' :: (numeral 16 4 (id / 16 ^ 16) ++ '-' :: (numeral 16 4 (id / 16 ^ 12) ++ '-' :: numeral 16 12 id))))

def parseUuid (text : String) : Option Uuid :=
  let digits := text.toList.filter (· ≠ '-')
  if 32 ≤ digits.length then readNumeral 16 digits else none

end HamiCloud
