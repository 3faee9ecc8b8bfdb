import AccessTokens.Text.Blank
import AccessTokens.Text.Decimal
import AccessTokens.Text.Reader
import AccessTokens.Time.Calendar
import AccessTokens.Time.Instant

/-!
# Timestamps

The text of an instant is its date and its time of day in UTC with a zone after them,
`2020-01-02T03:04:05.678Z`. Years from 0 to 9999 have four digits; other years have a sign and at least
four digits. The fraction of a second has no, three, six or nine digits, the fewest that are exact, and
a leap second is the second 60.

There are two readers. `readStrict?` takes the fixed form of rows in a database: fields of fixed width
and nothing around them. `readLenient?` takes what people write: blanks between the parts, fields with
fewer digits, signed years, and several spellings of the zone. Both fill in a `Reading`, and
`Reading.instant?` alone decides which readings name an instant. Zones are ahead of UTC by whole minutes,
so the leap seconds that can be read prolong the last second of a minute. A leap second within a minute is
written like the second after it, and is that second when it is read again.
-/

namespace AccessTokens.Time

open Text (Reader)

/-! ### Writing -/

/-- Years from 0 to 9999 have four digits; other years have a sign and at least four digits. -/
def yearText (year : Int) : List Char :=
  if 0 ≤ year ∧ year ≤ 9999 then Decimal.fixed 4 year.toNat
  else
    let digits := Decimal.ofNat year.natAbs
    (if year < 0 then '-' else '+') :: (List.replicate (4 - digits.length) '0' ++ digits)

/-- The fraction of a second has no, three, six or nine digits, the fewest that are exact. -/
def fractionText (nanos : Nat) : List Char :=
  if nanos = 0 then []
  else if nanos % 1000000 = 0 then '.' :: Decimal.fixed 3 (nanos / 1000000)
  else if nanos % 1000 = 0 then '.' :: Decimal.fixed 6 (nanos / 1000)
  else '.' :: Decimal.fixed 9 nanos

/-- A date with its parts joined by `-`. -/
def dateText (d : Date) : List Char :=
  yearText d.year ++ '-' :: Decimal.fixed 2 d.month ++ '-' :: Decimal.fixed 2 d.day

/-- A time of day with its parts joined by `:`. Nanoseconds beyond a second make a leap second. -/
def clockText (secondOfDay nanos : Nat) : List Char :=
  Decimal.fixed 2 (secondOfDay / 3600) ++ ':' :: Decimal.fixed 2 (secondOfDay / 60 % 60) ++
    ':' :: Decimal.fixed 2 (secondOfDay % 60 + nanos / nanosPerSecond) ++
    fractionText (nanos % nanosPerSecond)

/-- The text of an instant before its zone. -/
def Instant.text (t : Instant) : List Char :=
  dateText (Date.ofDayNumber (t.seconds / 86400)) ++
    'T' :: clockText (t.seconds % 86400).toNat t.nanos

/-- The text of an instant with the zone `Z`. -/
def Instant.zulu (t : Instant) : String := String.ofList (t.text ++ ['Z'])

/-- The text of an instant with the zone `+00:00`. -/
def Instant.offsetText (t : Instant) : String := String.ofList (t.text ++ "+00:00".toList)

/-- The year of an instant, in UTC. -/
def Instant.year (t : Instant) : Int := (Date.ofDayNumber (t.seconds / 86400)).year

/-! ### Readings -/

/-- A date, a time of day and a zone as they are read, not yet checked. -/
structure Reading where
  year : Int
  month : Nat
  day : Nat
  hour : Nat
  minute : Nat
  second : Nat
  nanos : Nat
  /-- The minutes by which the zone is ahead of UTC. -/
  offset : Int
  deriving DecidableEq

/-- A reading names an instant when its date is in the calendar and its year in range, its time of day
and its offset are below a day, its fraction is below a second, and the instant is in range. The second 60
is a leap second. -/
def Reading.instant? (r : Reading) : Option Instant :=
  let date : Date := ⟨r.year, r.month, r.day⟩
  if date.Valid ∧ (-262143 ≤ r.year ∧ r.year ≤ 262142) ∧ r.hour < 24 ∧ r.minute < 60 ∧
      r.second ≤ 60 ∧ r.nanos < nanosPerSecond ∧ r.offset.natAbs < 1440 then
    Instant.ofParts?
      (date.dayNumber * 86400 + (r.hour * 3600 + r.minute * 60 + min r.second 59 : Nat) - r.offset * 60)
      (r.nanos + if r.second = 60 then nanosPerSecond else 0)
  else
    none

/-! ### Reading -/

/-- A field of one up to `most` digits, or of exactly `most` if `exact` is set. -/
def readField (exact : Bool) (most : Nat) : Reader Nat := do
  let ds ← Reader.digits (if exact then most else 1) most
  return Decimal.value ds

/-- The nanoseconds of a fraction, of whose digits the first nine count, with zeros for missing ones. -/
def nanosOfFraction (ds : List Char) : Nat :=
  Decimal.value ((ds ++ List.replicate 9 '0').take 9)

/-- A fraction is a point and one or more digits; without a point there is none. -/
def readFraction : Reader Nat := do
  if (← Reader.peek) = some '.' then
    Reader.char '.'
    let ds ← Reader.run Char.isDigit
    if ds = [] then Reader.refuse else return nanosOfFraction ds
  else
    return 0

/-- The letter `Z` of either case, or a sign and the hours and minutes of an offset. The minus sign
may be a hyphen or U+2212. -/
def readZone (separator : Reader Unit) : Reader Int := do
  let mark ← Reader.satisfying fun c => ['Z', 'z', '+', '-', '\u2212'].contains c
  if mark = 'Z' ∨ mark = 'z' then
    return 0
  let hours ← readField true 2
  separator
  let minutes ← readField true 2
  if minutes < 60 then
    let ahead : Int := (hours * 60 + minutes : Nat)
    return if mark = '+' then ahead else -ahead
  else
    Reader.refuse

/-- The fixed form: a year of four digits, fields of two digits, `T`, `t` or a space before the time
of day. -/
def strictReading : Reader Reading := do
  let year ← readField true 4
  Reader.char '-'
  let month ← readField true 2
  Reader.char '-'
  let day ← readField true 2
  let _ ← Reader.satisfying fun c => ['T', 't', ' '].contains c
  let hour ← readField true 2
  Reader.char ':'
  let minute ← readField true 2
  Reader.char ':'
  let second ← readField true 2
  let nanos ← readFraction
  let offset ← readZone (Reader.char ':')
  return { year, month, day, hour, minute, second, nanos, offset }

/-- Reads the fixed form to its end. -/
def readStrict? (s : String) : Option Instant := do
  (← strictReading.whole? s.toList).instant?

/-- Takes blanks. -/
def skipBlanks : Reader Unit := fun cs => some ((), Text.trimStart cs)

/-- A separator with blanks before it. -/
def looseChar (c : Char) : Reader Unit := do
  skipBlanks
  Reader.char c

/-- A number of at most two digits with blanks before it. -/
def looseField : Reader Nat := do
  skipBlanks
  readField false 2

/-- A year with blanks before it: up to four digits, or a sign and any number of digits. -/
def looseYear : Reader Int := do
  skipBlanks
  let next ← Reader.peek
  if next = some '-' ∨ next = some '+' then
    let mark ← Reader.satisfying fun _ => true
    let ds ← Reader.run Char.isDigit
    if ds = [] then Reader.refuse
    else return if mark = '-' then -(Decimal.value ds : Int) else Decimal.value ds
  else
    return (← readField false 4 : Nat)

/-- A zone with blanks before it: `UTC` in letters of any case, or as in the fixed form with any
colons and blanks between the hours and the minutes. -/
def looseZone : Reader Int := do
  skipBlanks
  let cs ← get
  if (cs.take 3).map Char.toUpper = ['U', 'T', 'C'] then
    set (cs.drop 3)
    return 0
  else
    readZone do
      let _ ← Reader.run fun c => c = ':' || Text.isBlank c

/-- The loose form: as the fixed form, with blanks between the parts, fewer digits and signed years. -/
def lenientReading : Reader Reading := do
  let year ← looseYear
  looseChar '-'
  let month ← looseField
  looseChar '-'
  let day ← looseField
  let _ ← Reader.satisfying fun c => ['T', 't', ' '].contains c
  let hour ← looseField
  looseChar ':'
  let minute ← looseField
  looseChar ':'
  let second ← looseField
  let nanos ← readFraction
  let offset ← looseZone
  skipBlanks
  return { year, month, day, hour, minute, second, nanos, offset }

/-- Reads the loose form to its end. -/
def readLenient? (s : String) : Option Instant := do
  (← lenientReading.whole? s.toList).instant?

end AccessTokens.Time
