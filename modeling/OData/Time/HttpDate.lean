import OData.Text.Integer
import OData.Time.Calendar

namespace OData.Time

/-- A date of a header by its parts. The day of the week counts from Sunday. -/
structure HttpDate where
  weekday : Nat
  date : Date
  hour : Nat
  minute : Nat
  second : Nat
deriving DecidableEq, Repr

namespace HttpDate

def shortWeekdays : List String := ["Sun", "Mon", "Tue", "Wed", "Thu", "Fri", "Sat"]

def longWeekdays : List String :=
  ["Sunday", "Monday", "Tuesday", "Wednesday", "Thursday", "Friday", "Saturday"]

def months : List String :=
  ["Jan", "Feb", "Mar", "Apr", "May", "Jun", "Jul", "Aug", "Sep", "Oct", "Nov", "Dec"]

def indexOf? (names : List String) (name : Text) : Option Nat :=
  names.findIdx? fun candidate => candidate.toList == name

def month? (name : Text) : Option Nat := (indexOf? months name).map (· + 1)

def clock? : Text → Option (Nat × Nat × Nat)
  | [h, h', ':', m, m', ':', s, s'] => do
    return (← Text.toNat? [h, h'], ← Text.toNat? [m, m'], ← Text.toNat? [s, s'])
  | _ => none

/-- `Sun, 06 Nov 1994 08:49:37 GMT`. -/
def ofFixed? : Text → Option HttpDate
  | w :: w' :: w'' :: ',' :: ' ' :: d :: d' :: ' ' :: m :: m' :: m'' :: ' ' ::
      y :: y' :: y'' :: y''' :: ' ' :: rest => do
    let weekday ← indexOf? shortWeekdays [w, w', w'']
    let day ← Text.toNat? [d, d']
    let month ← month? [m, m', m'']
    let year ← Text.toNat? [y, y', y'', y''']
    let clock ← Text.dropEnding? " GMT".toList rest
    let (hour, minute, second) ← clock? clock
    return ⟨weekday, ⟨year, month, day⟩, hour, minute, second⟩
  | _ => none

/-- What stands behind the long name of a weekday, and which one it is. -/
def dropLongWeekday? (text : Text) : Option (Nat × Text) :=
  (List.range 7).findSome? fun i =>
    (longWeekdays[i]?).bind fun name =>
      (Text.dropBeginning? (name.toList ++ ", ".toList) text).map fun rest => (i, rest)

/-- `Sunday, 06-Nov-94 08:49:37 GMT`. Years below 70 are those of the 21st century. The character
between year and hour is not looked at. -/
def ofLong? (text : Text) : Option HttpDate := do
  let (weekday, rest) ← dropLongWeekday? text
  match rest with
  | d :: d' :: '-' :: m :: m' :: m'' :: '-' :: y :: y' :: _ :: rest =>
    let day ← Text.toNat? [d, d']
    let month ← month? [m, m', m'']
    let year ← Text.toNat? [y, y']
    let clock ← Text.dropEnding? " GMT".toList rest
    let (hour, minute, second) ← clock? clock
    return ⟨weekday, ⟨if year < 70 then 2000 + year else 1900 + year, month, day⟩,
      hour, minute, second⟩
  | _ => none

/-- `Sun Nov  6 08:49:37 1994`. -/
def ofPlain? : Text → Option HttpDate
  | w :: w' :: w'' :: ' ' :: m :: m' :: m'' :: ' ' :: d :: d' :: ' ' :: rest => do
    let weekday ← indexOf? shortWeekdays [w, w', w'']
    let month ← month? [m, m', m'']
    let day ← Text.toNat? (if d = ' ' then [d'] else [d, d'])
    let (hour, minute, second) ← clock? (rest.take 8)
    match rest.drop 8 with
    | [' ', y, y', y'', y'''] =>
      let year ← Text.toNat? [y, y', y'', y''']
      return ⟨weekday, ⟨year, month, day⟩, hour, minute, second⟩
    | _ => none
  | _ => none

/-- Whether the parts name a real moment: the day of the week and the day of the month are those of
the calendar, and the year is one from 1970 to 9999. -/
def isReal (d : HttpDate) : Bool :=
  d.second < 60 && d.minute < 60 && d.hour < 24 && 1970 ≤ d.date.year && d.date.year ≤ 9999 &&
    1 ≤ d.date.day && d.date.day ≤ daysInMonth d.date.year d.date.month &&
    d.weekday == Time.weekday d.date.toDays

def toEpochSeconds (d : HttpDate) : Int :=
  d.date.toDays * 86400 + (d.hour * 3600 + d.minute * 60 + d.second : Nat)

/-- The moment that a text gives, in seconds since the start of 1970. -/
def parse? (text : Text) : Option Int :=
  match (ofFixed? text).or ((ofLong? text).or (ofPlain? text)) with
  | some date => if date.isReal then some date.toEpochSeconds else none
  | none => none

end HttpDate

end OData.Time
