import OData.Text
import OData.Time.Calendar

namespace OData.Time

/-- An instant, in milliseconds since the start of 1970. -/
structure Instant where
  millis : Int
deriving DecidableEq, Repr

/-- Four digits for the years 0 to 9999; any other year has a sign and at least four digits. -/
def yearText (year : Int) : Text :=
  if 0 ≤ year ∧ year ≤ 9999 then Text.padded 4 year.toNat
  else (if year < 0 then '-' else '+') :: Text.padded 4 year.natAbs

/-- The instant to the millisecond. -/
def Instant.text (instant : Instant) : Text :=
  let date := Date.ofDays (instant.millis.fdiv 86400000)
  let inDay := (instant.millis.fmod 86400000).toNat
  yearText date.year ++ '-' :: Text.padded 2 date.month ++ '-' :: Text.padded 2 date.day ++
    'T' :: Text.padded 2 (inDay / 3600000) ++ ':' :: Text.padded 2 (inDay / 60000 % 60) ++
    ':' :: Text.padded 2 (inDay / 1000 % 60) ++ '.' :: Text.padded 3 (inDay % 1000) ++ ['Z']

end OData.Time
