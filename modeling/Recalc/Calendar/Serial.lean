import Recalc.Calendar.Date
import Recalc.Number.Binary64

/-!
# Date serials

Days of the 1900 date system: serial 1 is the first of January 1900, and serial 60 is a 29th of
February 1900 that the calendar does not have and that stands for the day before it. A time of day
is the fraction of a serial.
-/

namespace Recalc

/-- The largest serial, that of the last of December 9999. -/
def maxSerial : Int := 2958465

/-- The serial of the day that the calendar lacks. -/
def missingDaySerial : Int := 60

namespace Date

/-- The day number of serial zero, the last of December 1899. -/
def serialOrigin : Int := 693594

/-- The serial of a date, counting the missing day from the first of March 1900 on. -/
def serial (d : Date) : Int :=
  let days := d.dayNumber - serialOrigin
  if days < missingDaySerial then days else days + 1

/-- The date of a whole serial from zero to `maxSerial`. -/
def ofSerial? (s : Int) : Option Date :=
  if s < 0 ∨ maxSerial < s then none
  else if s < missingDaySerial then ofDayNumber? (serialOrigin + s)
  else ofDayNumber? (serialOrigin + s - 1)

/-- The date of a serial whose fraction is a time of day. -/
def ofSerialNumber? (x : Float) : Option Date :=
  match Number.dyadic? x with
  | some d => if d.negative ∧ d.mantissa ≠ 0 then none else ofSerial? d.magnitudeDown
  | none => none

def serialNumber (d : Date) : Float :=
  Float.ofInt d.serial

end Date

/-- A date with a second of its day. -/
structure DateTime where
  date : Date
  second : Nat
deriving DecidableEq, Repr

namespace DateTime

def secondsPerDay : Nat := 86400

/-- The date and the nearest second of a serial. A time that rounds up to midnight becomes the start
of the same date. -/
def ofSerialNumber? (x : Float) : Option DateTime :=
  (Date.ofSerialNumber? x).map fun date =>
    let seconds := Number.toInt64 (Number.round (Number.fraction x * 86400.0))
    ⟨date, (seconds % secondsPerDay).toNat⟩

def serialNumber (t : DateTime) : Float :=
  t.date.serialNumber + Float.ofNat t.second / 86400.0

end DateTime

end Recalc
