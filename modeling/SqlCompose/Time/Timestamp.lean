import SqlCompose.Time.Calendar

/-! Points in time with nanoseconds. A leap second is the second nanosecond billion of the second
before it. -/
namespace SqlCompose.Time

/-- Seconds since 1970, and nanoseconds from there; from one billion on inside a leap second. -/
structure Timestamp where
  seconds : Int
  nanos : Nat
  deriving DecidableEq

def billion : Nat := 1000000000

def secondsInDay : Int := 86400

structure Fields where
  date : Date
  hour : Nat
  minute : Nat
  second : Nat
  nanos : Nat
  offset : Int

/-- The first and the last second that a timestamp may name: the years -262143 to 262142. -/
def firstSecond : Int := (Date.mk (-262143) 1 1).days * secondsInDay

def lastSecond : Int := (Date.mk 262143 1 1).days * secondsInDay - 1

def Date.inRange (date : Date) : Bool := -262143 ≤ date.year && date.year ≤ 262142

/-- The point in time of written fields, if they name one. Second 60 stands for a leap second. -/
def Timestamp.ofFields? (fields : Fields) : Option Timestamp :=
  let leap := fields.second = 60
  let second := if leap then 59 else fields.second
  let clock : Int := fields.hour * 3600 + fields.minute * 60 + second
  let seconds := fields.date.days * secondsInDay + clock - fields.offset
  if fields.date.exists && fields.date.inRange && fields.hour ≤ 23 && fields.minute ≤ 59 &&
      fields.second ≤ 60 && firstSecond ≤ seconds && seconds ≤ lastSecond then
    some ⟨seconds, if leap then fields.nanos + billion else fields.nanos⟩
  else none

def Timestamp.fields (timestamp : Timestamp) : Fields :=
  let clock := (timestamp.seconds % secondsInDay).toNat
  let leap := billion ≤ timestamp.nanos
  { date := Date.ofDays (timestamp.seconds / secondsInDay)
    hour := clock / 3600
    minute := clock / 60 % 60
    second := if leap then clock % 60 + 1 else clock % 60
    nanos := if leap then timestamp.nanos - billion else timestamp.nanos
    offset := 0 }

/-- A leap second stands behind the last second of a minute, and lasts one second. -/
def Timestamp.Proper (timestamp : Timestamp) : Prop :=
  timestamp.nanos < billion ∨ timestamp.nanos < 2 * billion ∧ timestamp.seconds % 60 = 59

def Timestamp.year (timestamp : Timestamp) : Int := timestamp.fields.date.year

def databaseEpoch : Int := 946684800

def Timestamp.databaseMicros (timestamp : Timestamp) : Int :=
  Int.tdiv ((timestamp.seconds - databaseEpoch) * billion + timestamp.nanos) 1000

end SqlCompose.Time
