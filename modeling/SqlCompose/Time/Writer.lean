import SqlCompose.Time.Timestamp

/-! The text of a timestamp: date, clock and as many fraction digits as it needs, in threes. -/
namespace SqlCompose.Time

def padded (width value : Nat) : List Char :=
  let digits := Nat.toDigits 10 value
  List.replicate (width - digits.length) '0' ++ digits

def writeYear (year : Int) : List Char :=
  if 0 ≤ year && year ≤ 9999 then padded 4 year.natAbs
  else (if year < 0 then '-' else '+') :: padded 4 year.natAbs

def writeFraction (nanos : Nat) : List Char :=
  if nanos = 0 then []
  else if nanos % 1000000 = 0 then '.' :: padded 3 (nanos / 1000000)
  else if nanos % 1000 = 0 then '.' :: padded 6 (nanos / 1000)
  else '.' :: padded 9 nanos

def writeDate (date : Date) : List Char :=
  writeYear date.year ++ '-' :: padded 2 date.month ++ '-' :: padded 2 date.day

def writeClock (fields : Fields) : List Char :=
  padded 2 fields.hour ++ ':' :: padded 2 fields.minute ++ ':' :: padded 2 fields.second ++
    writeFraction fields.nanos

def Timestamp.write (timestamp : Timestamp) : String :=
  let fields := timestamp.fields
  String.ofList (writeDate fields.date ++ 'T' :: writeClock fields ++ ['Z'])

end SqlCompose.Time
