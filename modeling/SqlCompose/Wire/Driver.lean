import SqlCompose.Value.Basic

/-! How values are sent to the columns of a server. The types of columns and the bytes for them are a
driver's business; values choose the encoder of the driver, and narrow numbers for it. -/
namespace SqlCompose.Wire

def bigEndian (width value : Nat) : List UInt8 :=
  (List.range width).map fun index => (value / Nat.pow 256 (width - 1 - index)).toUInt8

def twosComplement (width : Nat) (value : Int) : List UInt8 :=
  bigEndian width (value % (Nat.pow 256 width : Nat)).toNat

def word (bytes : List UInt8) : Nat := bytes.foldl (fun value byte => value * 256 + byte.toNat) 0

def integer (bytes : List UInt8) : Int :=
  let modulus := Nat.pow 256 bytes.length
  if 2 * word bytes < modulus then word bytes else (word bytes : Int) - modulus

def SignedRange (width : Nat) (value : Int) : Prop :=
  -(Nat.pow 2 (8 * width - 1) : Nat) ≤ value ∧ value < (Nat.pow 2 (8 * width - 1) : Nat)

inductive Fault
  | wrongType
  | outOfRange
  deriving DecidableEq

inductive Sent
  | null
  | bytes
  deriving DecidableEq

/-- Appends to an output. What was appended before a fault stays there. -/
abbrev Sending (Result : Type) := ExceptT Fault (StateM (List UInt8)) Result

def Sending.perform {Result : Type} (sending : Sending Result) (out : List UInt8) :
    Except Fault Result × List UInt8 :=
  StateT.run (ExceptT.run sending) out

structure Encoder (Column Data : Type) where
  accepts : Column → Bool
  send : Data → Column → Sending Sent

def Encoder.sendChecked {Column Data : Type} (encoder : Encoder Column Data) (data : Data)
    (column : Column) : Sending Sent :=
  if encoder.accepts column then encoder.send data column else throw .wrongType

structure Driver (Column : Type) where
  int2 : Column
  int4 : Column
  float4 : Column
  bool : Encoder Column Bool
  int16 : Encoder Column Int16
  int32 : Encoder Column Int32
  int64 : Encoder Column Int64
  single : Encoder Column Number.Binary32
  double : Encoder Column Number.Binary64
  text : Encoder Column String
  bytes : Encoder Column (List UInt8)
  json : Encoder Column Json
  uuid : Encoder Column Uuid
  timestamp : Encoder Column Time.Timestamp

def narrowed {Narrow : Type} (least greatest : Int) (convert : Int64 → Narrow) (value : Int64) :
    Sending Narrow :=
  if least ≤ value.toInt && value.toInt ≤ greatest then return convert value else throw .outOfRange

/-- Any column takes null. For the rest it is the encoder that checks the column. -/
def Driver.send {Column : Type} [DecidableEq Column] (driver : Driver Column) (value : Value)
    (column : Column) : Sending Sent :=
  match value with
  | .null => return .null
  | .bool value => driver.bool.sendChecked value column
  | .int value =>
    if column = driver.int2 then do
      let narrow ← narrowed Int16.minValue.toInt Int16.maxValue.toInt Int64.toInt16 value
      driver.int16.sendChecked narrow column
    else if column = driver.int4 then do
      let narrow ← narrowed Int32.minValue.toInt Int32.maxValue.toInt Int64.toInt32 value
      driver.int32.sendChecked narrow column
    else driver.int64.sendChecked value column
  | .float value =>
    if column = driver.float4 then driver.single.sendChecked value.narrow column
    else driver.double.sendChecked value column
  | .text value => driver.text.sendChecked value column
  | .bytes value => driver.bytes.sendChecked value column
  | .json value => driver.json.sendChecked value column
  | .uuid value => driver.uuid.sendChecked value column
  | .timestamp value => driver.timestamp.sendChecked value column

structure Encoder.AppendsIntegers {Column Data : Type} (encoder : Encoder Column Data)
    (toInt : Data → Int) (width : Nat) (own : Column) : Prop where
  accepts : ∀ column, encoder.accepts column = true ↔ column = own
  appends : ∀ data out,
    (encoder.send data own).perform out = (.ok .bytes, out ++ twosComplement width (toInt data))

/-- A driver with one type of column for each width of integers, the widest as named. -/
structure Driver.AppendsIntegers {Column : Type} (driver : Driver Column) (int8 : Column) : Prop where
  apart : [driver.int2, driver.int4, int8].Nodup
  int16 : driver.int16.AppendsIntegers Int16.toInt 2 driver.int2
  int32 : driver.int32.AppendsIntegers Int32.toInt 4 driver.int4
  int64 : driver.int64.AppendsIntegers Int64.toInt 8 int8

/-- Bytes that make the integer are appended if it lies in their range, and nothing if it does not. -/
structure Unaltered (width : Nat) (value : Int) (out : List UInt8)
    (performed : Except Fault Sent × List UInt8) : Prop where
  within : SignedRange width value → ∃ bytes, performed = (.ok .bytes, out ++ bytes) ∧
    bytes.length = width ∧ integer bytes = value
  beyond : ¬ SignedRange width value → performed = (.error .outOfRange, out)

end SqlCompose.Wire
