import SqlCompose.Json.Writer
import SqlCompose.Wire.Driver

/-! Values as the bytes that a PostgreSQL server takes for a column of a type. -/
namespace SqlCompose.Wire

inductive ColumnType
  | bool
  | bytea
  | int2
  | int4
  | int8
  | oid
  | float4
  | float8
  | numeric
  | text
  | varchar
  | bpchar
  | name
  | unknown
  | json
  | jsonb
  | uuid
  | timestamp
  | timestamptz
  | date
  | int4Array
  deriving DecidableEq

def utf8 (text : String) : List UInt8 := text.toUTF8.toList

def append (bytes : List UInt8) : Sending Sent := do
  modify (· ++ bytes)
  return .bytes

def Encoder.uniform {Data : Type} (columns : List ColumnType) (bytes : Data → List UInt8) :
    Encoder ColumnType Data where
  accepts column := columns.contains column
  send data _ := append (bytes data)

def postgres : Driver ColumnType where
  int2 := .int2
  int4 := .int4
  float4 := .float4
  bool := .uniform [.bool] fun value => [if value then 1 else 0]
  int16 := .uniform [.int2] fun value => twosComplement 2 value.toInt
  int32 := .uniform [.int4] fun value => twosComplement 4 value.toInt
  int64 := .uniform [.int8] fun value => twosComplement 8 value.toInt
  single := .uniform [.float4] fun value => bigEndian 4 value.bits.toNat
  double := .uniform [.float8] fun value => bigEndian 8 value.bits.toNat
  text := .uniform [.text, .varchar, .bpchar, .name, .unknown] utf8
  bytes := .uniform [.bytea] id
  json :=
    { accepts := [.json, .jsonb].contains
      send value column :=
        -- The binary form begins with its version.
        append (if column = .jsonb then 1 :: utf8 value.write else utf8 value.write) }
  uuid := .uniform [.uuid] Uuid.bytes
  timestamp :=
    { accepts := [.timestamptz].contains
      send value _ :=
        let micros := value.databaseMicros
        if Int64.minValue.toInt ≤ micros && micros ≤ Int64.maxValue.toInt then
          append (twosComplement 8 micros)
        else throw .outOfRange }

def encode (value : Value) (type : ColumnType) : Except Fault (Option (List UInt8)) :=
  match (postgres.send value type).perform [] with
  | (.ok .bytes, out) => .ok (some out)
  | (.ok .null, _) => .ok none
  | (.error fault, _) => .error fault

end SqlCompose.Wire
