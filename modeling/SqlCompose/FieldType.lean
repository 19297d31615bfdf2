import SqlCompose.Error

/-! The types that values are read into. -/
namespace SqlCompose

structure FieldType (Result : Type) where
  kind : Kind
  read : Value → Except ConversionFault Result

namespace FieldType

def ofKind {Result : Type} (kind : Kind) (read? : Value → Option Result) : FieldType Result where
  kind
  read value :=
    match read? value with
    | some result => .ok result
    | none => .error (.mismatch kind value.kind)

def bool : FieldType Bool := ofKind .bool fun
  | .bool value => some value
  | _ => none

def int64 : FieldType Int64 := ofKind .int fun
  | .int value => some value
  | _ => none

def float : FieldType Number.Binary64 := ofKind .float fun
  | .float value => some value
  | _ => none

def text : FieldType String := ofKind .text fun
  | .text value => some value
  | _ => none

def bytes : FieldType (List UInt8) := ofKind .bytes fun
  | .bytes value => some value
  | _ => none

def json : FieldType Json := ofKind .json fun
  | .json value => some value
  | _ => none

def uuid : FieldType Uuid := ofKind .uuid fun
  | .uuid value => some value
  | _ => none

def timestamp : FieldType Time.Timestamp := ofKind .timestamp fun
  | .timestamp value => some value
  | _ => none

def int32 : FieldType Int32 where
  kind := .int
  read value := do
    let wide ← int64.read value
    if Int32.minValue.toInt ≤ wide.toInt && wide.toInt ≤ Int32.maxValue.toInt then
      return wide.toInt32
    else throw (.outOfRange wide)

def value : FieldType Value where
  kind := .any
  read := .ok

def optional {Result : Type} (type : FieldType Result) : FieldType (Option Result) where
  kind := type.kind
  read
    | .null => .ok none
    | value => (type.read value).map some

end FieldType

end SqlCompose
