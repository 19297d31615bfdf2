import SqlCompose.Json.Fields
import SqlCompose.Json.Writer
import SqlCompose.Time.Reader
import SqlCompose.Time.Writer
import SqlCompose.Value.Basic

/-! Values as JSON objects with the fields type and value. -/
namespace SqlCompose.Value

def tag (value : Value) : String :=
  match value with
  | .null => "null"
  | .bool _ => "bool"
  | .int _ => "int"
  | .float _ => "float"
  | .text _ => "text"
  | .bytes _ => "bytes"
  | .json _ => "json"
  | .uuid _ => "uuid"
  | .timestamp _ => "timestamp"

def content? : Value → Option Json
  | .null => none
  | .bool value => some (.bool value)
  | .int value => some (.number (.int value.toInt))
  | .float value => some (.number (.float value))
  | .text value => some (.string value)
  | .bytes value => some (.array (value.map fun byte => .number (.int byte.toNat)))
  | .json value => some value
  | .uuid value => some (.string value.write)
  | .timestamp value => some (.string value.write)

def writeTaggedChars (value : Value) : List Char :=
  let tail := match value.content? with
    | some content => ',' :: Json.writeString "value" ++ ':' :: Json.writeChars content
    | none => []
  '\x7b' :: Json.writeString "type" ++ ':' :: Json.writeString value.tag ++ tail ++ ['\x7d']

def writeTagged (value : Value) : String := String.ofList value.writeTaggedChars

/-- The value of a kind that a content stands for. Only null may go without content. -/
def ofContent? (room : Nat) (tag : String) : Option Json.Written → Option Value
  | none => if tag = "null" then some .null else none
  | some content =>
    match tag with
    | "null" => match content with
      | .null => some .null
      | _ => none
    | "bool" => match content with
      | .bool value => some (.bool value)
      | _ => none
    | "int" => do
      let value ← Json.int? content
      guard (Int64.minValue.toInt ≤ value && value ≤ Int64.maxValue.toInt)
      some (.int (Int64.ofInt value))
    | "float" => (Json.float? content).map .float
    | "text" => (Json.text? content).map .text
    | "bytes" => match room, content with
      | _ + 1, .array items => (items.mapM Json.byte?).map .bytes
      | _, _ => none
    | "json" => (Json.resolve? room content).map .json
    | "uuid" => ((Json.text? content).bind fun text => Uuid.read? text.toList).map .uuid
    | "timestamp" =>
      ((Json.text? content).bind fun text => Time.Timestamp.readLenient? text.toList).map .timestamp
    | _ => none

/-- A type field spells a kind as a string, or as an object with the string as its key and null in
it. -/
def tag? (room : Nat) : Json.Written → Option String
  | .string units => Json.string? units
  | .object [(key, .null)] => if room = 0 then none else Json.string? key
  | _ => none

/-- Reads an object with the two fields, or an array of kind and content. In the array only a string
spells the kind. -/
def ofWritten? : Nat → Json.Written → Option Value
  | room + 1, .object members => do
    let members ← Json.keyed? members
    let type ← Json.field? "type" members
    let content ← Json.field? "value" members
    let tag ← type.bind (tag? room)
    ofContent? room tag content
  | room + 1, .array [.string units, content] => do
    let tag ← Json.string? units
    ofContent? room tag (some content)
  | _, _ => none

def readTagged? (text : String) : Option Value := do
  let written ← Json.Written.ofText? text
  ofWritten? Json.greatestDepth written

end SqlCompose.Value
