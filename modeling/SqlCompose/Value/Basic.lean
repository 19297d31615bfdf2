import SqlCompose.Json.Basic
import SqlCompose.Time.Timestamp
import SqlCompose.Uuid

/-! Parameter and column values, and their kinds. -/
namespace SqlCompose

/-- The shape of a value, or of the values a field takes; any stands for every shape. -/
inductive Kind
  | any
  | null
  | bool
  | int
  | float
  | text
  | bytes
  | json
  | uuid
  | timestamp
  deriving DecidableEq

def Kind.name : Kind → String
  | .any => "Any"
  | .null => "Null"
  | .bool => "Bool"
  | .int => "Int"
  | .float => "Float"
  | .text => "Text"
  | .bytes => "Bytes"
  | .json => "Json"
  | .uuid => "Uuid"
  | .timestamp => "Timestamp"

inductive Value
  | null
  | bool (value : Bool)
  | int (value : Int64)
  | float (value : Number.Binary64)
  | text (value : String)
  | bytes (value : List UInt8)
  | json (value : Json)
  | uuid (value : Uuid)
  | timestamp (value : Time.Timestamp)

namespace Value

def kind : Value → Kind
  | .null => .null
  | .bool _ => .bool
  | .int _ => .int
  | .float _ => .float
  | .text _ => .text
  | .bytes _ => .bytes
  | .json _ => .json
  | .uuid _ => .uuid
  | .timestamp _ => .timestamp

def isNull (value : Value) : Bool := value.kind = .null

def same : Value → Value → Bool
  | .null, .null => true
  | .bool first, .bool second => first = second
  | .int first, .int second => first = second
  | .float first, .float second => first.same second
  | .text first, .text second => first = second
  | .bytes first, .bytes second => first = second
  | .json first, .json second => first.same second
  | .uuid first, .uuid second => first = second
  | .timestamp first, .timestamp second => first = second
  | _, _ => false

instance : BEq Value := ⟨same⟩

end Value

end SqlCompose
