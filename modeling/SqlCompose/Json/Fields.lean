import SqlCompose.Json.Reader

/-! Fields of written objects. Fields that nobody asks for may hold anything that the grammar
allows; a field asked for may stand once at most. -/
namespace SqlCompose.Json

def keyed? : List (List StringUnit × Written) → Option (List (String × Written))
  | [] => some []
  | (key, item) :: members => do
    let key ← string? key
    let members ← keyed? members
    some ((key, item) :: members)

/-- What a field holds, if it stands there; none for a field that stands twice. -/
def field? (key : String) (members : List (String × Written)) : Option (Option Written) :=
  match members.filter (·.1 = key) with
  | [] => some none
  | [member] => some (some member.2)
  | _ => none

def int? : Written → Option Int
  | .number text =>
    match number? text with
    | some (.int value) => some value
    | _ => none
  | _ => none

def float? : Written → Option Number.Binary64
  | .number text =>
    (number? text).map fun
      | .int value => Number.Binary64.ofInt value
      | .float value => value
  | _ => none

def text? : Written → Option String
  | .string units => string? units
  | _ => none

def byte? (written : Written) : Option UInt8 := do
  let value ← int? written
  guard (0 ≤ value && value < 256)
  some value.toNat.toUInt8

end SqlCompose.Json
