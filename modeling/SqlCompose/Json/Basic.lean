import SqlCompose.Number.Binary64

/-! JSON values. An object is kept sorted by key, each key once. -/
namespace SqlCompose

/-- A number is an integer or a floating-point number; 1 and 1.0 are different numbers. -/
inductive JsonNumber
  | int (value : Int)
  | float (value : Number.Binary64)
  deriving DecidableEq

def JsonNumber.same : JsonNumber → JsonNumber → Bool
  | .int first, .int second => first = second
  | .float first, .float second => first.same second
  | _, _ => false

inductive Json
  | null
  | bool (value : Bool)
  | number (value : JsonNumber)
  | string (value : String)
  | array (items : List Json)
  | object (members : List (String × Json))

namespace Json

def insert {Item : Type} (key : String) (item : Item) :
    List (String × Item) → List (String × Item)
  | [] => [(key, item)]
  | (other, held) :: rest =>
    if key = other then (key, item) :: rest
    else if key < other then (key, item) :: (other, held) :: rest
    else (other, held) :: insert key item rest

/-- Members in the order they were written, as an object: of one key's members the last stays. -/
def ofMembers (members : List (String × Json)) : Json :=
  .object (members.foldl (fun object member => insert member.1 member.2 object) [])

mutual
/-- Equality with floating-point numbers compared as numbers. -/
def same : Json → Json → Bool
  | .null, .null => true
  | .bool first, .bool second => first = second
  | .number first, .number second => first.same second
  | .string first, .string second => first = second
  | .array first, .array second => sameItems first second
  | .object first, .object second => sameMembers first second
  | _, _ => false

def sameItems : List Json → List Json → Bool
  | [], [] => true
  | first :: rest, second :: others => same first second && sameItems rest others
  | _, _ => false

def sameMembers : List (String × Json) → List (String × Json) → Bool
  | [], [] => true
  | (key, first) :: rest, (other, second) :: others =>
    key = other && same first second && sameMembers rest others
  | _, _ => false
end

def member? (key : String) : Json → Option Json
  | .object members => members.lookup key
  | _ => none

end Json

end SqlCompose
