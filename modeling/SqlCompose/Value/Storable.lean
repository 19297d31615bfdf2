import SqlCompose.Json.Reader
import SqlCompose.Value.Basic

/-! Values that their JSON form keeps as they are, the JSON values among them that their texts
determine, and how deep these nest. -/
namespace SqlCompose.Json

mutual
def depth : Json → Nat
  | .array items => itemsDepth items + 1
  | .object members => membersDepth members + 1
  | _ => 0

def itemsDepth : List Json → Nat
  | [] => 0
  | item :: items => max item.depth (itemsDepth items)

def membersDepth : List (String × Json) → Nat
  | [] => 0
  | (_, item) :: members => max item.depth (membersDepth members)
end

def isWord (value : Int) : Bool := -(wordLimit / 2 : Nat) ≤ value && value < wordLimit

mutual
/-- Holds of values as they come about, whose integers are 64-bit words and whose objects are sorted
by key with each key once, as long as they have no floating-point numbers. -/
def Exact : Json → Prop
  | .number (.int value) => isWord value = true
  | .number (.float _) => False
  | .array items => ExactItems items
  | .object members => (members.map Prod.fst).Pairwise (· < ·) ∧ ExactMembers members
  | _ => True

def ExactItems : List Json → Prop
  | [] => True
  | item :: items => item.Exact ∧ ExactItems items

def ExactMembers : List (String × Json) → Prop
  | [] => True
  | (_, item) :: members => item.Exact ∧ ExactMembers members
end

mutual
def Floatless : Json → Prop
  | .number (.float _) => False
  | .array items => FloatlessItems items
  | .object members => FloatlessMembers members
  | _ => True

def FloatlessItems : List Json → Prop
  | [] => True
  | item :: items => item.Floatless ∧ FloatlessItems items

def FloatlessMembers : List (String × Json) → Prop
  | [] => True
  | (_, item) :: members => item.Floatless ∧ FloatlessMembers members
end

end SqlCompose.Json

namespace SqlCompose.Value

/-- How deep the JSON of a value may nest. A statement takes three more levels around it, and a
reader takes no more than 127. -/
def storableDepth : Nat := 100

/-- Holds of values as they come about, as long as they have no floating-point numbers, JSON that
does not nest too deep and timestamps with years of four digits. -/
def Storable : Value → Prop
  | .float _ => False
  | .json value => value.Exact ∧ value.depth ≤ storableDepth
  | .timestamp value => value.Proper ∧ 0 ≤ value.year ∧ value.year ≤ 9999
  | _ => True

def Plain : Value → Prop
  | .float _ => False
  | .json value => value.Floatless ∧ value.depth ≤ storableDepth
  | .timestamp value => 0 ≤ value.year ∧ value.year ≤ 9999
  | _ => True

end SqlCompose.Value
