import SqlCompose.FieldType
import SqlCompose.Normalizer
import SqlCompose.Text.Printable

/-! Result rows, and mappings that fill a target from the columns of a row. -/
namespace SqlCompose

/-- Columns with their values, in order. A name may stand more than once. -/
structure Row where
  cells : List (String × Value) := []

namespace Row

def push (row : Row) (column : String) (value : Value) : Row := ⟨row.cells ++ [(column, value)]⟩

def length (row : Row) : Nat := row.cells.length

def isEmpty (row : Row) : Bool := row.cells.isEmpty

def columns (row : Row) : List String := row.cells.map Prod.fst

/-- The value of the first column of a name. -/
def get? (row : Row) (column : String) : Option Value :=
  (row.cells.find? fun cell => cell.1 = column).map Prod.snd

def get (row : Row) (column : String) : Except Error Value :=
  match row.get? column with
  | some value => .ok value
  | none => .error (.decode column .missing)

def getAs {Result : Type} (row : Row) (column : String) (type : FieldType Result) :
    Except Error Result := do
  let value ← row.get column
  match type.read value with
  | .ok result => return result
  | .error fault => throw (.decode column (.conversion fault))

end Row

structure Binding (Target : Type) where
  column : String
  kind : Kind
  assign : Target → Value → Except ConversionFault Target

def Binding.run {Target : Type} (binding : Binding Target) (chain : NormalizerChain) (row : Row)
    (target : Target) : Except Error Target := do
  let value ← row.get binding.column
  match binding.assign target (chain.normalize value binding.kind) with
  | .ok target => return target
  | .error fault => throw (.decode binding.column (.conversion fault))

structure Outcome (Target : Type) where
  target : Target
  failure : Option Error := none

structure RowMapping (Target : Type) where
  bindings : List (Binding Target) := []
  normalizers : NormalizerChain := {}

namespace RowMapping

variable {Target : Type}

def field {Result : Type} (mapping : RowMapping Target) (column : String)
    (type : FieldType Result) (assign : Target → Result → Target) : RowMapping Target :=
  let binding : Binding Target :=
    { column
      kind := type.kind
      assign := fun target value => (type.read value).map (assign target) }
  { mapping with bindings := mapping.bindings ++ [binding] }

def columns (mapping : RowMapping Target) : List String := mapping.bindings.map Binding.column

def applyAll (chain : NormalizerChain) (row : Row) :
    List (Binding Target) → Target → Outcome Target
  | [], target => { target }
  | binding :: bindings, target =>
    match binding.run chain row target with
    | .ok target => applyAll chain row bindings target
    | .error error => ⟨target, some error⟩

def apply (mapping : RowMapping Target) (target : Target) (row : Row) : Outcome Target :=
  applyAll mapping.normalizers row mapping.bindings target

def map [Inhabited Target] (mapping : RowMapping Target) (row : Row) : Except Error Target :=
  let outcome := mapping.apply default row
  match outcome.failure with
  | none => .ok outcome.target
  | some error => .error error

def mapAll [Inhabited Target] (mapping : RowMapping Target) (rows : List Row) :
    Except Error (List Target) :=
  rows.mapM mapping.map

def describe (mapping : RowMapping Target) : String :=
  let columns := ", ".intercalate (mapping.columns.map Text.quoted)
  "RowMapping \x7b columns: [" ++ columns ++ "], normalizers: " ++ mapping.normalizers.describe ++
    " \x7d"

end RowMapping

end SqlCompose
