import Mathlib.Data.List.Forall2
import SqlCompose.Row

/-! The fields of a mapping as they are declared, and what each of them makes of a row. -/
namespace SqlCompose

/-- The first column of a name holds the value. Other columns of the name may stand behind it. -/
def Row.First (row : Row) (column : String) (value : Value) : Prop :=
  ∃ front back, row.cells = front ++ (column, value) :: back ∧ ∀ cell ∈ front, cell.1 ≠ column

structure Declaration (Target : Type) where
  Result : Type
  column : String
  type : FieldType Result
  assign : Target → Result → Target

namespace Declaration

variable {Target : Type} (declaration : Declaration Target) (chain : NormalizerChain) (row : Row)

def binding : Binding Target where
  column := declaration.column
  kind := declaration.type.kind
  assign target value := (declaration.type.read value).map (declaration.assign target)

/-- The first value of the column, brought towards the kind of the type, reads as a result, and the
change is its assignment. -/
inductive Assigns : (Target → Target) → Prop
  | intro (value : Value) (result : declaration.Result)
      (first : row.First declaration.column value)
      (reads : declaration.type.read (chain.normalize value declaration.type.kind) = .ok result) :
      Assigns fun target => declaration.assign target result

/-- The row has no column of the name, or its first value does not read as one of the type. -/
inductive Refuses : DecodeFault → Prop
  | missing (absent : ∀ cell ∈ row.cells, cell.1 ≠ declaration.column) : Refuses .missing
  | conversion (value : Value) (fault : ConversionFault)
      (first : row.First declaration.column value)
      (refused :
        declaration.type.read (chain.normalize value declaration.type.kind) = .error fault) :
      Refuses (.conversion fault)

end Declaration

namespace RowMapping

variable {Target : Type}

def ofDeclarations (chain : NormalizerChain) (declarations : List (Declaration Target)) :
    RowMapping Target :=
  let declared : RowMapping Target := declarations.foldl (fun mapping declaration =>
    mapping.field declaration.column declaration.type declaration.assign) {}
  { declared with normalizers := chain }

def perform (changes : List (Target → Target)) (target : Target) : Target :=
  changes.foldl (fun target change => change target) target

def AllAssign (chain : NormalizerChain) (row : Row) (declarations : List (Declaration Target))
    (changes : List (Target → Target)) : Prop :=
  List.Forall₂ (fun declaration change => declaration.Assigns chain row change) declarations changes

structure StopsAt (chain : NormalizerChain) (row : Row) (declarations : List (Declaration Target))
    (changes : List (Target → Target)) (failing : Declaration Target) (cause : DecodeFault) :
    Prop where
  split : ∃ front back, declarations = front ++ failing :: back ∧
    AllAssign chain row front changes
  refuses : failing.Refuses chain row cause

end RowMapping

end SqlCompose
