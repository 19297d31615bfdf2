import SqlCompose.Delete
import SqlCompose.History.Condition
import SqlCompose.Insert
import SqlCompose.Update

/-! What histories of calls leave in the clauses of INSERT, UPDATE and DELETE statements. -/
namespace SqlCompose

namespace InsertStatement

def ofCalls (calls : List Call) : InsertStatement := calls.foldl call {}

inductive Part
  | table
  | columns
  | values
  | defaults
  | query
  | returning
  deriving DecidableEq

namespace Part

def all : List Part := [.table, .columns, .values, .defaults, .query, .returning]

theorem mem_all (part : Part) : part ∈ all := by
  cases part <;> decide

theorem nodup_all : all.Nodup := by
  decide

def lead : Part → String
  | .table => "INSERT INTO "
  | .columns => "("
  | .values => "VALUES ("
  | .defaults => ""
  | .query => ""
  | .returning => "RETURNING "

def trail : Part → String
  | .columns => ")"
  | .values => ")"
  | _ => ""

def separator? : Part → Option (Option String)
  | .table => some none
  | .columns => some (some ", ")
  | .values => some (some ", ")
  | .defaults => some none
  | .query => some none
  | .returning => some (some ", ")

end Part

/-- What a call offers to a clause. A set column goes to the columns, its value to the values. -/
def Call.offers : Part → Call → List Offer
  | .table, .table text => [.plain none text]
  | .columns, .set column _ => [.plain (some ", ") column]
  | .columns, .setOptional column (some _) => [.plain (some ", ") column]
  | .columns, .setExpression column _ _ => [.plain (some ", ") column]
  | .columns, .columns texts => texts.map (.plain (some ", "))
  | .values, .set _ value => [⟨some ", ", .ok ⟨"?", [value]⟩⟩]
  | .values, .setOptional _ (some value) => [⟨some ", ", .ok ⟨"?", [value]⟩⟩]
  | .values, .setExpression _ text params => [⟨some ", ", .ok ⟨text, params⟩⟩]
  | .defaults, .defaultValues => [.plain none "DEFAULT VALUES"]
  | .query, .query rendering => [⟨none, rendering.fragment⟩]
  | .returning, .returning text => [.plain (some ", ") text]
  | _, _ => []

def ledger (calls : List Call) (part : Part) : Ledger :=
  ⟨part.lead, part.trail, calls.flatMap (Call.offers part)⟩

def misuses (calls : List Call) : List (Option Error) :=
  Part.all.map fun part => (ledger calls part).misuse?

def ledgers (calls : List Call) : List Ledger := Part.all.map (ledger calls)

def Call.assignment? : Call → Option (String × String)
  | .set column _ => some (column, "?")
  | .setOptional column value? => value?.map fun _ => (column, "?")
  | .setExpression column expression _ => some (column, expression)
  | _ => none

/-- The entries of a clause, each with the place of the call that supplied it. -/
def entries (calls : List Call) (part : Part) : List (Nat × String) :=
  calls.zipIdx.flatMap fun (made, place) =>
    (Offer.links (made.offers part)).map fun link => (place, link.text)

def Part.listed (part : Part) (texts : List String) : String :=
  if texts.isEmpty then "" else part.lead ++ ", ".intercalate texts ++ part.trail

/-- There are as many columns as value expressions, and the call that supplied an expression is the
one that supplied the column at its place. -/
structure LinedUp (calls : List Call) : Prop where
  counted : (entries calls .columns).length = (entries calls .values).length
  paired : ∀ (index : Nat) (column value : Nat × String),
    (entries calls .columns)[index]? = some column →
      (entries calls .values)[index]? = some value → column.1 = value.1

end InsertStatement

namespace UpdateStatement

def ofCalls (calls : List Call) : UpdateStatement := calls.foldl call {}

inductive Part
  | table
  | assignments
  | condition
  | returning
  deriving DecidableEq

namespace Part

def all : List Part := [.table, .assignments, .condition, .returning]

theorem mem_all (part : Part) : part ∈ all := by
  cases part <;> decide

theorem nodup_all : all.Nodup := by
  decide

def lead : Part → String
  | .table => "UPDATE "
  | .assignments => "SET "
  | .condition => "WHERE "
  | .returning => "RETURNING "

def separator? : Part → Option (Option String)
  | .table => some none
  | .assignments => some (some ", ")
  | .condition => none
  | .returning => some (some ", ")

end Part

def Call.offers : Part → Call → List Offer
  | .table, .table text => [.plain none text]
  | .assignments, .set column value => [⟨some ", ", .ok ⟨column ++ " = ?", [value]⟩⟩]
  | .assignments, .setOptional column (some value) =>
    [⟨some ", ", .ok ⟨column ++ " = ?", [value]⟩⟩]
  | .assignments, .assignment text params => [⟨some ", ", .ok ⟨text, params⟩⟩]
  | .condition, .condition call => [call.offer]
  | .returning, .returning text => [.plain (some ", ") text]
  | _, _ => []

def ledger (calls : List Call) (part : Part) : Ledger :=
  ⟨part.lead, "", calls.flatMap (Call.offers part)⟩

def misuses (calls : List Call) : List (Option Error) :=
  Part.all.map fun part => (ledger calls part).misuse?

def given (calls : List Call) (part : Part) : Bool :=
  !(Offer.links (ledger calls part).offers).isEmpty

/-- The clauses as they are rendered: WHERE is left out when there are neither a table nor
assignments. -/
def ledgers (calls : List Call) : List Ledger :=
  let headed := given calls .table || given calls .assignments
  [ledger calls .table,
   ledger calls .assignments,
   { ledger calls .condition with lead := if headed then "WHERE " else "" },
   ledger calls .returning]

end UpdateStatement

namespace DeleteStatement

def ofCalls (calls : List Call) : DeleteStatement := calls.foldl call {}

inductive Part
  | table
  | condition
  | returning
  deriving DecidableEq

namespace Part

def all : List Part := [.table, .condition, .returning]

theorem mem_all (part : Part) : part ∈ all := by
  cases part <;> decide

theorem nodup_all : all.Nodup := by
  decide

def lead : Part → String
  | .table => "DELETE FROM "
  | .condition => "WHERE "
  | .returning => "RETURNING "

def separator? : Part → Option (Option String)
  | .table => some none
  | .condition => none
  | .returning => some (some ", ")

end Part

def Call.offers : Part → Call → List Offer
  | .table, .table text => [.plain none text]
  | .condition, .condition call => [call.offer]
  | .returning, .returning text => [.plain (some ", ") text]
  | _, _ => []

def ledger (calls : List Call) (part : Part) : Ledger :=
  ⟨part.lead, "", calls.flatMap (Call.offers part)⟩

def misuses (calls : List Call) : List (Option Error) :=
  Part.all.map fun part => (ledger calls part).misuse?

def given (calls : List Call) (part : Part) : Bool :=
  !(Offer.links (ledger calls part).offers).isEmpty

def ledgers (calls : List Call) : List Ledger :=
  [ledger calls .table,
   { ledger calls .condition with lead := if given calls .table then "WHERE " else "" },
   ledger calls .returning]

end DeleteStatement

end SqlCompose
