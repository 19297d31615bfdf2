import SqlCompose.History.Condition
import SqlCompose.Select.Basic

/-! What a history of calls leaves in each clause of a SELECT statement. -/
namespace SqlCompose.SelectStatement

def ofCalls (calls : List Call) : SelectStatement := calls.foldl call {}

inductive Part
  | quantifier
  | columns
  | source
  | joins
  | condition
  | grouping
  | groupCondition
  | ordering
  | offset
  | limit
  deriving DecidableEq

namespace Part

def all : List Part :=
  [.quantifier, .columns, .source, .joins, .condition, .grouping, .groupCondition, .ordering,
   .offset, .limit]

theorem mem_all (part : Part) : part ∈ all := by
  cases part <;> decide

def lead : Part → String
  | .quantifier => ""
  | .columns => "SELECT "
  | .source => "FROM "
  | .joins => ""
  | .condition => "WHERE "
  | .grouping => "GROUP BY "
  | .groupCondition => "HAVING "
  | .ordering => "ORDER BY "
  | .offset => "OFFSET "
  | .limit => "LIMIT "

def separator? : Part → Option (Option String)
  | .quantifier => some none
  | .columns => some (some ", ")
  | .source => some (some ", ")
  | .joins => some (some " ")
  | .condition => none
  | .grouping => some (some ", ")
  | .groupCondition => none
  | .ordering => some (some ", ")
  | .offset => some none
  | .limit => some none

end Part

namespace Call

def part : Call → Part
  | .column _ => .columns
  | .columns _ => .columns
  | .distinct => .quantifier
  | .all => .quantifier
  | .source _ => .source
  | .sourceQuery _ _ => .source
  | .join _ _ _ => .joins
  | .joinQuery _ _ => .joins
  | .condition _ => .condition
  | .groupBy _ => .grouping
  | .groupCondition _ => .groupCondition
  | .orderBy _ => .ordering
  | .offset _ => .offset
  | .limit _ => .limit
  | .withoutOffset => .offset
  | .withoutLimit => .limit

def clears : Call → Bool
  | .withoutOffset => true
  | .withoutLimit => true
  | _ => false

def offers : Call → List Offer
  | .column text => [.plain (some ", ") text]
  | .columns texts => texts.map (.plain (some ", "))
  | .distinct => [.plain none "DISTINCT"]
  | .all => [.plain none "ALL"]
  | .source table => [.plain (some ", ") table]
  | .sourceQuery template query => [⟨some ", ", substitute template query⟩]
  | .join kind text params => [⟨some " ", .ok (joinFragment kind text params)⟩]
  | .joinQuery template query => [⟨some " ", SelectStatement.joinQuery template query⟩]
  | .condition call => [call.offer]
  | .groupBy text => [.plain (some ", ") text]
  | .groupCondition call => [call.offer]
  | .orderBy text => [.plain (some ", ") text]
  | .offset count => [.plain none (toString count.toNat)]
  | .limit count => [.plain none (toString count.toNat)]
  | .withoutOffset => []
  | .withoutLimit => []

end Call

/-- What a clause was offered since it was last cleared. It depends on the calls that write to this
clause only. -/
def offered (part : Part) (calls : List Call) : List Offer :=
  (calls.filter fun call => call.part = part).foldl
    (fun held call => if call.clears then [] else held ++ call.offers) []

def ledger (calls : List Call) (part : Part) : Ledger := ⟨part.lead, "", offered part calls⟩

def misuses (calls : List Call) : List (Option Error) :=
  Part.all.map fun part => (ledger calls part).misuse?

def given (calls : List Call) (part : Part) : Bool :=
  !(Offer.links (offered part calls)).isEmpty

def quantifierWord (calls : List Call) : String :=
  match (ledger calls .quantifier).text? with
  | some word => word ++ " "
  | none => ""

/-- The clauses as they are rendered: the quantifier stands behind SELECT, and WHERE is left out
when there are neither columns nor tables nor joins. -/
def ledgers (calls : List Call) : List Ledger :=
  let headed := given calls .columns || given calls .source || given calls .joins
  [⟨"SELECT " ++ quantifierWord calls, "", offered .columns calls⟩,
   ledger calls .source,
   ledger calls .joins,
   ⟨if headed then "WHERE " else "", "", offered .condition calls⟩,
   ledger calls .grouping,
   ledger calls .groupCondition,
   ledger calls .ordering,
   ledger calls .offset,
   ledger calls .limit]

end SqlCompose.SelectStatement
