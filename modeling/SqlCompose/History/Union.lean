import SqlCompose.History.Ledger
import SqlCompose.Union

/-! What a history of calls leaves in each clause of a union. -/
namespace SqlCompose.UnionStatement

def ofCalls (calls : List Call) : UnionStatement := calls.foldl call {}

inductive Part
  | branches
  | ordering
  | offset
  | limit
  deriving DecidableEq

namespace Part

def all : List Part := [.branches, .ordering, .offset, .limit]

theorem mem_all (part : Part) : part ∈ all := by
  cases part <;> decide

theorem nodup_all : all.Nodup := by
  decide

def lead : Part → String
  | .branches => ""
  | .ordering => "ORDER BY "
  | .offset => "OFFSET "
  | .limit => "LIMIT "

def separator? : Part → Option (Option String)
  | .branches => none
  | .ordering => some (some ", ")
  | .offset => some none
  | .limit => some none

end Part

/-- What a branch offers behind its operator. One without text offers nothing. -/
def branchOffers (kind : UnionKind) (query : Rendering) : List Offer :=
  match branch? query with
  | .ok (some fragment) => [⟨some kind.operator, .ok fragment⟩]
  | .ok none => []
  | .error error => [⟨some kind.operator, .error error⟩]

def Call.offers : Part → Call → List Offer
  | .branches, .branch kind query => branchOffers kind query
  | .ordering, .orderBy text => [.plain (some ", ") text]
  | .offset, .offset count => [.plain none (toString count.toNat)]
  | .limit, .limit count => [.plain none (toString count.toNat)]
  | _, _ => []

def ledger (calls : List Call) (part : Part) : Ledger :=
  ⟨part.lead, "", calls.flatMap (Call.offers part)⟩

def misuses (calls : List Call) : List (Option Error) :=
  Part.all.map fun part => (ledger calls part).misuse?

def ledgers (calls : List Call) : List Ledger := Part.all.map (ledger calls)

end SqlCompose.UnionStatement
