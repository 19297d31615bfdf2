import SqlCompose.History.Union

/-! What a union shows of its calls: the queries with text, each behind the operator of its own call,
and behind them the order of the rows, the offset and the limit. -/
namespace SqlCompose.UnionStatement

structure Branch where
  kind : UnionKind
  text : String
  params : List Value

def Branch.joined : List Branch → String
  | [] => ""
  | first :: rest =>
    first.text ++ String.join (rest.map fun branch => branch.kind.operator ++ branch.text)

def Branch.offer (branch : Branch) : Offer :=
  ⟨some branch.kind.operator, .ok ⟨branch.text, branch.params⟩⟩

namespace Call

/-- The branch that a call gives. A query without text gives none; a text that does not bring
parentheses of its own is put into some. -/
def branch? : Call → Option Branch
  | .branch kind query =>
    match query.text with
    | .ok text =>
      if text = "" then none
      else some ⟨kind, if query.enclosed then text else "(" ++ text ++ ")", query.params⟩
    | .error _ => none
  | _ => none

def expression? : Call → Option String
  | .orderBy expression => some expression
  | _ => none

def offset? : Call → Option UInt64
  | .offset count => some count
  | _ => none

def limit? : Call → Option UInt64
  | .limit count => some count
  | _ => none

end Call

def united (calls : List Call) : List Branch := calls.filterMap Call.branch?

def orderings (calls : List Call) : List String :=
  (calls.filterMap Call.expression?).filter (· ≠ "")

def parts (calls : List Call) : List (Option String) :=
  [if (united calls).isEmpty then none else some (Branch.joined (united calls)),
   if (orderings calls).isEmpty then none
   else some ("ORDER BY " ++ ", ".intercalate (orderings calls)),
   (calls.findSome? Call.offset?).map fun count => "OFFSET " ++ toString count.toNat,
   (calls.findSome? Call.limit?).map fun count => "LIMIT " ++ toString count.toNat]

end SqlCompose.UnionStatement
