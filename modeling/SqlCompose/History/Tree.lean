import SqlCompose.History

/-! Builders with the builders nested in them, down to those that have none, and what the calls of
all of them supply. -/
namespace SqlCompose

/-- A text from a caller and the number of placeholders it should have: as many as there are
parameters with it, or the one slot of a template. -/
structure Handed where
  text : String
  placeholders : Nat

structure Handed.Proper (handed : Handed) : Prop where
  closed : handed.text.toList.foldl Text.Quoting.step .plain = .plain
  counted : Text.Quoting.plain.placeholders handed.text.toList = handed.placeholders

instance (handed : Handed) : Decidable handed.Proper :=
  decidable_of_iff (handed.text.toList.foldl Text.Quoting.step .plain = .plain ∧
      Text.Quoting.plain.placeholders handed.text.toList = handed.placeholders)
    ⟨fun both => ⟨both.1, both.2⟩, fun proper => ⟨proper.closed, proper.counted⟩⟩

def Fragment.binds (fragment : Fragment) : Bool := !fragment.params.isEmpty

structure Supply where
  texts : List Handed := []
  bound : List Fragment := []
  nested : List Rendering := []

namespace Supply

def plain (text : String) : Supply := { texts := [⟨text, 0⟩] }

def binding (text : String) (params : List Value) : Supply :=
  { texts := [⟨text, params.length⟩], bound := [⟨text, params⟩] }

def template (text : String) (query : Rendering) : Supply :=
  { texts := [⟨text, 1⟩], nested := [query] }

end Supply

def Condition.Call.supply : Call → Supply
  | .expression _ text params => .binding text params
  | .group _ nested => { nested := [nested.rendering] }
  | .query _ template rendering => .template template rendering

def SelectStatement.Call.supply : Call → Supply
  | .column text => .plain text
  | .columns texts => { texts := texts.map fun text => ⟨text, 0⟩ }
  | .distinct => {}
  | .all => {}
  | .source table => .plain table
  | .sourceQuery template query => .template template query
  | .join _ text params => .binding text params
  | .joinQuery template query => .template template query
  | .condition call => call.supply
  | .groupBy text => .plain text
  | .groupCondition call => call.supply
  | .orderBy text => .plain text
  | .offset _ => {}
  | .limit _ => {}
  | .withoutOffset => {}
  | .withoutLimit => {}

def UnionStatement.Call.supply : Call → Supply
  | .branch _ query => { nested := [query] }
  | .orderBy text => .plain text
  | .offset _ => {}
  | .limit _ => {}

/-- A set value stands behind a question mark that the builder writes. -/
def InsertStatement.Call.supply : Call → Supply
  | .table text => .plain text
  | .set column value => { texts := [⟨column, 0⟩], bound := [⟨"?", [value]⟩] }
  | .setOptional column (some value) => { texts := [⟨column, 0⟩], bound := [⟨"?", [value]⟩] }
  | .setOptional _ none => {}
  | .setExpression column text params =>
    { texts := [⟨column, 0⟩, ⟨text, params.length⟩], bound := [⟨text, params⟩] }
  | .columns texts => { texts := texts.map fun text => ⟨text, 0⟩ }
  | .defaultValues => {}
  | .query rendering => { nested := [rendering] }
  | .returning text => .plain text

def UpdateStatement.Call.supply : Call → Supply
  | .table text => .plain text
  | .set column value => { texts := [⟨column, 0⟩], bound := [⟨column ++ " = ?", [value]⟩] }
  | .setOptional column (some value) =>
    { texts := [⟨column, 0⟩], bound := [⟨column ++ " = ?", [value]⟩] }
  | .setOptional _ none => {}
  | .assignment text params => .binding text params
  | .condition call => call.supply
  | .returning text => .plain text

def DeleteStatement.Call.supply : Call → Supply
  | .table text => .plain text
  | .condition call => call.supply
  | .returning text => .plain text

namespace History

def supplies : History → List Supply
  | .select calls => calls.map SelectStatement.Call.supply
  | .union calls => calls.map UnionStatement.Call.supply
  | .insert calls => calls.map InsertStatement.Call.supply
  | .update calls => calls.map UpdateStatement.Call.supply
  | .delete calls => calls.map DeleteStatement.Call.supply
  | .condition calls => calls.map Condition.Call.supply

def nested (history : History) : List Rendering := history.supplies.flatMap Supply.nested

end History

/-- How a rendering came about: by the calls of a builder, and so did those nested in it. -/
inductive Tree : Rendering → Type
  | node (history : History)
      (nested : (place : Fin history.nested.length) → Tree history.nested[place]) :
      Tree history.rendering

namespace Tree

def texts : {rendering : Rendering} → Tree rendering → List Handed
  | _, .node history nested =>
    history.supplies.flatMap Supply.texts ++
      (List.ofFn fun place => (nested place).texts).flatten

def bound : {rendering : Rendering} → Tree rendering → List Fragment
  | _, .node history nested =>
    history.supplies.flatMap Supply.bound ++
      (List.ofFn fun place => (nested place).bound).flatten

end Tree

end SqlCompose
