import SqlCompose.History

/-! The ways to misuse a builder, told by its calls alone, and a template by its placeholders. -/
namespace SqlCompose

namespace Rendering

def Fails (rendering : Rendering) : Prop := ∃ error, rendering.text = .error error

def HasText (rendering : Rendering) : Prop := ∃ text, rendering.text = .ok text ∧ text ≠ ""

/-- A template needs exactly one slot, and the query for it has to build and have text. -/
def Misfits (rendering : Rendering) (template : String) : Prop :=
  slotCount template ≠ 1 ∨ rendering.Fails ∨ rendering.text = .ok ""

end Rendering

/-- What putting a query into a template comes to where the placeholders decide: the only
placeholder gives way to the query, and with none or several the count is at fault. -/
structure PlacedByPlaceholder (template : String) (query : Rendering)
    (outcome : Except Error Fragment) : Prop where
  taken : (∃ fragment, outcome = .ok fragment) ↔
    Text.Quoting.plain.placeholders template.toList = 1
  placed : ∀ fragment, outcome = .ok fragment → ∃ front back sql,
    template.toList = front ++ '?' :: back ∧ front.foldl Text.Quoting.step .plain = .plain ∧
      query.nested = .ok sql ∧
      fragment = ⟨String.ofList front ++ sql ++ String.ofList back, query.params⟩
  none : Text.Quoting.plain.placeholders template.toList = 0 →
    ∃ slots, outcome = .error (.tooManyParameters template slots 1)
  several : 1 < Text.Quoting.plain.placeholders template.toList →
    ∃ slots, outcome = .error (.tooFewParameters template slots 1)

def Condition.Call.Misused : Call → Prop
  | .expression _ _ _ => False
  | .group _ nested => nested.rendering.Fails
  | .query _ template rendering => rendering.Misfits template

namespace SelectStatement

def Call.Unaffected (made : Call) (others : List Call) : Prop :=
  ∀ other ∈ others, other.part = made.part → other.clears = false

def Call.Repeats (made : Call) (before : List Call) : Prop :=
  ∃ first given rest, before = first ++ given :: rest ∧ given.part = made.part ∧
    given.clears = false ∧ made.Unaffected rest

def Call.Misused (before : List Call) (made : Call) : Prop :=
  match made with
  | .distinct => made.Repeats before
  | .all => made.Repeats before
  | .offset _ => made.Repeats before
  | .limit _ => made.Repeats before
  | .sourceQuery template query => query.Misfits template
  | .joinQuery template query => query.Misfits template
  | .condition call => call.Misused
  | .groupCondition call => call.Misused
  | _ => False

/-- Whether there is a misuse that was not cleared later. -/
def Misused (calls : List Call) : Prop :=
  ∃ before made after, calls = before ++ made :: after ∧ made.Misused before ∧
    made.Unaffected after

end SelectStatement

namespace UnionStatement

def Call.Misused (before : List Call) : Call → Prop
  | .branch _ query => query.Fails
  | .orderBy _ => False
  | .offset _ => ∃ count, .offset count ∈ before
  | .limit _ => ∃ count, .limit count ∈ before

def Misused (calls : List Call) : Prop :=
  ∃ before made after, calls = before ++ made :: after ∧ made.Misused before

end UnionStatement

namespace InsertStatement

def Call.Misused (before : List Call) : Call → Prop
  | .table text => text ≠ "" ∧ ∃ earlier, .table earlier ∈ before ∧ earlier ≠ ""
  | .defaultValues => .defaultValues ∈ before
  | .query rendering =>
    rendering.Fails ∨ rendering.HasText ∧ ∃ earlier, .query earlier ∈ before ∧ earlier.HasText
  | _ => False

def Misused (calls : List Call) : Prop :=
  ∃ before made after, calls = before ++ made :: after ∧ made.Misused before

end InsertStatement

namespace UpdateStatement

def Call.Misused (before : List Call) : Call → Prop
  | .table text => text ≠ "" ∧ ∃ earlier, .table earlier ∈ before ∧ earlier ≠ ""
  | .condition call => call.Misused
  | _ => False

def Misused (calls : List Call) : Prop :=
  ∃ before made after, calls = before ++ made :: after ∧ made.Misused before

end UpdateStatement

namespace DeleteStatement

def Call.Misused (before : List Call) : Call → Prop
  | .table text => text ≠ "" ∧ ∃ earlier, .table earlier ∈ before ∧ earlier ≠ ""
  | .condition call => call.Misused
  | .returning _ => False

def Misused (calls : List Call) : Prop :=
  ∃ before made after, calls = before ++ made :: after ∧ made.Misused before

end DeleteStatement

namespace History

def Misused : History → Prop
  | .select calls => SelectStatement.Misused calls
  | .union calls => UnionStatement.Misused calls
  | .insert calls => InsertStatement.Misused calls
  | .update calls => UpdateStatement.Misused calls
  | .delete calls => DeleteStatement.Misused calls
  | .condition calls => ∃ made ∈ calls, made.Misused

inductive Continues (index : Nat) : History → History → Prop
  | select (calls later : List SelectStatement.Call)
      (kept : ∀ made ∈ later, SelectStatement.Part.all[index]? = some made.part →
        made.clears = false) :
      Continues index (.select calls) (.select (calls ++ later))
  | union (calls later : List UnionStatement.Call) :
      Continues index (.union calls) (.union (calls ++ later))
  | insert (calls later : List InsertStatement.Call) :
      Continues index (.insert calls) (.insert (calls ++ later))
  | update (calls later : List UpdateStatement.Call) :
      Continues index (.update calls) (.update (calls ++ later))
  | delete (calls later : List DeleteStatement.Call) :
      Continues index (.delete calls) (.delete (calls ++ later))
  | condition (calls later : List Condition.Call) :
      Continues index (.condition calls) (.condition (calls ++ later))

end History

end SqlCompose
