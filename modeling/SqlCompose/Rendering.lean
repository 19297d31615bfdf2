import SqlCompose.Phrase
import SqlCompose.Statement.Log

/-! What a builder renders to, and how one statement is set into another. -/
namespace SqlCompose

structure Rendering where
  text : Except Error String
  /-- Whether the text brings its own parentheses. -/
  enclosed : Bool := false
  params : List Value

namespace Rendering

def nested (rendering : Rendering) : Except Error String :=
  if rendering.enclosed then rendering.text
  else rendering.text.map fun sql => "(" ++ sql ++ ")"

def fragment (rendering : Rendering) : Except Error Fragment :=
  rendering.text.map fun sql => ⟨sql, rendering.params⟩

theorem fragment_eq_ok_iff (rendering : Rendering) (fragment : Fragment) :
    rendering.fragment = .ok fragment ↔
      rendering.text = .ok fragment.text ∧ fragment.params = rendering.params := by
  obtain ⟨text, params⟩ := fragment
  unfold Rendering.fragment
  cases rendering.text <;> simp [Except.map, eq_comm]

theorem fragment_eq_error_iff (rendering : Rendering) (error : Error) :
    rendering.fragment = .error error ↔ rendering.text = .error error := by
  unfold Rendering.fragment
  cases rendering.text <;> simp [Except.map]

def statement (rendering : Rendering) : Except Error Statement :=
  rendering.text.map fun sql => ⟨sql, rendering.params⟩

def build (rendering : Rendering) (config : RenderConfig) : Except Error (Statement × LogEvent) :=
  rendering.statement.map fun statement => (statement, config.event statement)

end Rendering

/-- A slot of a template is any question mark. -/
def slotCount (template : String) : Nat := template.toList.count '?'

def fillSlot (filling : List Char) : List Char → List Char
  | [] => []
  | char :: rest => if char = '?' then filling ++ rest else char :: fillSlot filling rest

/-- Puts a query into the only slot of a template. The query must have text. -/
def substitute (template : String) (query : Rendering) : Except Error Fragment := do
  checkParameterCount template (slotCount template) 1
  let text ← query.text
  if text.isEmpty then throw (.misuse (.emptyQuery template))
  let nested ← query.nested
  return ⟨String.ofList (fillSlot nested.toList template.toList), query.params⟩

end SqlCompose
