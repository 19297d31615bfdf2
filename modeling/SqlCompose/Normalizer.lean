import SqlCompose.Time.Reader
import SqlCompose.Value.Basic

/-! Normalizers bring values towards the kind that a field takes. -/
namespace SqlCompose

structure Normalizer where
  priority : Int := 0
  apply : Value → Kind → Option Value

namespace Normalizer

def intToFloat : Normalizer where
  apply
    | .int value, .float => some (.float (Number.Binary64.ofInt value.toInt))
    | _, _ => none

def intToBool : Normalizer where
  apply
    | .int value, .bool =>
      if value = 0 then some (.bool false) else if value = 1 then some (.bool true) else none
    | _, _ => none

def bytesToText : Normalizer where
  apply
    | .bytes bytes, .text => (String.fromUTF8? ⟨bytes.toArray⟩).map .text
    | _, _ => none

def textToUuid : Normalizer where
  apply
    | .text text, .uuid => (Uuid.read? (Text.trim text.toList)).map .uuid
    | _, _ => none

def textToTimestamp : Normalizer where
  apply
    | .text text, .timestamp =>
      (Time.Timestamp.readStrict? (Text.trim text.toList)).map .timestamp
    | _, _ => none

def conversions : List (Kind × Kind × Normalizer) :=
  [(.int, .float, .intToFloat), (.int, .bool, .intToBool), (.bytes, .text, .bytesToText),
    (.text, .uuid, .textToUuid), (.text, .timestamp, .textToTimestamp)]

def builtin : List Normalizer := conversions.map fun (_, _, handler) => handler

end Normalizer

/-- Handlers in falling order of priority; among equals the earlier one stands first. -/
structure NormalizerChain where
  handlers : List Normalizer := []

namespace NormalizerChain

def insert (handler : Normalizer) : List Normalizer → List Normalizer
  | [] => [handler]
  | first :: rest =>
    if first.priority < handler.priority then handler :: first :: rest
    else first :: insert handler rest

def push (chain : NormalizerChain) (handler : Normalizer) : NormalizerChain :=
  ⟨insert handler chain.handlers⟩

def ofList (handlers : List Normalizer) : NormalizerChain := handlers.foldl push {}

def standard : NormalizerChain :=
  ofList [.intToFloat, .intToBool, .bytesToText, .textToUuid, .textToTimestamp]

def length (chain : NormalizerChain) : Nat := chain.handlers.length

def isEmpty (chain : NormalizerChain) : Bool := chain.handlers.isEmpty

/-- The first answer of the handlers. A value that none answers for, or that needs no change,
passes as it is. -/
def normalize (chain : NormalizerChain) (value : Value) (target : Kind) : Value :=
  if target = .any || value.isNull || value.kind = target then value
  else (chain.handlers.findSome? fun handler => handler.apply value target).getD value

def describe (chain : NormalizerChain) : String :=
  s!"NormalizerChain \x7b len: {chain.length} \x7d"

/-- The chain holds all built-in handlers, in whatever order and number, and no others. -/
def IsBuiltin (chain : NormalizerChain) : Prop :=
  ∀ handler, handler ∈ chain.handlers ↔ handler ∈ Normalizer.builtin

/-- A handler precedes those of lower priority and, of its own priority, those registered later. -/
def Precedes (first second : Normalizer × Nat) : Prop :=
  second.1.priority < first.1.priority ∨
    second.1.priority = first.1.priority ∧ first.2 < second.2

/-- The registered handler that gives the answer: it precedes all others that have one for the value
and the target. -/
structure Foremost (registered : List (Normalizer × Nat)) (value : Value) (target : Kind)
    (chosen : Normalizer × Nat) : Prop where
  member : chosen ∈ registered
  answers : (chosen.1.apply value target).isSome
  ahead : ∀ other ∈ registered, (other.1.apply value target).isSome → other.2 ≠ chosen.2 →
    Precedes chosen other

end NormalizerChain

end SqlCompose
