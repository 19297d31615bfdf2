import SqlCompose.Error
import SqlCompose.Text.Blank

/-! Phrases: text put together from fragments, between a lead and a trail. A phrase that misuse
has struck keeps the first fault and takes no more fragments. -/
namespace SqlCompose

structure Phrase where
  lead : Option String := some ""
  trail : Option String := some ""
  /-- What stands between two fragments; without it a phrase takes one fragment. -/
  separator : Option String := none
  fallback : Option String := none
  /-- What stands before the next fragment in place of the separator, once. -/
  localLead : Option String := none
  text : String := ""
  count : Nat := 0
  /-- Whether a fragment came from the caller. -/
  hasText : Bool := false
  fault : Option Error := none
  deriving BEq

namespace Phrase

def wrapped (lead : String) (separator : Option String) (trail : String) : Phrase :=
  { lead := some lead, separator, trail := some trail }

def clause (keyword : String) (separator : Option String) : Phrase := wrapped keyword separator ""

def isEmpty (phrase : Phrase) : Bool := !phrase.hasText

def separatedBy (phrase : Phrase) (separator : String) : Phrase :=
  { phrase with separator := some separator }

def fail (phrase : Phrase) (error : Error) : Phrase :=
  { phrase with fault := phrase.fault <|> some error }

def attach (phrase : Phrase) (joint fragment : String) (given : Bool) : Phrase :=
  { phrase with
    text := phrase.text ++ joint ++ fragment
    count := phrase.count + 1
    hasText := phrase.hasText || given }

/-- Adds a fragment behind the local lead, or else behind the separator if one has gone before. -/
def emit (phrase : Phrase) (fragment : String) (given : Bool) : Phrase :=
  match phrase.localLead with
  | some lead => { phrase with localLead := none }.attach lead fragment given
  | none =>
    if phrase.count = 0 then phrase.attach "" fragment given
    else match phrase.separator with
      | some separator => phrase.attach separator fragment given
      | none =>
        phrase.fail (.misuse (.noSeparator (Text.trimmed (phrase.lead.getD "")) fragment
          phrase.text))

/-- Adds a fragment. An empty one is replaced by the fallback, or dropped without one. -/
def append (phrase : Phrase) (fragment : String) : Phrase :=
  if phrase.fault.isSome then phrase
  else if fragment.isEmpty then
    match phrase.fallback with
    | some fallback => phrase.emit fallback false
    | none => phrase
  else phrase.emit fragment true

def appendAll (phrase : Phrase) (fragments : List String) : Phrase :=
  fragments.foldl append phrase

/-- Drops the text and the fault. The local lead and the other settings stay. -/
def reset (phrase : Phrase) : Phrase :=
  { phrase with text := "", count := 0, hasText := false, fault := none }

inductive Call
  | setLead (text : Option String)
  | setTrail (text : Option String)
  | setSeparator (text : Option String)
  | setLocalLead (text : Option String)
  | setFallback (text : Option String)
  | append (fragment : String)
  | appendAll (fragments : List String)
  | reset

def call (phrase : Phrase) : Call → Phrase
  | .setLead text => { phrase with lead := text }
  | .setTrail text => { phrase with trail := text }
  | .setSeparator text => { phrase with separator := text }
  | .setLocalLead text => { phrase with localLead := text }
  | .setFallback text => { phrase with fallback := text }
  | .append fragment => phrase.append fragment
  | .appendAll fragments => phrase.appendAll fragments
  | .reset => phrase.reset

def renderWith (phrase : Phrase) (lead : Option String) : Except Error String :=
  match phrase.fault with
  | some error => .error error
  | none =>
    if phrase.isEmpty then .ok ""
    else match lead, phrase.trail with
      | none, _ => .error (.misuse (.noLead phrase.text))
      | some _, none => .error (.misuse (.noTrail phrase.text))
      | some lead, some trail => .ok (lead ++ phrase.text ++ trail)

def render (phrase : Phrase) : Except Error String := phrase.renderWith phrase.lead

def renderHeadless (phrase : Phrase) : Except Error String := phrase.renderWith (some "")

/-- Replaces the text by a single fragment that was there before, and the lead with it. -/
def hydrate (phrase : Phrase) (lead body : String) : Phrase :=
  let cleared := { phrase.reset with lead := some lead }
  if body.isEmpty then cleared else cleared.attach "" body true

end Phrase

structure Fragment where
  text : String
  params : List Value

structure BoundPhrase where
  phrase : Phrase := {}
  params : List Value := []
  deriving BEq

namespace BoundPhrase

def append (bound : BoundPhrase) (fragment : String) : BoundPhrase :=
  { bound with phrase := bound.phrase.append fragment }

def appendAll (bound : BoundPhrase) (fragments : List String) : BoundPhrase :=
  { bound with phrase := bound.phrase.appendAll fragments }

/-- Records parameters, whether or not their fragment left any text. -/
def bind (bound : BoundPhrase) (params : List Value) : BoundPhrase :=
  { bound with params := bound.params ++ params }

def fail (bound : BoundPhrase) (error : Error) : BoundPhrase :=
  { bound with phrase := bound.phrase.fail error }

def add (bound : BoundPhrase) (fragment : Fragment) : BoundPhrase :=
  (bound.append fragment.text).bind fragment.params

def take (bound : BoundPhrase) : Except Error Fragment → BoundPhrase
  | .ok fragment => bound.add fragment
  | .error error => bound.fail error

def takeBehind (bound : BoundPhrase) (separator : String) : Except Error Fragment → BoundPhrase
  | .ok fragment => { bound with phrase := bound.phrase.separatedBy separator }.add fragment
  | .error error => bound.fail error

def reset (bound : BoundPhrase) : BoundPhrase := ⟨bound.phrase.reset, []⟩

def hydrate (bound : BoundPhrase) (lead body : String) : BoundPhrase :=
  ⟨bound.phrase.hydrate lead body, []⟩

def render (bound : BoundPhrase) : Except Error String := bound.phrase.render

end BoundPhrase

def joinClauses (clauses : List String) : String :=
  " ".intercalate (clauses.filter fun clause => !clause.isEmpty)

end SqlCompose
