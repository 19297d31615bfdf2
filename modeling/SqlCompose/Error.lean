import SqlCompose.Value.Basic

/-! What can go wrong, by cause, and the messages. -/
namespace SqlCompose

inductive Misuse
  | noSeparator (clause fragment text : String)
  | noLead (text : String)
  | noTrail (text : String)
  | noSelectLead
  | emptyQuery (template : String)
  | stated (message : String)

def Misuse.message : Misuse → String
  | .noSeparator clause fragment text =>
    s!"no separator configured for '{clause}' clause; cannot append '{fragment}' after '{text}'"
  | .noLead text => s!"cannot render '{text}' without a prefix"
  | .noTrail text => s!"cannot render '{text}' without a suffix"
  | .noSelectLead => "cannot render SELECT clause without a prefix"
  | .emptyQuery template => s!"cannot substitute an empty query into '{template}'"
  | .stated message => message

/-- Why a text could not be cut up. The places are counted in bytes from its beginning. -/
inductive ParseFault
  | unterminatedQuote (place : Nat)
  | unterminatedComment (place : Nat)
  | unbalancedParenthesis (place : Nat)
  | disorder
  | stated (message : String)

def ParseFault.message : ParseFault → String
  | .unterminatedQuote place => s!"unterminated quote at byte {place}"
  | .unterminatedComment place => s!"unterminated block comment at byte {place}"
  | .unbalancedParenthesis place => s!"unbalanced parenthesis at byte {place}"
  | .disorder => "chunks out of clause order or repeated"
  | .stated message => message

inductive ConversionFault
  | mismatch (expected found : Kind)
  | outOfRange (value : Int64)
  | stated (expected found : String)

def ConversionFault.expected : ConversionFault → String
  | .mismatch expected _ => expected.name
  | .outOfRange _ => "i32"
  | .stated expected _ => expected

def ConversionFault.found : ConversionFault → String
  | .mismatch _ found => found.name
  | .outOfRange value => s!"out of range integer {value.toInt}"
  | .stated _ found => found

def ConversionFault.message (fault : ConversionFault) : String :=
  s!"Conversion error: expected {fault.expected}, found {fault.found}"

inductive DecodeFault
  | missing
  | conversion (cause : ConversionFault)
  | stated (message : String)

def DecodeFault.message : DecodeFault → String
  | .missing => "column not found in row"
  | .conversion cause => cause.message
  | .stated message => message

inductive FileFault
  | missing
  | notText
  | stated (message : String)

def FileFault.message : FileFault → String
  | .missing => "No such file or directory (os error 2)"
  | .notText => "stream did not contain valid UTF-8"
  | .stated message => message

inductive Error
  | misuse (cause : Misuse)
  | parse (cause : ParseFault) (chunks : List String) (sql : String)
  | tooManyParameters (template : String) (slots given : Nat)
  | tooFewParameters (template : String) (slots given : Nat)
  | decode (column : String) (cause : DecodeFault)
  | conversion (cause : ConversionFault)
  | file (cause : FileFault)

namespace Error

def message : Error → String
  | .misuse cause => "Builder misuse: " ++ cause.message
  | .parse cause chunks sql =>
    "Parse error: " ++ cause.message ++ " (chunks: [" ++ ", ".intercalate chunks ++ "]) in \x60" ++
      sql ++ "\x60"
  | .tooManyParameters template slots given =>
    s!"Too many parameters: \x60{template}\x60 has {slots} placeholder(s), {given} supplied"
  | .tooFewParameters template slots given =>
    s!"Too few parameters: \x60{template}\x60 has {slots} placeholder(s), {given} supplied"
  | .decode column cause => s!"Decode error on column '{column}': {cause.message}"
  | .conversion cause => cause.message
  | .file cause => "I/O error: " ++ cause.message

def isMisuse : Error → Bool
  | .misuse _ => true
  | _ => false

def isParse : Error → Bool
  | .parse _ _ _ => true
  | _ => false

def isParameterCount : Error → Bool
  | .tooManyParameters _ _ _ => true
  | .tooFewParameters _ _ _ => true
  | _ => false

/-- Two errors are the same when they are of one sort and all their parts read the same. -/
def same : Error → Error → Bool
  | .misuse first, .misuse second => first.message = second.message
  | .parse first chunks sql, .parse second others text =>
    first.message = second.message && chunks = others && sql = text
  | .tooManyParameters first slots given, .tooManyParameters second others received =>
    first = second && slots = others && given = received
  | .tooFewParameters first slots given, .tooFewParameters second others received =>
    first = second && slots = others && given = received
  | .decode column first, .decode other second =>
    column = other && first.message = second.message
  | .conversion first, .conversion second =>
    first.expected = second.expected && first.found = second.found
  | .file first, .file second => first.message = second.message
  | _, _ => false

instance : BEq Error := ⟨same⟩

end Error

def checkParameterCount (template : String) (slots given : Nat) : Except Error Unit :=
  if slots = given then .ok ()
  else if slots < given then .error (.tooManyParameters template slots given)
  else .error (.tooFewParameters template slots given)

end SqlCompose
