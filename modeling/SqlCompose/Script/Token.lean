import Mathlib.Data.List.Infix
import SqlCompose.Error
import SqlCompose.Text.Group

/-! Scripts cut into what is read at once: a literal, a comment, or any other character; and the
groups that the characters open and close. -/
namespace SqlCompose.Script

inductive Token
  | literal (quote : Char) (part : List Char)
  | lineComment (part : List Char)
  | blockComment (part : List Char)
  | char (value : Char)
  deriving DecidableEq

namespace Token

def text : Token → List Char
  | .literal quote part => quote :: part
  | .lineComment part => '-' :: '-' :: part
  | .blockComment part => '/' :: '*' :: (part ++ ['*', '/'])
  | .char value => [value]

def kept : Token → List Char
  | .lineComment _ => []
  | .blockComment _ => [' ']
  | token => token.text

/-- Whether a token is read where a text begins with it and goes on in the given way. A line comment
reaches to a newline or to the end; a block comment to the first mark that closes it. -/
def Stands : Token → List Char → Prop
  | .literal quote part, _ => Text.isQuote quote = true ∧ Text.LiteralEnd quote part
  | .lineComment part, after => '\n' ∉ part ∧ ∀ next ∈ after.head?, next = '\n'
  | .blockComment part, _ => ¬ ['*', '/'] <:+: part ++ ['*']
  | .char value, after =>
    Text.isQuote value = false ∧ ¬ ['-', '-'] <+: value :: after ∧ ¬ ['/', '*'] <+: value :: after

end Token

inductive Reading : List Char → List Token → List Char → Prop
  | stuck (rest : List Char)
      (unread : ∀ (token : Token) after, token.Stands after → rest ≠ token.text ++ after) :
      Reading rest [] rest
  | step (token : Token) (after : List Char) (tokens : List Token) (rest : List Char)
      (stands : token.Stands after) (later : Reading after tokens rest) :
      Reading (token.text ++ after) (token :: tokens) rest

inductive Unclosed : (Nat → ParseFault) → List Char → Prop
  | literal (quote : Char) (rest : List Char) (quoted : Text.isQuote quote = true)
      (unended : ∀ part left, Text.LiteralEnd quote part → rest ≠ part ++ left) :
      Unclosed .unterminatedQuote (quote :: rest)
  | comment (rest : List Char) (unended : ¬ ['*', '/'] <:+: rest) :
      Unclosed .unterminatedComment ('/' :: '*' :: rest)

def cut (tokens : List Token) : List (List Char) :=
  (tokens.splitOn (.char ';')).map (·.flatMap Token.kept)

/-- How many more groups a token opens than it closes. Those in literals and comments do not count. -/
def Token.turn : Token → Int
  | .char '(' => 1
  | .char ')' => -1
  | _ => 0

def depth : List Token → Int
  | [] => 0
  | token :: rest => token.turn + depth rest

structure Balanced (tokens : List Token) : Prop where
  nonnegative : ∀ before, before <+: tokens → 0 ≤ depth before
  balanced : depth tokens = 0

instance (tokens : List Token) : Decidable (Balanced tokens) :=
  decidable_of_iff ((∀ before ∈ tokens.inits, 0 ≤ depth before) ∧ depth tokens = 0)
    ⟨fun all => ⟨fun before inside => all.1 before ((List.mem_inits before tokens).mpr inside),
        all.2⟩,
      fun balanced => ⟨fun before member =>
        balanced.nonnegative before ((List.mem_inits before tokens).mp member), balanced.balanced⟩⟩

end SqlCompose.Script
