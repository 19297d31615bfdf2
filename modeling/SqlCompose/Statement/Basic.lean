import SqlCompose.Error
import SqlCompose.Text.Quoting

/-! Built statements: SQL text with question marks as placeholders, and the parameters in their
order. A question mark in a quoted literal is no placeholder; an unclosed literal reaches to the
end of the text. -/
namespace SqlCompose

inductive PlaceholderStyle
  | question
  | dollar
  deriving DecidableEq

def Text.Quoting.placeholders : Quoting → List Char → Nat
  | _, [] => 0
  | .plain, '?' :: rest => placeholders .plain rest + 1
  | state, char :: rest => placeholders (state.step char) rest

def Text.Quoting.numbered : Quoting → Nat → List Char → List Char
  | _, _, [] => []
  | .plain, count, '?' :: rest =>
    '$' :: Nat.toDigits 10 (count + 1) ++ numbered .plain (count + 1) rest
  | state, count, char :: rest => char :: numbered (state.step char) count rest

structure Statement where
  sql : String
  params : List Value
  deriving BEq

namespace Statement

def placeholderCount (statement : Statement) : Nat :=
  Text.Quoting.plain.placeholders statement.sql.toList

def validate (statement : Statement) : Except Error Unit :=
  checkParameterCount statement.sql statement.placeholderCount statement.params.length

def render (statement : Statement) : PlaceholderStyle → String
  | .question => statement.sql
  | .dollar => String.ofList (Text.Quoting.plain.numbered 0 statement.sql.toList)

end Statement

end SqlCompose
