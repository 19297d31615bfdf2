import SqlCompose.Text.Blank

/-! The clauses of a SELECT statement and their keywords. -/
namespace SqlCompose

inductive Clause
  | select
  | source
  | join
  | condition
  | groupBy
  | having
  | orderBy
  | offset
  | limit
  deriving DecidableEq

namespace Clause

def all : List Clause :=
  [.select, .source, .join, .condition, .groupBy, .having, .orderBy, .offset, .limit]

def keyword : Clause → String
  | .select => "SELECT"
  | .source => "FROM"
  | .join => "JOIN"
  | .condition => "WHERE"
  | .groupBy => "GROUP BY"
  | .having => "HAVING"
  | .orderBy => "ORDER BY"
  | .offset => "OFFSET"
  | .limit => "LIMIT"

/-- Whether a text begins with a keyword, in any case of the ASCII letters, and then ends or goes on
with an ASCII blank. -/
def begins : List Char → List Char → Bool
  | [], [] => true
  | [], char :: _ => Text.isAsciiBlank char
  | _ :: _, [] => false
  | letter :: keyword, char :: rest => letter = char.toUpper && begins keyword rest

def at? (text : List Char) : Option Clause :=
  all.find? fun clause => begins clause.keyword.toList text

end Clause

end SqlCompose
