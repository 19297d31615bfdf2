import SqlCompose.Statement.Basic
import SqlCompose.Text.Bytes

/-! How statements are rendered and logged. A long text is cut in the log, never in the
statement. -/
namespace SqlCompose

inductive LogLevel
  | error
  | warn
  | info
  | debug
  | trace
  deriving DecidableEq

def LogLevel.name : LogLevel → String
  | .error => "ERROR"
  | .warn => "WARN"
  | .info => "INFO"
  | .debug => "DEBUG"
  | .trace => "TRACE"

structure RenderConfig where
  placeholder : PlaceholderStyle := .question
  level : LogLevel := .debug
  budget : Option Nat := some 200

structure LogEvent where
  level : LogLevel
  sql : String
  paramCount : Nat

namespace RenderConfig

def render (config : RenderConfig) (statement : Statement) : String :=
  statement.render config.placeholder

/-- A text within the budget stays whole. Of any other the longest whole-character beginning that
fits is kept, with three dots behind it. -/
def abridge (config : RenderConfig) (sql : String) : String :=
  match config.budget with
  | some budget =>
    if sql.utf8ByteSize ≤ budget then sql
    else String.ofList (Text.fitting budget sql.toList) ++ "..."
  | none => sql

def event (config : RenderConfig) (statement : Statement) : LogEvent :=
  ⟨config.level, config.abridge (config.render statement), statement.params.length⟩

end RenderConfig

end SqlCompose
