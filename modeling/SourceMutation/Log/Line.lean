import SourceMutation.Failure

/-!
# Log lines

What the program writes to its log: a level, and a message.  A message may leave a place for an
elapsed time, which only the outer layer knows.

A traced step writes a line when it starts and one when it ends, whether it ends well or fails.
-/

namespace SourceMutation

/-- How much a log line matters. -/
inductive LogLevel where
  | debug
  | info
  | error
  deriving DecidableEq, Repr

/-- The name of a level. -/
def LogLevel.name : LogLevel → String
  | .debug => "DEBUG"
  | .info => "INFO"
  | .error => "ERROR"

/-- A message, perhaps with a place for an elapsed time. -/
inductive LogMessage where
  | plain (text : String)
  | timed (before after : String)
  deriving DecidableEq, Repr

/-- A message with the elapsed time in its place. -/
def LogMessage.render (elapsed : String) : LogMessage → String
  | .plain text => text
  | .timed before after => before ++ elapsed ++ after

/-- A line of the log. -/
structure LogLine where
  level : LogLevel
  message : LogMessage
  deriving DecidableEq, Repr

namespace LogLine

/-- A line for whoever follows every step. -/
def debug (text : String) : LogLine := ⟨.debug, .plain text⟩

/-- A line for everyone. -/
def info (text : String) : LogLine := ⟨.info, .plain text⟩

/-- A line about a failure. -/
def error (text : String) : LogLine := ⟨.error, .plain text⟩

/-! ## Traced steps -/

/-- The line at the start of a step. -/
def entered (step : String) : LogLine := .debug s!"TRACE_ENTER: {step}"

/-- The line at the end of a step that ends well. -/
def completed (step : String) : LogLine :=
  ⟨.debug, .timed s!"TRACE_EXIT: {step} completed in " ""⟩

/-- The line at the end of a step that fails. -/
def aborted (step : String) (failure : Failure) : LogLine :=
  ⟨.error, .timed s!"TRACE_EXIT: {step} failed after "
    s!" with {failure.category.name}: {failure.message}"⟩

/-- Both lines of a step, by how it ends. -/
def traced {α : Type} (step : String) : Except Failure α → List LogLine
  | .ok _ => [entered step, completed step]
  | .error failure => [entered step, aborted step failure]

end LogLine

end SourceMutation
