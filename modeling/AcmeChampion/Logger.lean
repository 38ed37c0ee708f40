import AcmeChampion.Config
import AcmeChampion.Time

/-!
# Log lines

`formatRecord` is the text written for a log record.  The styles are those of the terminal: what
switches one on and off is a text of its own, without line feeds.
-/

namespace AcmeChampion

open Lines

namespace Logger

inductive Level
  | error
  | warn
  | info
  | debug
  | trace
  deriving DecidableEq, Repr

def Level.fmt : Level → String
  | .error => "ERROR"
  | .warn => "WARN"
  | .info => "INFO"
  | .debug => "DEBUG"
  | .trace => "TRACE"

/-- What `{style}` and `{style:#}` write. -/
structure Style where
  set : String
  reset : String
  inline_set : Inline set
  inline_reset : Inline reset

/-- The formatter's styles. -/
structure Styles where
  dimmed : Style
  defaultLevelStyle : Level → Style
  bold : Style → Style

/-- What is logged; a value is the text it is displayed as. -/
structure Record where
  level : Level
  target : String
  args : String
  keyValues : List (String × String)
  deriving DecidableEq

def needsEscape : List Char := [' ', '"', '\\']

/-- The value as it is written, quoted and escaped if it needs to be. -/
def formatValue (tables : CharTables) (value : String) : String :=
  if value.toList.any (needsEscape.contains ·) then "\"" ++ escapeDebug tables value ++ "\""
  else value

def visitPair (format : LogFormat) (styles : Styles) (tables : CharTables) (style : Style)
    (key value : String) : String :=
  let keyStyle := styles.bold style
  (match format with
    | .plain => " " ++ keyStyle.set ++ key ++ keyStyle.reset ++ style.set ++ "="
    | .pretty => ", " ++ keyStyle.set ++ key ++ keyStyle.reset ++ style.set ++ ": ") ++
    formatValue tables value

def formatRecord (format : LogFormat) (styles : Styles) (tables : CharTables) (t : Time)
    (record : Record) : String :=
  let levelStyle := styles.defaultLevelStyle record.level
  let boldStyle := styles.bold levelStyle
  styles.dimmed.set ++ t.fmt ++ styles.dimmed.reset ++ " " ++ levelStyle.set ++
    spacePadded 5 record.level.fmt ++ " " ++ boldStyle.set ++ record.target ++ boldStyle.reset ++
    levelStyle.set ++ ": " ++ record.args ++
    String.join (record.keyValues.map fun kv =>
      visitPair format styles tables levelStyle kv.1 kv.2) ++
    levelStyle.reset ++ "\n"

end Logger

end AcmeChampion
