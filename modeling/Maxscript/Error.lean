/-!
# Conversion errors

Bad nesting is never an error. A cast to a type that has no Python counterpart is one, because
nothing sensible can be written for it. `internal` is for a fault of the reader itself.
-/

namespace Maxscript

/-- Why a script was not converted. -/
inductive ConvertError where
  | unsupportedCast (typeName : String)
  | internal (detail : String)
deriving DecidableEq, Repr

namespace ConvertError

/-- A fixed name for the kind of error. -/
def kind : ConvertError → String
  | .unsupportedCast _ => "unsupported-cast"
  | .internal _ => "internal"

def message : ConvertError → String
  | .unsupportedCast typeName => "unsupported cast type `" ++ typeName ++ "`"
  | .internal detail => "internal error: " ++ detail

end ConvertError

end Maxscript
