import Maxscript.Engine.Block
import Maxscript.Writer

/-!
# Conversion

A script is read into the tree of its statements, and that tree is written as the body of a Python
module.
-/

namespace Maxscript

/-- Converts a script, with `unit` for one level of indentation. -/
def convertWith (unit : String) (registry : Registry) (source : String) : Result String := do
  (← readTree registry source).write unit

/-- Converts a script, with a tab for one level of indentation. -/
def convert (registry : Registry) (source : String) : Result String :=
  convertWith "\t" registry source

end Maxscript
