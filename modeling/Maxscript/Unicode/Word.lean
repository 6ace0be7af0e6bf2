import Maxscript.Unicode.Alphabetic
import Maxscript.Unicode.Mark
import Maxscript.Unicode.Number

/-!
# Word characters

Two classes decide what a word is. A word is cut out of a text as a run of `isWordCharacter`; a
token is taken for a word when its first character satisfies `isAlphanumeric`. The classes differ:
a superscript digit is alphanumeric and no word character, a combining mark the reverse.
-/

namespace Maxscript.Unicode

/-- General category `Pc`: the low line and the characters used like it. -/
def connector : Ranges :=
  [(0x5F, 0x5F), (0x203F, 0x2040), (0x2054, 0x2054), (0xFE33, 0xFE34), (0xFE4D, 0xFE4F),
   (0xFF3F, 0xFF3F)]

/-- The `Join_Control` property: the zero-width joiner and non-joiner. -/
def joinControl : Ranges :=
  [(0x200C, 0x200D)]

/-- The characters that a run of word characters is made of. -/
def isWordCharacter (c : Char) : Bool :=
  isAlphabetic c || isMark c || isDecimalDigit c || connector.covers c.toNat ||
    joinControl.covers c.toNat

def isAlphanumeric (c : Char) : Bool := isAlphabetic c || isNumber c

end Maxscript.Unicode
