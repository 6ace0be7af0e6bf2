import Maxscript.Unicode.Ranges

/-!
# White space

The `White_Space` property. It holds of the line and paragraph separators and of the no-break
space, and not of the zero-width joiner or the byte order mark.
-/

namespace Maxscript.Unicode

def whiteSpace : Ranges :=
  [(0x9, 0xD), (0x20, 0x20), (0x85, 0x85), (0xA0, 0xA0), (0x1680, 0x1680), (0x2000, 0x200A),
   (0x2028, 0x2029), (0x202F, 0x202F), (0x205F, 0x205F), (0x3000, 0x3000)]

def isWhiteSpace (c : Char) : Bool := whiteSpace.covers c.toNat

end Maxscript.Unicode
