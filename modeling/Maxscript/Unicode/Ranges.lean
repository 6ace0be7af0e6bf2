/-!
# Sets of code points

The properties of the Unicode character database are sets of code points, written as tables in
increasing order. All of them are taken from version 16.0. `Ranges` lists unbroken ranges. `Stride`
also skips: where upper and lower case letters alternate, every second code point has the property.
-/

namespace Maxscript.Unicode

/-- Inclusive ranges of code points, in increasing order. -/
abbrev Ranges := List (Nat × Nat)

/-- Membership in a table of ranges. The search stops at the first range beyond the code point,
so a character of the ASCII block meets only the first few entries of a long table. -/
def Ranges.covers : Ranges → Nat → Bool
  | [], _ => false
  | (first, last) :: rest, code =>
    if code < first then false
    else if code ≤ last then true
    else Ranges.covers rest code

/-- The code points `first`, `first + step`, ... up to `last`. -/
structure Stride where
  first : Nat
  last : Nat
  step : Nat

/-- Whether a code point between the ends is one that the stride touches. -/
def Stride.touches (stride : Stride) (code : Nat) : Bool :=
  stride.first ≤ code && code ≤ stride.last && (code - stride.first) % stride.step == 0

/-- Membership in a table of strides, in increasing order of their first code points. -/
def Stride.anyTouches : List Stride → Nat → Bool
  | [], _ => false
  | stride :: rest, code =>
    if code < stride.first then false
    else stride.touches code || Stride.anyTouches rest code

end Maxscript.Unicode
