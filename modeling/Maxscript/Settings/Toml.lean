import Maxscript.Text

/-!
# TOML

The part of the TOML format that settings are written in: tables, dotted keys, inline tables,
strings on one line, booleans and integers, with a comment after any of them. Nothing of it goes
over the end of a line, so that a document is read line by line.

A document is kept flat: every table and every value stands under the keys that lead to it. A key
has one value, and a table is opened once.
-/

namespace Maxscript.Toml

abbrev KeyPath := List String

inductive Value where
  | text (value : String)
  | boolean (value : Bool)
  | integer (value : Int)
  | table (fields : List (KeyPath × Value))

inductive Line where
  | blank
  | header (path : KeyPath)
  | assignment (path : KeyPath) (value : Value)

def skipBlanks (cs : List Char) : List Char := cs.dropWhile fun c => c == ' ' || c == '\t'

/-- Characters that may not be written as they are. -/
def isControl (c : Char) : Bool := (c.toNat < 32 && c != '\t') || c.toNat == 127

def isLineEnd (cs : List Char) : Bool :=
  match skipBlanks cs with
  | [] => true
  | '#' :: comment => !comment.any isControl
  | _ => false

def hexDigit? (c : Char) : Option Nat :=
  if c.isDigit then some (c.toNat - 48)
  else if 'a' ≤ c ∧ c ≤ 'f' then some (c.toNat - 87)
  else if 'A' ≤ c ∧ c ≤ 'F' then some (c.toNat - 55)
  else none

/-- The number that digits of a base write, the most significant first. -/
def numeral? (base : Nat) (digits : List Char) : Option Nat :=
  digits.foldlM (fun value c => do
    let digit ← hexDigit? c
    if digit < base then some (value * base + digit) else none) 0

/-- The character with the code point that hexadecimal digits write. -/
def codePoint? (digits : List Char) : Option Char := do
  let code ← numeral? 16 digits
  if code.isValidChar then some (Char.ofNat code) else none

def escape? (c : Char) : Option Char :=
  [('b', '\x08'), ('t', '\t'), ('n', '\n'), ('f', '\x0c'), ('r', '\r'), ('"', '"'),
    ('\\', '\\')].lookup c

/-- A string in double quotes, from its first character on, and what comes after it. -/
def basicString? : List Char → Option (List Char × List Char)
  | [] => none
  | '"' :: rest => some ([], rest)
  | '\\' :: 'u' :: a :: b :: c :: d :: rest => do
    let char ← codePoint? [a, b, c, d]
    let (text, rest) ← basicString? rest
    return (char :: text, rest)
  | '\\' :: 'U' :: a :: b :: c :: d :: e :: f :: g :: h :: rest => do
    let char ← codePoint? [a, b, c, d, e, f, g, h]
    let (text, rest) ← basicString? rest
    return (char :: text, rest)
  | '\\' :: c :: rest => do
    let char ← escape? c
    let (text, rest) ← basicString? rest
    return (char :: text, rest)
  | c :: rest => do
    if isControl c || c == '\\' then none
    else
      let (text, rest) ← basicString? rest
      return (c :: text, rest)

/-- A string in single quotes, from its first character on, and what comes after it. -/
def literalString? : List Char → Option (List Char × List Char)
  | [] => none
  | '\'' :: rest => some ([], rest)
  | c :: rest => do
    if isControl c then none
    else
      let (text, rest) ← literalString? rest
      return (c :: text, rest)

def string? : List Char → Option (String × List Char)
  | '"' :: rest => (basicString? rest).map fun (text, rest) => (String.ofList text, rest)
  | '\'' :: rest => (literalString? rest).map fun (text, rest) => (String.ofList text, rest)
  | _ => none

/-- The characters of a key that needs no quotes. -/
def isBareKey (c : Char) : Bool := c.isAlphanum || c == '_' || c == '-'

def simpleKey? (cs : List Char) : Option (String × List Char) :=
  match string? cs with
  | some key => some key
  | none =>
    let key := cs.takeWhile isBareKey
    if key.isEmpty then none else some (String.ofList key, cs.dropWhile isBareKey)

/-- Keys with dots between them. There are at most as many as `limit`. -/
def dottedKey? : (limit : Nat) → List Char → Option (KeyPath × List Char)
  | 0, _ => none
  | limit + 1, cs => do
    let (key, rest) ← simpleKey? (skipBlanks cs)
    match skipBlanks rest with
    | '.' :: rest =>
      let (keys, rest) ← dottedKey? limit rest
      return (key :: keys, rest)
    | rest => return ([key], rest)

/-- Digits with single underscores between them, without the underscores. -/
def plainDigits? : List Char → Option (List Char)
  | [] => none
  | [c] => if c == '_' then none else some [c]
  | c :: '_' :: rest => if c == '_' then none else (plainDigits? rest).map (c :: ·)
  | c :: rest => if c == '_' then none else (plainDigits? rest).map (c :: ·)

/-- A decimal number without a sign, which has no needless zero in front. -/
def decimal? (cs : List Char) : Option Nat := do
  let digits ← plainDigits? cs
  if digits.head? == some '0' && digits.length > 1 then none else numeral? 10 digits

/-- A number that can be a value: one of 64 bits, with its sign. -/
def inRange? (n : Int) : Option Int :=
  if -9223372036854775808 ≤ n ∧ n ≤ 9223372036854775807 then some n else none

/-- An integer, in decimal with an optional sign or in another base without one. -/
def integer? : List Char → Option Int
  | '0' :: 'x' :: rest => do inRange? (← numeral? 16 (← plainDigits? rest))
  | '0' :: 'o' :: rest => do inRange? (← numeral? 8 (← plainDigits? rest))
  | '0' :: 'b' :: rest => do inRange? (← numeral? 2 (← plainDigits? rest))
  | '+' :: rest => do inRange? (← decimal? rest)
  | '-' :: rest => do inRange? (-(← decimal? rest : Nat))
  | cs => do inRange? (← decimal? cs)

/-- A boolean or an integer: a run of the characters that these are written with. -/
def word? (cs : List Char) : Option (Value × List Char) := do
  let isWord (c : Char) := c.isAlphanum || c == '_' || c == '+' || c == '-'
  let rest := cs.dropWhile isWord
  match cs.takeWhile isWord with
  | ['t', 'r', 'u', 'e'] => return (.boolean true, rest)
  | ['f', 'a', 'l', 's', 'e'] => return (.boolean false, rest)
  | word => return (.integer (← integer? word), rest)

mutual

/-- A value, and what comes after it. Tables are nested at most `limit` deep. -/
def value? : (limit : Nat) → List Char → Option (Value × List Char)
  | 0, _ => none
  | limit + 1, cs =>
    match cs with
    | '\x7b' :: rest =>
      match skipBlanks rest with
      | '\x7d' :: rest => some (.table [], rest)
      | rest => (fields? limit rest).map fun (fields, rest) => (.table fields, rest)
    | _ =>
      match string? cs with
      | some (text, rest) => some (.text text, rest)
      | none => word? cs

/-- The fields of an inline table up to its closing bracket, with commas between them. -/
def fields? : (limit : Nat) → List Char → Option (List (KeyPath × Value) × List Char)
  | 0, _ => none
  | limit + 1, cs => do
    let (path, value, rest) ← field? limit cs
    match skipBlanks rest with
    | ',' :: rest =>
      let (fields, rest) ← fields? limit rest
      return ((path, value) :: fields, rest)
    | '\x7d' :: rest => return ([(path, value)], rest)
    | _ => none

def field? : (limit : Nat) → List Char → Option (KeyPath × Value × List Char)
  | 0, _ => none
  | limit + 1, cs => do
    let (path, rest) ← dottedKey? (limit + 1) cs
    match skipBlanks rest with
    | '=' :: rest =>
      let (value, rest) ← value? limit (skipBlanks rest)
      return (path, value, rest)
    | _ => none

end

def line? (cs : List Char) : Option Line := do
  let limit := 3 * cs.length + 3
  if isLineEnd cs then return .blank
  else match skipBlanks cs with
    | '[' :: rest =>
      let (path, rest) ← dottedKey? limit rest
      match skipBlanks rest with
      | ']' :: rest => if isLineEnd rest then return .header path else none
      | _ => none
    | rest =>
      let (path, value, rest) ← field? limit rest
      if isLineEnd rest then return .assignment path value else none

/-- How a table came to be, which decides how it may grow. -/
inductive Origin where
  /-- It was opened by a header of its own. -/
  | header
  /-- A header of a table in it was seen. -/
  | implied
  /-- A dotted key leads through it. -/
  | dotted
  /-- It was written as a value, and is complete. -/
  | inline
deriving DecidableEq

inductive Entry where
  | table (origin : Origin)
  | text (value : String)
  | boolean (value : Bool)
  | integer (value : Int)
deriving DecidableEq

/-- Tables and values by their paths, the latest first. -/
abbrev Document := List (KeyPath × Entry)

namespace Document

/-- Goes through the table at `path` on the way to one that a header opens. -/
def implyTable? (document : Document) (path : KeyPath) : Option Document :=
  match document.lookup path with
  | none => some ((path, .table .implied) :: document)
  | some (.table origin) => if origin = .inline then none else some document
  | some _ => none

/-- The paths to the tables that a path leads through, under `table`. -/
def through (table : KeyPath) (path : KeyPath) : List KeyPath :=
  (List.range (path.length - 1)).map fun n => table ++ path.take (n + 1)

def openTable? (document : Document) (path : KeyPath) : Option Document := do
  let document ← (through [] path).foldlM implyTable? document
  match document.lookup path with
  | none => some ((path, .table .header) :: document)
  | some (.table .implied) => some ((path, .table .header) :: document)
  | some _ => none

/-- Goes through the table at `path` on the way to a dotted key. The table that holds the key must
belong to dotted keys alone. -/
def enterTable? (document : Document) (path : KeyPath) (isLast : Bool) : Option Document :=
  match document.lookup path with
  | none => some ((path, .table .dotted) :: document)
  | some (.table .dotted) => some document
  | some (.table .implied) => if isLast then none else some document
  | some _ => none

/-- Makes the place for a value under a dotted key in `table`. -/
def makePlace? (document : Document) (table path : KeyPath) : Option Document := do
  let tables := through table path
  let document ← tables.foldlM (fun document path =>
    document.enterTable? path (path.length == table.length + tables.length)) document
  match document.lookup (table ++ path) with
  | none => some document
  | some _ => none

mutual

def assign? (document : Document) (table path : KeyPath) : Value → Option Document
  | .text value => do return (table ++ path, .text value) :: (← document.makePlace? table path)
  | .boolean value => do
    return (table ++ path, .boolean value) :: (← document.makePlace? table path)
  | .integer value => do
    return (table ++ path, .integer value) :: (← document.makePlace? table path)
  | .table fields => do
    let document ← document.makePlace? table path
    assignAll? ((table ++ path, .table .inline) :: document) (table ++ path) fields

def assignAll? (document : Document) (table : KeyPath) :
    List (KeyPath × Value) → Option Document
  | [] => some document
  | (path, value) :: rest => do assignAll? (← assign? document table path value) table rest

end

/-- Takes lines into a document, under the table that was opened last. -/
def takeLines? (document : Document) (table : KeyPath) : List (List Char) → Option Document
  | [] => some document
  | cs :: rest => do
    match ← line? cs with
    | .blank => takeLines? document table rest
    | .header path => takeLines? (← document.openTable? path) path rest
    | .assignment path value => takeLines? (← document.assign? table path value) table rest

end Document

/-- Drops the byte order mark from the front. -/
def dropMark : List Char → List Char
  | '\ufeff' :: rest => rest
  | cs => cs

def parse? (content : String) : Option Document :=
  Document.takeLines? [] [] (Text.lines (dropMark content.toList))

end Maxscript.Toml
