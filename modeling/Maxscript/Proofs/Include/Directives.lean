import Maxscript.Include
import Maxscript.Proofs.LineEnds
import Maxscript.Proofs.Token.Hyphens

/-!
# Where directives stand

A directive is found wherever the word `include` stands before blanks and a text in double quotes,
and the text may go on over several lines. So whether a place lies in a directive is told by what
comes before it, up to the quote that opens one (`isOpen`), and by a quote behind it that closes it.
Where a script is cut between two lines and outside of directives, its parts are those of the two
pieces. Uniform line ends change nothing of this.
-/

namespace Maxscript.Include

open Text (AtLineStart AtLineEnd unifyLineEnds)

/-! ### Openings -/

/-- The word that a directive starts with, and a blank. -/
def word : List Char := ['i', 'n', 'c', 'l', 'u', 'd', 'e', ' ']

/-- The text behind the quote of a directive that starts here, whether or not it is closed. -/
def opening? (cs : List Char) : Option (List Char) :=
  let behind := (cs.drop 8).dropWhile (· == ' ')
  if word.isPrefixOf cs ∧ behind.head? = some '"' then some behind.tail else none

theorem dropWhile_blanks {blanks : List Char} (blank : ∀ c ∈ blanks, c = ' ')
    (quoted : List Char) :
    ((word ++ (blanks ++ '"' :: quoted)).drop 8).dropWhile (· == ' ') = '"' :: quoted := by
  have behind : (word ++ (blanks ++ '"' :: quoted)).drop 8 = blanks ++ '"' :: quoted := rfl
  rw [behind, List.dropWhile_append_of_pos fun c member => by simp [blank c member]]
  rfl

/-- An opening is the word, a blank, more blanks and a quote. Nothing else may stand between the
word and the quote, not even a tab. -/
theorem opening?_eq_some_iff {cs quoted : List Char} :
    opening? cs = some quoted ↔
      ∃ blanks, cs = word ++ (blanks ++ '"' :: quoted) ∧ ∀ c ∈ blanks, c = ' ' := by
  constructor
  · intro found
    obtain ⟨⟨starts, quote⟩, tail⟩ := Option.ite_none_right_eq_some.mp found
    obtain ⟨rest, rfl⟩ := List.isPrefixOf_iff_prefix.mp starts
    obtain ⟨inner, shape⟩ := List.head?_eq_some_iff.mp quote
    have behind : rest.dropWhile (· == ' ') = '"' :: inner := shape
    rw [shape, List.tail_cons] at tail
    obtain rfl := Option.some.inj tail
    have whole := (List.takeWhile_append_dropWhile (p := (· == ' ')) (l := rest)).symm
    rw [behind] at whole
    refine ⟨rest.takeWhile (· == ' '), by rw [← whole], ?_⟩
    intro c member
    simpa using List.mem_takeWhile_imp member
  · rintro ⟨blanks, rfl, blank⟩
    have starts :=
      List.isPrefixOf_iff_prefix.mpr (List.prefix_append word (blanks ++ '"' :: quoted))
    simp only [opening?, dropWhile_blanks blank, starts, List.head?_cons, List.tail_cons, and_self,
      ↓reduceIte]

theorem closeQuote?_of_dropWhile {quoted rest : List Char} {c : Char}
    (found : quoted.dropWhile (· != '"') = c :: rest) :
    Token.closeQuote? '"' quoted = some (quoted.takeWhile (· != '"'), rest) := by
  have stops := List.head?_dropWhile_not (· != '"') quoted
  rw [found] at stops
  have isQuote : c = '"' := by simpa using stops
  have whole := (List.takeWhile_append_dropWhile (p := (· != '"')) (l := quoted)).symm
  rw [found, isQuote] at whole
  have absent : '"' ∉ quoted.takeWhile (· != '"') := by
    intro member
    simpa using List.mem_takeWhile_imp member
  conv_lhs => rw [whole, Token.closeQuote?_append absent]

theorem closeQuote?_of_dropWhile_nil {quoted : List Char}
    (nothing : quoted.dropWhile (· != '"') = []) : Token.closeQuote? '"' quoted = none := by
  rw [Token.closeQuote?_eq_none_iff]
  intro member
  simpa using List.dropWhile_eq_nil_iff.mp nothing '"' member

theorem directive?_of_opening? {cs quoted : List Char} (opened : opening? cs = some quoted) :
    directive? cs =
      (Token.closeQuote? '"' quoted).map fun cut => (String.ofList cut.1, cut.2) := by
  obtain ⟨blanks, rfl, blank⟩ := opening?_eq_some_iff.mp opened
  rw [directive?, dropWhile_blanks blank, ← word,
    if_pos (List.isPrefixOf_iff_prefix.mpr (List.prefix_append word _))]
  split
  · next inner same =>
      obtain rfl := (List.cons.inj same).2
      split
      · next found => rw [closeQuote?_of_dropWhile found, Option.map_some]
      · next nothing => rw [closeQuote?_of_dropWhile_nil nothing, Option.map_none]
  · next other => exact absurd rfl (other quoted)

theorem directive?_of_not_opening? {cs : List Char} (unopened : opening? cs = none) :
    directive? cs = none := by
  rw [directive?]
  split
  · next starts =>
      split
      · next quoted shape =>
          have opened : opening? cs = some quoted := by
            rw [opening?, shape]
            exact if_pos ⟨starts, rfl⟩
          rw [unopened] at opened
          cases opened
      · rfl
  · rfl

/-- A directive is an opening with a quote behind it. The name of the file is what stands between
the two quotes, line breaks included. -/
theorem directive?_eq (cs : List Char) :
    directive? cs = (opening? cs).bind fun quoted =>
      (Token.closeQuote? '"' quoted).map fun cut => (String.ofList cut.1, cut.2) := by
  cases opened : opening? cs with
  | none => exact directive?_of_not_opening? opened
  | some quoted => exact directive?_of_opening? opened

/-- There is no directive if no opening is closed by a second quote. -/
theorem directive?_eq_none_iff {cs : List Char} :
    directive? cs = none ↔ ∀ quoted, opening? cs = some quoted → '"' ∉ quoted := by
  rw [directive?_eq]
  cases found : opening? cs with
  | none => simp
  | some quoted => simp [Token.closeQuote?_eq_none_iff]

theorem directive?_eq_some_iff {cs rest : List Char} {name : String} :
    directive? cs = some (name, rest) ↔
      opening? cs = some (name.toList ++ '"' :: rest) ∧ '"' ∉ name.toList := by
  rw [directive?_eq]
  constructor
  · intro found
    obtain ⟨quoted, opened, closed⟩ := Option.bind_eq_some_iff.mp found
    obtain ⟨cut, inside, shape⟩ := Option.map_eq_some_iff.mp closed
    obtain ⟨rfl, rfl⟩ := Prod.mk.inj shape
    obtain ⟨rfl, absent⟩ := Token.of_closeQuote? inside
    rw [String.toList_ofList]
    exact ⟨opened, absent⟩
  · rintro ⟨opened, absent⟩
    rw [opened, Option.bind_some, Token.closeQuote?_append absent, Option.map_some,
      String.ofList_toList]

/-! ### Openings in pieces of a text -/

theorem opening?_append {front quoted : List Char} (opened : opening? front = some quoted)
    (back : List Char) : opening? (front ++ back) = some (quoted ++ back) := by
  obtain ⟨blanks, rfl, blank⟩ := opening?_eq_some_iff.mp opened
  exact opening?_eq_some_iff.mpr ⟨blanks, by simp, blank⟩

/-- An opening in a text of two pieces is one of the first piece, or its quote is in the second. In
the latter case the first piece has only characters of the word. -/
theorem opening?_append_cases {front back quoted : List Char}
    (opened : opening? (front ++ back) = some quoted) :
    (∃ inner, opening? front = some inner ∧ quoted = inner ++ back) ∨
      ∃ lead, back = lead ++ '"' :: quoted ∧ ∀ c ∈ front ++ lead, c ∈ word := by
  obtain ⟨blanks, shape, blank⟩ := opening?_eq_some_iff.mp opened
  have letters : ∀ c ∈ word ++ blanks, c ∈ word := by
    intro c member
    rcases List.mem_append.mp member with inside | behind
    · exact inside
    · rw [blank c behind]
      decide
  rw [← List.append_assoc] at shape
  rcases List.append_eq_append_iff.mp shape with ⟨lead, whole, rfl⟩ | ⟨inner, rfl, whole⟩
  · exact .inr ⟨lead, rfl, whole ▸ letters⟩
  · cases inner with
    | nil =>
        refine .inr ⟨[], whole.symm, ?_⟩
        rwa [List.append_nil, List.append_nil]
    | cons c inner =>
        obtain ⟨rfl, rfl⟩ := List.cons.inj whole
        exact .inl ⟨inner, opening?_eq_some_iff.mpr ⟨blanks, List.append_assoc _ _ _, blank⟩, rfl⟩

/-- A directive stays one with more text behind it, which is then part of what follows the
directive. -/
theorem directive?_append {front rest : List Char} {name : String}
    (found : directive? front = some (name, rest)) (back : List Char) :
    directive? (front ++ back) = some (name, rest ++ back) := by
  obtain ⟨opened, absent⟩ := directive?_eq_some_iff.mp found
  refine directive?_eq_some_iff.mpr ⟨?_, absent⟩
  rw [opening?_append opened, List.append_assoc, List.cons_append]

/-! ### Parts of pieces of a text -/

theorem parts_of_none {c : Char} {cs : List Char} (none : directive? (c :: cs) = none) :
    parts (c :: cs) = .char c :: parts cs := by
  rw [parts]
  split
  · next found =>
      rw [none] at found
      cases found
  · rfl

theorem parts_of_some {cs rest : List Char} {name : String}
    (found : directive? cs = some (name, rest)) : parts cs = .file name :: parts rest := by
  cases cs with
  | nil => cases found
  | cons c cs =>
      rw [parts]
      split
      · next again =>
          rw [found] at again
          obtain ⟨rfl, rfl⟩ := Prod.mk.inj (Option.some.inj again)
          rfl
      · next none =>
          rw [found] at none
          cases none

/-- Text that starts no directive stays as it is, character by character, as long as none of its
openings is closed further on. -/
theorem parts_plain {text back : List Char} (ends : AtLineEnd back)
    (unclosed : ∀ last, last <:+ text → ∀ quoted, opening? last = some quoted →
      '"' ∉ quoted ++ back) :
    parts (text ++ back) = text.map .char ++ parts back := by
  induction text with
  | nil => rfl
  | cons c text ih =>
      have none : directive? (c :: text ++ back) = none := by
        rw [directive?_eq_none_iff]
        intro quoted opened
        rcases opening?_append_cases opened with ⟨inner, inside, rfl⟩ | ⟨lead, rfl, letters⟩
        · exact unclosed _ List.suffix_rfl inner inside
        · -- The quote would have to be the first character behind the line.
          cases lead with
          | nil => exact absurd (ends '"' rfl) (by decide)
          | cons d lead =>
              have newline := ends d rfl
              have letter := letters d (by simp)
              rw [newline] at letter
              exact absurd letter (by decide)
      rw [List.cons_append] at none ⊢
      rw [parts_of_none none, ih fun last suffix => unclosed last (suffix.trans (by simp)),
        List.map_cons, List.cons_append]

/-- Without quotes nothing is closed. So the parts of what comes before do not change. -/
theorem parts_append_unquoted {back : List Char} (unquoted : '"' ∉ back) (front : List Char) :
    parts (front ++ back) = parts front ++ back.map .char := by
  fun_induction parts front with
  | case1 =>
      have plain := @parts_plain back [] (by rintro c ⟨⟩) fun last suffix quoted opened found => by
        obtain ⟨blanks, rfl, -⟩ := opening?_eq_some_iff.mp opened
        exact unquoted (suffix.subset (by simp))
      rwa [List.append_nil, parts, List.append_nil] at plain
  | case2 c cs name rest found _ ih =>
      rw [parts_of_some (directive?_append found back), ih, List.cons_append]
  | case3 c cs none ih =>
      have still : directive? (c :: cs ++ back) = .none := by
        rw [directive?_eq_none_iff] at none ⊢
        intro quoted opened
        rcases opening?_append_cases opened with ⟨inner, inside, rfl⟩ | ⟨lead, rfl, -⟩
        · rw [List.mem_append, not_or]
          exact ⟨none inner inside, unquoted⟩
        · exact absurd (by simp) unquoted
      rw [List.cons_append] at still ⊢
      rw [parts_of_none still, ih, List.cons_append]

/-- Whether a text ends between the quotes of a directive. -/
def isOpen : List Char → Bool
  | [] => false
  | c :: cs =>
    match h : directive? (c :: cs) with
    | some (_, rest) =>
      have := length_lt_of_directive? h
      isOpen rest
    | none => (opening? (c :: cs)).isSome || isOpen cs
termination_by cs => cs.length
decreasing_by
  · exact this
  · exact Nat.lt_succ_self _

theorem isOpen_of_none {c : Char} {cs : List Char} (none : directive? (c :: cs) = none) :
    isOpen (c :: cs) = ((opening? (c :: cs)).isSome || isOpen cs) := by
  rw [isOpen]
  split
  · next found =>
      rw [none] at found
      cases found
  · rfl

theorem isOpen_of_some {cs rest : List Char} {name : String}
    (found : directive? cs = some (name, rest)) : isOpen cs = isOpen rest := by
  cases cs with
  | nil => cases found
  | cons c cs =>
      rw [isOpen]
      split
      · next again =>
          rw [found] at again
          obtain ⟨rfl, rfl⟩ := Prod.mk.inj (Option.some.inj again)
          rfl
      · next none =>
          rw [found] at none
          cases none

theorem suffix_of_directive? {cs rest : List Char} {name : String}
    (found : directive? cs = some (name, rest)) : rest <:+ cs := by
  obtain ⟨blanks, rfl, -⟩ := opening?_eq_some_iff.mp (directive?_eq_some_iff.mp found).1
  exact ⟨word ++ (blanks ++ '"' :: (name.toList ++ ['"'])), by simp⟩

/-- A script is cut where a line starts, outside of directives. A line break ends the word of a
directive, so no directive reaches across the cut. -/
theorem parts_append_closed {front : List Char} (closed : isOpen front = false)
    (starts : AtLineStart front) (back : List Char) :
    parts (front ++ back) = parts front ++ parts back := by
  fun_induction parts front with
  | case1 => rfl
  | case2 c cs name rest found _ ih =>
      rw [isOpen_of_some found] at closed
      rw [parts_of_some (directive?_append found back),
        ih closed (starts.of_suffix (suffix_of_directive? found)), List.cons_append]
  | case3 c cs none ih =>
      rw [isOpen_of_none none, Bool.or_eq_false_iff] at closed
      have still : directive? (c :: cs ++ back) = .none := by
        rw [directive?_eq_none_iff]
        intro quoted opened
        rcases opening?_append_cases opened with ⟨inner, inside, -⟩ | ⟨lead, -, letters⟩
        · rw [inside] at closed
          cases closed.1
        · -- The line feed at the end of the front is no part of an opening.
          rcases starts.eq_nil_or_newline with empty | ⟨init, shape⟩
          · cases empty
          · rw [shape] at letters
            exact absurd (letters '\n' (by simp)) (by decide)
      rw [List.cons_append] at still ⊢
      rw [parts_of_none still, ih closed.2 (starts.of_suffix (List.suffix_cons c cs)),
        List.cons_append]

/-- A text whose first part is a character starts with no directive. The parts so tell where the
directives are. -/
theorem of_parts_cons_char {c d : Char} {cs : List Char} {rest : List Part}
    (first : parts (c :: cs) = .char d :: rest) :
    directive? (c :: cs) = none ∧ parts cs = rest := by
  cases found : directive? (c :: cs) with
  | some cut =>
      rw [parts_of_some found] at first
      cases (List.cons.inj first).1
  | none =>
      rw [parts_of_none found] at first
      exact ⟨rfl, (List.cons.inj first).2⟩

/-- Where text stays as it is, no opening in it has a quote behind it. -/
theorem unclosed_of_parts_plain {text back : List Char} {tail : List Part}
    (plain : parts (text ++ back) = text.map .char ++ tail) {last quoted : List Char}
    (suffix : last <:+ text) (opened : opening? last = some quoted) : '"' ∉ quoted ++ back := by
  induction text with
  | nil =>
      obtain rfl := List.suffix_nil.mp suffix
      cases opened
  | cons c text ih =>
      obtain ⟨none, rest⟩ := of_parts_cons_char plain
      rcases List.suffix_cons_iff.mp suffix with rfl | inner
      · exact directive?_eq_none_iff.mp none _ (opening?_append opened back)
      · exact ih rest inner

/-- Where the parts of the front stay as they are, nothing behind it closes what is open. -/
theorem unclosed_of_parts_append {front back : List Char} {tail : List Part}
    (kept : parts (front ++ back) = parts front ++ tail) (opened : isOpen front = true) :
    '"' ∉ back := by
  fun_induction parts front with
  | case1 =>
      rw [isOpen] at opened
      cases opened
  | case2 c cs name rest found _ ih =>
      rw [parts_of_some (directive?_append found back)] at kept
      rw [isOpen_of_some found] at opened
      exact ih (List.cons.inj kept).2 opened
  | case3 c cs none ih =>
      obtain ⟨still, rest⟩ := of_parts_cons_char kept
      cases inside : opening? (c :: cs) with
      | some quoted =>
          have absent := directive?_eq_none_iff.mp still _ (opening?_append inside back)
          exact fun member => absent (List.mem_append_right _ member)
      | none =>
          rw [isOpen_of_none none, inside] at opened
          exact ih rest opened

/-! ### Directives and line ends -/

theorem opening?_unifyLineEnds (cs : List Char) :
    opening? (unifyLineEnds cs) = (opening? cs).map unifyLineEnds := by
  have single {blanks : List Char} (blank : ∀ c ∈ blanks, c = ' ') :
      '\n' ∉ word ++ (blanks ++ ['"']) := by
    have noNewline : '\n' ∉ blanks := fun member => absurd (blank _ member) (by decide)
    simp [word, noNewline]
  have spread (blanks quoted : List Char) :
      word ++ (blanks ++ '"' :: quoted) = word ++ (blanks ++ ['"']) ++ quoted := by simp
  cases opened : opening? cs with
  | some quoted =>
      obtain ⟨blanks, rfl, blank⟩ := opening?_eq_some_iff.mp opened
      have last : (word ++ (blanks ++ ['"'])).getLast? = some '"' := by
        rw [← List.append_assoc, List.getLast?_concat]
      refine opening?_eq_some_iff.mpr ⟨blanks, ?_, blank⟩
      rw [spread, spread blanks (unifyLineEnds quoted), Text.unifyLineEnds_append (by simp [last]),
        Text.unifyLineEnds_eq_self (single blank)]
  | none =>
      rw [Option.map_none, Option.eq_none_iff_forall_ne_some]
      intro quoted found
      obtain ⟨blanks, shape, blank⟩ := opening?_eq_some_iff.mp found
      rw [spread] at shape
      obtain ⟨rest, rfl, -⟩ := Text.exists_of_unifyLineEnds (single blank) shape
      have again : opening? (word ++ (blanks ++ ['"']) ++ rest) = some rest :=
        opening?_eq_some_iff.mpr ⟨blanks, (spread blanks rest).symm, blank⟩
      rw [opened] at again
      cases again

theorem unifyLineEnds_quote (name rest : List Char) :
    unifyLineEnds (name ++ '"' :: rest) = unifyLineEnds name ++ '"' :: unifyLineEnds rest := by
  rw [Text.unifyLineEnds_append fun _ => by simp,
    Text.unifyLineEnds_cons fun isReturn => absurd isReturn (by decide)]

/-- A directive stays one when the line ends change. If there are line ends between its quotes, the
name of its file changes with them. -/
theorem directive?_unifyLineEnds (cs : List Char) :
    directive? (unifyLineEnds cs) = (directive? cs).map fun found =>
      (String.ofList (unifyLineEnds found.1.toList), unifyLineEnds found.2) := by
  have quotes (text : List Char) : '"' ∈ unifyLineEnds text ↔ '"' ∈ text :=
    Text.mem_unifyLineEnds_iff (by decide) text
  cases found : directive? cs with
  | none =>
      rw [Option.map_none, directive?_eq_none_iff]
      rw [directive?_eq_none_iff] at found
      intro quoted opened
      rw [opening?_unifyLineEnds] at opened
      obtain ⟨inner, inside, rfl⟩ := Option.map_eq_some_iff.mp opened
      rw [quotes]
      exact found inner inside
  | some cut =>
      obtain ⟨opened, absent⟩ := directive?_eq_some_iff.mp found
      refine directive?_eq_some_iff.mpr ⟨?_, ?_⟩
      · rw [opening?_unifyLineEnds, opened, Option.map_some, unifyLineEnds_quote,
          String.toList_ofList]
      · rwa [String.toList_ofList, quotes]

/-- Carriage returns are part of no directive, apart from the name of its file. -/
@[simp] theorem isOpen_unifyLineEnds (cs : List Char) : isOpen (unifyLineEnds cs) = isOpen cs := by
  fun_induction isOpen cs with
  | case1 => exact isOpen.eq_1
  | case2 c cs name rest found _ ih =>
      have still := directive?_unifyLineEnds (c :: cs)
      rw [found] at still
      rw [isOpen_of_some still, ih]
  | case3 c cs none ih =>
      have still := directive?_unifyLineEnds (c :: cs)
      have opened := opening?_unifyLineEnds (c :: cs)
      rw [none] at still
      by_cases pair : c = '\r' ∧ cs.head? = some '\n'
      · obtain ⟨rfl, first⟩ := pair
        obtain ⟨rest, rfl⟩ := List.head?_eq_some_iff.mp first
        rw [Text.unifyLineEnds_newline] at ih
        exact ih
      · have apart : c = '\r' → cs.head? ≠ some '\n' := fun isReturn first =>
          pair ⟨isReturn, first⟩
        rw [Text.unifyLineEnds_cons apart] at still opened ⊢
        rw [isOpen_of_none still, opened, ih, Option.isSome_map]

end Maxscript.Include
