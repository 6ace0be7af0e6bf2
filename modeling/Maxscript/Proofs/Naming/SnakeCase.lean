import Mathlib.Data.List.Forall2
import Maxscript.Proofs.Naming.Segmentation
import Maxscript.Proofs.Text
import Maxscript.Proofs.Unicode.Lowercasing

/-!
# Names in snake case stay as they are

A spelling in snake case has the letters of the name, all of them small, and underscores between
words. It is its own spelling in snake case. If the dictionary knows the words, each word is a piece
by itself the next time. If it does not, the name was split at its capitals, and a name that the
dictionary cannot spell is not spelled by it once it is split: the pieces between more underscores
are pieces between fewer of them as well.
-/

namespace Maxscript.Naming

open Unicode (isUppercase isLowercase lowerChar lower)

/-! ### Parts of a name -/

def parts (name : List Char) : List (List Char) :=
  (Text.splitOn '_' name).filter fun part => !part.isEmpty

theorem nonempty_of_mem_parts {name part : List Char} (member : part ∈ parts name) :
    part ≠ [] := by
  simpa using (List.mem_filter.mp member).2

@[simp] theorem flatten_parts (name : List Char) :
    (parts name).flatten = name.filter (· != '_') := by
  rw [parts, List.flatten_filter_not_isEmpty, Text.flatten_splitOn]

theorem parts_eq_nil_iff {name : List Char} :
    parts name = [] ↔ name.filter (· != '_') = [] := by
  rw [← flatten_parts]
  constructor
  · intro none
    rw [none, List.flatten_nil]
  · intro none
    rw [List.flatten_eq_nil_iff] at none
    rw [List.eq_nil_iff_forall_not_mem]
    intro part member
    exact nonempty_of_mem_parts member (none part member)

/-- Known pieces spell every part of a name. -/
def Spellable (known : List Char → Prop) (name : List Char) : Prop :=
  ∀ part ∈ Text.splitOn '_' name, ∃ pieces, Spells known pieces part

section Spellable

variable {known : List Char → Prop} {front back : List Char}

theorem spellable_iff_parts {name : List Char} :
    Spellable known name ↔ ∀ part ∈ parts name, ∃ pieces, Spells known pieces part := by
  constructor
  · intro spellable part member
    exact spellable part (List.mem_of_mem_filter member)
  · intro spellable part member
    by_cases empty : part = []
    · exact ⟨[], empty ▸ .nil⟩
    · exact spellable part (List.mem_filter.mpr ⟨member, by simpa using empty⟩)

theorem spellable_nil : Spellable known [] := by
  intro part member
  rw [List.mem_singleton.mp member]
  exact ⟨[], .nil⟩

/-- An underscore sets parts apart, so the names on its two sides are spelled independently. -/
theorem spellable_append_underscore :
    Spellable known (front ++ '_' :: back) ↔ Spellable known front ∧ Spellable known back := by
  rw [Spellable, Text.splitOn_append, List.forall_mem_append]
  rfl

/-- Without an underscore between them, the last part of one name and the first of another are one
part, and what spells them spells it. -/
theorem Spellable.append (first : Spellable known front) (second : Spellable known back) :
    Spellable known (front ++ back) := by
  obtain ⟨init, last, hfront⟩ :=
    (List.eq_nil_or_concat' (Text.splitOn '_' front)).resolve_left (Text.splitOn_ne_nil _ _)
  obtain ⟨next, rest, hback⟩ := List.exists_cons_of_ne_nil (Text.splitOn_ne_nil '_' back)
  rw [Spellable, hfront, List.forall_mem_append] at first
  rw [Spellable, hback, List.forall_mem_cons] at second
  obtain ⟨pieces, spells⟩ := first.2 last List.mem_cons_self
  obtain ⟨others, spellsOthers⟩ := second.1
  rw [Spellable, Text.splitOn_append_of_eq hfront hback, List.forall_mem_append,
    List.forall_mem_cons]
  exact ⟨first.1, ⟨pieces ++ others, spells.append spellsOthers⟩, second.2⟩

end Spellable

/-! ### Splitting at capitals -/

@[simp] theorem lowerChar_underscore : lowerChar '_' = ['_'] := by decide

/-- No word starts at an underscore, nor right behind one. So an underscore of the name is never
doubled by one that is put before a word. -/
theorem ne_underscore_of_startsWord {previous : Option Char} {c : Char} {rest : List Char}
    (starts : startsWord previous c rest = true) : c ≠ '_' ∧ previous ≠ some '_' := by
  have small : isLowercase '_' = false := by decide
  have capital : isUppercase '_' = false := by decide
  have digit : '_'.isDigit = false := by decide
  rw [startsWord, Bool.and_eq_true] at starts
  constructor
  · rintro rfl
    exact absurd starts.1 (by simp [capital])
  · rintro rfl
    exact absurd starts.2 (by simp [small, capital, digit])

/-- Splitting adds and removes underscores only. All other characters are there in small form and in
order. -/
theorem filter_splitCaseAfter (previous : Option Char) (cs : List Char) :
    (splitCaseAfter previous cs).filter (· != '_') =
      (cs.flatMap lowerChar).filter (· != '_') := by
  fun_induction splitCaseAfter previous cs with
  | case1 => rfl
  | case2 previous c cs repeated ih =>
      obtain ⟨rfl, rfl⟩ := repeated
      rw [List.flatMap_cons, lowerChar_underscore, List.filter_append, ih]
      rfl
  | case3 previous c cs _ ih =>
      rw [List.filter_append, List.filter_append, ih, List.flatMap_cons, List.filter_append]
      split <;> rfl

theorem not_double_underscore_cons {word rest : List Char} (nonempty : word ≠ [])
    (absent : '_' ∉ word) (single : ¬['_', '_'] <:+: rest) :
    ¬['_', '_'] <:+: '_' :: (word ++ rest) := by
  rw [List.infix_cons_iff, Text.infix_append_iff_of_not_mem absent, not_or]
  refine ⟨?_, single⟩
  obtain ⟨c, word, rfl⟩ := List.exists_cons_of_ne_nil nonempty
  intro double
  obtain ⟨next, -⟩ := List.cons_prefix_cons.mp (List.cons_prefix_cons.mp double).2
  exact absent (next ▸ List.mem_cons_self)

/-- No two underscores are next to each other, the one before the text included. -/
theorem not_double_underscore_splitCaseAfter {cs : List Char} (noSigma : 'Σ' ∉ cs)
    (previous : Option Char) :
    ¬['_', '_'] <:+: previous.toList ++ splitCaseAfter previous cs := by
  fun_induction splitCaseAfter previous cs with
  | case1 previous =>
      intro double
      have short := double.length_le
      cases previous <;> simp at short
  | case2 previous c cs repeated ih =>
      rw [List.mem_cons, not_or] at noSigma
      obtain ⟨rfl, rfl⟩ := repeated
      exact ih noSigma.2
  | case3 previous c cs single ih =>
      rw [List.mem_cons, not_or] at noSigma
      have later : ¬['_', '_'] <:+: c :: splitCaseAfter (some c) cs := ih noSigma.2
      have rest : ¬['_', '_'] <:+: splitCaseAfter (some c) cs := fun double =>
        later (double.trans (List.suffix_cons _ _).isInfix)
      have other (apart : previous ≠ some '_') : '_' ∉ previous.toList := by
        simpa [Option.mem_toList] using apart
      by_cases underscore : c = '_'
      · -- An underscore is copied, and the character before it is another one.
        have apart : previous ≠ some '_' := fun same => single ⟨underscore, same⟩
        have inside : startsWord previous c cs ≠ true := fun starts =>
          (ne_underscore_of_startsWord starts).1 underscore
        rw [if_neg inside, List.nil_append, Text.infix_append_iff_of_not_mem (other apart)]
        rw [underscore] at later ⊢
        rwa [lowerChar_underscore, List.singleton_append]
      · have absent : '_' ∉ lowerChar c := fun member =>
          underscore (Unicode.eq_of_mem_lowerChar (by decide) (Ne.symm noSigma.1) member).symm
        have word := not_double_underscore_cons (Unicode.lowerChar_ne_nil c) absent rest
        split
        · next starts =>
            have apart := (ne_underscore_of_startsWord starts).2
            rw [Text.infix_append_iff_of_not_mem (other apart), List.append_assoc,
              List.singleton_append]
            exact word
        · rw [List.nil_append]
          by_cases apart : previous = some '_'
          · rw [apart]
            exact word
          · rw [Text.infix_append_iff_of_not_mem (other apart),
              Text.infix_append_iff_of_not_mem absent]
            exact rest

/-- A text without capitals and without two underscores in a row is left as it is. -/
theorem splitCaseAfter_eq_self {cs : List Char} (small : ∀ c ∈ cs, Unicode.IsLower c)
    (noCapital : ∀ c ∈ cs, isUppercase c = false) {previous : Option Char}
    (single : ¬['_', '_'] <:+: previous.toList ++ cs) : splitCaseAfter previous cs = cs := by
  induction cs generalizing previous with
  | nil => rfl
  | cons c cs ih =>
      obtain ⟨here, others⟩ := List.forall_mem_cons.mp small
      obtain ⟨notCapital, noOther⟩ := List.forall_mem_cons.mp noCapital
      have apart : ¬(c = '_' ∧ previous = some '_') := by
        rintro ⟨rfl, rfl⟩
        exact single ⟨[], cs, rfl⟩
      have inside : startsWord previous c cs = false := by rw [startsWord, notCapital]; rfl
      have later : ¬['_', '_'] <:+: (some c).toList ++ cs := fun double =>
        single (double.trans (List.suffix_append previous.toList (c :: cs)).isInfix)
      rw [splitCaseAfter, if_neg apart, inside, here.fixed, ih others noOther later]
      rfl

/-- Splitting cuts parts at more places. If the shorter parts can be spelled then so can the longer
ones, by putting the spellings together. -/
theorem spellable_of_splitCaseAfter {known : List Char → Prop} {previous : Option Char}
    {cs front : List Char} (links : previous = some '_' → ∃ before, front = before ++ ['_'])
    (spellable : Spellable known (front ++ splitCaseAfter previous cs)) :
    Spellable known (front ++ cs.flatMap lowerChar) := by
  fun_induction splitCaseAfter previous cs generalizing front with
  | case1 => exact spellable
  | case2 previous c cs repeated ih =>
      obtain ⟨rfl, rfl⟩ := repeated
      have once := ih links spellable
      obtain ⟨before, rfl⟩ := links rfl
      rw [List.append_assoc, List.singleton_append, spellable_append_underscore] at once
      rw [List.flatMap_cons, lowerChar_underscore, List.singleton_append, List.append_assoc,
        List.singleton_append, spellable_append_underscore, ← List.nil_append ('_' :: _),
        spellable_append_underscore]
      exact ⟨once.1, spellable_nil, once.2⟩
  | case3 previous c cs _ ih =>
      have word : Spellable known (front ++ lowerChar c ++ splitCaseAfter (some c) cs) := by
        split at spellable
        · rw [List.append_assoc, List.singleton_append, spellable_append_underscore] at spellable
          rw [List.append_assoc]
          exact spellable.1.append spellable.2
        · rwa [List.nil_append, ← List.append_assoc] at spellable
      rw [List.flatMap_cons, ← List.append_assoc]
      refine ih ?_ word
      intro isUnderscore
      exact ⟨front, by rw [Option.some.inj isUnderscore, lowerChar_underscore]⟩

/-! ### Names that the dictionary spells -/

def wordsOf (dictionary : List String) : Std.ExtTreeSet String := .ofList (dictionary.map lower)

/-- There are words, and they spell the parts of a name, of which there are some. -/
structure IsCuttable (words : Std.ExtTreeSet String) (name : List Char) : Prop where
  hasWords : words.isEmpty = false
  hasParts : parts name ≠ []
  spellable : Spellable (IsKnown words) name

theorem mapM_eq_some_iff {α β : Type} {f : α → Option β} {xs : List α} {ys : List β} :
    xs.mapM f = some ys ↔ List.Forall₂ (fun x y => f x = some y) xs ys := by
  induction xs generalizing ys with
  | nil => cases ys <;> simp
  | cons x xs ih =>
      rw [List.mapM_cons, Option.bind_eq_bind, Option.bind_eq_some_iff]
      cases ys <;> simp [Option.bind_eq_some_iff, ih]

theorem exists_mapM_segment?_iff {words : Std.ExtTreeSet String} {texts : List (List Char)} :
    (∃ cuts, texts.mapM (segment? (isPiece words)) = some cuts) ↔
      ∀ text ∈ texts, ∃ pieces, Spells (IsKnown words) pieces text := by
  simp only [mapM_eq_some_iff]
  induction texts with
  | nil => simp
  | cons text texts ih =>
      rw [List.forall_mem_cons, ← ih]
      constructor
      · rintro ⟨_, here⟩
        cases here with
        | cons found others => exact ⟨⟨_, spells_of_segment? found⟩, _, others⟩
      · rintro ⟨⟨pieces, spells⟩, cuts, others⟩
        obtain ⟨fewest, found, -⟩ := exists_segment?_le spells
        exact ⟨fewest :: cuts, .cons found others⟩

theorem spells_of_mapM_segment? {words : Std.ExtTreeSet String} {texts : List (List Char)}
    {cuts : List (List (List Char))} (found : texts.mapM (segment? (isPiece words)) = some cuts) :
    Spells (IsKnown words) cuts.flatten texts.flatten := by
  rw [mapM_eq_some_iff] at found
  induction found with
  | nil => exact .nil
  | cons here _ ih => exact (spells_of_segment? here).append ih

/-- Known words are cut no further, as no text can be cut into fewer pieces than one. -/
theorem segment?_of_isKnown {words : Std.ExtTreeSet String} {piece : List Char}
    (nonempty : piece ≠ []) (isKnown : IsKnown words piece) :
    segment? (isPiece words) piece = some [piece] := by
  obtain ⟨fewest, found, short⟩ := exists_segment?_le (.single nonempty isKnown)
  have spells := spells_of_segment? found
  rw [found]
  match fewest with
  | [] => exact absurd spells.flatten.symm nonempty
  | [other] => rw [← spells.flatten, List.flatten_singleton]
  | _ :: _ :: _ => simp at short

variable {dictionary : List String} {name : String}

/-- A name that the dictionary spells is written as its pieces with underscores between them, and
the capitals in it are not looked at. -/
theorem snakeCase_of_isCuttable
    (cuttable : IsCuttable (wordsOf dictionary) (lower name).toList) :
    ∃ cuts, (parts (lower name).toList).mapM (segment? (isPiece (wordsOf dictionary))) = some cuts ∧
      snakeCase dictionary name = Text.joinWith "_" (cuts.flatten.map String.ofList) := by
  obtain ⟨cuts, found⟩ :=
    exists_mapM_segment?_iff.mpr (spellable_iff_parts.mp cuttable.spellable)
  refine ⟨cuts, found, ?_⟩
  have hasParts := cuttable.hasParts
  have hasWords := cuttable.hasWords
  simp only [parts, wordsOf] at found hasParts hasWords
  simp only [snakeCase, found, hasWords, List.isEmpty_eq_false_iff.mpr hasParts]
  rfl

theorem snakeCase_of_not_isCuttable
    (notCuttable : ¬IsCuttable (wordsOf dictionary) (lower name).toList) :
    snakeCase dictionary name = splitCase name := by
  rw [snakeCase]
  split
  · next cuts found =>
      rw [if_pos]
      by_contra filled
      rw [Bool.or_eq_true, not_or, Bool.not_eq_true, Bool.not_eq_true,
        List.isEmpty_eq_false_iff] at filled
      refine notCuttable ⟨filled.1, filled.2, ?_⟩
      exact spellable_iff_parts.mpr (exists_mapM_segment?_iff.mp ⟨cuts, found⟩)
  · rfl

/-- A text of known words with underscores between them. -/
structure IsJoined (words : Std.ExtTreeSet String) (pieces : List (List Char)) (text : String) :
    Prop where
  text_eq : text = Text.joinWith "_" (pieces.map String.ofList)
  hasPieces : pieces ≠ []
  nonempty : ∀ piece ∈ pieces, piece ≠ []
  known : ∀ piece ∈ pieces, IsKnown words piece
  apart : ∀ piece ∈ pieces, '_' ∉ piece

section IsJoined

variable {words : Std.ExtTreeSet String} {pieces : List (List Char)} {text : String}
  (joined : IsJoined words pieces text)
include joined

theorem IsJoined.splitOn_eq : Text.splitOn '_' text.toList = pieces := by
  rw [joined.text_eq]
  exact Text.splitOn_joinWith joined.hasPieces joined.apart

theorem IsJoined.parts_eq : parts text.toList = pieces := by
  rw [parts, joined.splitOn_eq, List.filter_eq_self]
  intro piece member
  simpa using joined.nonempty piece member

/-- Between two underscores next to each other there would be an empty word. -/
theorem IsJoined.not_double_underscore : ¬['_', '_'] <:+: text.toList := by
  rintro ⟨front, back, double⟩
  have shape : text.toList = front ++ '_' :: ([] ++ '_' :: back) := by
    rw [← double, List.append_assoc]
    rfl
  have pieces := joined.splitOn_eq
  rw [shape, Text.splitOn_append, Text.splitOn_append] at pieces
  have empty : [] ∈ Text.splitOn '_' ([] : List Char) := List.mem_singleton_self _
  refine joined.nonempty [] ?_ rfl
  rw [← pieces]
  exact List.mem_append_right _ (List.mem_append_left _ empty)

theorem IsJoined.isCuttable (filled : words.isEmpty = false) :
    IsCuttable words text.toList where
  hasWords := filled
  hasParts := by
    rw [joined.parts_eq]
    exact joined.hasPieces
  spellable := by
    rw [Spellable, joined.splitOn_eq]
    intro piece member
    exact ⟨[piece], .single (joined.nonempty piece member) (joined.known piece member)⟩

theorem IsJoined.mapM_segment? :
    (parts text.toList).mapM (segment? (isPiece words)) =
      some (pieces.map fun piece => [piece]) := by
  rw [joined.parts_eq, mapM_eq_some_iff, List.forall₂_map_right_iff, List.forall₂_same]
  intro piece member
  exact segment?_of_isKnown (joined.nonempty piece member) (joined.known piece member)

end IsJoined

/-- What the dictionary spells is written as known words, none of them empty, with one underscore
between each two. -/
theorem exists_isJoined_snakeCase
    (cuttable : IsCuttable (wordsOf dictionary) (lower name).toList) :
    ∃ pieces, IsJoined (wordsOf dictionary) pieces (snakeCase dictionary name) ∧
      pieces.flatten = (lower name).toList.filter (· != '_') := by
  obtain ⟨cuts, found, written⟩ := snakeCase_of_isCuttable cuttable
  have spells := spells_of_mapM_segment? found
  rw [flatten_parts] at spells
  refine ⟨cuts.flatten, ⟨written, ?_, spells.nonempty, spells.known, ?_⟩, spells.flatten⟩
  · intro none
    have letters := spells.flatten
    rw [none, List.flatten_nil] at letters
    exact cuttable.hasParts (parts_eq_nil_iff.mpr letters.symm)
  · intro piece member underscore
    have inside : '_' ∈ cuts.flatten.flatten := List.mem_flatten.mpr ⟨piece, member, underscore⟩
    rw [spells.flatten] at inside
    simpa using (List.mem_filter.mp inside).2

/-! ### Spelling a name twice -/

/-- The letters of a name are kept, in small form. A capital sigma is left out, as its small form
depends on what stands around it. -/
theorem filter_snakeCase (noSigma : 'Σ' ∉ name.toList) :
    (snakeCase dictionary name).toList.filter (· != '_') =
      (lower name).toList.filter (· != '_') := by
  by_cases cuttable : IsCuttable (wordsOf dictionary) (lower name).toList
  · obtain ⟨pieces, joined, letters⟩ := exists_isJoined_snakeCase cuttable
    rw [← letters, ← flatten_parts, joined.parts_eq]
  · rw [snakeCase_of_not_isCuttable cuttable, splitCase, String.toList_ofList,
      filter_splitCaseAfter, lower, String.toList_ofList, Unicode.lowerAfter_eq_flatMap noSigma]

theorem not_double_underscore_snakeCase (noSigma : 'Σ' ∉ name.toList) :
    ¬['_', '_'] <:+: (snakeCase dictionary name).toList := by
  by_cases cuttable : IsCuttable (wordsOf dictionary) (lower name).toList
  · obtain ⟨pieces, joined, -⟩ := exists_isJoined_snakeCase cuttable
    exact joined.not_double_underscore
  · rw [snakeCase_of_not_isCuttable cuttable, splitCase, String.toList_ofList]
    exact not_double_underscore_splitCaseAfter noSigma none

/-- There is nothing in the spelling but underscores and what is in the name. So a name of ASCII
letters has a spelling of ASCII letters. -/
theorem mem_snakeCase (noSigma : 'Σ' ∉ name.toList) {c : Char}
    (member : c ∈ (snakeCase dictionary name).toList) :
    c = '_' ∨ c ∈ (lower name).toList := by
  by_cases underscore : c = '_'
  · exact .inl underscore
  · have letter : c ∈ (snakeCase dictionary name).toList.filter (· != '_') :=
      List.mem_filter.mpr ⟨member, by simpa using underscore⟩
    rw [filter_snakeCase noSigma] at letter
    exact .inr (List.mem_of_mem_filter letter)

theorem isLower_of_mem_snakeCase (noSigma : 'Σ' ∉ name.toList) {c : Char}
    (member : c ∈ (snakeCase dictionary name).toList) : Unicode.IsLower c := by
  rcases mem_snakeCase noSigma member with rfl | letter
  · exact ⟨lowerChar_underscore, by decide⟩
  · exact Unicode.isLower_of_mem_lower letter

/-- A name that the dictionary does not spell is not spelled by it when it is split. Otherwise the
second run would cut what the first one has left. -/
theorem not_isCuttable_splitCase {words : Std.ExtTreeSet String} (noSigma : 'Σ' ∉ name.toList)
    (notCuttable : ¬IsCuttable words (lower name).toList) :
    ¬IsCuttable words (splitCase name).toList := by
  have lowered : (lower name).toList = name.toList.flatMap lowerChar := by
    rw [lower, String.toList_ofList, Unicode.lowerAfter_eq_flatMap noSigma]
  rintro ⟨filled, some, spellable⟩
  rw [splitCase, String.toList_ofList] at some spellable
  refine notCuttable ⟨filled, ?_, ?_⟩
  · rw [Ne, parts_eq_nil_iff, filter_splitCaseAfter, ← lowered, ← parts_eq_nil_iff] at some
    exact some
  · rw [lowered]
    exact @spellable_of_splitCaseAfter _ none _ [] (fun same => by cases same) spellable

/-- A name that was respelled once is respelled to itself, if no capital is left in it. -/
theorem snakeCase_snakeCase (noSigma : 'Σ' ∉ name.toList)
    (noCapital : ∀ c ∈ (snakeCase dictionary name).toList, isUppercase c = false) :
    snakeCase dictionary (snakeCase dictionary name) = snakeCase dictionary name := by
  have lowered : lower (snakeCase dictionary name) = snakeCase dictionary name :=
    Unicode.lower_eq_self fun _ => isLower_of_mem_snakeCase noSigma
  by_cases cuttable : IsCuttable (wordsOf dictionary) (lower name).toList
  · obtain ⟨pieces, joined, -⟩ := exists_isJoined_snakeCase cuttable
    have again := joined.isCuttable cuttable.hasWords
    rw [← lowered] at again
    obtain ⟨cuts, found, written⟩ := snakeCase_of_isCuttable again
    rw [lowered, joined.mapM_segment?] at found
    rw [written, ← Option.some.inj found, ← List.flatMap_def, List.flatMap_singleton',
      ← joined.text_eq]
  · have split := snakeCase_of_not_isCuttable cuttable
    have again := not_isCuttable_splitCase noSigma cuttable
    rw [← split, ← lowered] at again
    have single := @not_double_underscore_snakeCase dictionary name noSigma
    rw [snakeCase_of_not_isCuttable again, splitCase, splitCaseAfter_eq_self, String.ofList_toList]
    · exact fun _ => isLower_of_mem_snakeCase noSigma
    · exact noCapital
    · rwa [Option.toList_none, List.nil_append]

/-- A name in ASCII is spelled in small letters, with single underscores and no letter lost, and the
spelling stays as it is. -/
theorem snakeCase_stable (dictionary : List String) (name : String)
    (ascii : ∀ c ∈ name.toList, c.toNat < 128) :
    (∀ c ∈ (snakeCase dictionary name).toList, isUppercase c = false) ∧
    ¬['_', '_'] <:+: (snakeCase dictionary name).toList ∧
    (snakeCase dictionary name).toList.filter (· != '_') =
      (lower name).toList.filter (· != '_') ∧
    snakeCase dictionary (snakeCase dictionary name) = snakeCase dictionary name := by
  have noSigma : 'Σ' ∉ name.toList := fun member => absurd (ascii 'Σ' member) (by decide)
  have noCapital : ∀ c ∈ (snakeCase dictionary name).toList, isUppercase c = false := by
    intro c member
    rcases mem_snakeCase noSigma member with rfl | letter
    · decide
    · rw [lower, String.toList_ofList, Unicode.lowerAfter_eq_flatMap noSigma] at letter
      obtain ⟨capital, inside, form⟩ := List.mem_flatMap.mp letter
      exact Unicode.isUppercase_of_mem_lowerChar (ascii capital inside) form
  exact ⟨noCapital, not_double_underscore_snakeCase noSigma, filter_snakeCase noSigma,
    snakeCase_snakeCase noSigma noCapital⟩

theorem vertexCount_stable :
    ("meshVert__XYCount2".toList.all fun c => c.toNat < 128) = true ∧
      snakeCase ["Mesh", "vert"] "meshVert__XYCount2" = "mesh_vert_xy_count2" ∧
      snakeCase ["Mesh", "vert"] (snakeCase ["Mesh", "vert"] "meshVert__XYCount2") =
        snakeCase ["Mesh", "vert"] "meshVert__XYCount2" := by
  have ascii : ("meshVert__XYCount2".toList.all fun c => c.toNat < 128) = true := by decide
  have stable := snakeCase_stable ["Mesh", "vert"] "meshVert__XYCount2" fun c member =>
    of_decide_eq_true (List.all_eq_true.mp ascii c member)
  exact ⟨ascii, by decide +kernel, stable.2.2.2⟩

end Maxscript.Naming
