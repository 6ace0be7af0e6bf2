import Mathlib.Data.List.Infix
import Maxscript.Proofs.Token.Unquoted

/-!
# Block comments

A block comment is found among the tokens, where `/*` and `*/` are merged like the operators, and
after most of them. The body of a comment is merged with its ends if it can be: `**` takes the star
of `/*` away, and `//` the slash of `*/`. So a comment vanishes if its body does neither and has no
`*` and `/` next to each other. Whether it vanishes does not depend on the words around it.
-/

namespace Maxscript.Token

open Unicode (isWhiteSpace isWordCharacter)

/-! ### Merging at a place between two tokens -/

theorem mergeSequence_spelling {sequence : String} (member : sequence ∈ ligatures)
    (rest : List String) :
    mergeSequence sequence (spelling sequence ++ rest) =
      sequence :: mergeSequence sequence rest := by
  have long := two_le_length_spelling member
  cases shape : spelling sequence with
  | nil => simp [shape] at long
  | cons mark marks =>
      have found : marks.isPrefixOf (marks ++ rest) = true :=
        List.isPrefixOf_iff_prefix.mpr (List.prefix_append marks rest)
      rw [List.cons_append, mergeSequence, shape]
      simp only [found, and_self, if_true, List.drop_left]

/-- The marks do not occur across the place between two lists. -/
def Unspanned {α : Type} (marks front back : List α) : Prop :=
  ∀ x ∈ front.getLast?, ∀ y ∈ back.head?, ¬[x, y] <:+: marks

theorem Unspanned.of_suffix {α : Type} {marks front back last : List α}
    (unspanned : Unspanned marks front back) (ends : last <:+ front) :
    Unspanned marks last back := by
  obtain ⟨start, rfl⟩ := ends
  intro x found
  exact unspanned x (List.mem_getLast?_append_of_mem_getLast? found)

/-- So a list that starts with the marks has them all before that place, unless it starts there. -/
theorem Unspanned.prefix_of_append {α : Type} {marks front back : List α}
    (unspanned : Unspanned marks front back) (nonempty : front ≠ [])
    (starts : marks <+: front ++ back) : marks <+: front := by
  rcases List.prefix_or_prefix_of_prefix starts (List.prefix_append front back) with
    done | ⟨more, rfl⟩
  · exact done
  · cases more with
    | nil => simp
    | cons y more =>
        obtain ⟨init, x, rfl⟩ := (List.eq_nil_or_concat' front).resolve_left nonempty
        obtain ⟨behind, rfl⟩ := (List.prefix_append_right_inj _).mp starts
        exact absurd ⟨init, more, by simp⟩ (unspanned x (by simp) y rfl)

/-- Tokens are merged on both sides of such a place by themselves, and nothing is merged across it.
-/
theorem mergeSequence_append {sequence : String} (member : sequence ∈ ligatures)
    {front back : List String} (unspanned : Unspanned (spelling sequence) front back) :
    mergeSequence sequence (front ++ back) =
      mergeSequence sequence front ++ mergeSequence sequence back := by
  fun_induction mergeSequence sequence front with
  | case1 => rfl
  | case2 token rest empty =>
      have long := two_le_length_spelling member
      simp [empty] at long
  | case3 token rest mark marks spelled found ih =>
      obtain ⟨rfl, starts⟩ := found
      obtain ⟨later, rfl⟩ := List.isPrefixOf_iff_prefix.mp starts
      have whole : token :: (marks ++ later) = spelling sequence ++ later := by
        rw [spelled, List.cons_append]
      rw [List.drop_left] at ih ⊢
      rw [whole] at unspanned ⊢
      rw [List.append_assoc, mergeSequence_spelling member,
        ih (unspanned.of_suffix (List.suffix_append _ later)), List.cons_append]
  | case4 token rest mark marks spelled other ih =>
      have alone : ¬spelling sequence <+: token :: rest := by
        intro starts
        rw [spelled, List.cons_prefix_cons] at starts
        exact other ⟨starts.1.symm, List.isPrefixOf_iff_prefix.mpr starts.2⟩
      have apart : ¬spelling sequence <+: token :: (rest ++ back) := fun starts =>
        alone (unspanned.prefix_of_append (List.cons_ne_nil token rest) starts)
      rw [List.cons_append, mergeSequence_cons apart,
        ih (unspanned.of_suffix (List.suffix_cons token rest)), List.cons_append]

/-- A sequence that is nowhere in the tokens is not merged. Merging only looks at texts, so this is
all that has to be known. -/
theorem mergeSequence_eq_self {sequence : String} {tokens : List String}
    (absent : ¬spelling sequence <:+: tokens) : mergeSequence sequence tokens = tokens := by
  induction tokens with
  | nil => rw [mergeSequence]
  | cons token rest ih =>
      rw [List.infix_cons_iff, not_or] at absent
      rw [mergeSequence_cons absent.1, ih absent.2]

/-- Merged tokens start with what the tokens start with, or with the sequence. -/
theorem head?_mergeSequence (sequence : String) (tokens : List String) :
    (mergeSequence sequence tokens).head? = tokens.head? ∨
      (mergeSequence sequence tokens).head? = some sequence := by
  fun_cases mergeSequence sequence tokens with
  | case1 => exact .inl rfl
  | case2 token rest empty => exact .inl rfl
  | case3 token rest mark marks spelled found => exact .inr rfl
  | case4 token rest mark marks spelled other => exact .inl rfl

theorem getLast?_mergeSequence (sequence : String) (tokens : List String) :
    (mergeSequence sequence tokens).getLast? = tokens.getLast? ∨
      (mergeSequence sequence tokens).getLast? = some sequence := by
  fun_induction mergeSequence sequence tokens with
  | case1 => exact .inl rfl
  | case2 token rest empty => exact .inl rfl
  | case3 token rest mark marks spelled found ih =>
      rw [List.getLast?_cons]
      rcases ih with same | ends
      · rw [same]
        cases last : (rest.drop marks.length).getLast? with
        | none => exact .inr rfl
        | some x =>
            obtain ⟨front, shape⟩ := List.drop_suffix marks.length rest
            have behind : x ∈ (token :: front ++ rest.drop marks.length).getLast? :=
              List.mem_getLast?_append_of_mem_getLast? last
            rw [List.cons_append, shape] at behind
            exact .inl behind.symm
      · rw [ends]
        exact .inr rfl
  | case4 token rest mark marks spelled other ih =>
      rw [List.getLast?_cons, List.getLast?_cons]
      rcases ih with same | ends
      · exact .inl (by rw [same])
      · rw [ends]
        exact .inr rfl

theorem prefix_of_mergeSequence {sequence : String} {marks tokens : List String}
    (absent : sequence ∉ marks) (starts : marks <+: mergeSequence sequence tokens) :
    marks <+: tokens := by
  fun_induction mergeSequence sequence tokens generalizing marks with
  | case1 => exact starts
  | case2 token rest empty => exact starts
  | case3 token rest mark others spelled found ih =>
      cases marks with
      | nil => exact List.nil_prefix
      | cons first marks =>
          obtain ⟨rfl, -⟩ := List.cons_prefix_cons.mp starts
          exact absurd List.mem_cons_self absent
  | case4 token rest mark others spelled other ih =>
      cases marks with
      | nil => exact List.nil_prefix
      | cons first marks =>
          obtain ⟨rfl, later⟩ := List.cons_prefix_cons.mp starts
          exact List.cons_prefix_cons.mpr ⟨rfl, ih (List.not_mem_of_not_mem_cons absent) later⟩

/-- What merged tokens end with was merged from what the tokens end with. -/
theorem exists_suffix_of_mergeSequence {sequence : String} {last tokens : List String}
    (ends : last <:+ mergeSequence sequence tokens) :
    ∃ rest, rest <:+ tokens ∧ last = mergeSequence sequence rest := by
  fun_induction mergeSequence sequence tokens with
  | case1 =>
      obtain rfl := List.suffix_nil.mp ends
      exact ⟨[], List.suffix_rfl, by rw [mergeSequence]⟩
  | case2 token rest empty =>
      refine ⟨last, ends, ?_⟩
      cases last with
      | nil => rw [mergeSequence]
      | cons first last => rw [mergeSequence, empty]
  | case3 token rest mark others spelled found ih =>
      rcases List.suffix_cons_iff.mp ends with rfl | later
      · refine ⟨token :: rest, List.suffix_rfl, ?_⟩
        rw [mergeSequence, spelled]
        simp only [if_pos found]
      · obtain ⟨left, behind, rfl⟩ := ih later
        have shorter := (List.drop_suffix others.length rest).trans (List.suffix_cons token rest)
        exact ⟨left, behind.trans shorter, rfl⟩
  | case4 token rest mark others spelled other ih =>
      rcases List.suffix_cons_iff.mp ends with rfl | later
      · refine ⟨token :: rest, List.suffix_rfl, ?_⟩
        rw [mergeSequence, spelled]
        simp only [if_neg other]
      · obtain ⟨left, behind, rfl⟩ := ih later
        exact ⟨left, behind.trans (List.suffix_cons token rest), rfl⟩

/-- Marks that are next to each other after merging were so before. Merging one operator therefore
never makes room for another. -/
theorem infix_of_mergeSequence {sequence : String} {marks tokens : List String}
    (absent : sequence ∉ marks) (found : marks <:+: mergeSequence sequence tokens) :
    marks <:+: tokens := by
  obtain ⟨last, starts, ends⟩ := List.infix_iff_prefix_suffix.mp found
  obtain ⟨rest, behind, rfl⟩ := exists_suffix_of_mergeSequence ends
  exact (prefix_of_mergeSequence absent starts).isInfix.trans behind.isInfix

/-! ### The body between the ends of its comment -/

/-- Tokens that do not close a comment, by themselves or together with what comes next. -/
structure Unclosed (tokens : List String) : Prop where
  last : ∀ token ∈ tokens.getLast?, token ≠ "*" ∧ token ≠ "/"
  pair : ¬["*", "/"] <:+: tokens
  mark : "*/" ∉ tokens

theorem Unclosed.mergeSequence {tokens : List String} (unclosed : Unclosed tokens)
    {sequence : String} (member : sequence ∈ ligatures) (other : sequence ≠ "*/") :
    Unclosed (mergeSequence sequence tokens) := by
  have long : ∀ sequence ∈ ligatures, sequence ≠ "*" ∧ sequence ≠ "/" := by decide
  obtain ⟨notStar, notSlash⟩ := long sequence member
  refine ⟨?_, ?_, ?_⟩
  · intro token found
    rcases getLast?_mergeSequence sequence tokens with same | ends
    · exact unclosed.last token (same ▸ found)
    · rw [ends, Option.mem_some_iff] at found
      rw [← found]
      exact ⟨notStar, notSlash⟩
  · intro found
    exact unclosed.pair (infix_of_mergeSequence (by simp [notStar, notSlash]) found)
  · intro found
    rcases mem_of_mem_mergeSequence found with same | kept
    · exact other same.symm
    · exact unclosed.mark kept

/-- The closing marks are merged by themselves: nothing in front of them ends with a mark that they
could be merged with. -/
theorem Unclosed.mergeSequence_append {tokens : List String} (unclosed : Unclosed tokens)
    {sequence : String} (member : sequence ∈ ligatures) (rest : List String) :
    Token.mergeSequence sequence (tokens ++ "*" :: rest) =
      Token.mergeSequence sequence tokens ++ Token.mergeSequence sequence ("*" :: rest) := by
  have before : ∀ sequence ∈ ligatures, ∀ x ∈ spelling sequence,
      [x, "*"] <:+: spelling sequence → x = "*" ∨ x = "/" := by decide
  apply Token.mergeSequence_append member
  rintro x last y ⟨⟩ pair
  obtain ⟨notStar, notSlash⟩ := unclosed.last x last
  exact (before sequence member x (pair.subset List.mem_cons_self) pair).elim notStar notSlash

def comment (body : List String) : List String := "/" :: "*" :: (body ++ ["*", "/"])

/-- The operators whose marks are merged before those of `/*` and `*/`. -/
def earlier : List String := ligatures.take 23

theorem mem_ligatures_of_earlier {sequence : String} (member : sequence ∈ earlier) :
    sequence ∈ ligatures := List.mem_of_mem_take member

/-- An operator that does not start with the star of `/*` and the first token of the body is merged
inside the body only. -/
theorem mergeSequence_comment {sequence : String} (member : sequence ∈ earlier) {first : String}
    {rest : List String} (unclosed : Unclosed (first :: rest))
    (apart : ¬["*", first] <+: spelling sequence) :
    mergeSequence sequence (comment (first :: rest)) =
      comment (mergeSequence sequence (first :: rest)) := by
  have ends : ∀ sequence ∈ earlier, ¬["/", "*"] <+: spelling sequence ∧
      ¬["*", "/"] <+: spelling sequence := by decide
  obtain ⟨opening, closing⟩ := ends sequence member
  have inside := mem_ligatures_of_earlier member
  have single : mergeSequence sequence ["/"] = ["/"] := by
    apply mergeSequence_eq_self
    intro short
    have long := two_le_length_spelling inside
    have length := short.length_le
    rw [List.length_singleton] at length
    omega
  have close : mergeSequence sequence ["*", "/"] = ["*", "/"] := by
    rw [mergeSequence_pair inside closing, single]
  rw [comment, mergeSequence_pair inside opening, List.cons_append,
    mergeSequence_pair inside apart, ← List.cons_append,
    unclosed.mergeSequence_append inside, close, comment]

/-- Nothing is merged with the star of `/*` that stands before the body. -/
def OpensFreely (body : List String) : Prop := ∃ token ∈ body.head?, token ≠ "*" ∧ token ≠ "="

theorem OpensFreely.mergeSequence {body : List String} (free : OpensFreely body)
    {sequence : String} (member : sequence ∈ ligatures) :
    OpensFreely (mergeSequence sequence body) := by
  have long : ∀ sequence ∈ ligatures, sequence ≠ "*" ∧ sequence ≠ "=" := by decide
  rcases head?_mergeSequence sequence body with same | merged
  · rw [OpensFreely, same]
    exact free
  · exact ⟨sequence, merged, long sequence member⟩

theorem mergeSequence_comment_free {sequence : String} (member : sequence ∈ earlier)
    {body : List String} (unclosed : Unclosed body) (free : OpensFreely body) :
    mergeSequence sequence (comment body) = comment (mergeSequence sequence body) := by
  have behind : ∀ sequence ∈ earlier, ∀ x ∈ spelling sequence,
      ["*", x] <+: spelling sequence → x = "*" ∨ x = "=" := by decide
  obtain ⟨first, head, notStar, notEquals⟩ := free
  obtain ⟨rest, rfl⟩ := List.head?_eq_some_iff.mp head
  apply mergeSequence_comment member unclosed
  intro starts
  have inside : first ∈ spelling sequence := starts.subset (by simp)
  exact (behind sequence member first inside starts).elim notStar notEquals

/-- A body that stays apart from the marks around it. -/
structure IsOrdinary (body : List String) : Prop where
  -- A single equals sign makes an operator with the star before it, and two make one of their own.
  first : ["=", "="] <+: body ∨ ∃ token ∈ body.head?, token ≠ "*" ∧ token ≠ "="
  last : ∀ token ∈ body.getLast?, token ≠ "*" ∧ token ≠ "/"
  pair : ¬["*", "/"] <:+: body

/-- What holds of the body after each operator holds after all of them. The operators are merged one
after the other, in the order of their list. -/
theorem foldl_mergeSequence_comment {P : List String → Prop} {sequences : List String}
    (step : ∀ sequence ∈ sequences, ∀ body, P body →
      mergeSequence sequence (comment body) = comment (mergeSequence sequence body) ∧
        P (mergeSequence sequence body))
    {body : List String} (holds : P body) :
    ∃ merged, P merged ∧
      sequences.foldl (fun tokens sequence => mergeSequence sequence tokens) (comment body) =
        comment merged := by
  induction sequences generalizing body with
  | nil => exact ⟨body, holds, rfl⟩
  | cons sequence sequences ih =>
      obtain ⟨here, others⟩ := List.forall_mem_cons.mp step
      obtain ⟨merged, next⟩ := here body holds
      rw [List.foldl_cons, merged]
      exact ih others next

theorem exists_foldl_of_opensFreely {sequences : List String}
    (among : ∀ sequence ∈ sequences, sequence ∈ earlier) {body : List String}
    (unclosed : Unclosed body) (free : OpensFreely body) :
    ∃ merged, Unclosed merged ∧
      sequences.foldl (fun tokens sequence => mergeSequence sequence tokens) (comment body) =
        comment merged := by
  have notClosing : ∀ sequence ∈ earlier, sequence ≠ "*/" := by decide
  have step : ∀ sequence ∈ sequences, ∀ body, (Unclosed body ∧ OpensFreely body) →
      mergeSequence sequence (comment body) = comment (mergeSequence sequence body) ∧
        Unclosed (mergeSequence sequence body) ∧ OpensFreely (mergeSequence sequence body) := by
    rintro sequence member body ⟨unclosed, free⟩
    have early := among sequence member
    have inside := mem_ligatures_of_earlier early
    exact ⟨mergeSequence_comment_free early unclosed free,
      unclosed.mergeSequence inside (notClosing sequence early), free.mergeSequence inside⟩
  obtain ⟨merged, ⟨kept, -⟩, run⟩ := foldl_mergeSequence_comment step ⟨unclosed, free⟩
  exact ⟨merged, kept, run⟩

/-- The operators before `==` leave two equals signs alone. This is why a body may start with them,
though `*=` would take a single one. -/
theorem exists_foldl_of_equals {rest : List String} (unclosed : Unclosed ("=" :: "=" :: rest)) :
    ∃ merged, Unclosed ("=" :: "=" :: merged) ∧
      (earlier.take 5).foldl (fun tokens sequence => mergeSequence sequence tokens)
        (comment ("=" :: "=" :: rest)) = comment ("=" :: "=" :: merged) := by
  have apart : ∀ sequence ∈ earlier.take 5, ¬["*", "="] <+: spelling sequence ∧
      (spelling sequence).head? ≠ some "=" ∧ sequence ≠ "*/" := by decide
  have step : ∀ sequence ∈ earlier.take 5, ∀ body,
      (Unclosed body ∧ ∃ rest, body = "=" :: "=" :: rest) →
      mergeSequence sequence (comment body) = comment (mergeSequence sequence body) ∧
        Unclosed (mergeSequence sequence body) ∧
        ∃ rest, mergeSequence sequence body = "=" :: "=" :: rest := by
    rintro sequence member _ ⟨unclosed, rest, rfl⟩
    obtain ⟨star, head, other⟩ := apart sequence member
    have early := List.mem_of_mem_take member
    have inside := mem_ligatures_of_earlier early
    refine ⟨mergeSequence_comment early unclosed star, unclosed.mergeSequence inside other,
      mergeSequence sequence rest, ?_⟩
    rw [mergeSequence_head inside head, mergeSequence_head inside head]
  obtain ⟨_, ⟨kept, merged, rfl⟩, run⟩ := foldl_mergeSequence_comment step ⟨unclosed, rest, rfl⟩
  exact ⟨merged, kept, run⟩

theorem exists_foldl_earlier {body : List String} (ordinary : IsOrdinary body)
    (mark : "*/" ∉ body) :
    ∃ merged, Unclosed merged ∧
      earlier.foldl (fun tokens sequence => mergeSequence sequence tokens) (comment body) =
        comment merged := by
  have unclosed : Unclosed body := ⟨ordinary.last, ordinary.pair, mark⟩
  rcases ordinary.first with ⟨rest, shape⟩ | free
  · obtain rfl : "=" :: "=" :: rest = body := shape
    have order : earlier = earlier.take 5 ++ "==" :: earlier.drop 6 := rfl
    have equals : "==" ∈ earlier := by decide
    obtain ⟨merged, kept, run⟩ := exists_foldl_of_equals unclosed
    have joins : mergeSequence "==" ("=" :: "=" :: merged) = "==" :: mergeSequence "==" merged :=
      mergeSequence_spelling (mem_ligatures_of_earlier equals) merged
    have next := mergeSequence_comment equals kept (by decide)
    have unclosedNext := kept.mergeSequence (mem_ligatures_of_earlier equals) (by decide)
    rw [joins] at next unclosedNext
    rw [order, List.foldl_append, run, List.foldl_cons, next]
    exact exists_foldl_of_opensFreely (fun _ => List.mem_of_mem_drop) unclosedNext
      ⟨"==", rfl, by decide, by decide⟩
  · exact exists_foldl_of_opensFreely (fun _ member => member) unclosed free

/-- The body of an ordinary comment stays between its ends, whatever is merged inside of it. -/
theorem exists_mergeLigatures_comment {body : List String} (ordinary : IsOrdinary body)
    (mark : "*/" ∉ body) :
    ∃ merged, "*/" ∉ merged ∧ mergeLigatures (comment body) = "/*" :: (merged ++ ["*/"]) := by
  have order : ligatures = earlier ++ ["/*", "*/"] := rfl
  have opening : "/*" ∈ ligatures := by decide
  have closing : "*/" ∈ ligatures := by decide
  obtain ⟨merged, unclosed, run⟩ := exists_foldl_earlier ordinary mark
  have opened : mergeSequence "/*" (comment merged) =
      "/*" :: (mergeSequence "/*" merged ++ ["*", "/"]) := by
    have rest : mergeSequence "/*" ["*", "/"] = ["*", "/"] := mergeSequence_eq_self (by decide)
    have start := mergeSequence_spelling opening (merged ++ ["*", "/"])
    rw [unclosed.mergeSequence_append opening, rest] at start
    exact start
  have kept := unclosed.mergeSequence opening (by decide)
  have closed : mergeSequence "*/" (mergeSequence "/*" merged ++ ["*", "/"]) =
      mergeSequence "/*" merged ++ ["*/"] := by
    have spelled : spelling "*/" = ["*", "/"] := by decide
    have rest := mergeSequence_spelling closing []
    rw [spelled, List.append_nil, mergeSequence.eq_1] at rest
    rw [kept.mergeSequence_append closing, rest, mergeSequence_eq_self (spelled ▸ kept.pair)]
  refine ⟨mergeSequence "/*" merged, kept.mark, ?_⟩
  rw [mergeLigatures, order, List.foldl_append, run, List.foldl_cons, List.foldl_cons,
    List.foldl_nil, opened, mergeSequence_head closing (by decide), closed]

/-! ### Removing a comment -/

/-- Whether a comment is open behind the tokens. -/
def openAfter (inside : Bool) : List String → Bool
  | [] => inside
  | token :: rest => openAfter (if inside then token != "*/" else token == "/*") rest

/-- What is left of some tokens depends on those before them by an open comment only. -/
theorem stripBlockCommentsFrom_append_eq (inside : Bool) (front back : List String) :
    stripBlockCommentsFrom inside (front ++ back) =
      stripBlockCommentsFrom inside front ++
        stripBlockCommentsFrom (openAfter inside front) back := by
  fun_induction stripBlockCommentsFrom inside front with
  | case1 inside => rfl
  | case2 token rest ih =>
      rw [List.cons_append, stripBlockCommentsFrom, ih]
      rfl
  | case3 rest ih =>
      rw [List.cons_append, stripBlockCommentsFrom]
      exact ih
  | case4 token rest other ih =>
      have closed : (token == "/*") = false := by simpa using other
      rw [List.cons_append, stripBlockCommentsFrom, if_neg other, ih, openAfter]
      simp only [closed, Bool.false_eq_true, if_false, List.cons_append]

@[simp] theorem openAfter_append (inside : Bool) (front back : List String) :
    openAfter inside (front ++ back) = openAfter (openAfter inside front) back := by
  induction front generalizing inside with
  | nil => rfl
  | cons token rest ih => exact ih _

/-- A comment goes on until it is closed, and to the end of the script if it is not. -/
theorem inside_of_not_mem {tokens : List String} (absent : "*/" ∉ tokens) :
    stripBlockCommentsFrom true tokens = [] ∧ openAfter true tokens = true := by
  induction tokens with
  | nil => exact ⟨rfl, rfl⟩
  | cons token rest ih =>
      rw [List.mem_cons, not_or] at absent
      have goesOn : (token != "*/") = true := by simpa using Ne.symm absent.1
      rw [stripBlockCommentsFrom, openAfter, goesOn]
      exact ih absent.2

/-- Tokens that are no marks of comments. -/
def Unmarked (tokens : List String) : Prop := "/*" ∉ tokens ∧ "*/" ∉ tokens

theorem stripBlockComments_eq_self {tokens : List String} (unopened : "/*" ∉ tokens) :
    stripBlockComments tokens = tokens := by
  have kept := stripBlockCommentsFrom_append unopened []
  rw [List.append_nil, stripBlockCommentsFrom, List.append_nil] at kept
  exact kept

/-- What stands before some tokens is kept, and what stands behind them if no comment is open. -/
theorem normalize_between {front back : List String} (before : Unmarked front)
    (behind : Unmarked back) (tokens : List String) :
    normalize (front ++ (tokens ++ back)) = normalize front ++ (normalize tokens ++
      if openAfter false tokens then [] else normalize back) := by
  have start : stripBlockCommentsFrom false (front ++ (tokens ++ back)) =
      front ++ (stripBlockCommentsFrom false tokens ++
        stripBlockCommentsFrom (openAfter false tokens) back) := by
    rw [stripBlockCommentsFrom_append before.1, stripBlockCommentsFrom_append_eq]
  have rest : stripBlockCommentsFrom (openAfter false tokens) back =
      if openAfter false tokens then [] else back := by
    cases openAfter false tokens with
    | true => exact (inside_of_not_mem behind.2).1
    | false => exact stripBlockComments_eq_self behind.1
  simp only [normalize, stripBlockComments_eq_self before.1, stripBlockComments_eq_self behind.1]
  rw [stripBlockComments, start, rest, List.filter_append, List.filter_append, List.map_append,
    List.map_append, stripBlockComments]
  cases openAfter false tokens with
  | true => rfl
  | false => rfl

/-! ### Words around a comment -/

/-- Tokens that are part of no operator. -/
def Inert (tokens : List String) : Prop :=
  ∀ sequence ∈ ligatures, ∀ token ∈ tokens, token ∉ spelling sequence

theorem mergeSequence_between {front back : List String} (before : Inert front)
    (behind : Inert back) {sequence : String} (member : sequence ∈ ligatures)
    (tokens : List String) :
    mergeSequence sequence (front ++ (tokens ++ back)) =
      front ++ (mergeSequence sequence tokens ++ back) := by
  have alone {tokens : List String} (inert : Inert tokens) :
      mergeSequence sequence tokens = tokens := by
    apply mergeSequence_eq_self
    intro found
    have long := two_le_length_spelling member
    have nonempty : 0 < (spelling sequence).length := by omega
    obtain ⟨mark, inside⟩ := List.exists_mem_of_length_pos nonempty
    exact inert sequence member mark (found.subset inside) inside
  rw [mergeSequence_append member, alone before, mergeSequence_append member, alone behind]
  · intro x _ y first pair
    exact behind sequence member y (List.mem_of_mem_head? first) (pair.subset (by simp))
  · intro x last y _ pair
    exact before sequence member x (List.mem_of_mem_getLast? last) (pair.subset (by simp))

theorem mergeLigatures_between {front back : List String} (before : Inert front)
    (behind : Inert back) (tokens : List String) :
    mergeLigatures (front ++ (tokens ++ back)) = front ++ (mergeLigatures tokens ++ back) := by
  have run (sequences : List String) (among : ∀ sequence ∈ sequences, sequence ∈ ligatures)
      (tokens : List String) :
      sequences.foldl (fun tokens sequence => mergeSequence sequence tokens)
          (front ++ (tokens ++ back)) =
        front ++ (sequences.foldl (fun tokens sequence => mergeSequence sequence tokens) tokens ++
          back) := by
    induction sequences generalizing tokens with
    | nil => rfl
    | cons sequence sequences ih =>
        obtain ⟨here, others⟩ := List.forall_mem_cons.mp among
        rw [List.foldl_cons, List.foldl_cons, mergeSequence_between before behind here, ih others]
  exact run ligatures (fun _ member => member) tokens

/-- Words in one line, with white space between them. -/
def IsWords (text : String) : Prop :=
  ∀ c ∈ text.toList, isWordCharacter c = true ∨ (isWhiteSpace c = true ∧ c ≠ '\n')

/-- Every token of such a text is a word, so nothing in it can be merged with the marks of a
comment. -/
theorem exists_word_of_mem_ofChars {cs : List Char}
    (words : ∀ c ∈ cs, isWordCharacter c = true ∨ (isWhiteSpace c = true ∧ c ≠ '\n'))
    {token : String} (member : token ∈ ofChars cs) :
    ∃ c rest, token.toList = c :: rest ∧ isWordCharacter c = true := by
  fun_induction ofChars cs with
  | case1 => cases member
  | case2 c cs body rest found =>
      rw [quoted?, if_neg] at found
      · cases found
      · intro quote
        rcases words c List.mem_cons_self with word | blank
        · exact not_quote_of_isWordCharacter word quote
        · exact ne_quote_of_isWhiteSpace blank.1 quote rfl
  | case3 c cs found word ih =>
      rcases List.mem_cons.mp member with rfl | later
      · exact ⟨c, _, String.toList_ofList, word⟩
      · refine ih ?_ later
        intro d inside
        exact words d (List.mem_cons_of_mem _ ((List.dropWhile_sublist _).subset inside))
  | case4 c cs found notWord mark ih =>
      rcases words c List.mem_cons_self with word | ⟨blank, other⟩
      · exact absurd word notWord
      · simp [blank, other] at mark
  | case5 c cs found notWord blank ih =>
      exact ih (fun d inside => words d (List.mem_cons_of_mem _ inside)) member

namespace IsWords

variable {text : String} (words : IsWords text)
include words

theorem ne {c : Char} (member : c ∈ text.toList) {other : Char} (mark : other ∈ otherCharacters)
    (visible : isWhiteSpace other = false ∨ other = '\n') : c ≠ other := by
  rintro rfl
  rcases words c member with word | ⟨blank, notNewline⟩
  · rw [not_isWordCharacter mark] at word
    cases word
  · rcases visible with visible | newline
    · rw [visible] at blank
      cases blank
    · exact notNewline newline

theorem uncommented : Uncommented text.toList := by
  intro c member
  refine ⟨?_, words.ne member (by decide) (.inl (by decide))⟩
  rintro (quote | quote)
  · exact words.ne member (by decide) (.inl (by decide)) quote
  · exact words.ne member (by decide) (.inl (by decide)) quote

theorem single : '\n' ∉ text.toList :=
  fun member => words.ne member (by decide) (.inr rfl) rfl

theorem inert : Inert (ofChars text.toList) := by
  intro sequence member token inside
  obtain ⟨c, rest, shape, word⟩ := exists_word_of_mem_ofChars words inside
  exact not_mem_spelling shape (by simp [isOperatorMark, word]) member

theorem unmarked : Unmarked (ofChars text.toList) := by
  have other {mark : String} {c : Char} {rest : List Char} (shape : mark.toList = c :: rest)
      (member : mark ∈ ligatures) : mark ∉ ofChars text.toList := by
    intro inside
    obtain ⟨d, others, same, word⟩ := exists_word_of_mem_ofChars words inside
    have isMark := isOperatorMark_of_mem member (shape ▸ List.mem_cons_self)
    rw [shape, List.cons.injEq] at same
    rw [same.1, isOperatorMark, word] at isMark
    cases isMark
  exact ⟨other (by rfl : "/*".toList = ['/', '*']) (by decide),
    other (by rfl : "*/".toList = ['*', '/']) (by decide)⟩

theorem lex_eq : lex text = ofChars text.toList := by
  have line : lineTokens text.toList = ofChars text.toList := by
    rw [lineTokens, Text.splitOn_eq_singleton words.single]
    cases blank : Text.isBlank text.toList with
    | true =>
        rw [List.filter_cons_of_neg (by simp [blank]), ofChars_isBlank blank words.single]
        rfl
    | false =>
        rw [List.filter_cons_of_pos (by simp [blank]), List.filter_nil, List.map_singleton,
          List.intercalate_singleton]
  have nothing : mergeLigatures [] = [] := by simp [mergeLigatures, ligatures, mergeSequence]
  have merged := mergeLigatures_between words.inert (fun _ _ => List.forall_mem_nil _) []
  rw [nothing, List.append_nil, List.append_nil] at merged
  rw [Token.lex_eq words.uncommented, line, merged]

end IsWords

theorem isWords_empty : IsWords "" := by simp [IsWords]

theorem isWords_x : IsWords "x" := by
  intro c member
  rw [List.mem_singleton.mp member]
  exact .inl (by decide)

theorem ofChars_empty : ofChars "".toList = [] := ofChars.eq_1

theorem normalize_x : normalize (ofChars "x".toList) = ["x"] := by
  have cut : ofChars ('x' :: []) = ["x"] := by
    rw [ofChars_word (by decide), List.takeWhile_nil, List.dropWhile_nil, ofChars]
  have alone : normalize ["x"] = ["x"] := by decide
  exact (congrArg normalize cut).trans alone

section

variable {a b body : String}

theorem toList_commented (a body b : String) : (a ++ "/*" ++ body ++ "*/" ++ b).toList =
    a.toList ++ ['/', '*'] ++ (body.toList ++ '*' :: '/' :: b.toList) := by
  simp

theorem uncommented_marks : Uncommented ['/', '*'] ∧ Uncommented ['*', '/'] := by
  simp [Uncommented]

theorem uncommented_commented (before : IsWords a) (plain : Uncommented body.toList)
    (behind : IsWords b) : Uncommented (a ++ "/*" ++ body ++ "*/" ++ b).toList := by
  rw [toList_commented]
  exact (before.uncommented.append uncommented_marks.1).append
    (plain.append (uncommented_marks.2.append behind.uncommented))

/-- The marks of a comment can be seen, so the lines that they stand in are not left out as blank.
-/
theorem exists_lineTokens_commented (unquoted : Unquoted body.toList) :
    ∃ inner, ∀ a b, IsWords a → IsWords b →
      lineTokens (a ++ "/*" ++ body ++ "*/" ++ b).toList =
        ofChars a.toList ++ (comment inner ++ ofChars b.toList) := by
  have mark := isOperatorMark_of_mem (by decide : "/*" ∈ ligatures) (by decide : '/' ∈ "/*".toList)
  have slash : isWordCharacter '/' = false ∧ isWhiteSpace '/' = false :=
    ⟨by simpa [isOperatorMark] using mark, by decide⟩
  have star : isWordCharacter '*' = false ∧ isWhiteSpace '*' = false :=
    ⟨not_isWordCharacter (by decide), by decide⟩
  have opening : ofChars ['/', '*'] = ["/", "*"] := by
    rw [ofChars_mark (by decide) slash.1 slash.2, ofChars_mark (by decide) star.1 star.2, ofChars]
  obtain ⟨inner, cut⟩ := exists_lineTokens_between unquoted
  refine ⟨inner, ?_⟩
  intro a b before behind
  have starts (text : List Char) : Apart (a.toList ++ ['/', '*']) text := by
    have last := @Apart.of_last (a.toList ++ ['/']) '*' star.1 text
    rwa [List.append_assoc] at last
  have found := cut (a.toList ++ ['/', '*']) ('*' :: '/' :: b.toList)
    (before.uncommented.append uncommented_marks.1).unquoted (by simp [before.single])
    (by simp [behind.single]) (by simp [Text.isBlank, slash.2]) (by simp [Text.isBlank, star.2])
    starts (fun text => .of_head star.1 text)
  rw [toList_commented, found, ofChars_append before.uncommented.unquoted (.of_head slash.1 _),
    opening, ofChars_mark (by decide) star.1 star.2, ofChars_mark (by decide) slash.1 slash.2]
  simp [comment]

/-- The tokens of a comment between words. The marks of the body may be merged with those of the
comment, and no mark is merged with a word. -/
theorem exists_lex_comment (plain : Uncommented body.toList) :
    ∃ inner, tokenize ("/*" ++ body ++ "*/") = comment inner ∧
      ∀ a b, IsWords a → IsWords b →
        lex (a ++ "/*" ++ body ++ "*/" ++ b) =
          ofChars a.toList ++ (mergeLigatures (comment inner) ++ ofChars b.toList) := by
  obtain ⟨inner, lines⟩ := exists_lineTokens_commented plain.unquoted
  refine ⟨inner, ?_, ?_⟩
  · have alone := lines "" "" isWords_empty isWords_empty
    have uncommented := uncommented_commented isWords_empty plain isWords_empty
    rw [String.append_empty, String.empty_append] at alone uncommented
    rw [tokenize_eq_lineTokens uncommented.unquoted, alone, ofChars_empty, List.append_nil,
      List.nil_append]
  · intro a b before behind
    rw [lex_eq (uncommented_commented before plain behind), lines a b before behind,
      mergeLigatures_between before.inert behind.inert]

end

/-- A comment between two texts is worth a blank. -/
def Vanishes (body : String) : Prop :=
  ∀ a b, IsWords a → IsWords b →
    normalize (lex (a ++ "/*" ++ body ++ "*/" ++ b)) = normalize (lex (a ++ " " ++ b))

theorem lex_blank {a b : String} (before : IsWords a) (behind : IsWords b) :
    lex (a ++ " " ++ b) = ofChars a.toList ++ ofChars b.toList := by
  have blank : isWhiteSpace ' ' = true := by decide
  have words : IsWords (a ++ " " ++ b) := by
    intro c member
    rw [String.toList_append, String.toList_append, List.append_assoc, List.mem_append,
      List.mem_append] at member
    rcases member with inside | inside | inside
    · exact before c inside
    · rw [List.mem_singleton.mp inside]
      exact .inr ⟨blank, by decide⟩
    · exact behind c inside
  have text : (a ++ " " ++ b).toList = a.toList ++ ' ' :: b.toList := by simp
  rw [words.lex_eq, text, ofChars_append before.uncommented.unquoted
    (.of_head (not_isWordCharacter_of_isWhiteSpace blank) _), ofChars_blank blank,
    if_neg (by decide), List.nil_append]

section

variable {body : String} {tokens : List String}
  (cut : ∀ a b, IsWords a → IsWords b → lex (a ++ "/*" ++ body ++ "*/" ++ b) =
    ofChars a.toList ++ (tokens ++ ofChars b.toList))
include cut

/-- A comment vanishes if nothing is left of it and it is closed. Both can be decided from its
tokens alone. -/
theorem vanishes_of_closed (empty : normalize tokens = [])
    (closed : openAfter false tokens = false) : Vanishes body := by
  intro a b before behind
  have words : normalize (ofChars a.toList ++ ofChars b.toList) =
      normalize (ofChars a.toList) ++ normalize (ofChars b.toList) :=
    normalize_between before.unmarked behind.unmarked []
  rw [cut a b before behind, normalize_between before.unmarked behind.unmarked, empty, closed,
    lex_blank before behind, words]
  rfl

theorem normalize_lex_alone : normalize (lex ("/*" ++ body ++ "*/")) = normalize tokens := by
  have alone := cut "" "" isWords_empty isWords_empty
  rw [ofChars_empty, List.append_nil, List.nil_append, String.append_empty,
    String.empty_append] at alone
  rw [alone]

theorem normalize_lex_before_x : normalize (lex ("/*" ++ body ++ "*/" ++ "x")) =
    normalize tokens ++ if openAfter false tokens then [] else ["x"] := by
  have behind := cut "" "x" isWords_empty isWords_x
  have split := normalize_between isWords_empty.unmarked isWords_x.unmarked tokens
  rw [String.empty_append] at behind
  rw [behind, split, normalize_x, ofChars_empty]
  rfl

end

theorem not_isCut_closing : ¬IsCut "*/" := by
  have star : isWordCharacter '*' = false := not_isWordCharacter (by decide)
  rintro (quoted | word | single)
  · exact absurd quoted (by decide)
  · simp [star] at word
  · exact absurd single (by decide)

theorem IsOrdinary.closed {body : List String} (ordinary : IsOrdinary body) (mark : "*/" ∉ body) :
    normalize (mergeLigatures (comment body)) = [] ∧
      openAfter false (mergeLigatures (comment body)) = false := by
  obtain ⟨merged, unclosed, shape⟩ := exists_mergeLigatures_comment ordinary mark
  obtain ⟨gone, goesOn⟩ := inside_of_not_mem unclosed
  have stripped : stripBlockComments (mergeLigatures (comment body)) = [] := by
    rw [shape, stripBlockComments, stripBlockCommentsFrom]
    show stripBlockCommentsFrom true (merged ++ ["*/"]) = []
    rw [stripBlockCommentsFrom_append_eq, gone, goesOn]
    rfl
  refine ⟨?_, ?_⟩
  · rw [normalize, stripped]
    rfl
  · rw [shape]
    show openAfter true (merged ++ ["*/"]) = false
    rw [openAfter_append, goesOn]
    rfl

/-- A comment without quotes and hyphens vanishes if its body stays apart from the marks around it.
Whatever its body is, it vanishes between all words exactly if it does so by itself and before one
word. -/
theorem block_comment_vanishes {body : String}
    (plain : ∀ c ∈ body.toList, ¬(c = '"' ∨ c = '\'') ∧ c ≠ '-') :
    ∃ inner, tokenize ("/*" ++ body ++ "*/") = "/" :: "*" :: (inner ++ ["*", "/"]) ∧
      (IsOrdinary inner → Vanishes body) ∧
      (Vanishes body ↔ normalize (lex ("/*" ++ body ++ "*/")) = [] ∧
        normalize (lex ("/*" ++ body ++ "*/" ++ "x")) = ["x"]) := by
  obtain ⟨inner, whole, cut⟩ := exists_lex_comment plain
  refine ⟨inner, whole, ?_, ?_, ?_⟩
  · intro ordinary
    have mark : "*/" ∉ inner := by
      intro found
      have token : "*/" ∈ tokenize ("/*" ++ body ++ "*/") := by
        rw [whole]
        simp [comment, found]
      exact not_isCut_closing (isCut_of_mem_ofChars token)
    obtain ⟨empty, closed⟩ := ordinary.closed mark
    exact vanishes_of_closed cut empty closed
  · intro vanishes
    have alone := vanishes "" "" isWords_empty isWords_empty
    have before := vanishes "" "x" isWords_empty isWords_x
    rw [lex_blank isWords_empty isWords_empty, ofChars_empty, String.append_empty,
      String.empty_append] at alone
    rw [lex_blank isWords_empty isWords_x, ofChars_empty, List.nil_append, normalize_x,
      String.empty_append] at before
    exact ⟨alone, before⟩
  · rintro ⟨alone, before⟩
    rw [normalize_lex_alone cut] at alone
    rw [normalize_lex_before_x cut, alone] at before
    apply vanishes_of_closed cut alone
    cases closed : openAfter false (mergeLigatures (comment inner)) with
    | false => rfl
    | true =>
        rw [closed] at before
        cases before

/-- A product and a quotient in two lines, under a banner. -/
theorem banner_vanishes : Vanishes "== sizes ==\n w * h / 2 " := by
  obtain ⟨inner, whole, vanishes, -⟩ :=
    @block_comment_vanishes "== sizes ==\n w * h / 2 " (by simp)
  have tokens : tokenize "/*== sizes ==\n w * h / 2 */" = "/" :: "*" ::
      (["=", "=", "sizes", "=", "=", "\n", "w", "*", "h", "/", "2"] ++ ["*", "/"]) := by
    decide +kernel
  have same := List.append_cancel_right
    (List.cons.inj (List.cons.inj (whole.symm.trans tokens)).2).2
  apply vanishes
  rw [same]
  exact ⟨.inl ⟨_, rfl⟩, by decide, by decide⟩

/-- A second star in front takes the comment apart. -/
theorem starred_comment_stays :
    (∀ c ∈ "* note ".toList, ¬(c = '"' ∨ c = '\'') ∧ c ≠ '-') ∧
      ¬['*', '/'] <:+: "* note ".toList ∧
      normalize (lex "a /** note */ b") = ["a", "/", "**", "note", "*/", "b"] ∧
      ¬Vanishes "* note " := by
  have stays : normalize (lex ("a " ++ "/*" ++ "* note " ++ "*/" ++ " b")) =
      ["a", "/", "**", "note", "*/", "b"] := by decide +kernel
  have blank : normalize (lex ("a " ++ " " ++ " b")) = ["a", "b"] := by decide +kernel
  have isWord : isWordCharacter 'a' = true ∧ isWordCharacter 'b' = true := by decide
  have isBlank : isWhiteSpace ' ' = true := by decide
  refine ⟨by simp, by decide, stays, ?_⟩
  intro vanishes
  have same := vanishes "a " " b" (by simp [IsWords, isWord, isBlank])
    (by simp [IsWords, isWord, isBlank])
  rw [stays, blank] at same
  exact absurd same (by decide)

end Maxscript.Token
