import Maxscript.Proofs.Token.BlockComment

/-!
# What is cleaned up stays clean

Each pass over the lines or the tokens of a script is done after one run. For each of them it is
said what its result has no more of, and that lines or tokens without it are left alone: a comment
behind a line, two hyphens next to each other, marks that spell an operator, the start of a block
comment, a token that is not in normal form. A pass removes or merges neighbours as it goes, so what
has to be ruled out is that tokens become neighbours behind it.
-/

namespace Maxscript.Token

/-! ### Comments behind lines -/

/-- What is left of a line has no comment, as the scan over it goes through the same states and
comes to its end. -/
theorem stripLineComment_stripLineComment (line : List Char) :
    stripLineComment (stripLineComment line) = stripLineComment line := by
  have uncommented : beforeComment .code (stripLineComment line) = stripLineComment line :=
    beforeComment_eq_self (Text.isPrefix_trimEnd _)
  rw [stripLineComment, uncommented, stripLineComment, Text.trimEnd_trimEnd]

theorem stripLineComments_stripLineComments (text : String) :
    stripLineComments (stripLineComments text) = stripLineComments text := by
  have clean (line : List Char) :
      (stripLineComment ∘ stripLineComment) line = stripLineComment line :=
    stripLineComment_stripLineComment line
  apply String.toList_injective
  rw [toList_stripLineComments, splitOn_stripLineComments, List.map_map, funext clean,
    toList_stripLineComments]

/-! ### Comments among tokens -/

/-- What is left starts with a hyphen only if the tokens do, outside of a comment. -/
theorem head?_of_stripTokenCommentsFrom {inside : Bool} {tokens : List String}
    (hyphen : (stripTokenCommentsFrom inside tokens).head? = some "-") :
    inside = false ∧ tokens.head? = some "-" := by
  fun_induction stripTokenCommentsFrom inside tokens with
  | case1 => cases hyphen
  | case2 rest ih => exact absurd (Option.some.inj hyphen) (by decide)
  | case3 token rest notNewline ih => exact absurd (ih hyphen).1 (by decide)
  | case4 token rest comment ih => exact absurd (ih hyphen).1 (by decide)
  | case5 token rest code ih => exact ⟨rfl, hyphen⟩

/-- No two hyphens next to each other are left: a comment ends before a newline, which comes between
them. -/
theorem not_hyphens_infix_stripTokenCommentsFrom (inside : Bool) (tokens : List String) :
    ¬["-", "-"] <:+: stripTokenCommentsFrom inside tokens := by
  fun_induction stripTokenCommentsFrom inside tokens with
  | case1 => simp
  | case2 rest ih =>
      rw [List.infix_cons_iff, not_or]
      refine ⟨fun starts => ?_, ih⟩
      exact absurd (List.cons_prefix_cons.mp starts).1 (by decide)
  | case3 token rest notNewline ih => exact ih
  | case4 token rest comment ih => exact ih
  | case5 token rest code ih =>
      rw [List.infix_cons_iff, not_or]
      refine ⟨fun starts => ?_, ih⟩
      obtain ⟨rfl, next⟩ := List.cons_prefix_cons.mp starts
      obtain ⟨others, shape⟩ := next
      have hyphen : (stripTokenCommentsFrom false rest).head? = some "-" := by
        rw [← shape]
        rfl
      exact code ⟨rfl, (head?_of_stripTokenCommentsFrom hyphen).2⟩

theorem stripTokenComments_stripTokenComments (tokens : List String) :
    stripTokenComments (stripTokenComments tokens) = stripTokenComments tokens :=
  (stripTokenComments_eq_self_iff _).mpr (not_hyphens_infix_stripTokenCommentsFrom false tokens)

theorem not_opening_mem_stripBlockCommentsFrom (inside : Bool) (tokens : List String) :
    "/*" ∉ stripBlockCommentsFrom inside tokens := by
  fun_induction stripBlockCommentsFrom inside tokens with
  | case1 => exact List.not_mem_nil
  | case2 token rest ih => exact ih
  | case3 rest ih => exact ih
  | case4 token rest code ih => exact List.not_mem_cons_of_ne_of_not_mem (Ne.symm code) ih

theorem stripBlockComments_stripBlockComments (tokens : List String) :
    stripBlockComments (stripBlockComments tokens) = stripBlockComments tokens :=
  stripBlockComments_eq_self (not_opening_mem_stripBlockCommentsFrom false tokens)

/-! ### Operators of several marks -/

theorem join_spelling (text : String) : String.join (spelling text) = text := by
  apply String.toList_injective
  rw [String.toList_join, spelling, List.flatMap_map]
  simp

/-- Merging changes how the text is cut and not the text. -/
theorem join_mergeSequence (sequence : String) (tokens : List String) :
    String.join (mergeSequence sequence tokens) = String.join tokens := by
  fun_induction mergeSequence sequence tokens with
  | case1 => rfl
  | case2 token rest empty => rfl
  | case3 token rest mark marks spelled found ih =>
      obtain ⟨rfl, starts⟩ := found
      obtain ⟨later, rfl⟩ := List.isPrefixOf_iff_prefix.mp starts
      rw [List.drop_left] at ih ⊢
      rw [String.join_cons, ih, ← List.cons_append, ← spelled, String.join_append, join_spelling]
  | case4 token rest mark marks spelled other ih => rw [String.join_cons, ih, String.join_cons]

/-- An operator of several marks is not one of its marks. -/
theorem not_mem_spelling_of_mem_ligatures {sequence : String} (member : sequence ∈ ligatures)
    (text : String) : sequence ∉ spelling text := by
  intro mark
  obtain ⟨c, -, rfl⟩ := List.mem_map.mp mark
  have long := two_le_length_spelling member
  simp [spelling] at long

/-- No marks of an operator are left after it was merged, as merging goes from the left to the right
and what it makes is not one of the marks. -/
theorem not_spelling_infix_mergeSequence {sequence : String} (member : sequence ∈ ligatures)
    (tokens : List String) : ¬spelling sequence <:+: mergeSequence sequence tokens := by
  have absent := not_mem_spelling_of_mem_ligatures member sequence
  intro found
  obtain ⟨last, starts, ends⟩ := List.infix_iff_prefix_suffix.mp found
  obtain ⟨rest, -, rfl⟩ := exists_suffix_of_mergeSequence ends
  -- The marks were there before, so they have been merged.
  obtain ⟨behind, rfl⟩ := prefix_of_mergeSequence absent starts
  rw [mergeSequence_spelling member] at starts
  cases shape : spelling sequence with
  | nil => simpa [shape] using two_le_length_spelling member
  | cons mark marks =>
      rw [shape] at starts absent
      exact absent ((List.cons_prefix_cons.mp starts).1 ▸ List.mem_cons_self)

/-- Later operators do not bring the marks of earlier ones together, since every merged token takes
the place of its own marks. -/
theorem not_spelling_infix_foldl {sequences : List String}
    (among : ∀ sequence ∈ sequences, sequence ∈ ligatures) {ligature : String}
    {tokens : List String} (gone : ligature ∈ sequences ∨ ¬spelling ligature <:+: tokens) :
    ¬spelling ligature <:+:
      sequences.foldl (fun tokens sequence => mergeSequence sequence tokens) tokens := by
  induction sequences generalizing tokens with
  | nil => exact gone.resolve_left List.not_mem_nil
  | cons sequence sequences ih =>
      obtain ⟨here, others⟩ := List.forall_mem_cons.mp among
      refine ih others ?_
      rcases gone with member | absent
      · rcases List.mem_cons.mp member with rfl | later
        · exact .inr (not_spelling_infix_mergeSequence here tokens)
        · exact .inl later
      · refine .inr fun found => absent (infix_of_mergeSequence ?_ found)
        exact not_mem_spelling_of_mem_ligatures here ligature

theorem not_spelling_infix_mergeLigatures {ligature : String} (member : ligature ∈ ligatures)
    (tokens : List String) : ¬spelling ligature <:+: mergeLigatures tokens :=
  not_spelling_infix_foldl (fun _ among => among) (.inl member)

theorem mergeLigatures_eq_self {tokens : List String}
    (apart : ∀ ligature ∈ ligatures, ¬spelling ligature <:+: tokens) :
    mergeLigatures tokens = tokens := by
  have kept {sequences : List String}
      (apart : ∀ sequence ∈ sequences, ¬spelling sequence <:+: tokens) :
      sequences.foldl (fun tokens sequence => mergeSequence sequence tokens) tokens = tokens := by
    induction sequences with
    | nil => rfl
    | cons sequence sequences ih =>
        obtain ⟨here, others⟩ := List.forall_mem_cons.mp apart
        rw [List.foldl_cons, mergeSequence_eq_self here, ih others]
  exact kept apart

theorem mergeLigatures_mergeLigatures (tokens : List String) :
    mergeLigatures (mergeLigatures tokens) = mergeLigatures tokens :=
  mergeLigatures_eq_self fun _ member => not_spelling_infix_mergeLigatures member tokens

theorem join_mergeLigatures (tokens : List String) :
    String.join (mergeLigatures tokens) = String.join tokens := by
  have merged (sequences : List String) :
      String.join (sequences.foldl (fun tokens sequence => mergeSequence sequence tokens) tokens) =
        String.join tokens := by
    induction sequences generalizing tokens with
    | nil => rfl
    | cons sequence sequences ih => rw [List.foldl_cons, ih, join_mergeSequence]
  exact merged ligatures

/-! ### Normal form -/

/-- A token that normalizing leaves alone. -/
structure IsNormal (token : String) : Prop where
  code : token ≠ "/*"
  unqualified : isQualifier token = false
  spelled : (literal? token).getD token = token

theorem isNormal_of_mem_normalize {tokens : List String} {token : String}
    (member : token ∈ normalize tokens) : IsNormal token := by
  have literal : ∀ spelling ∈ literals.map Prod.snd, spelling ≠ "/*" ∧
      isQualifier spelling = false ∧ (literal? spelling).getD spelling = spelling := by decide
  obtain ⟨kept, inside, rfl⟩ := List.mem_map.mp member
  obtain ⟨visible, unqualified⟩ := List.mem_filter.mp inside
  cases found : literal? kept with
  | none =>
      refine ⟨?_, by simpa using unqualified, by rw [Option.getD_none, found, Option.getD_none]⟩
      rintro rfl
      exact not_opening_mem_stripBlockCommentsFrom false tokens visible
  | some spelling =>
      obtain ⟨front, back, shape, -⟩ := List.lookup_eq_some_iff.mp found
      obtain ⟨code, unqualified, spelled⟩ := literal spelling (by simp [shape])
      exact ⟨code, unqualified, spelled⟩

/-- Tokens in normal form are left as they are: none is a qualifier or opens a comment, and literals
are spelled as they will be. -/
theorem normalize_eq_self {tokens : List String} (normal : ∀ token ∈ tokens, IsNormal token) :
    normalize tokens = tokens := by
  have visible : stripBlockComments tokens = tokens :=
    stripBlockComments_eq_self fun opening => (normal _ opening).code rfl
  have unqualified : tokens.filter (fun token => !isQualifier token) = tokens := by
    rw [List.filter_eq_self]
    intro token member
    simp [(normal token member).unqualified]
  rw [normalize, visible, unqualified]
  calc tokens.map (fun token => (literal? token).getD token) = tokens.map id :=
        List.map_congr_left fun token member => (normal token member).spelled
    _ = tokens := List.map_id tokens

theorem normalize_normalize (tokens : List String) :
    normalize (normalize tokens) = normalize tokens :=
  normalize_eq_self fun _ => isNormal_of_mem_normalize

/-- Every pass is done after one run. Merging keeps the text of the tokens and leaves no marks that
spell an operator. -/
theorem passes_idempotent (text : String) (tokens : List String) :
    stripLineComments (stripLineComments text) = stripLineComments text ∧
    stripTokenComments (stripTokenComments tokens) = stripTokenComments tokens ∧
    mergeLigatures (mergeLigatures tokens) = mergeLigatures tokens ∧
    stripBlockComments (stripBlockComments tokens) = stripBlockComments tokens ∧
    normalize (normalize tokens) = normalize tokens ∧
    String.join (mergeLigatures tokens) = String.join tokens ∧
    ∀ ligature ∈ ligatures, ¬spelling ligature <:+: mergeLigatures tokens :=
  ⟨stripLineComments_stripLineComments text, stripTokenComments_stripTokenComments tokens,
    mergeLigatures_mergeLigatures tokens, stripBlockComments_stripBlockComments tokens,
    normalize_normalize tokens, join_mergeLigatures tokens,
    fun _ member => not_spelling_infix_mergeLigatures member tokens⟩

end Maxscript.Token
