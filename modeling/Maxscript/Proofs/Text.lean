import Maxscript.Text

/-!
# Texts in pieces

White space in front of a text is trimmed away whatever there is of it, and a text without any at
its ends is left alone. A text is the same after it was split at a separator and joined again, and
lines that are written one below the other are read back as they were.
-/

namespace Maxscript.Text

/-- Nothing but white space, or nothing at all. -/
def IsSpace (text : String) : Prop := ∀ c ∈ text.toList, Unicode.isWhiteSpace c = true

theorem IsSpace.times {unit : String} (space : IsSpace unit) (count : Nat) :
    IsSpace (times unit count) := by
  induction count with
  | zero => exact List.forall_mem_nil _
  | succ count ih =>
      intro c member
      rw [Text.times, String.toList_append] at member
      rcases List.mem_append.mp member with first | others
      · exact space c first
      · exact ih c others

theorem trimStart_space_append {front : String} (space : IsSpace front) (back : String) :
    trimStart (front ++ back).toList = trimStart back.toList := by
  rw [trimStart, String.toList_append, List.dropWhile_append_of_pos space]
  rfl

/-- There is no white space at either end. -/
structure IsFlush (cs : List Char) : Prop where
  head : ∀ c ∈ cs.head?, Unicode.isWhiteSpace c = false
  last : ∀ c ∈ cs.getLast?, Unicode.isWhiteSpace c = false

theorem head?_trimStart (cs : List Char) :
    ∀ c ∈ (trimStart cs).head?, Unicode.isWhiteSpace c = false := by
  intro c found
  have visible := List.head?_dropWhile_not Unicode.isWhiteSpace cs
  rwa [← trimStart, found] at visible

theorem trimStart_eq_self {cs : List Char}
    (visible : ∀ c ∈ cs.head?, Unicode.isWhiteSpace c = false) : trimStart cs = cs := by
  cases cs with
  | nil => rfl
  | cons c cs =>
      have notSpace := visible c rfl
      rw [trimStart, List.dropWhile_cons_of_neg (by simp [notSpace])]

theorem isPrefix_trimEnd (cs : List Char) : trimEnd cs <+: cs := by
  rw [← List.reverse_suffix, trimEnd, List.reverse_reverse]
  exact List.dropWhile_suffix _

@[simp] theorem trimEnd_trimEnd (cs : List Char) : trimEnd (trimEnd cs) = trimEnd cs := by
  rw [trimEnd, trimEnd, List.reverse_reverse, trimStart_eq_self (head?_trimStart _)]

theorem isFlush_trim (cs : List Char) : IsFlush (trim cs) where
  head c found := by
    obtain ⟨rest, whole⟩ := isPrefix_trimEnd (trimStart cs)
    apply head?_trimStart cs
    rw [← whole, List.head?_append, ← trim, Option.mem_def.mp found]
    rfl
  last c found := by
    rw [trim, trimEnd, List.getLast?_reverse] at found
    exact head?_trimStart _ c found

theorem IsFlush.trim_eq {cs : List Char} (flush : IsFlush cs) : trim cs = cs := by
  rw [trim, trimStart_eq_self flush.head, trimEnd, trimStart_eq_self, List.reverse_reverse]
  rw [List.head?_reverse]
  exact flush.last

theorem mem_of_mem_trim {c : Char} {cs : List Char} (member : c ∈ trim cs) : c ∈ cs :=
  (List.dropWhile_suffix _).subset ((isPrefix_trimEnd _).subset member)

/-- A pattern is not found across a place if what is before that place does not have its first
element. -/
theorem infix_append_iff_of_not_mem {α : Type} {x : α} {front : List α} (absent : x ∉ front)
    (rest back : List α) : x :: rest <:+: front ++ back ↔ x :: rest <:+: back := by
  induction front with
  | nil => rfl
  | cons first front ih =>
      rw [List.mem_cons, not_or] at absent
      have other : ¬x :: rest <+: first :: (front ++ back) := by
        intro starts
        exact absent.1 (List.cons_prefix_cons.mp starts).1
      rw [List.cons_append, List.infix_cons_iff, ih absent.2]
      exact or_iff_right other

theorem joinWith_cons (separator first : String) {rest : List String} (nonempty : rest ≠ []) :
    joinWith separator (first :: rest) = first ++ separator ++ joinWith separator rest := by
  cases rest with
  | nil => exact absurd rfl nonempty
  | cons second rest => rfl

theorem joinWith_eq_join (separator first : String) (rest : List String) :
    joinWith separator (first :: rest) = first ++ String.join (rest.map (separator ++ ·)) := by
  induction rest generalizing first with
  | nil => simp [joinWith]
  | cons second rest ih =>
      rw [joinWith_cons separator first (List.cons_ne_nil second rest), ih, List.map_cons,
        String.join_cons, String.append_assoc, String.append_assoc]

@[simp] theorem joinWith_empty (texts : List String) : joinWith "" texts = String.join texts := by
  cases texts with
  | nil => rfl
  | cons first rest => simp [joinWith_eq_join]

theorem joinWith_append (separator : String) {front back : List String} (hfront : front ≠ [])
    (hback : back ≠ []) :
    joinWith separator (front ++ back) =
      joinWith separator front ++ separator ++ joinWith separator back := by
  induction front with
  | nil => exact absurd rfl hfront
  | cons first rest ih =>
      by_cases last : rest = []
      · rw [last]
        exact joinWith_cons separator first hback
      · have more : rest ++ back ≠ [] := List.append_ne_nil_of_left_ne_nil last back
        rw [List.cons_append, joinWith_cons separator first more, ih last,
          joinWith_cons separator first last]
        simp only [String.append_assoc]

/-- What is joined from the first pieces starts the whole. -/
theorem exists_joinWith_append (separator : String) (front rest : List String) :
    ∃ back, joinWith separator (front ++ rest) = joinWith separator front ++ back := by
  by_cases none : front = []
  · exact ⟨joinWith separator rest, by simp [none, joinWith]⟩
  by_cases all : rest = []
  · exact ⟨"", by simp [all]⟩
  · exact ⟨_, (joinWith_append separator none all).trans String.append_assoc⟩

/-- What stands in front of the first piece stands in front of the whole. -/
theorem joinWith_front (separator front first : String) (rest : List String) :
    joinWith separator ((front ++ first) :: rest) =
      front ++ joinWith separator (first :: rest) := by
  cases rest with
  | nil => rfl
  | cons second rest => simp only [joinWith, String.append_assoc]

theorem hasChar_joinWith {c : Char} {separator : String} (between : hasChar c separator = false)
    {texts : List String} (absent : ∀ text ∈ texts, hasChar c text = false) :
    hasChar c (joinWith separator texts) = false := by
  induction texts with
  | nil => rfl
  | cons text texts ih =>
      obtain ⟨here, later⟩ := List.forall_mem_cons.mp absent
      cases texts with
      | nil => exact here
      | cons next texts =>
          rw [Text.joinWith_cons separator text (by simp), hasChar_append, hasChar_append, here,
            between, ih later]
          rfl

theorem splitOn_ne_nil (separator : Char) (cs : List Char) : splitOn separator cs ≠ [] := by
  fun_cases splitOn separator cs <;> simp

/-- Splitting at a separator loses nothing but the separators, which joining puts back. -/
theorem joinWith_splitOn (separator : Char) (cs : List Char) :
    joinWith (String.ofList [separator]) ((splitOn separator cs).map String.ofList) =
      String.ofList cs := by
  induction cs with
  | nil => rfl
  | cons c cs ih =>
      have nonempty := splitOn_ne_nil separator cs
      have front (tail : List Char) :
          String.ofList (c :: tail) = String.ofList [c] ++ String.ofList tail := by
        rw [← String.ofList_append, List.singleton_append]
      rw [splitOn]
      split
      · next found =>
          rw [List.map_cons, joinWith_cons _ _ (by simpa using nonempty), ih, front, found,
            String.ofList_nil, String.empty_append]
      · cases shape : splitOn separator cs with
        | nil => exact absurd shape nonempty
        | cons first rest =>
            rw [shape, List.map_cons] at ih
            rw [List.map_cons, front, joinWith_front, ih, ← front]

theorem not_mem_of_mem_splitOn {separator : Char} {cs piece : List Char}
    (h : piece ∈ splitOn separator cs) : separator ∉ piece := by
  induction cs generalizing piece with
  | nil =>
      rw [splitOn, List.mem_singleton] at h
      rw [h]
      exact List.not_mem_nil
  | cons c cs ih =>
      rw [splitOn] at h
      split at h
      · rcases List.mem_cons.mp h with rfl | later
        · exact List.not_mem_nil
        · exact ih later
      · next other =>
          cases shape : splitOn separator cs with
          | nil => exact absurd shape (splitOn_ne_nil separator cs)
          | cons first rest =>
              rw [shape] at h ih
              rcases List.mem_cons.mp h with rfl | later
              · have inFirst := ih List.mem_cons_self
                simp [inFirst, Ne.symm other]
              · exact ih (List.mem_cons_of_mem _ later)

theorem mem_of_mem_splitOn {separator c : Char} {cs piece : List Char}
    (member : piece ∈ splitOn separator cs) (inside : c ∈ piece) : c ∈ cs := by
  induction cs generalizing piece with
  | nil =>
      rw [splitOn, List.mem_singleton] at member
      rw [← member]
      exact inside
  | cons first cs ih =>
      rw [splitOn] at member
      split at member
      · rcases List.mem_cons.mp member with rfl | later
        · cases inside
        · exact List.mem_cons_of_mem _ (ih later inside)
      · cases shape : splitOn separator cs with
        | nil => exact absurd shape (splitOn_ne_nil separator cs)
        | cons next rest =>
            rw [shape] at member ih
            rcases List.mem_cons.mp member with rfl | later
            · rcases List.mem_cons.mp inside with rfl | behind
              · exact List.mem_cons_self
              · exact List.mem_cons_of_mem _ (ih List.mem_cons_self behind)
            · exact List.mem_cons_of_mem _ (ih (List.mem_cons_of_mem _ later) inside)

theorem splitOn_append (separator : Char) (front back : List Char) :
    splitOn separator (front ++ separator :: back) =
      splitOn separator front ++ splitOn separator back := by
  induction front with
  | nil => simp [splitOn]
  | cons c front ih =>
      rw [List.cons_append, splitOn, splitOn, ih]
      split
      · rfl
      · cases shape : splitOn separator front with
        | nil => exact absurd shape (splitOn_ne_nil separator front)
        | cons first rest => rfl

theorem splitOn_eq_singleton {separator : Char} {cs : List Char} (absent : separator ∉ cs) :
    splitOn separator cs = [cs] := by
  induction cs with
  | nil => rfl
  | cons c cs ih =>
      rw [List.mem_cons, not_or] at absent
      rw [splitOn, if_neg (Ne.symm absent.1), ih absent.2]

/-- Between two texts the last piece of the first and the first piece of the second become one. -/
theorem splitOn_append_of_eq {separator : Char} {front back last first : List Char}
    {init rest : List (List Char)} (hfront : splitOn separator front = init ++ [last])
    (hback : splitOn separator back = first :: rest) :
    splitOn separator (front ++ back) = init ++ (last ++ first) :: rest := by
  induction front generalizing init last with
  | nil =>
      cases init with
      | nil =>
          cases hfront
          exact hback
      | cons next init => simp [splitOn] at hfront
  | cons c front ih =>
      obtain ⟨next, others, pieces⟩ := List.exists_cons_of_ne_nil (splitOn_ne_nil separator front)
      rw [List.cons_append, splitOn]
      rw [splitOn, pieces] at hfront
      split
      · next found =>
          rw [if_pos found] at hfront
          cases init with
          | nil => cases hfront
          | cons empty init =>
              obtain ⟨rfl, later⟩ := List.cons.inj hfront
              rw [ih (pieces.trans later), List.cons_append]
      · next other =>
          rw [if_neg other] at hfront
          cases init with
          | nil =>
              obtain ⟨rfl, rfl⟩ := List.cons.inj hfront
              rw [@ih next [] pieces]
              rfl
          | cons start init =>
              obtain ⟨rfl, rfl⟩ := List.cons.inj hfront
              rw [@ih last (next :: init) pieces]
              rfl

theorem splitOn_front {separator : Char} {front : List Char} (absent : separator ∉ front)
    {back first : List Char} {rest : List (List Char)}
    (shape : splitOn separator back = first :: rest) :
    splitOn separator (front ++ back) = (front ++ first) :: rest :=
  @splitOn_append_of_eq separator front back front first [] rest (splitOn_eq_singleton absent) shape

/-- The last piece of a text, with something behind it. -/
theorem splitOn_back {separator : Char} {back : List Char} (absent : separator ∉ back)
    {front last : List Char} {init : List (List Char)}
    (shape : splitOn separator front = init ++ [last]) :
    splitOn separator (front ++ back) = init ++ [last ++ back] :=
  splitOn_append_of_eq shape (splitOn_eq_singleton absent)

/-- Pieces without the separator are found again. There has to be a piece, as splitting never gives
none. -/
theorem splitOn_joinWith {separator : Char} {pieces : List (List Char)} (nonempty : pieces ≠ [])
    (apart : ∀ piece ∈ pieces, separator ∉ piece) :
    splitOn separator
      (joinWith (String.ofList [separator]) (pieces.map String.ofList)).toList = pieces := by
  induction pieces with
  | nil => exact absurd rfl nonempty
  | cons piece rest ih =>
      obtain ⟨here, others⟩ := List.forall_mem_cons.mp apart
      cases rest with
      | nil =>
          rw [List.map_singleton, joinWith, String.toList_ofList, splitOn_eq_singleton here]
      | cons next rest =>
          have later := List.cons_ne_nil next rest
          rw [List.map_cons, joinWith_cons _ _ (by simp), String.toList_append,
            String.toList_append, String.toList_ofList, String.toList_ofList, List.append_assoc,
            List.singleton_append, splitOn_append, splitOn_eq_singleton here, ih later others,
            List.singleton_append]

@[simp] theorem flatten_splitOn (separator : Char) (cs : List Char) :
    (splitOn separator cs).flatten = cs.filter (· != separator) := by
  induction cs with
  | nil => rfl
  | cons c cs ih =>
      rw [splitOn]
      split
      · next found =>
          rw [List.flatten_cons, ih, List.filter_cons_of_neg (by simp [found]), List.nil_append]
      · next other =>
          obtain ⟨first, rest, pieces⟩ := List.exists_cons_of_ne_nil (splitOn_ne_nil separator cs)
          rw [pieces] at ih ⊢
          rw [List.filter_cons_of_pos (by simpa using other), ← ih]
          rfl

/-! ### Lines -/

@[simp] theorem isBlank_append (front back : List Char) :
    isBlank (front ++ back) = (isBlank front && isBlank back) := by
  rw [isBlank, List.all_append]
  rfl

theorem exists_trimEnd_append (line : List Char) :
    ∃ blank, line = trimEnd line ++ blank ∧ isBlank blank = true := by
  refine ⟨(line.reverse.takeWhile Unicode.isWhiteSpace).reverse, ?_, ?_⟩
  · rw [trimEnd, trimStart, ← List.reverse_append, List.takeWhile_append_dropWhile,
      List.reverse_reverse]
  · rw [isBlank, List.all_reverse]
    exact List.all_takeWhile

@[simp] theorem isBlank_trimEnd (line : List Char) : isBlank (trimEnd line) = isBlank line := by
  obtain ⟨space, shape, blank⟩ := exists_trimEnd_append line
  calc isBlank (trimEnd line) = (isBlank (trimEnd line) && isBlank space) := by
        rw [blank, Bool.and_true]
    _ = isBlank line := by rw [← isBlank_append, ← shape]

theorem dropReturn_cases (line : List Char) :
    dropReturn line = line ∨ ∃ front, line = front ++ ['\r'] ∧ dropReturn line = front := by
  rw [dropReturn]
  split
  · next rest ends =>
      refine .inr ⟨rest.reverse, ?_, rfl⟩
      rw [← List.reverse_reverse line, ends, List.reverse_cons]
  · exact .inl rfl

@[simp] theorem isBlank_dropReturn (line : List Char) :
    isBlank (dropReturn line) = isBlank line := by
  have blank : Unicode.isWhiteSpace '\r' = true := by decide
  rcases dropReturn_cases line with kept | ⟨front, rfl, dropped⟩
  · rw [kept]
  · simp [isBlank, dropped, blank]

theorem IsFlush.dropReturn_eq {line : List Char} (flush : IsFlush line) :
    dropReturn line = line := by
  rcases dropReturn_cases line with kept | ⟨front, rfl, -⟩
  · exact kept
  · have visible := flush.last '\r' List.getLast?_concat
    exact absurd visible (by decide)

theorem mem_of_mem_dropReturn {c : Char} {line : List Char} (member : c ∈ dropReturn line) :
    c ∈ line := by
  rcases dropReturn_cases line with kept | ⟨front, rfl, dropped⟩
  · rwa [kept] at member
  · rw [dropped] at member
    exact List.mem_append_left _ member

/-- What holds of all characters of a text holds of those of its lines. -/
theorem forall_mem_linesOf {p : Char → Prop} {pieces : List (List Char)}
    (all : ∀ piece ∈ pieces, ∀ c ∈ piece, p c) : ∀ line ∈ linesOf pieces, ∀ c ∈ line, p c := by
  fun_induction linesOf pieces with
  | case1 => exact List.forall_mem_nil _
  | case2 last empty => exact List.forall_mem_nil _
  | case3 last full => exact all
  | case4 line rest more ih =>
      obtain ⟨here, others⟩ := List.forall_mem_cons.mp all
      rw [List.forall_mem_cons]
      exact ⟨fun c member => here c (mem_of_mem_dropReturn member), ih others⟩

theorem newline_not_mem_of_mem_linesOf {pieces : List (List Char)}
    (single : ∀ piece ∈ pieces, '\n' ∉ piece) : ∀ line ∈ linesOf pieces, '\n' ∉ line := by
  have others : ∀ piece ∈ pieces, ∀ c ∈ piece, c ≠ '\n' := by
    rintro piece member c inside rfl
    exact single piece member inside
  exact fun line member inside => forall_mem_linesOf others line member '\n' inside rfl

theorem newline_not_mem_of_mem_lines {cs line : List Char} (member : line ∈ lines cs) :
    '\n' ∉ line :=
  newline_not_mem_of_mem_linesOf (fun _ => not_mem_of_mem_splitOn) line member

/-- Lines that each end in a line feed are read one by one. A line that is trimmed has no carriage
return to lose. -/
theorem lines_cons {line : List Char} (flush : IsFlush line) (single : '\n' ∉ line)
    (rest : List Char) : lines (line ++ '\n' :: rest) = line :: lines rest := by
  rw [lines, splitOn_append, splitOn_eq_singleton single, List.singleton_append]
  cases shape : splitOn '\n' rest with
  | nil => exact absurd shape (splitOn_ne_nil '\n' rest)
  | cons next others =>
      rw [linesOf, flush.dropReturn_eq, lines, shape]
      simp

end Maxscript.Text
