import Maxscript.Proofs.Token.Lexer
import Maxscript.Unicode.Lowercasing

/-!
# Lower case is reached in one step

A letter is shifted to a code point that no shift moves, so the lower case form of a text is its own
lower case form. Letters are shifted to letters: no white space and no punctuation arises, and what
was visible stays visible.
-/

namespace Maxscript.Unicode

def Stride.points (stride : Stride) : List Nat :=
  (List.range' stride.first (stride.last + 1 - stride.first)).filter stride.touches

theorem Stride.mem_points {stride : Stride} {code : Nat} (touched : stride.touches code = true) :
    code ∈ stride.points := by
  have between := touched
  simp only [touches, Bool.and_eq_true, decide_eq_true_eq] at between
  rw [points, List.mem_filter, List.mem_range'_1]
  exact ⟨by omega, touched⟩

def Shift.targets (shift : Shift) : List Nat :=
  shift.letters.points.map fun (code : Nat) => (code + shift.distance).toNat

theorem shiftedBy_mem_targets (shifts : List Shift) (code : Nat) :
    shiftedBy shifts code = code ∨ shiftedBy shifts code ∈ shifts.flatMap Shift.targets := by
  induction shifts with
  | nil => exact .inl rfl
  | cons shift rest ih =>
      rw [shiftedBy, List.flatMap_cons, List.mem_append]
      split
      · exact .inl rfl
      split
      · next touched =>
          exact .inr (.inl (List.mem_map.mpr ⟨code, Stride.mem_points touched, rfl⟩))
      · exact ih.imp_right .inr

theorem shiftedBy_eq_self {shifts : List Shift} {code : Nat}
    (untouched : code ∉ shifts.flatMap (·.letters.points)) : shiftedBy shifts code = code := by
  induction shifts with
  | nil => rfl
  | cons shift rest ih =>
      rw [List.flatMap_cons, List.mem_append, not_or] at untouched
      rw [shiftedBy]
      split
      · rfl
      split
      · next touched => exact absurd (Stride.mem_points touched) untouched.1
      · exact ih untouched.2

/-- A set of code points as the bits of a number. Two large sets are compared by one operation. -/
def bits (codes : List Nat) : Nat := codes.foldr (fun code set => set ||| 1 <<< code) 0

theorem testBit_bits (codes : List Nat) (code : Nat) :
    (bits codes).testBit code = true ↔ code ∈ codes := by
  induction codes with
  | nil => simp [bits]
  | cons other codes ih =>
      rw [bits, List.foldr_cons, ← bits, Nat.testBit_or, Bool.or_eq_true, ih, Nat.one_shiftLeft,
        Nat.testBit_two_pow, List.mem_cons, decide_eq_true_eq, or_comm, eq_comm]

/-- Two lists of code points are disjoint if their bits are. The tables are compared by one
operation on numbers instead of pair by pair. -/
theorem disjoint_of_bits {first second : List Nat} (h : bits first &&& bits second = 0) {code : Nat}
    (member : code ∈ second) : code ∉ first := by
  intro both
  have bit : (bits first &&& bits second).testBit code = true := by
    rw [Nat.testBit_and, Bool.and_eq_true, testBit_bits, testBit_bits]
    exact ⟨both, member⟩
  rw [h, Nat.zero_testBit] at bit
  cases bit

/-- White space, and what lowering changes. -/
def unsettled : List Nat :=
  'İ'.toNat :: 'Σ'.toNat :: whiteSpace.points ++ shifts.flatMap (·.letters.points)

/-- The code point of a visible character behind the marks of ASCII that lowering leaves alone. -/
structure IsSmall (code : Nat) : Prop where
  valid : code.isValidChar
  above : 96 < code
  settled : code ∉ unsettled

theorem isSmall_of_mem_targets {code : Nat} (target : code ∈ shifts.flatMap Shift.targets) :
    IsSmall code := by
  have inRange : (shifts.flatMap Shift.targets).all
      (fun code => 96 < code && decide code.isValidChar) = true := by
    decide +kernel
  have apart : bits unsettled &&& bits (shifts.flatMap Shift.targets) = 0 := by decide +kernel
  have here := List.all_eq_true.mp inRange code target
  rw [Bool.and_eq_true, decide_eq_true_eq, decide_eq_true_eq] at here
  exact ⟨here.2, here.1, disjoint_of_bits apart target⟩

/-- The forms of the capitals that no shift describes: of `İ`, and of the sigma. -/
theorem isSmall_of_mem_specialForms {d : Char} (special : d ∈ ['i', '\u0307'] ++ ['ς', 'σ']) :
    IsSmall d.toNat := by
  have inRange : ((['i', '\u0307'] ++ ['ς', 'σ']).all
      fun d => 96 < d.toNat && decide d.toNat.isValidChar) = true := by
    decide
  have apart : bits unsettled &&& bits ((['i', '\u0307'] ++ ['ς', 'σ']).map Char.toNat) = 0 := by
    decide +kernel
  have here := List.all_eq_true.mp inRange d special
  rw [Bool.and_eq_true, decide_eq_true_eq, decide_eq_true_eq] at here
  exact ⟨here.2, here.1, disjoint_of_bits apart (List.mem_map_of_mem special)⟩

/-- A character that is its own lower case form wherever it stands. -/
structure IsLower (c : Char) : Prop where
  fixed : lowerChar c = [c]
  notSigma : c ≠ 'Σ'

/-- `d` is in the lower case form of `c`: it is `c`, or a visible character behind the marks of
ASCII. -/
structure IsFormOf (c d : Char) : Prop where
  lower : IsLower d
  shape : d = c ∨ 96 < d.toNat ∧ isWhiteSpace d = false

/-- A small letter may be the form of any character, since it has none of the properties that forms
must not bring in. -/
theorem IsSmall.isFormOf {d : Char} (small : IsSmall d.toNat) (c : Char) : IsFormOf c d := by
  obtain ⟨valid, above, settled⟩ := small
  simp only [unsettled, List.cons_append, List.mem_cons, List.mem_append, not_or] at settled
  obtain ⟨notDotted, notSigma, visible, fixed⟩ := settled
  constructor
  · constructor
    · rw [lowerChar, if_neg fun same => notDotted (congrArg Char.toNat same),
        shiftedBy_eq_self fixed, Char.ofNat_toNat]
    · exact fun same => notSigma (congrArg Char.toNat same)
  · refine .inr ⟨above, ?_⟩
    rw [isWhiteSpace, Bool.eq_false_iff]
    exact fun covered => visible (Ranges.mem_points_of_covers covered)

theorem isFormOf_of_mem_lowerChar {c d : Char} (notSigma : c ≠ 'Σ') (member : d ∈ lowerChar c) :
    IsFormOf c d := by
  rw [lowerChar] at member
  split at member
  · exact (isSmall_of_mem_specialForms (List.mem_append_left _ member)).isFormOf c
  · next notDotted =>
      rw [List.mem_singleton] at member
      subst member
      rcases shiftedBy_mem_targets shifts c.toNat with fixed | moved
      · rw [fixed, Char.ofNat_toNat]
        refine ⟨⟨?_, notSigma⟩, .inl rfl⟩
        rw [lowerChar, if_neg notDotted, fixed, Char.ofNat_toNat]
      · have small := isSmall_of_mem_targets moved
        apply IsSmall.isFormOf
        rw [Char.ofNat, dif_pos small.valid]
        exact small

/-- A mark of ASCII is the form of nothing but itself, so lowercasing does not make separators. -/
theorem eq_of_mem_lowerChar {mark c : Char} (ascii : mark.toNat ≤ 96) (notSigma : c ≠ 'Σ')
    (member : mark ∈ lowerChar c) : mark = c := by
  rcases (isFormOf_of_mem_lowerChar notSigma member).shape with same | above
  · exact same
  · omega

theorem lowerChar_ne_nil (c : Char) : lowerChar c ≠ [] := by
  rw [lowerChar]
  split <;> simp

theorem isUppercase_of_mem_lowerChar {c d : Char} (ascii : c.toNat < 128)
    (member : d ∈ lowerChar c) : isUppercase d = false := by
  have small : ((List.range 128).all fun code =>
      (lowerChar (Char.ofNat code)).all fun d => !isUppercase d) = true := by
    decide +kernel
  have here := List.all_eq_true.mp small c.toNat (List.mem_range.mpr ascii)
  rw [Char.ofNat_toNat] at here
  simpa using List.all_eq_true.mp here d member

def formAfter (before : List Char) (c : Char) (after : List Char) : List Char :=
  if c = 'Σ' then [if meetsCased before && !meetsCased after then 'ς' else 'σ'] else lowerChar c

theorem lowerAfter_cons (before : List Char) (c : Char) (cs : List Char) :
    lowerAfter before (c :: cs) = formAfter before c cs ++ lowerAfter (c :: before) cs := rfl

theorem formAfter_ne_nil (before : List Char) (c : Char) (after : List Char) :
    formAfter before c after ≠ [] := by
  rw [formAfter]
  split
  · simp
  · exact lowerChar_ne_nil c

theorem isFormOf_of_mem_formAfter {before after : List Char} {c d : Char}
    (member : d ∈ formAfter before c after) : IsFormOf c d := by
  rw [formAfter] at member
  split at member
  · have either : d ∈ ['ς', 'σ'] := by
      split at member <;> simp_all
    exact (isSmall_of_mem_specialForms (List.mem_append_right _ either)).isFormOf c
  · next notSigma => exact isFormOf_of_mem_lowerChar notSigma member

/-- Each character of a lower case form is in the form of a character of the text. -/
theorem exists_isFormOf_of_mem_lowerAfter {before cs : List Char} {d : Char}
    (member : d ∈ lowerAfter before cs) : ∃ c ∈ cs, IsFormOf c d := by
  induction cs generalizing before with
  | nil => exact absurd member List.not_mem_nil
  | cons c cs ih =>
      rw [lowerAfter_cons, List.mem_append] at member
      rcases member with here | later
      · exact ⟨c, List.mem_cons_self, isFormOf_of_mem_formAfter here⟩
      · obtain ⟨other, inside, form⟩ := ih later
        exact ⟨other, List.mem_cons_of_mem _ inside, form⟩

theorem lowerAfter_eq_self {cs : List Char} (lower : ∀ c ∈ cs, IsLower c) (before : List Char) :
    lowerAfter before cs = cs := by
  induction cs generalizing before with
  | nil => rfl
  | cons c cs ih =>
      obtain ⟨here, others⟩ := List.forall_mem_cons.mp lower
      rw [lowerAfter_cons, ih others, formAfter, if_neg here.notSigma, here.fixed,
        List.singleton_append]

/-- Without a sigma each character has its form whatever stands around it. -/
theorem lowerAfter_eq_flatMap {cs : List Char} (noSigma : 'Σ' ∉ cs) (before : List Char) :
    lowerAfter before cs = cs.flatMap lowerChar := by
  induction cs generalizing before with
  | nil => rfl
  | cons c cs ih =>
      rw [List.mem_cons, not_or] at noSigma
      rw [lowerAfter_cons, ih noSigma.2, formAfter, if_neg (Ne.symm noSigma.1), List.flatMap_cons]

theorem isLower_of_mem_lower {text : String} {d : Char} (member : d ∈ (lower text).toList) :
    IsLower d := by
  rw [lower, String.toList_ofList] at member
  obtain ⟨c, inside, form⟩ := exists_isFormOf_of_mem_lowerAfter member
  exact form.lower

theorem lower_eq_self {text : String} (small : ∀ c ∈ text.toList, IsLower c) :
    lower text = text := by
  rw [lower, lowerAfter_eq_self small, String.ofList_toList]

/-- Lowercasing twice is lowercasing once. Its result has no sigma left, and every character of it
is its own form. -/
theorem lower_lower (text : String) : lower (lower text) = lower text :=
  lower_eq_self fun _ => isLower_of_mem_lower

/-- Lowering makes no new mark of ASCII, which names are cut at and told apart by. -/
theorem mem_of_mem_lower {mark : Char} (ascii : mark.toNat ≤ 96) {text : String}
    (member : mark ∈ (lower text).toList) : mark ∈ text.toList := by
  rw [lower, String.toList_ofList] at member
  obtain ⟨c, inside, form⟩ := exists_isFormOf_of_mem_lowerAfter member
  rcases form.shape with same | above
  · rwa [same]
  · omega

theorem IsFormOf.visible {c d : Char} (form : IsFormOf c d) (notSpace : isWhiteSpace c = false) :
    isWhiteSpace d = false := by
  rcases form.shape with same | shifted
  · rwa [same]
  · exact shifted.2

theorem head?_lowerAfter {cs : List Char} (visible : ∀ c ∈ cs.head?, isWhiteSpace c = false)
    (before : List Char) : ∀ d ∈ (lowerAfter before cs).head?, isWhiteSpace d = false := by
  cases cs with
  | nil => simp [lowerAfter]
  | cons c cs =>
      obtain ⟨first, others, shape⟩ := List.exists_cons_of_ne_nil (formAfter_ne_nil before c cs)
      have member : first ∈ formAfter before c cs := shape ▸ List.mem_cons_self
      intro d found
      rw [lowerAfter_cons, shape] at found
      obtain rfl : first = d := by simpa using found
      exact (isFormOf_of_mem_formAfter member).visible (visible c rfl)

theorem getLast?_lowerAfter {cs : List Char}
    (visible : ∀ c ∈ cs.getLast?, isWhiteSpace c = false) (before : List Char) :
    ∀ d ∈ (lowerAfter before cs).getLast?, isWhiteSpace d = false := by
  induction cs generalizing before with
  | nil => simp [lowerAfter]
  | cons c cs ih =>
      intro d found
      rw [lowerAfter_cons, List.getLast?_append] at found
      cases later : (lowerAfter (c :: before) cs).getLast? with
      | none =>
          -- Only the empty text has an empty form, so `c` is the last character.
          rw [later] at found
          have empty : cs = [] := by
            cases cs with
            | nil => rfl
            | cons next others =>
                simp [lowerAfter_cons, formAfter_ne_nil] at later
          subst empty
          exact (isFormOf_of_mem_formAfter (List.mem_of_getLast? found)).visible (visible c rfl)
      | some last =>
          rw [later] at found
          have same : last = d := Option.some.inj found
          subst same
          refine ih (fun e ends => visible e ?_) _ last later
          rw [List.getLast?_cons, Option.mem_def.mp ends]
          rfl

end Maxscript.Unicode
