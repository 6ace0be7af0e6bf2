import Maxscript.Proofs.Convert
import Maxscript.Proofs.Reader.Agreement

/-!
# Entries that a script does not ask for

A registry is asked for a text as a whole and for what is behind its last dot. A name without a dot
is none of the texts that members were joined to, since these have a dot, and what is behind the
last dot of one comes from its last member. So an entry that no token of a script is found under,
as a whole or by its last segment, has no influence on how the script is read.
-/

namespace Maxscript

namespace Unicode

/-- No shift leads to the dot, if none starts below it. The tables of letters are only looked at
through this condition, and not entry by entry. -/
theorem eq_dot_of_shiftedBy {shifts : List Shift}
    (above : ∀ shift ∈ shifts, ('.'.toNat : Int) < shift.letters.first + shift.distance)
    {code : Nat} (h : shiftedBy shifts code = '.'.toNat) : code = '.'.toNat := by
  induction shifts with
  | nil => exact h
  | cons shift rest ih =>
      obtain ⟨here, others⟩ := List.forall_mem_cons.mp above
      rw [shiftedBy] at h
      split at h
      · exact h
      split at h
      · omega
      · exact ih others h

theorem toNat_ofNat_eq (n : Nat) : (Char.ofNat n).toNat = n ∨ (Char.ofNat n).toNat = 0 := by
  by_cases valid : n.isValidChar
  · rw [Char.ofNat, dif_pos valid]
    exact .inl rfl
  · rw [Char.ofNat, dif_neg valid]
    exact .inr rfl

theorem dot_mem_lowerChar {c : Char} : '.' ∈ lowerChar c ↔ c = '.' := by
  constructor
  · intro member
    rw [lowerChar] at member
    split at member
    · exact absurd member (by decide)
    · have same : (Char.ofNat (shiftedBy shifts c.toNat)).toNat = '.'.toNat :=
        congrArg Char.toNat (List.mem_singleton.mp member).symm
      have above : ∀ shift ∈ shifts,
          ('.'.toNat : Int) < shift.letters.first + shift.distance := by
        simpa using (show (shifts.all fun shift =>
          ('.'.toNat : Int) < shift.letters.first + shift.distance) = true by decide +kernel)
      rcases toNat_ofNat_eq (shiftedBy shifts c.toNat) with value | value
      · rw [same] at value
        exact Char.toNat_inj.mp (eq_dot_of_shiftedBy above value.symm)
      · rw [same] at value
        exact absurd value (by decide)
  · rintro rfl
    decide

theorem dot_mem_lowerAfter (before cs : List Char) : '.' ∈ lowerAfter before cs ↔ '.' ∈ cs := by
  induction cs generalizing before with
  | nil => rfl
  | cons c cs ih =>
      rw [lowerAfter, List.mem_append, List.mem_cons, ih]
      split
      · next sigma =>
          subst sigma
          split <;> simp
      · rw [dot_mem_lowerChar, eq_comm]

/-- Lowercasing neither adds nor removes dots, so the last segment of a name is the same before and
after it. -/
theorem dot_mem_lower (text : String) : '.' ∈ (lower text).toList ↔ '.' ∈ text.toList := by
  rw [lower, String.toList_ofList, dot_mem_lowerAfter]

end Unicode

namespace Registry

/-- Whether an entry with the key `key` is found under a name, or under its last segment. -/
def concerns (key name : String) : Bool :=
  Unicode.lower name == key || (lastSegment? name).any (Unicode.lower · == key)

/-- A new entry is found under its own key only. What is asked for is looked up in lowercase, and so
the two are compared there. -/
theorem contains_classify (registry : Registry) {name entry : String} (other : key name ≠ entry)
    (kind kind' : Classification) :
    ((registry.classify name kind).names kind').contains entry =
      (registry.names kind').contains entry := by
  rw [classify.eq_def]
  split
  · rfl
  · cases kind <;> cases kind' <;> simp [names, other]

section

variable (registry : Registry) {name text : String} (kind : Classification)

theorem isBuiltin_classify (other : key name ≠ Unicode.lower text) :
    (registry.classify name kind).isBuiltin text = registry.isBuiltin text :=
  registry.contains_classify other kind .builtinFunction

theorem isKnownFunction_classify (other : key name ≠ Unicode.lower text) :
    (registry.classify name kind).isKnownFunction text = registry.isKnownFunction text := by
  have user : (registry.classify name kind).isUserFunction text = registry.isUserFunction text :=
    registry.contains_classify other kind .userFunction
  rw [isKnownFunction, registry.isBuiltin_classify kind other, user, isKnownFunction]

@[simp] theorem renames_classify (name : String) :
    (registry.classify name kind).renames = registry.renames := by
  rw [classify.eq_def]
  split
  · rfl
  · cases kind <;> rfl

/-- What is asked of two registries is the same for a name if it is for each text that the name is
looked up under. -/
theorem any_lastSegment?_congr {p q : String → Bool} {entry : String}
    (same : ∀ text, entry ≠ Unicode.lower text → p text = q text)
    (unrelated : concerns entry name = false) :
    (p name || (lastSegment? name).any p) = (q name || (lastSegment? name).any q) := by
  rw [concerns, Bool.or_eq_false_iff] at unrelated
  have whole := same name (Ne.symm (by simpa using unrelated.1))
  cases found : lastSegment? name with
  | none => rw [whole, Option.any_none, Option.any_none]
  | some segment =>
      rw [found] at unrelated
      have last := same segment (Ne.symm (by simpa using unrelated.2))
      rw [whole, Option.any_some, Option.any_some, last]

variable {kind} in
theorem isKnownCall_classify (unrelated : concerns (key name) text = false) :
    (registry.classify name kind).isKnownCall text = registry.isKnownCall text := by
  rw [isKnownCall, isKnownCall, any_lastSegment?_congr
    (fun _ other => registry.isKnownFunction_classify kind other) unrelated]

variable {kind} in
theorem isBuiltinCall_classify (unrelated : concerns (key name) text = false) :
    (registry.classify name kind).isBuiltinCall text = registry.isBuiltinCall text :=
  any_lastSegment?_congr (fun _ other => registry.isBuiltin_classify kind other) unrelated

end

/-! ### Joined names -/

/-- A name that was joined from members is looked up by its last member. Which members were joined
before does not matter. -/
theorem lastSegment?_append (front back : String) :
    lastSegment? (front ++ ("." ++ back)) = some ((lastSegment? back).getD back) := by
  have dotted : Text.hasChar '.' (front ++ ("." ++ back)) = true := by
    simp [Text.hasChar]
  have reversed : (front ++ ("." ++ back)).toList.reverse =
      back.toList.reverse ++ '.' :: front.toList.reverse := by
    simp
  rw [lastSegment?, if_pos dotted, reversed, lastSegment?]
  congr 1
  by_cases inside : '.' ∈ back.toList
  · -- The last dot is in `back`, so the search ends before it leaves `back`.
    have stops : (back.toList.reverse.takeWhile (· != '.')).length ≠
        back.toList.reverse.length := by
      intro same
      have whole := (List.takeWhile_sublist _).eq_of_length same
      exact absurd (List.takeWhile_eq_self_iff.mp whole '.' (List.mem_reverse.mpr inside)) (by simp)
    rw [List.takeWhile_append, if_neg stops, if_pos (by simpa [Text.hasChar] using inside)]
    rfl
  · have clear : ∀ c ∈ back.toList.reverse, (c != '.') = true := by
      intro c member
      rw [bne_iff_ne]
      rintro rfl
      exact inside (List.mem_reverse.mp member)
    rw [List.takeWhile_append_of_pos clear, List.takeWhile_cons_of_neg (by simp),
      List.append_nil, List.reverse_reverse, String.ofList_toList,
      if_neg (by simpa [Text.hasChar] using inside)]
    rfl

theorem dot_not_mem_key {name : String} (noDot : '.' ∉ name.toList) : '.' ∉ (key name).toList := by
  rw [key, Unicode.dot_mem_lower, Text.trimmed, String.toList_ofList, Text.trim, Text.trimEnd,
    List.mem_reverse]
  intro member
  have inside := List.mem_reverse.mp ((List.dropWhile_sublist _).subset member)
  exact noDot ((List.dropWhile_sublist _).subset inside)

/-- If an entry without a dot is not found under the tokens of a script, it is found under nothing
that is asked for while the script is read. -/
theorem concerns_of_asked {tokens : List String} {entry name : String}
    (noDot : '.' ∉ entry.toList) (unrelated : ∀ token ∈ tokens, concerns entry token = false)
    (asked : Reader.Asked tokens name) : concerns entry name = false := by
  rcases asked with member | ⟨base, words, nonempty, run, rfl⟩
  · exact unrelated name member
  obtain ⟨others, last, rfl⟩ := (List.eq_nil_or_concat' words).resolve_left nonempty
  have whole : base ++ String.join ((others ++ [last]).map ("." ++ ·)) =
      (base ++ String.join (others.map ("." ++ ·))) ++ ("." ++ last) := by
    simp [String.join_append, String.append_assoc]
  have member : last ∈ tokens := by
    apply run.subset
    simp [Reader.memberTokens]
  have behind := unrelated last member
  rw [concerns, Bool.or_eq_false_iff] at behind
  rw [whole, concerns, lastSegment?_append, Option.any_some, Bool.or_eq_false_iff]
  constructor
  · rw [beq_eq_false_iff_ne]
    rintro rfl
    rw [Unicode.dot_mem_lower] at noDot
    exact noDot (by simp)
  · cases segment : lastSegment? last with
    | none => exact behind.1
    | some segment =>
        rw [segment, Option.any_some] at behind
        exact behind.2

end Registry

/-- Registries that answer alike on all that is asked for are read with alike, and the pieces are
not only related but equal. -/
theorem Reader.inStep_eq {tokens : List String} {asks : Ask → Prop} {registry other : Registry}
    (known : ∀ {name}, Asked tokens name → registry.isKnownCall name = other.isKnownCall name)
    (builtin : ∀ {name}, Asked tokens name →
      registry.isBuiltinCall name = other.isBuiltinCall name) :
    InStep tokens asks registry other Eq where
  token text := rfl
  text? same := congrArg Piece.text? same
  lift made := made.eq id
  length _ same := by rw [same]
  known := known
  call asked _ same := by rw [builtin asked, eq_of_forall₂ same id]

/-- An entry has no influence on a script if its name has no dot in it and no token of the script is
found under it, neither as a whole nor by what is behind its last dot. -/
theorem readScript_classify_unrelated {registry : Registry} {source name : String}
    (kind : Classification) (noDot : '.' ∉ name.toList)
    (unrelated : ∀ token ∈ Token.ofSource registry source,
      Registry.concerns (Registry.key name) token = false) :
    readScript (registry.classify name kind) source = readScript registry source ∧
      ∀ unit, convertWith unit (registry.classify name kind) source =
        convertWith unit registry source := by
  have tokens : Token.ofSource (registry.classify name kind) source =
      Token.ofSource registry source := by
    simp only [Token.ofSource, Token.applyRenames, Registry.rename?, Registry.renames_classify]
  have asked {text : String} (h : Reader.Asked (Token.ofSource registry source) text) :
      Registry.concerns (Registry.key name) text = false :=
    Registry.concerns_of_asked (Registry.dot_not_mem_key noDot) unrelated h
  have inStep (asks : Reader.Ask → Prop) : Reader.InStep (Token.ofSource registry source) asks
      (registry.classify name kind) registry Eq :=
    Reader.inStep_eq (fun h => registry.isKnownCall_classify (asked h))
      fun h => registry.isBuiltinCall_classify (asked h)
  have same : readScript (registry.classify name kind) source = readScript registry source := by
    rw [readScript, readScript, tokens]
    exact (readBlock_agrees (inStep _) .root).eq
  refine ⟨same, fun unit => ?_⟩
  rw [convertWith_eq, convertWith_eq, same]

/-- A function `Cone` says nothing about a script that calls `box.create`. -/
theorem cone_unrelated :
    convertWith "\t" ((Registry.empty.classify "create" .builtinFunction).classify "Cone "
        .userFunction) "box.create a.b 1" =
      .ok "rt.box.create(a.b, 1)" := by
  have noDot : '.' ∉ "Cone ".toList := by decide
  have unrelated : ((Token.ofSource (Registry.empty.classify "create" .builtinFunction)
      "box.create a.b 1").all fun token =>
        !Registry.concerns (Registry.key "Cone ") token) = true := by
    decide +kernel
  have converted : convertWith "\t" (Registry.empty.classify "create" .builtinFunction)
      "box.create a.b 1" = .ok "rt.box.create(a.b, 1)" := by
    rw [convertWith_eq]
    decide +kernel
  rw [(readScript_classify_unrelated .userFunction noDot (by simpa using unrelated)).2, converted]

end Maxscript
