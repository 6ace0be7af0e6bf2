import Maxscript.Engine.Construct
import Maxscript.Proofs.Engine.Operand

/-!
# Clauses and definitions in a buffer

Each of these constructs is a row of blocks that are cut out of the buffer and read, one behind the
other. The nodes of a block stand in the arena where those of the blocks before it end, so the
construct itself is pushed behind the nodes of all its parts.
-/

namespace Maxscript

open Reader (Raw)
open Tree (Element elementAt elementsAt idAt planted plantedAll)

namespace Buffer.Points

variable {buffer : Buffer} {k : Nat} {rest : List Piece}

theorem add_le_length (points : buffer.Points k rest) (inside : k ≤ buffer.length) {n : Nat}
    (fits : n ≤ rest.length) : k + n ≤ buffer.length := by
  have := points.length_eq
  omega

theorem of_head (points : buffer.Points k rest) {p : Piece → Bool}
    (head : rest.head?.any p = true) : ∃ text behind, rest = .token text :: behind := by
  cases rest with
  | nil => cases head
  | cons first behind =>
      obtain ⟨text, rfl⟩ := points.raw.exists_token
      exact ⟨text, behind, rfl⟩

/-- The keyword `word` is in the buffer if it is among the tokens ahead, and what comes after it is
there too. -/
theorem after? (points : buffer.Points k rest) (word : String) :
    (∃ keyword behind, rest = .token keyword :: behind ∧ Reader.after? word rest = some behind ∧
      buffer.shows k (·.isKeyword word) = true) ∨
    (Reader.after? word rest = none ∧ buffer.shows k (·.isKeyword word) = false) := by
  rw [points.shows]
  cases rest with
  | nil => exact .inr ⟨rfl, rfl⟩
  | cons first behind =>
      obtain ⟨keyword, rfl⟩ := points.raw.exists_token
      by_cases is : (Piece.token keyword).isKeyword word = true
      · exact .inl ⟨keyword, behind, rfl, if_pos is, is⟩
      · exact .inr ⟨if_neg is, eq_false_of_ne_true is⟩

/-- An `else` may stand behind one newline. If there is none, the newline stays where it is, for the
next statement. -/
theorem afterElse? (points : buffer.Points k rest) :
    (∃ branch, Reader.afterElse? rest = some branch ∧
      buffer.shows (buffer.elseAt k) (·.isKeyword "else") = true ∧ k ≤ buffer.elseAt k ∧
      buffer.Points (buffer.elseAt k + 1) branch ∧ buffer.elseAt k + 1 ≤ buffer.length) ∨
    (Reader.afterElse? rest = none ∧
      buffer.shows (buffer.elseAt k) (·.isKeyword "else") = false) := by
  rw [elseAt, points.shows Piece.isNewline]
  cases rest with
  | nil => exact .inr ⟨rfl, points.shows _⟩
  | cons first behind =>
      obtain ⟨text, rfl⟩ := points.raw.exists_token
      rw [Reader.afterElse?, List.head?_cons, Option.any_some]
      by_cases newline : (Piece.token text).isNewline = true
      · rw [newline, Bool.true_and, if_pos rfl]
        rcases points.tail.after? "else" with ⟨keyword, branch, rfl, found, shown⟩ | ⟨found, shown⟩
        · rw [shown, if_pos rfl]
          exact .inl ⟨branch, found, shown, Nat.le_succ k, points.tail.tail, points.tail.lt_length⟩
        · rw [shown, if_neg Bool.false_ne_true, points.shows]
          refine .inr ⟨found, ?_⟩
          obtain rfl : text = "\n" := Option.some.inj (eq_of_beq newline)
          change (Piece.token "\n").isKeyword "else" = false
          decide
      · rw [eq_false_of_ne_true newline, Bool.false_and, if_neg Bool.false_ne_true,
          if_neg Bool.false_ne_true]
        rcases points.after? "else" with ⟨keyword, branch, shape, found, shown⟩ | ⟨found, shown⟩
        · rw [shape] at points
          exact .inl ⟨branch, found, shown, Nat.le_refl k, points.tail, points.lt_length⟩
        · exact .inr ⟨found, shown⟩

/-- One newline is passed. -/
theorem skipNewline (points : buffer.Points k rest) (inside : k ≤ buffer.length) :
    ∃ start, (if buffer.shows k Piece.isNewline then k + 1 else k) = start ∧ k ≤ start ∧
      buffer.Points start (Reader.skipNewline rest) ∧ start ≤ buffer.length := by
  rw [points.shows]
  cases rest with
  | nil => exact ⟨k, rfl, Nat.le_refl k, points, inside⟩
  | cons first behind =>
      obtain ⟨text, rfl⟩ := points.raw.exists_token
      rw [Reader.skipNewline]
      by_cases newline : (Piece.token text).isNewline = true
      · rw [if_pos newline]
        exact ⟨k + 1, if_pos newline, Nat.le_succ k, points.tail, points.lt_length⟩
      · rw [if_neg newline]
        exact ⟨k, if_neg newline, Nat.le_refl k, points, inside⟩

theorem attempted (points : buffer.Points k rest) (inside : k ≤ buffer.length) :
    buffer.attempted k = .ok ⟨k, k + Reader.attemptedEnd rest⟩ := by
  rw [Buffer.attempted, Reader.attemptedEnd, Reader.startsWith, points.shows, points.clause inside,
    points.skipWhile_eq]
  by_cases bracket : rest.head?.any (·.is "(") = true
  · rw [if_pos bracket, if_pos bracket]
  · rw [if_neg bracket, if_neg bracket]
    exact congrArg (fun start => Except.ok (Extent.mk start _))
      (Nat.min_eq_left (Nat.le_add_right k _))

/-- The clause behind a keyword may stand on a line of its own, so the newlines between the two are
passed. -/
theorem clauseBehind {keyword : String} (points : buffer.Points k (.token keyword :: rest)) :
    ∃ start, buffer.skipNewlines (k + 1) = start ∧ k ≤ start ∧ start ≤ buffer.length ∧
      buffer.Points start (Reader.skipNewlines rest) ∧
      buffer.clause start = .ok ⟨start, start + Extent.clauseEnd (Reader.skipNewlines rest) 0⟩ ∧
      start + Extent.clauseEnd (Reader.skipNewlines rest) 0 ≤ buffer.length := by
  obtain ⟨there, later, within⟩ := points.tail.skipNewlines
  have inside := within points.lt_length
  exact ⟨_, rfl, Nat.le_of_succ_le later, inside, there, there.clause inside,
    there.add_le_length inside (Extent.clauseEnd_le _ 0)⟩

theorem afterName (points : buffer.Points k rest) :
    buffer.Points (k + 1) (Reader.nameAt rest).2 := by
  have behind := points.drop 1
  cases rest <;> exact behind

/-- The body of a function is as far behind its `=` as among the tokens ahead. The index behind the
parameters may lie beyond the end, if the `=` is missing. -/
theorem definitionBody (points : buffer.Points k rest) :
    ∃ start, buffer.definitionBody k =
        ⟨start, start + Reader.bodyEnd (Reader.skipNewlines (rest.drop 1))⟩ ∧
      start ≤ buffer.length ∧ buffer.Points start (Reader.skipNewlines (rest.drop 1)) ∧
      min k buffer.length ≤ start := by
  rw [Buffer.definitionBody]
  rcases Nat.lt_or_ge k buffer.length with inside | beyond
  · obtain ⟨there, later, within⟩ := (points.drop 1).skipNewlines
    have start := within inside
    refine ⟨buffer.skipNewlines (k + 1), ?_, start, there, by omega⟩
    rw [if_neg (Nat.not_le_of_lt inside)]
    dsimp only
    rw [there.shows, Reader.bodyEnd, Reader.startsWith]
    by_cases bracket : (Reader.skipNewlines (rest.drop 1)).head?.any (·.is "(") = true
    · obtain ⟨text, behind, shape⟩ := there.of_head bracket
      rw [if_pos bracket, if_pos bracket, there.closingParen (shape ▸ List.cons_ne_nil _ _)]
      rfl
    · rw [if_neg bracket, if_neg bracket, Nat.min_eq_left start, there.statementEnd start,
        there.separatorEnd start, Nat.add_min_add_left]
  · obtain rfl : rest = [] := List.eq_nil_of_length_eq_zero (by have := points.length_eq; omega)
    have empty : Reader.bodyEnd [] = 0 := Nat.le_zero.mp (Reader.bodyEnd_le [])
    refine ⟨buffer.length, ?_, Nat.le_refl _, ?_, Nat.min_le_right _ _⟩
    · rw [if_pos beyond]
      exact congrArg (Extent.mk buffer.length ∘ (buffer.length + ·)) empty.symm
    · have there := points.min_length
      rwa [Nat.min_eq_right beyond] at there

/-- An event handler is passed, with the name of its event and its clause. It leaves no node behind.
-/
theorem handlerEnd {keyword : String} (points : buffer.Points k (.token keyword :: rest)) :
    ∃ stop, buffer.handlerEnd k = .ok stop ∧ buffer.Points stop (Reader.skipHandler rest) := by
  have there := (points.tail.skipWhile fun piece => !(piece.is "(" || piece.isNewline)).1
  rw [Buffer.handlerEnd, Reader.skipHandler, there.shows, Reader.startsWith]
  generalize buffer.skipWhile (fun piece => !(piece.is "(" || piece.isNewline)) (k + 1) = start
    at there ⊢
  generalize rest.dropWhile (fun piece => !(piece.is "(" || piece.isNewline)) = left at there ⊢
  by_cases bracket : left.head?.any (·.is "(") = true
  · obtain ⟨text, behind, rfl⟩ := there.of_head bracket
    rw [if_pos bracket, if_pos bracket, there.group (List.cons_ne_nil _ _)]
    exact ⟨_, rfl, there.drop _⟩
  · rw [if_neg bracket, if_neg bracket]
    exact ⟨start, rfl, there⟩

end Buffer.Points

/-- What was declared is part of more: the parameters behind one that was just read, counted from
the first of all. -/
theorem Declares.widen {inner base arena : Arena} {old buffer : Buffer} {i k : Nat}
    {positional positional' named named' : List Nat} {gathered : Gathered (List Nat × List Nat)}
    {reading : Reading (List Piece)}
    (declares : Declares inner buffer k positional' named' gathered arena reading)
    (before : i ≤ k) (kept : buffer.take i = old.take i) {parameters : List Piece}
    (sorts : Sorts (!·.isNamed) (·.isNamed) base positional named gathered.value arena parameters) :
    Declares base old i positional named gathered arena (parameters, reading.2) :=
  ⟨(take_eq_of_le declares.kept before).trans kept, declares.points,
    Nat.le_trans before declares.behind, sorts⟩

/-- A construct that ends with another one stands for the entries of both. An `else if` is read so,
as a conditional inside the alternative. -/
theorem Makes.wraps {inner base arena : Arena} {old : Buffer} {i k : Nat} {made : Made}
    {reading : Reading Piece} (makes : Makes inner old k made arena reading) (before : i ≤ k)
    (piece : Piece) (construct : piece.text? = none) :
    Makes base old i ⟨made.buffer, idAt base.length piece, made.stop⟩
      (base ++ planted base.length piece) (piece, reading.2) :=
  makes.points.makes (take_eq_of_le makes.kept before) (Nat.le_trans before makes.behind)
    makes.inside base piece construct

namespace Mirrored

variable {engine : Engine} {reader : Reader} (mirrored : Mirrored engine reader)

include mirrored

/-! ### Clauses -/

theorem alternative (indent : Nat) {base : Arena} {buffer : Buffer} {start : Nat}
    {rest : List Piece} (points : buffer.Points start rest) (inside : start ≤ buffer.length) :
    Mirrors (Makes base buffer start) base (engine.alternative indent buffer start)
      (reader.alternative indent rest) := by
  rw [Engine.alternative, Reader.alternative]
  obtain ⟨k, skipped, before, points, inside⟩ := points.skipNewline inside
  rw [skipped]
  rcases points.after? "if" with ⟨keyword, nested, shape, found, shown⟩ | ⟨found, shown⟩
  · rw [found, shown, if_pos rfl]
    rw [shape] at points
    refine (mirrored.conditional (indent + 1) points).bind fun made arena reading makes => ?_
    refine .push base (.block (indent + 1) .alternative [reading.1]) (.inline rfl rfl) ?_ rfl ?_ ?_
    · rw [makes.element]
      rfl
    · rw [makes.arena_eq, Piece.parts, Tree.plantedAll_single]
    · exact makes.wraps before _ rfl
  · rw [found, shown, if_neg Bool.false_ne_true]
    refine .read (points.clause inside) ?_
    refine (mirrored.blockOf (indent + 1) .alternative points inside 0 _).bind ?_
    rintro _ _ block ⟨rfl, construct, rfl⟩
    exact (points.drop _).makes rfl (Nat.le_trans before (Nat.le_add_right k _))
      (points.add_le_length inside (Extent.clauseEnd_le _ _)) base block construct

/-- The condition and the consequent are pushed before the conditional, and the alternative, if
there is one, right before it. -/
theorem readConditional (indent : Nat) {base : Arena} {buffer : Buffer} {i : Nat}
    {keyword : String} {rest : List Piece} (points : buffer.Points i (.token keyword :: rest)) :
    Mirrors (Makes base buffer i) base (engine.readConditional indent buffer i)
      (reader.readConditional indent rest) := by
  have inside : i + 1 ≤ buffer.length := points.lt_length
  rw [Engine.readConditional, Reader.readConditional, points.tail.conditionEnd inside]
  refine (mirrored.blockOf indent .condition points.tail inside 0 _).bind ?_
  rintro _ _ condition ⟨rfl, isCondition, rfl⟩
  have after := points.tail.drop (Extent.conditionEnd rest 0 + 1)
  refine .read after.consequent ?_
  refine (mirrored.blockOf (indent + 1) .consequent after.min_length
    (Nat.min_le_right _ _) _ _).bind ?_
  rintro _ _ consequent ⟨rfl, isConsequent, rfl⟩
  have behind := after.min_length.drop
    (Extent.consequent (rest.drop (Extent.conditionEnd rest 0 + 1)) 0).stop
  rcases behind.afterElse? with ⟨branch, found, shown, later, points, inside⟩ | ⟨found, shown⟩
  · simp only [found, shown, if_true]
    refine (mirrored.alternative indent points inside).bind fun made arena reading makes => ?_
    refine .push base (.conditional indent condition consequent (some reading.1))
      (.compound rfl ?_) ?_ rfl ?_ ?_
    · simp [isCondition, isConsequent, makes.construct]
    · rw [makes.node_eq, List.length_append, List.length_append, Tree.length_planted,
        Tree.length_planted, List.length_append, Tree.length_planted]
      rfl
    · simp [makes.arena_eq, Nat.add_assoc]
    · exact makes.wraps (by omega) _ rfl
  · simp only [found, shown, Bool.false_eq_true, if_false]
    refine .pushMade (.conditional indent condition consequent none) (.compound rfl ?_) ?_ rfl ?_
      behind (by omega) ?_
    · simp [isCondition, isConsequent]
    · rw [List.length_append, Tree.length_planted]
      rfl
    · simp
    · exact after.min_length.add_le_length (Nat.min_le_right _ _) (Extent.consequent_fits _ _).2

theorem attempt (indent : Nat) {base : Arena} {buffer : Buffer} {i : Nat} {keyword : String}
    {rest : List Piece} (points : buffer.Points i (.token keyword :: rest)) :
    Mirrors (Makes base buffer i) base (engine.attempt indent buffer i)
      (reader.attempt indent rest) := by
  obtain ⟨ahead, later, within⟩ := points.tail.skipNewlines
  have inside := within points.lt_length
  rw [Engine.attempt, Reader.attempt]
  refine .read (ahead.attempted inside) ?_
  refine (mirrored.blockOf (indent + 1) .attempted ahead inside 0 _).bind ?_
  rintro _ _ attempted ⟨rfl, isAttempted, rfl⟩
  have fits := ahead.add_le_length inside (Reader.attemptedEnd_le _)
  have behind := ahead.drop (Reader.attemptedEnd (Reader.skipNewlines rest))
  obtain ⟨next, nextLater, nextWithin⟩ := behind.skipNewlines
  have alone {stop : Nat} {left : List Piece} (points : buffer.Points stop left)
      (behind : i ≤ stop) (inside : stop ≤ buffer.length) :
      Mirrors (Makes base buffer i) (base ++ planted base.length attempted)
        (push (.attempt (idAt base.length attempted) none) indent >>= fun node =>
          return ⟨buffer, node, stop⟩)
        (.ok (.attempt indent attempted none, left)) :=
    .pushMade (.attempt indent attempted none) (.compound rfl (by simp [isAttempted])) rfl rfl
      (by simp) points behind inside
  rcases next.after? "catch" with ⟨catching, handled, shape, found, shown⟩ | ⟨found, shown⟩
  · simp only [found, shown, if_true]
    rw [shape] at next
    obtain ⟨start, skipped, clauseLater, clauseInside, clause, extent, stop⟩ := next.clauseBehind
    have first : i ≤ start + Extent.clauseEnd (Reader.skipNewlines handled) 0 := by omega
    rw [skipped]
    refine .read extent ?_
    refine .cut clause clauseInside 0 _ fun part raw => ?_
    rw [raw.seen_entries]
    refine .ite (fun _ => alone (clause.drop _) first stop) fun _ => ?_
    -- The reader puts the handler into an option first, where the engine pushes it right away.
    rw [← bind_pure_comp, bind_assoc]
    refine (mirrored.block (indent + 1) .handler raw).bind ?_
    rintro _ _ handler ⟨rfl, isHandler, rfl⟩
    refine .pushMade (.attempt indent attempted (some handler)) (.compound rfl ?_) ?_ rfl ?_
      (clause.drop _) first stop
    · simp [isAttempted, isHandler]
    · rw [List.length_append, Tree.length_planted]
      rfl
    · simp
  · simp only [found, shown, Bool.false_eq_true, if_false]
    exact alone behind (by omega) fits

theorem loop (indent : Nat) {base : Arena} {buffer : Buffer} {i : Nat} {keyword : String}
    {rest : List Piece} (points : buffer.Points i (.token keyword :: rest)) :
    Mirrors (Makes base buffer i) base (engine.loop indent buffer i)
      (reader.loop indent rest) := by
  have inside : i + 1 ≤ buffer.length := points.lt_length
  rw [Engine.loop, Reader.loop, points.tail.seen_drop]
  generalize header : Reader.loopHeader 0 false rest = found
  obtain ⟨stop, collects⟩ := found
  have fits : stop ≤ rest.length := by
    have := Reader.loopHeader_le 0 false rest
    rwa [header] at this
  refine (mirrored.blockOf indent .loopHeader points.tail inside 0 stop).bind ?_
  rintro _ _ block ⟨rfl, isHeader, rfl⟩
  have behind := points.tail.drop stop
  have alone (collects : Bool) : Mirrors (Makes base buffer i) (base ++ planted base.length block)
        (push (.loop (idAt base.length block) collects none) indent >>= fun node =>
          return ⟨buffer, node, i + 1 + stop⟩)
        (.ok (.loop indent block collects none, rest.drop stop)) :=
    .pushMade (.loop indent block collects none) (.compound rfl (by simp [isHeader])) rfl rfl
      (by simp) behind (by omega) (points.tail.add_le_length inside fits)
  cases collects with
  | true => exact alone true
  | false =>
      obtain ⟨next, later, within⟩ := behind.skipNewlines
      rcases next.after? "do" with ⟨word, body, shape, found, shown⟩ | ⟨found, shown⟩
      · simp only [found, shown, if_true, Bool.false_eq_true, if_false]
        rw [shape] at next
        obtain ⟨start, skipped, clauseLater, clauseInside, clause, extent, last⟩ :=
          next.clauseBehind
        rw [skipped]
        refine .read extent ?_
        refine (mirrored.blockOf (indent + 1) .loopBody clause clauseInside 0 _).bind ?_
        rintro _ _ body ⟨rfl, isBody, rfl⟩
        refine .pushMade (.loop indent block false (some body)) (.compound rfl ?_) ?_ rfl ?_
          (clause.drop _) (by dsimp only; omega) last
        · simp [isHeader, isBody]
        · rw [List.length_append, Tree.length_planted]
          rfl
        · simp
      · simp only [found, shown, Bool.false_eq_true, if_false]
        exact alone false

/-! ### Definitions -/

/-- Parameters with a key are listed apart from the others, in the order in which they were read.
Each of them is pushed when its value is. -/
theorem readParameters (indent : Nat) {base : Arena} {buffer : Buffer} {k : Nat}
    {rest : List Piece} (positional named : List Nat) (points : buffer.Points k rest) :
    Mirrors (Declares base buffer k positional named) base
      (engine.readParameters indent buffer k positional named)
      (reader.readParameters indent rest) := by
  have stopped : Declares base buffer k positional named ⟨buffer, k, positional, named⟩ base
      ([], rest) :=
    ⟨rfl, points, Nat.le_refl k, .nil _ _ base positional named⟩
  rw [Engine.readParameters]
  cases rest with
  | nil =>
      rw [if_neg (Nat.not_lt_of_le points.length_le)]
      exact stopped
  | cons first inner =>
      obtain ⟨text, rfl⟩ := points.raw.exists_token
      rw [if_pos points.lt_length, Reader.readParameters]
      refine .read points.entry ?_
      refine .ite (fun _ => stopped) fun _ => ?_
      simp only [seen_token, Piece.text?, Option.filter_some]
      by_cases word : Token.isWord text = true
      · simp only [word, if_true]
        rcases points.keyOfWord word with ⟨behind, found, shown, there, inside⟩ | ⟨found, shown⟩
        · rw [found, shown, if_pos rfl]
          refine (mirrored.keyValue indent _ there inside).bind fun value arena reading holds => ?_
          refine .push base (.binding indent text reading.1 true) (.inline rfl rfl) ?_ rfl
            holds.arena_eq ?_
          · rw [holds.value_eq]
            rfl
          · have before := holds.behind
            refine (mirrored.parameters indent positional _ holds.points).map ?_
            exact fun gathered left behind declares => declares.widen (by omega)
              (take_eq_of_le holds.kept (by omega)) (declares.sorts.cons_snd rfl rfl rfl)
        · rw [found, shown, if_neg Bool.false_ne_true]
          refine .push base (.binding indent text none false) (.inline rfl rfl) rfl rfl
            (List.append_nil base).symm ?_
          refine (mirrored.parameters indent _ named points.tail).map ?_
          exact fun gathered left behind declares => declares.widen (Nat.le_succ k) rfl
            (declares.sorts.cons_fst rfl rfl rfl)
      · simp only [word, if_false, Bool.false_eq_true]
        rw [Reader.key?_of_not_isWord (eq_false_of_ne_true word)]
        refine (mirrored.parameters indent positional named points.tail).map ?_
        exact fun gathered left behind declares =>
          declares.widen (Nat.le_succ k) rfl declares.sorts

theorem function (indent : Nat) {base : Arena} {buffer : Buffer} {i : Nat} {keyword : String}
    {rest : List Piece} (points : buffer.Points i (.token keyword :: rest)) :
    Mirrors (fun made arena reading =>
        Makes base buffer i made arena reading ∧ reading.1.isBinding = false)
      base (engine.function indent buffer i) (reader.function indent rest) := by
  rw [Engine.function, Reader.function, points.tail.nameAt]
  refine (mirrored.parameters indent [] [] points.tail.afterName).bind ?_
  rintro ⟨buffer', stop, sorted⟩ arena ⟨parameters, left⟩ ⟨kept, ahead, behind, sorts⟩
  obtain ⟨start, extent, inside, there, later⟩ := ahead.definitionBody
  simp only [extent]
  refine (mirrored.blockOf (indent + 1) .functionBody there inside 0 _).bind ?_
  rintro _ _ body ⟨rfl, isBody, rfl⟩
  refine .push base (.function indent (Reader.nameAt rest).1 parameters body) (.compound rfl ?_) ?_
    rfl ?_ ?_
  · simpa [or_imp, forall_and, isBody] using sorts.constructs
  · rw [sorts.fst_eq, sorts.snd_eq, sorts.arena_eq, List.length_append, Tree.length_plantedAll]
    rfl
  · rw [sorts.arena_eq, Piece.parts, Tree.plantedAll_append, Tree.plantedAll_single,
      List.append_assoc, List.length_append, Tree.length_plantedAll]
  · refine ⟨(there.drop _).makes (take_eq_of_le kept (by omega)) ?_ ?_ base _ rfl, rfl⟩
    · -- Defaults are reduced in place, which makes the buffer shorter, but not below `i`.
      have lengths := congrArg List.length kept
      have := points.lt_length
      simp only [List.length_take] at lengths
      dsimp only at behind later ⊢
      omega
    · exact there.add_le_length inside (Reader.bodyEnd_le _)

/-- A struct lists its properties and its methods in two lists. Separators and event handlers
between them leave the lists as they are. -/
theorem readMembers (indent : Nat) {base : Arena} {buffer : Buffer} {k : Nat} {rest : List Piece}
    (properties methods : List Nat) (points : buffer.Points k rest) :
    Mirrors (Sorts (·.isBinding) (!·.isBinding) base properties methods) base
      (engine.readMembers indent buffer k properties methods) (reader.readMembers indent rest) := by
  rw [Engine.readMembers]
  cases rest with
  | nil =>
      rw [if_neg (Nat.not_lt_of_le points.length_le)]
      exact .nil _ _ base properties methods
  | cons first inner =>
      obtain ⟨text, rfl⟩ := points.raw.exists_token
      rw [if_pos points.lt_length, Reader.readMembers]
      refine .read points.entry ?_
      refine .ite (fun _ => ?_) fun _ => .ite (fun _ => ?_) fun _ => .ite (fun _ => ?_) fun _ => ?_
      · refine (mirrored.function (indent + 1) points).bind ?_
        rintro method arena reading ⟨makes, isMethod⟩
        rw [makes.node_eq]
        refine (mirrored.members indent properties _ makes.points).map ?_
        intro sorted left members sorts
        rw [makes.arena_eq] at sorts
        exact sorts.cons_snd makes.construct isMethod (by rw [isMethod, Bool.not_false])
      · obtain ⟨stop, skipped, there⟩ := points.handlerEnd
        refine .read skipped ?_
        exact mirrored.members indent properties methods there
      · refine .read (points.group (List.cons_ne_nil _ _)) ?_
        exact mirrored.members indent properties methods (points.drop _)
      · refine .ite (fun _ => ?_) fun _ => ?_
        · exact mirrored.members indent properties methods points.tail
        rw [points.tail.shows, ← Reader.startsWith]
        refine .ite (fun valued => ?_) fun _ => ?_
        · obtain ⟨mark, rest, rfl⟩ := points.tail.of_head valued
          have there := points.tail.tail
          have inside : k + 2 ≤ buffer.length := points.tail.lt_length
          rw [there.separatorEnd inside]
          refine (mirrored.blockOf (indent + 2) .property there inside 0 _).bind ?_
          rintro _ _ value ⟨rfl, isValue, rfl⟩
          refine .push base (.binding (indent + 2) text (some value) false) (.inline rfl rfl) ?_ rfl
            ?_ ?_
          · rw [← Tree.elementAt_construct isValue]
            rfl
          · simp
          · refine (mirrored.members indent _ methods (there.drop _)).map ?_
            exact fun sorted arena members sorts => sorts.cons_fst rfl rfl rfl
        · refine .push base (.binding (indent + 2) text none false) (.inline rfl rfl) rfl rfl
            (List.append_nil base).symm ?_
          refine (mirrored.members indent _ methods points.tail).map ?_
          exact fun sorted arena members sorts => sorts.cons_fst rfl rfl rfl

theorem struct (indent : Nat) {base : Arena} {buffer : Buffer} {i : Nat} {keyword : String}
    {rest : List Piece} (points : buffer.Points i (.token keyword :: rest)) :
    Mirrors (Makes base buffer i) base (engine.struct indent buffer i)
      (reader.struct indent rest) := by
  have named := points.tail.afterName
  obtain ⟨opened, later, within⟩ := named.skipNewlines
  rw [Engine.struct, Reader.struct, points.tail.nameAt]
  dsimp only
  rw [opened.shows, ← Reader.startsWith]
  refine .ite (fun bracket => ?_) fun _ => ?_
  · obtain ⟨mark, behind, shape⟩ := opened.of_head bracket
    rw [shape] at opened ⊢
    have inside := Nat.le_of_lt opened.lt_length
    refine .read (opened.group (List.cons_ne_nil _ _)) ?_
    refine .cut opened inside _ _ fun part raw => ?_
    refine (mirrored.members indent [] [] (.all raw)).bind fun sorted arena members sorts => ?_
    refine .pushMade (.struct indent (Reader.nameAt rest).1 members) (.compound rfl ?_) ?_ rfl
      sorts.arena_eq (opened.drop _) (by dsimp only; omega) opened.group_after_le
    · simpa using sorts.constructs
    · rw [sorts.fst_eq, sorts.snd_eq]
      rfl
  · have := points.lt_length
    exact .pushMade (.struct indent (Reader.nameAt rest).1 []) (.compound rfl (by simp)) rfl rfl
      (List.append_nil base).symm named.min_length (by omega) (Nat.min_le_right _ _)

end Mirrored

end Maxscript
