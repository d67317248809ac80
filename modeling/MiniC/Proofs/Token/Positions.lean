import MiniC.Proofs.Token.Partition

/-!
# Lines and columns

A position tells the line of an offset, the text of that line and the number of characters
in front of the offset.  The lines are what a text is split into at its line breaks, and a
line begins behind all lines before it, each with the break that ends it.  So line and
column together lead back to the offset.  The lines that tokens are given while a text is
cut, and the lines that positions are resolved to, are the same.
-/

namespace MiniC

/-- The lines of a text. -/
def linesOf (text : List Char) : List (List Char) := text.splitOn '\n'

/-- Number of bytes of lines with a break behind each. -/
def linesLength : List (List Char) -> Nat
  | [] => 0
  | line :: rest => byteLength line + 1 + linesLength rest

theorem linesLength_append (first second : List (List Char)) :
    linesLength (first ++ second) = linesLength first + linesLength second := by
  induction first with
  | nil => exact (Nat.zero_add _).symm
  | cons line rest hypothesis =>
      rw [List.cons_append, linesLength, linesLength, hypothesis, ← Nat.add_assoc]

/-- The offset where a line begins that has as many lines before it. -/
def lineStart (text : List Char) (count : Nat) : Nat :=
  linesLength ((linesOf text).take count)

theorem linesOf_append_break (first second : List Char) :
    linesOf (first ++ '\n' :: second) = linesOf first ++ linesOf second :=
  List.splitOnP_append_cons first second rfl

theorem linesOf_of_notMem {line : List Char} (unbroken : '\n' ∉ line) :
    linesOf line = [line] :=
  List.splitOn_eq_singleton unbroken

/-- A text is a line without a break, or lines with breaks behind them and such a line. -/
theorem lastLine_cases (text : List Char) :
    '\n' ∉ lastLine text ∧
      (text = lastLine text ∨ ∃ lead, text = lead ++ '\n' :: lastLine text) := by
  have parts : text.reverse = text.reverse.takeWhile (· ≠ '\n') ++
      text.reverse.dropWhile (· ≠ '\n') := List.takeWhile_append_dropWhile.symm
  have whole := congrArg List.reverse parts
  rw [List.reverse_reverse, List.reverse_append] at whole
  refine ⟨fun member => ?_, ?_⟩
  · simpa using List.mem_takeWhile_imp (List.mem_reverse.mp member)
  · have stops := List.head?_dropWhile_not (· ≠ '\n') text.reverse
    cases rest : text.reverse.dropWhile (· ≠ '\n') with
    | nil =>
        rw [rest] at whole
        exact .inl whole
    | cons char lead =>
        rw [rest] at whole stops
        obtain rfl : char = '\n' := by simpa using stops
        refine .inr ⟨lead.reverse, whole.trans ?_⟩
        rw [List.reverse_cons, List.append_assoc]
        rfl

/-- A text begins with its first line. -/
theorem firstLine_cases (text : List Char) :
    '\n' ∉ firstLine text ∧
      (text = firstLine text ∨ ∃ rest, text = firstLine text ++ '\n' :: rest) := by
  have whole : text = firstLine text ++ text.dropWhile (· ≠ '\n') :=
    List.takeWhile_append_dropWhile.symm
  refine ⟨fun member => by simpa using List.mem_takeWhile_imp member, ?_⟩
  have stops := List.head?_dropWhile_not (· ≠ '\n') text
  cases rest : text.dropWhile (· ≠ '\n') with
  | nil =>
      rw [rest, List.append_nil] at whole
      exact .inl whole
  | cons char more =>
      rw [rest] at whole stops
      obtain rfl : char = '\n' := by simpa using stops
      exact .inr ⟨more, whole⟩

/-- The line that a place lies on is the first one of what begins with it. -/
theorem linesOf_append {line : List Char} (unbroken : '\n' ∉ line) (after : List Char) :
    ∃ others, linesOf (line ++ after) = (line ++ firstLine after) :: others := by
  obtain ⟨alsoUnbroken, whole⟩ := firstLine_cases after
  have joined : '\n' ∉ line ++ firstLine after := by
    simp [unbroken, alsoUnbroken]
  rcases whole with whole | ⟨rest, whole⟩
  · refine ⟨[], ?_⟩
    nth_rewrite 1 [whole]
    exact linesOf_of_notMem joined
  · refine ⟨linesOf rest, ?_⟩
    nth_rewrite 1 [whole]
    rw [← List.append_assoc, linesOf_append_break, linesOf_of_notMem joined]
    rfl

/-- There is one line more than breaks, and lines with a break behind each are one byte
longer than the text. -/
theorem linesOf_sizes (text : List Char) :
    (linesOf text).length = text.count '\n' + 1 ∧
      linesLength (linesOf text) = byteLength text + 1 := by
  obtain ⟨unbroken, whole⟩ := lastLine_cases text
  induction size : text.length using Nat.strongRecOn generalizing text with
  | ind count hypothesis =>
  rcases whole with whole | ⟨lead, whole⟩
  · rw [whole, linesOf_of_notMem unbroken, List.count_eq_zero.mpr unbroken]
    exact ⟨rfl, rfl⟩
  · have shorter : lead.length < count := by
      rw [← size, whole, List.length_append, List.length_cons]
      omega
    obtain ⟨alsoUnbroken, leading⟩ := lastLine_cases lead
    obtain ⟨length, sum⟩ := hypothesis _ shorter lead alsoUnbroken leading rfl
    have newline : '\n'.utf8Size = 1 := rfl
    rw [whole, linesOf_append_break, linesOf_of_notMem unbroken,
      List.length_append, length, List.count_append, List.count_cons_self,
        List.count_eq_zero.mpr unbroken,
      linesLength_append, sum, byteLength_append, byteLength, newline]
    exact ⟨rfl, by simp only [linesLength]; omega⟩

/-- A place in a text lies on the line that is counted by the breaks before it, behind the
beginning of that line. -/
theorem linesOf_place (before after : List Char) :
    (linesOf (before ++ after))[before.count '\n']? =
      some (lastLine before ++ firstLine after) ∧ byteLength before =
        lineStart (before ++ after) (before.count '\n') + byteLength
          (lastLine before) := by
  obtain ⟨unbroken, whole⟩ := lastLine_cases before
  obtain ⟨others, lines⟩ := linesOf_append unbroken after
  rcases whole with whole | ⟨lead, whole⟩
  · rw [← whole] at unbroken lines ⊢
    rw [List.count_eq_zero.mpr unbroken, lineStart, lines]
    exact ⟨rfl, (Nat.zero_add _).symm⟩
  · obtain ⟨length, sum⟩ := linesOf_sizes lead
    have count : before.count '\n' = (linesOf lead).length := by
      rw [whole, List.count_append, List.count_cons_self,
        List.count_eq_zero.mpr unbroken, length]
    have all : linesOf (before ++ after) =
        linesOf lead ++ (lastLine before ++ firstLine after) :: others := by
      nth_rewrite 1 [whole]
      rw [List.append_assoc, List.cons_append, linesOf_append_break, lines]
    have newline : '\n'.utf8Size = 1 := rfl
    rw [lineStart, all, count, List.take_left, sum]
    refine ⟨by simp, ?_⟩
    nth_rewrite 1 [whole]
    rw [byteLength_append, byteLength, newline]
    omega

/-- The position of an offset between two characters. -/
theorem SourceFile.position_byteLength {file : SourceFile} {before after : List Char}
    (split : file.contents.toList = before ++ after) :
    file.position (byteLength before) =
      ⟨file.name, before.count '\n' + 1, (lastLine before).length,
        String.ofList (lastLine before ++ firstLine after)⟩ := by
  unfold position
  rw [split, splitAtByte_byteLength]

/-! ## Lines of tokens -/

/-- A token whose line is counted by the breaks in front of it. -/
def Token.CountsLines (token : Token) (text : List Char) : Prop :=
  ∃ before after, text = before ++ after ∧ token.loc = byteLength before ∧
    token.line = 1 + before.count '\n'

/-- While a text is cut, the lines of tokens are counted up from token to token.  They are
the same as if each were counted from the beginning. -/
theorem Lexer.countsLines_of_tokens {whole before text : List Char} {body : List Token}
    {eof : Token} {loc line : Nat}
    (split : whole = before ++ text)
    (place : loc = byteLength before)
    (counted : line = 1 + before.count '\n')
    (cut : tokens text loc line = .ok (body, eof)) :
    ∀ token ∈ body ++ [eof], token.CountsLines whole := by
  induction size : text.length using Nat.strongRecOn
    generalizing before text body loc line with
  | ind count hypothesis =>
  cases text with
  | nil =>
      rw [tokens] at cut
      cases cut
      rw [List.nil_append, List.forall_mem_singleton]
      exact ⟨before, [], split, place, counted⟩
  | cons char rest =>
      obtain ⟨found, following, known, behind, rfl⟩ := tokens_cons_ok cut
      have shorter : (rest.drop found.more).length < count := by
        rw [← size, List.length_drop, List.length_cons]
        omega
      have cutAt :
          whole = (before ++ char :: rest.take found.more) ++ rest.drop found.more := by
        rw [split, List.append_assoc, List.cons_append, List.take_append_drop]
      have later := hypothesis _ shorter cutAt (by rw [byteLength_append, place])
        (by rw [List.count_append, counted, Nat.add_assoc]) behind rfl
      intro token member
      rw [List.append_assoc, List.mem_append] at member
      rcases member with own | further
      · rw [Option.mem_toList, Option.map_eq_some_iff] at own
        obtain ⟨kind, -, rfl⟩ := own
        exact ⟨before, char :: rest, split, place, counted⟩
      · exact later token further

/-- Positions locate offsets exactly.  For every offset between two characters the line is
counted by the breaks before it, the text is that line of the file, and the characters of
it that the column counts end at the offset.  No two such offsets have the same line and
column.  And the line of every token is the line of its position. -/
theorem positions_locate_exactly (file : SourceFile) :
    (∀ before after, file.contents.toList = before ++ after ->
      let position := file.position (byteLength before)
      position.line = 1 + before.count '\n' ∧
        (linesOf file.contents.toList)[position.line - 1]? = some position.text.toList ∧
        position.column ≤ position.text.toList.length ∧
        byteLength before = lineStart file.contents.toList (position.line - 1) +
          byteLength (position.text.toList.take position.column)) ∧
    (∀ loc other, IsBoundary file.contents.toList loc ->
      IsBoundary file.contents.toList other ->
      (file.position loc).line = (file.position other).line ->
        (file.position loc).column = (file.position other).column -> loc = other) ∧
    ∀ tokens, tokenize file = .ok tokens ->
      ∀ token ∈ tokens.toList, token.line = (file.position token.loc).line := by
  have located {before after : List Char}
      (split : file.contents.toList = before ++ after) :
      let position := file.position (byteLength before)
      position.line = 1 + before.count '\n' ∧
        (linesOf file.contents.toList)[position.line - 1]? = some position.text.toList ∧
        position.column ≤ position.text.toList.length ∧
        byteLength before = lineStart file.contents.toList (position.line - 1) +
          byteLength (position.text.toList.take position.column) := by
    obtain ⟨line, start⟩ := linesOf_place before after
    rw [SourceFile.position_byteLength split, split]
    dsimp only
    rw [String.toList_ofList, Nat.add_sub_cancel, List.take_left]
    exact ⟨Nat.add_comm _ _, line, by simp, start⟩
  refine ⟨fun before after => located, ?_, ?_⟩
  · rintro _ _ ⟨before, after, split, rfl⟩
      ⟨otherBefore, otherAfter, otherSplit, rfl⟩ line column
    obtain ⟨-, text, -, start⟩ := located split
    obtain ⟨-, otherText, -, otherStart⟩ := located otherSplit
    rw [← line] at otherText
    have same := Option.some.inj (text.symm.trans otherText)
    rw [start, otherStart, line, column, same]
  · intro tokens cut token member
    obtain ⟨before, after, split, place, counted⟩ :=
      @Lexer.countsLines_of_tokens _ [] _ _ _ _ _ rfl rfl rfl
        (tokenize_parts cut) token member
    rw [place, counted]
    exact (located split).1.symm

/-- A file with a comment over two lines, characters of two bytes and an empty line. -/
def brokenLines : SourceFile := ⟨"t.c", "int /* é\n é */ x;\n\n"⟩

/-- The place of the name in that file, the only one with its line and column, is on the
line that its token tells. -/
theorem brokenLines_name_is_located :
    (brokenLines.position 17).line = 2 ∧ (brokenLines.position 17).column = 6 ∧
      (brokenLines.position 17).text = " é */ x;" ∧
      (linesOf brokenLines.contents.toList)[1]? = some " é */ x;".toList ∧
      17 = lineStart brokenLines.contents.toList 1 + byteLength " é */ ".toList ∧
      (∀ loc, IsBoundary brokenLines.contents.toList loc ->
        (brokenLines.position loc).line = 2 ->
        (brokenLines.position loc).column = 6 -> loc = 17) ∧
      ∃ tokens, tokenize brokenLines = .ok tokens ∧
        ∃ token ∈ tokens.toList, token.loc = 17 ∧ token.text = "x" ∧ token.line = 2 := by
  have split : brokenLines.contents.toList =
      "int /* é\n é */ ".toList ++ "x;\n\n".toList := rfl
  have facts : byteLength "int /* é\n é */ ".toList = 17 ∧
      brokenLines.position 17 = ⟨"t.c", 2, 6, " é */ x;"⟩ ∧
      (tokenize brokenLines).isOk = true ∧
      (tokenize brokenLines).toOption.map (fun tokens =>
        tokens.toList.map fun token => (token.loc, token.text)) =
        some [(0, "int"), (17, "x"), (18, ";"), (21, "")] := by decide +kernel
  obtain ⟨length, position, isCut, texts⟩ := facts
  obtain ⟨located, apart, lines⟩ := positions_locate_exactly brokenLines
  obtain ⟨-, line, -, start⟩ := located _ _ split
  rw [length, position] at line start
  have cut := @eq_ok_of_isOk _ _ _ (⟨#[], ⟨.eof, "", 0, 0⟩⟩ : TokenStream) isCut
  refine ⟨congrArg _ position, congrArg _ position, congrArg _ position, line,
    start, ?_, _, cut, ?_⟩
  · intro loc boundary sameLine sameColumn
    refine apart loc 17 boundary ⟨_, _, split, length.symm⟩ ?_ ?_ <;> rw [position]
    · exact sameLine
    · exact sameColumn
  · rw [cut] at texts
    have listed : (17, "x") ∈ [(0, "int"), (17, "x"), (18, ";"), (21, "")] := by decide
    rw [← Option.some.inj texts] at listed
    obtain ⟨token, member, same⟩ := List.mem_map.mp listed
    obtain ⟨loc, text⟩ := Prod.mk.inj same
    refine ⟨token, member, loc, text, ?_⟩
    rw [lines _ cut token member, loc, position]

end MiniC
