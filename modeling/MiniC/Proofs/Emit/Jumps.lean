import MiniC.Proofs.Emit.Definitions

/-!
# Where jumps lead

Jumps are to numbered labels, to the end of the function and to labels of the source text.
The text of a function defines no label twice, and it defines the label of each of its
jumps of the first two kinds.
-/

namespace MiniC
namespace Emit

open Asm

variable {file : SourceFile} {program : Program} {tokens : TokenStream} {lines : Code}

/-- A simple instruction does not jump. -/
theorem target?_of_isSimple {step : Instr} (simple : step.isSimple = true) :
    (Line.instr step).target? = none := by
  cases step with
  | jump | jumpEq | jumpNe => cases simple
  | _ => rfl

/-- A jump to the end of a function stands in a function of the name. -/
theorem TextOrigin.eq_of_exit
    {definition : Program.Definition}
    {line : Line}
    {function : String}
    (origin : TextOrigin program definition line)
    (target : line.target? = some (.exit function)) :
    function = definition.symbol.name := by
  cases origin with
  | data data =>
      cases line with
      | instr step => cases data
      | _ => cases target
  | simple simple =>
      rw [target?_of_isSimple simple] at target
      cases target
  | body origin =>
      cases origin with
      | simple simple =>
          rw [target?_of_isSimple simple] at target
          cases target
      | branch numbered => cases numbered.symm.trans target
      | leave =>
          cases target
          rfl
      | copy _ _ _ _ _ _ copies => rcases copies with rfl | rfl <;> cases target
      | pad pads => rcases pads with rfl | rfl <;> cases target
      | _ => cases target
  | _ => cases target

namespace Placement

theorem text_sublist (place : Placement program lines) : place.text.Sublist lines := by
  have inside : place.text.Sublist (place.earlier ++ place.text ++ place.later) :=
    (List.sublist_append_right _ _).trans (List.sublist_append_left _ _)
  have whole : place.earlier ++ place.text ++ place.later = lines := place.lines_eq.symm
  rwa [whole] at inside

/-- The text of a function defines the label at its end once. -/
theorem count_exit (place : Placement program lines) :
    place.text.count (.label (.exit place.name)) = 1 := by
  obtain ⟨_, _, emitted⟩ := place.inner
  rw [text, name, count_text place.entry (emitted.label_notMem rfl)]
  simp

/-- The text of a function defines the numbered labels that it jumps to once. -/
theorem count_numbered
    (place : Placement program lines)
    {upper lower : Code}
    {line : Line}
    {role : Role}
    {number : Nat}
    (divided : place.text = upper ++ line :: lower)
    (target : line.target? = some (.numbered role number)) :
    place.text.count (.label (.numbered role number)) = 1 := by
  obtain ⟨first, after, emitted⟩ := place.inner
  have labelled : Labelled ⟨0, first⟩ place.text after :=
    labelled_text place.entry emitted
  obtain ⟨lands, once, _⟩ := labelled.landed number 0
  have leap : .leap role upper.height ∈ place.text.marks number 0 := by
    rw [divided]
    exact Disciplined.mem_marks_of_target target
  have landing : 0 < (place.text.marks number 0).countP (·.isLanding role) :=
    List.countP_pos_iff.mpr ⟨_, lands role _ leap, by simp [Code.Mark.isLanding]⟩
  rw [← Code.countP_isLanding place.text number 0 role]
  exact Nat.le_antisymm (once role) landing

/-- The text of a function defines no label twice. -/
theorem count_label_le
    (sound : program.Sound tokens)
    (parsed : parseFile file = .ok program)
    (compiled : compileLines file = .ok lines)
    (place : Placement program lines)
    (label : Label) :
    place.text.count (.label label) ≤ 1 := by
  obtain ⟨_, _, emitted⟩ := place.inner
  cases label with
  | symbol | exit =>
      rw [text, name, count_text place.entry (emitted.label_notMem rfl)]
      exact List.nodup_iff_count_le_one.mp (by simp) _
  | named function other =>
      exact (place.count_named_le sound function other).trans (by split <;> omega)
  | numbered role number =>
      exact (place.text_sublist.count_le _).trans
        (count_numbered_le parsed compiled role number)

end Placement

/-- No numbered label is defined twice in a file.  A jump to a numbered label or to the
end of a function stands in the text of a function that defines the label once, and the
text of no function defines any label twice. -/
theorem jumps_are_resolved_and_labels_unique
    (parsed : parseFile file = .ok program)
    (compiled : compileLines file = .ok lines) :
    (∀ role number, lines.spelledLabels.count (Label.numbered role number).render ≤ 1) ∧
    (∀ above line below target, lines = above ++ line :: below ->
      line.target? = some target ->
      (∃ role number, target = .numbered role number) ∨
      (∃ function, target = .exit function) ->
      ∃ place : Placement program lines, ∃ upper lower,
        place.text = upper ++ line :: lower ∧
        above = place.earlier ++ upper ∧
          place.text.spelledLabels.count target.render = 1) ∧
    (∀ definition ∈ program.definitions, ∃ place : Placement program lines,
      place.definition = definition) ∧
    ∀ place : Placement program lines, place.text.spelledLabels.Nodup := by
  obtain ⟨tokens, sound⟩ := sound_of_parseFile parsed
  have regular := regular_of_mem sound parsed compiled
  have inside (place : Placement program lines) :
      ∀ label, .label label ∈ place.text -> label.Regular :=
    fun label member => regular label (place.text_sublist.subset member)
  refine ⟨fun role number => ?_, fun above line below target divided jumps kinds => ?_,
    fun definition defined => (exists_placement parsed compiled defined).1,
      fun place => ?_⟩
  · rw [Code.count_spelledLabels regular (Label.regular_numbered role number)]
    exact count_numbered_le parsed compiled role number
  · have code : isData line = false := by
      cases line with
      | instr step => rfl
      | _ => cases jumps
    obtain ⟨place, upper, lower, own, above_eq⟩ :=
      Placement.exists_of_line parsed compiled divided code
    refine ⟨place, upper, lower, own, above_eq, ?_⟩
    rcases kinds with ⟨role, number, rfl⟩ | ⟨function, rfl⟩
    · rw [Code.count_spelledLabels (inside place) (Label.regular_numbered role number)]
      exact place.count_numbered own jumps
    · have member : line ∈ place.text := by simp [own]
      rw [Code.count_spelledLabels (inside place) (Label.regular_exit function),
        (place.textOrigin member).eq_of_exit jumps]
      exact place.count_exit
  · rw [Code.nodup_spelledLabels_iff (inside place)]
    exact place.count_label_le sound parsed compiled

/-- A file with a loop, a branch and operators that jump, one inside the other, and a
goto. -/
def nestedFile : SourceFile :=
  ⟨"t.c", "int f(int a) { while (a && f(a)) if (a || f(0)) return 1; else goto e; e: return a; }"⟩

/-- The program in that file. -/
def nestedProgram : Program := (parseFile nestedFile).toOption.getD .empty

/-- The lines for that file. -/
def nestedLines : Code := (compileLines nestedFile).toOption.getD []

/-- In that file the label of the jump out of the loop and that of a return are defined
once in the function that they stand in, which defines no label twice. -/
theorem nested_jumps_are_resolved :
    parseFile nestedFile = .ok nestedProgram ∧ compileLines nestedFile = .ok nestedLines ∧
      (∃ place : Placement nestedProgram nestedLines, ∃ upper lower,
        place.text = upper ++ .instr (.jumpEq (.numbered .stop 0)) :: lower ∧
        place.text.spelledLabels.count ".L.end.0" = 1 ∧ place.text.spelledLabels.Nodup) ∧
      ∃ place : Placement nestedProgram nestedLines, ∃ upper lower,
        place.text = upper ++ .instr (.jump (.exit "f")) :: lower ∧
        place.text.spelledLabels.count ".L.return.f" = 1 := by
  have facts : (parseFile nestedFile).isOk = true ∧
      (compileLines nestedFile).isOk = true ∧ nestedLines = nestedLines.take 41 ++
        .instr (.jumpEq (.numbered .stop 0)) :: nestedLines.drop 42 ∧
      nestedLines = nestedLines.take 74 ++
        .instr (.jump (.exit "f")) :: nestedLines.drop 75 := by decide +kernel
  obtain ⟨parses, compiles, breaks, returns⟩ := facts
  have parsed : parseFile nestedFile = .ok nestedProgram := eq_ok_of_isOk parses
  have compiled : compileLines nestedFile = .ok nestedLines := eq_ok_of_isOk compiles
  obtain ⟨_, resolved, _, distinct⟩ :=
    jumps_are_resolved_and_labels_unique parsed compiled
  obtain ⟨place, upper, lower, own, _, once⟩ :=
    resolved _ _ _ _ breaks rfl (.inl ⟨_, _, rfl⟩)
  obtain ⟨other, before, rest, there, _, onceThere⟩ :=
    resolved _ _ _ _ returns rfl (.inr ⟨_, rfl⟩)
  exact ⟨parsed, compiled, ⟨place, upper, lower, own, once, distinct place⟩,
    other, before, rest, there, onceThere⟩

end Emit
end MiniC
