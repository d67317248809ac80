import Mathlib.Data.List.Basic
import MiniC.Asm.Render
import MiniC.Proofs.Asm.Height
import MiniC.Proofs.Program.Names

/-!
# Labels and their spellings

An assembler knows labels by their spellings.  A generated label is spelled `.L.`, a word
for its kind, a dot and the rest, and the names of symbols have no dots unless they are
those of string literals.  So different labels of a program are spelled differently, and a
spelling is defined as often as its label.
-/

namespace MiniC
namespace Asm

/-- A text has one first dot. -/
theorem cut_unique
    {first second rest other : List Char}
    (undotted : '.' ∉ first)
    (otherUndotted : '.' ∉ second)
    (equal : first ++ '.' :: rest = second ++ '.' :: other) :
    first = second ∧ rest = other := by
  induction first generalizing second with
  | nil =>
      cases second with
      | nil => exact ⟨rfl, (List.cons.inj equal).2⟩
      | cons char tail =>
          obtain ⟨rfl, _⟩ := List.cons.inj equal
          exact absurd List.mem_cons_self otherUndotted
  | cons char tail hypothesis =>
      cases second with
      | nil =>
          obtain ⟨rfl, _⟩ := List.cons.inj equal
          exact absurd List.mem_cons_self undotted
      | cons otherChar otherTail =>
          obtain ⟨rfl, tails⟩ := List.cons.inj equal
          obtain ⟨rfl, rests⟩ := hypothesis (List.not_mem_of_not_mem_cons undotted)
            (List.not_mem_of_not_mem_cons otherUndotted) tails
          exact ⟨rfl, rests⟩

/-- Roles have words of their own, without dots, and none that other labels have. -/
theorem Role.word_cases (role : Role) :
    Undotted role.word ∧ role.word ≠ "" ∧ role.word ≠ "return" ∧ role.word ≠ "label" := by
  cases role <;> decide

theorem Role.word_injective : Function.Injective Role.word := by
  intro first second equal
  cases first <;> cases second <;> simp_all [Role.word]

namespace Label

/-- A label over such names as programs have: those of the source text, and for symbols
also those of string literals. -/
def Regular : Label -> Prop
  | symbol name => Undotted name ∨ ∃ number, name = literalName number
  | named function _ => Undotted function
  | exit _ | numbered _ _ => True

@[simp] theorem regular_exit (function : String) : (exit function).Regular := trivial

@[simp] theorem regular_numbered (role : Role) (number : Nat) :
    (numbered role number).Regular := trivial

/-- Whether a label is not the name of a symbol. -/
def isGenerated : Label -> Bool
  | symbol _ => false
  | _ => true

/-- The word for the kind of a generated label. -/
def word : Label -> String
  | symbol _ => ""
  | exit _ => "return"
  | named _ _ => "label"
  | numbered role _ => role.word

/-- What follows the word in the spelling of a generated label. -/
def rest : Label -> String
  | symbol name => name
  | exit function => function
  | named function name => function ++ "." ++ name
  | numbered _ number => toString number

variable {first second : Label}

theorem undotted_word (label : Label) : Undotted label.word := by
  cases label with
  | numbered role number => exact role.word_cases.1
  | _ => simp [Undotted, word]

theorem word_ne_empty (generated : first.isGenerated = true) : first.word ≠ "" := by
  cases first with
  | symbol name => cases generated
  | numbered role number => exact role.word_cases.2.1
  | _ => simp [word]

/-- The spelling of a generated label. -/
theorem toList_render (generated : first.isGenerated = true) :
    first.render.toList =
      ['.', 'L', '.'] ++ (first.word.toList ++ '.' :: first.rest.toList) := by
  cases first with
  | symbol name => cases generated
  | _ => simp [render, word, rest]

/-- Generated labels that are spelled alike agree in their words and in what follows. -/
theorem parts_eq_of_render
    (generated : first.isGenerated = true)
    (other : second.isGenerated = true)
    (equal : first.render = second.render) :
    first.word = second.word ∧ first.rest = second.rest := by
  have texts := congrArg String.toList equal
  rw [toList_render generated, toList_render other, List.append_cancel_left_eq] at texts
  obtain ⟨words, rests⟩ := cut_unique first.undotted_word second.undotted_word texts
  exact ⟨String.toList_injective words, String.toList_injective rests⟩

/-- No symbol of a program is spelled as a generated label. -/
theorem Regular.render_ne
    {name : String}
    (regular : (symbol name).Regular)
    (generated : second.isGenerated = true) :
    (symbol name).render ≠ second.render := by
  intro equal
  have texts : name.toList = second.render.toList := congrArg String.toList equal
  rw [toList_render generated] at texts
  rcases regular with undotted | ⟨number, rfl⟩
  · apply undotted
    simp [texts]
  · -- A generated label has a word between the dots, a literal has none.
    have parts : [] ++ '.' :: (toString number).toList =
        second.word.toList ++ '.' :: second.rest.toList := by
      simpa [literalName] using texts
    obtain ⟨words, _⟩ := cut_unique List.not_mem_nil second.undotted_word parts
    exact word_ne_empty generated (String.toList_injective words.symm)

/-- Regular labels that are spelled alike are the same. -/
theorem Regular.eq_of_render
    (regular : first.Regular)
    (other : second.Regular)
    (equal : first.render = second.render) :
    first = second := by
  cases first with
  | symbol name =>
      cases second with
      | symbol otherName => exact congrArg symbol equal
      | _ => exact absurd equal (regular.render_ne rfl)
  | exit function =>
      cases second with
      | symbol otherName => exact absurd equal.symm (other.render_ne rfl)
      | exit otherFunction => exact congrArg exit (parts_eq_of_render rfl rfl equal).2
      | named => exact absurd (parts_eq_of_render rfl rfl equal).1 (by simp [word])
      | numbered role =>
          exact absurd (parts_eq_of_render rfl rfl equal).1.symm role.word_cases.2.2.1
  | named function name =>
      cases second with
      | symbol otherName => exact absurd equal.symm (other.render_ne rfl)
      | exit => exact absurd (parts_eq_of_render rfl rfl equal).1 (by simp [word])
      | named otherFunction otherName =>
          have rests := congrArg String.toList (parts_eq_of_render rfl rfl equal).2
          simp only [rest, String.toList_append, List.append_assoc] at rests
          obtain ⟨functions, names⟩ := cut_unique regular other rests
          rw [String.toList_injective functions, String.toList_injective names]
      | numbered role =>
          exact absurd (parts_eq_of_render rfl rfl equal).1.symm role.word_cases.2.2.2
  | numbered role number =>
      cases second with
      | symbol otherName => exact absurd equal.symm (other.render_ne rfl)
      | exit => exact absurd (parts_eq_of_render rfl rfl equal).1 role.word_cases.2.2.1
      | named => exact absurd (parts_eq_of_render rfl rfl equal).1 role.word_cases.2.2.2
      | numbered otherRole otherNumber =>
          obtain ⟨words, rests⟩ := parts_eq_of_render rfl rfl equal
          rw [Role.word_injective words, eq_of_toString_eq rests]

end Label

namespace Code

/-- The labels that lines define, as they are spelled. -/
def spelledLabels (code : Code) : List String :=
  (code.filterMap Line.defined?).map Label.render

/-- The spelling of a label is defined as often as the label, among regular ones. -/
theorem count_spelledLabels
    {code : Code}
    {label : Label}
    (regular : ∀ other, .label other ∈ code -> other.Regular)
    (own : label.Regular) :
    code.spelledLabels.count label.render = code.count (.label label) := by
  induction code with
  | nil => rfl
  | cons line rest hypothesis =>
      have later :=
        hypothesis fun other member => regular other (List.mem_cons_of_mem _ member)
      cases line with
      | label other =>
          have same : other.render = label.render ↔ other = label :=
            ⟨(regular other List.mem_cons_self).eq_of_render own, congrArg Label.render⟩
          simp only [spelledLabels, Line.defined?, List.filterMap_cons, List.map_cons,
            List.count_cons] at later ⊢
          rw [later]
          simp [same]
      | directive | instr =>
          simpa [spelledLabels, Line.defined?, List.filterMap_cons,
            List.count_cons] using later

/-- A spelling that is defined is that of a label. -/
theorem exists_of_mem_spelledLabels
    {code : Code}
    {spelling : String}
    (defined : spelling ∈ code.spelledLabels) :
    ∃ label, .label label ∈ code ∧ label.render = spelling := by
  obtain ⟨label, member, rfl⟩ := List.mem_map.mp defined
  obtain ⟨line, listed, defines⟩ := List.mem_filterMap.mp member
  cases line with
  | label other =>
      obtain rfl : other = label := by simpa [Line.defined?] using defines
      exact ⟨other, listed, rfl⟩
  | _ => cases defines

end Code

end Asm
end MiniC
