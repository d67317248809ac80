import Mathlib.Data.List.Nodup
import Mathlib.Logic.Function.Basic
import MiniC.Proofs.Program.Growth

/-!
# Names of file-scope symbols

No identifier has a dot in it, and the names given to the arrays of string literals begin
with one.  `Program.Listing` says what this gives for the list of the file-scope symbols:
the names in it that have a dot are those of the literals, numbered in order, and every
function is in it.
-/

namespace MiniC

/-- A name that an identifier can spell: one without a dot. -/
def Undotted (name : String) : Prop := '.' ∉ name.toList

instance (name : String) : Decidable (Undotted name) :=
  inferInstanceAs (Decidable ('.' ∉ name.toList))

/-- The name of the array that holds a string literal. -/
def literalName (number : Nat) : String := ".L.." ++ toString number

/-- Numbers that are written alike are the same. -/
theorem eq_of_toString_eq
    {first second : Nat}
    (equal : toString first = toString second) :
    first = second := by
  have digits := congrArg (fun text : String => Nat.ofDigitChars 10 text.toList 0) equal
  simpa [Nat.toString_eq_ofList_toDigits] using digits

theorem literalName_injective : Function.Injective literalName := by
  intro first second equal
  have texts := congrArg String.toList equal
  simp only [literalName, String.toList_append, List.append_cancel_left_eq] at texts
  exact eq_of_toString_eq (String.toList_injective texts)

theorem not_undotted_literalName (number : Nat) : ¬ Undotted (literalName number) := by
  simp [Undotted, literalName]

/-- The names that a file-scope symbol may be given after a number of string literals,
with the number of literals then. -/
inductive Naming (literals : Nat) (name : String) : Nat -> Prop
  | declared (undotted : Undotted name) : Naming literals name literals
  | literal (own : name = literalName literals) : Naming literals name (literals + 1)

namespace Program

variable {program new : Program} {literals : Nat}

/-- The name of a symbol. -/
def name? (program : Program) (id : SymbolId) : Option String :=
  (program.symbol? id).map (·.name)

/-- The names of the file-scope symbols in the order of their declaration. -/
def globalNames (program : Program) : List String :=
  program.globals.toList.filterMap program.name?

/-- Whether a symbol is a variable of the file scope. -/
def isVariable (program : Program) (id : SymbolId) : Bool :=
  match program.symbol? id with
  | some symbol =>
      match symbol.kind with
      | .globalVar _ => true
      | _ => false
  | none => false

/-- The names of the file-scope variables, string literals included, in the order of their
declaration. -/
def variableNames (program : Program) : List String :=
  (program.globals.toList.filter program.isVariable).filterMap program.name?

/-- The names of the functions that have a body, in the order of their declaration. -/
def definitionNames (program : Program) : List String :=
  program.definitions.map (·.symbol.name)

/-- The names that the text of a program defines: those of its variables and those of its
functions with a body. -/
def definedNames (program : Program) : List String :=
  program.variableNames ++ program.definitionNames

theorem variableNames_sublist (program : Program) :
    program.variableNames.Sublist program.globalNames :=
  List.filter_sublist.filterMap _

/-- A symbol keeps its name. -/
theorem Grows.name?_eq_some
    (grows : program.Grows new)
    {id : SymbolId}
    {name : String}
    (known : program.name? id = some name) :
    new.name? id = some name := by
  obtain ⟨symbol, found, rfl⟩ := Option.map_eq_some_iff.mp known
  obtain ⟨refined, reached, refines⟩ := grows.symbols id symbol found
  rw [name?, reached, Option.map_some, refines.name]

/-- Symbols that stay listed keep their names. -/
theorem Grows.map_name?_eq
    (grows : program.Grows new)
    (present : ∀ id ∈ program.globals, program.HasSymbol id) :
    program.globals.toList.filterMap new.name? = program.globalNames := by
  have same : program.globals.toList.map new.name? =
      program.globals.toList.map program.name? := by
    refine List.map_congr_left fun id member => ?_
    obtain ⟨symbol, found⟩ := present id (Array.mem_toList_iff.mp member)
    have known :
        program.name? id = some symbol.name := by rw [name?, found, Option.map_some]
    rw [grows.name?_eq_some known, known]
  rw [globalNames, ← Function.id_comp new.name?, ← Function.id_comp program.name?,
    ← List.filterMap_map, ← List.filterMap_map, same]

/-- What the list of the file-scope symbols keeps: functions are in it, and the names that
have a dot are those of the string literals so far, in order. -/
structure Listing (program : Program) (literals : Nat) : Prop where
  functions : ∀ id symbol function, program.symbol? id = some symbol ->
    symbol.kind = .function function -> id ∈ program.globals
  dotted : program.globalNames.filter (fun name => ¬ Undotted name) =
    (List.range literals).map literalName

namespace Listing

theorem empty : Program.empty.Listing 0 where
  functions := by
    intro id symbol function found
    cases found
  dotted := rfl

/-- The list may stay as it is while the tables grow, as long as no function is new. -/
theorem keep
    (listing : program.Listing literals)
    (present : ∀ id ∈ program.globals, program.HasSymbol id)
    (grows : program.Grows new)
    (globals : new.globals = program.globals)
    (functions : ∀ id symbol function, new.symbol? id = some symbol ->
      symbol.kind = .function function -> ∃ was other, program.symbol? id = some was ∧
        was.kind = .function other) :
    new.Listing literals where
  functions := by
    intro id symbol function found kind
    obtain ⟨was, other, there, wasKind⟩ := functions id symbol function found kind
    rw [globals]
    exact listing.functions id was other there wasKind
  dotted := by
    rw [globalNames, globals, grows.map_name?_eq present]
    exact listing.dotted

/-- A symbol may be entered and listed under a name that it may be given. -/
theorem push
    (listing : program.Listing literals)
    (present : ∀ id ∈ program.globals, program.HasSymbol id)
    {symbol : Symbol}
    {next : Nat}
    (naming : Naming literals symbol.name next) :
    ({ program with
      symbols := program.symbols.push symbol
      globals :=
        program.globals.push ⟨program.symbols.size⟩ } : Program).Listing next where
  functions := by
    intro id found function there kind
    rcases symbol?_push there with was | ⟨new, rfl⟩
    · exact Array.mem_push_of_mem _ (listing.functions id found function was kind)
    · obtain rfl : id = ⟨program.symbols.size⟩ := by rw [← new]
      exact Array.mem_push_self
  dotted := by
    have extended := extends_pushSymbol program symbol
      (program.globals.push ⟨program.symbols.size⟩)
    have own : ({ program with
        symbols := program.symbols.push symbol
        globals := program.globals.push ⟨program.symbols.size⟩ } : Program).name?
          ⟨program.symbols.size⟩ = some symbol.name := by
      simp [name?, Program.symbol?]
    rw [globalNames, Array.toList_push, List.filterMap_append,
      extended.grows.map_name?_eq present, List.filter_append, listing.dotted,
        List.filterMap_cons, own]
    cases naming with
    | declared undotted => simp [undotted]
    | literal given => simp [given, List.range_succ, not_undotted_literalName]

/-- A name that is listed is one of the source text or that of a string literal. -/
theorem undotted_or_literal
    (listing : program.Listing literals)
    {name : String}
    (listed : name ∈ program.globalNames) :
    Undotted name ∨ ∃ number, name = literalName number := by
  by_cases undotted : Undotted name
  · exact .inl undotted
  · have dotted : name ∈ program.globalNames.filter (fun name => ¬ Undotted name) := by
      simp [listed, undotted]
    rw [listing.dotted] at dotted
    obtain ⟨number, _, equal⟩ := List.mem_map.mp dotted
    exact .inr ⟨number, equal.symm⟩

/-- No two string literals are listed under one name. -/
theorem count_literalName_le (listing : program.Listing literals) (number : Nat) :
    program.globalNames.count (literalName number) ≤ 1 := by
  have distinct : ((List.range literals).map literalName).Nodup :=
    List.nodup_range.map literalName_injective
  calc program.globalNames.count (literalName number)
    _ = (program.globalNames.filter (fun name => ¬ Undotted name)).count
      (literalName number) := by
        rw [List.count_filter (by simp [not_undotted_literalName])]
    _ = ((List.range literals).map literalName).count (literalName number) := by
        rw [listing.dotted]
    _ ≤ 1 := List.nodup_iff_count_le_one.mp distinct _

end Listing

end Program
end MiniC
