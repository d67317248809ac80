import MiniC.Compile
import MiniC.Proofs.Emit.Totality
import MiniC.Proofs.Result
import MiniC.Proofs.Token.Lexer

/-!
# No source text breaks the compiler

Every file is cut into tokens, parsed and compiled, or rejected for a reason at a place
between two of its characters.  There are no other errors: no table is read past its end,
no loop or recursion runs out of its bound, no arithmetic leaves its range, and what one
stage relies on the stages before it establish.
-/

namespace MiniC

open Grammar

/-- An error that rejects the source text at a place between two characters. -/
def Error.IsLocated (error : Error) (text : List Char) : Prop :=
  ∃ cause loc, error = .rejected cause loc ∧ IsBoundary text loc

/-- A rejection at a token is located. -/
theorem Grammar.RejectsAt.isLocated {tokens : TokenStream}
    {text : List Char} {error : Error} (rejects : RejectsAt tokens error)
    (stands : ∀ index, (tokens.get index).StandsIn text) : error.IsLocated text := by
  obtain ⟨cause, index, rfl⟩ := rejects
  exact ⟨cause, _, rfl, (stands index).isBoundary⟩

/-- A file is parsed into a program that keeps the rules, or rejected. -/
theorem parseFile_cases (file : SourceFile) :
    (∃ tokens program, tokenize file = .ok tokens ∧ parseFile file = .ok program ∧
      program.Sound tokens ∧ ∀ index, (tokens.get index).StandsIn file.contents.toList) ∨
    ∃ error, parseFile file = .error error ∧ error.IsLocated file.contents.toList := by
  unfold parseFile
  rcases tokenize_cases file with ⟨tokens, known, sound, stands⟩ | ⟨cause, loc,
    failed, boundary⟩
  · rw [known]
    rcases parse_cases sound with ⟨program, parsed, rules⟩ | ⟨error, failed, rejects⟩
    · exact .inl ⟨tokens, program, rfl, parsed, rules, stands⟩
    · exact .inr ⟨error, failed, RejectsAt.isLocated rejects stands⟩
  · rw [failed]
    exact .inr ⟨_, rfl, cause, loc, rfl, boundary⟩

/-- A program that is parsed keeps the rules, and its places are those of the tokens. -/
theorem exists_tokens_of_parseFile {file : SourceFile} {program : Program}
    (accepted : parseFile file = .ok program) :
    ∃ tokens, tokenize file = .ok tokens ∧ program.Sound tokens := by
  rcases parseFile_cases file with ⟨tokens, other, cut, parsed, sound, _⟩ | ⟨_, failed, _⟩
  · rw [accepted] at parsed
    cases parsed
    exact ⟨tokens, cut, sound⟩
  · rw [accepted] at failed
    cases failed

/-- A program that is parsed keeps the rules. -/
theorem sound_of_parseFile {file : SourceFile} {program : Program}
    (accepted : parseFile file = .ok program) : ∃ tokens, program.Sound tokens := by
  obtain ⟨tokens, _, sound⟩ := exists_tokens_of_parseFile accepted
  exact ⟨tokens, sound⟩

/-- A file that compiles has a program. -/
theorem parseFile_of_compileLines {file : SourceFile} {lines : Asm.Code}
    {otherwise : Program} (compiled : compileLines file = .ok lines) :
    parseFile file = .ok ((parseFile file).toOption.getD otherwise) := by
  unfold compileLines at compiled
  cases parsed : parseFile file with
  | error error =>
      rw [parsed] at compiled
      cases compiled
  | ok program => rfl

/-- A node of a program whose kind and type are known. -/
theorem exists_node (program : Program) (id : NodeId) (kind : NodeKind) (ty : TyId)
    (known : (program.node? id).map (fun node => (node.kind, node.ty)) =
      some (kind, some ty)) :
    ∃ node, program.node? id = some node ∧ node.kind = kind ∧ node.ty = some ty := by
  obtain ⟨node, found, same⟩ := Option.map_eq_some_iff.mp known
  exact ⟨node, found, congrArg Prod.fst same, congrArg Prod.snd same⟩

/-- A node of a program whose nodes are known. -/
theorem exists_node_of_listed
    {program : Program}
    {nodes : List (NodeKind × Option TyId)}
    (known : program.nodes.toList.map (fun node => (node.kind, node.ty)) = nodes)
    (index : Nat)
    (kind : NodeKind)
    (ty : TyId)
    (listed : nodes[index]? = some (kind, some ty)) :
    ∃ node, program.node? ⟨index⟩ = some node ∧ node.kind = kind ∧ node.ty = some ty := by
  apply exists_node
  rw [← listed, ← known, List.getElem?_map, Array.getElem?_toList]
  rfl

/-- A node keeps the typing rule of its kind. -/
theorem exists_typing
    {program : Program}
    {tokens : TokenStream}
    (sound : program.Sound tokens)
    {id : NodeId}
    {node : Node}
    {entry : Ty}
    (found : program.node? id = some node)
    (typed : program.nodeTy id = .ok entry) :
    ∃ ty, program.HasTy id ty entry ∧ program.types.get? ty = some entry ∧
      program.TypingRule ty node.kind := by
  obtain ⟨ty, own, has, rule⟩ := (sound.nodes id node found).typed
  obtain ⟨other, there⟩ := TypeTable.has_iff.mp has
  have hasTy : program.HasTy id ty other := ⟨node, found, own, there⟩
  obtain rfl : other = entry := Except.ok.inj ((nodeTy_eq_ok hasTy).symm.trans typed)
  exact ⟨ty, hasTy, there, rule⟩

/-- Compilation never breaks.  Every file gives assembly or an error that rejects it at a
place between two of its characters, and the text of every token is the part of the file
that begins at the offset of the token. -/
theorem compile_gives_assembly_or_located_error (file : SourceFile) :
    ((∃ text, compile file = .ok text) ∨
      ∃ cause loc, compile file = .error (.rejected cause loc) ∧
        IsBoundary file.contents.toList loc) ∧
    ∀ tokens, tokenize file = .ok tokens ->
      ∀ index, (tokens.get index).StandsIn file.contents.toList := by
  constructor
  · unfold compile compileLines
    rcases parseFile_cases file with
      ⟨tokens, program, _, parsed, sound, stands⟩ | ⟨_, failed, cause, loc, rfl, boundary⟩
    · rw [parsed]
      cases generated : Emit.program program file.name with
      | ok code =>
          refine .inl ⟨Asm.Code.render code, ?_⟩
          simp only [bind, Except.bind, generated]
          rfl
      | error error =>
          obtain ⟨cause, loc, rfl, boundary⟩ :=
            RejectsAt.isLocated (Emit.program_rejectsAt sound file.name error generated)
              stands
          refine .inr ⟨cause, loc, ?_, boundary⟩
          simp only [bind, Except.bind, generated]
    · rw [failed]
      exact .inr ⟨cause, loc, rfl, boundary⟩
  · intro tokens known
    rcases tokenize_cases file with ⟨_, same, _, stands⟩ | ⟨cause, loc, failed, _⟩
    · rw [known] at same
      cases same
      exact stands
    · rw [known] at failed
      cases failed

end MiniC
