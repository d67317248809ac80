import MiniC.Proofs.Compile
import MiniC.Proofs.Emit.Origin
import MiniC.Proofs.Simulation.Frame

/-!
# Constants in instructions

Except where `rax` is set to a word, the constants in instructions are immediates and
displacements of 32 bits.  Those that address the frame are in range, because frames that
are too large are rejected.  Structs and unions behind pointers or in the data are not
bounded like this: the offset of a member and those of the bytes to be copied are as large
as the type makes them.
-/

namespace MiniC
namespace Asm

/-- The constant in an instruction, unless `rax` is set to it. -/
def Instr.immediate? : Instr -> Option Int
  | set .rax _ => none
  | set _ value => some value
  | addConst _ value | subConst _ value => some value
  | frameAddress offset | storeFrame offset _ _ => some offset
  | loadByte offset | storeByte offset => some offset
  | compareZero => some 0
  | _ => none

theorem Instr.immediate?_of_isSimple
    {step : Instr}
    {value : Int}
    (simple : step.isSimple = true)
    (known : step.immediate? = some value) :
    value = 0 := by
  cases step with
  | set target constant =>
      obtain rfl : target = .rax := by simpa [isSimple] using simple
      cases known
  | compareZero =>
      cases known
      rfl
  | addConst | subConst | frameAddress | storeFrame | loadByte | storeByte => cases simple
  | _ => cases known

end Asm

/-- A local variable lies at an offset that a displacement can hold. -/
theorem Program.FrameSound.offset_bounds
    {program : Program}
    {locals : List SymbolId}
    {size : Int}
    (frame : program.FrameSound locals size)
    {id : SymbolId}
    {symbol : Symbol}
    {offset : Int}
    (member : id ∈ locals)
    (found : program.symbol? id = some symbol)
    (place : symbol.kind = .localVar (some offset)) :
    0 ≤ offset ∧ offset ≤ Extent.maxInt32 := by
  obtain ⟨other, ty, ⟨same, there, kind, _⟩, sized, above, below⟩ :=
    frame.placed id member
  obtain rfl := Option.some.inj (found.symm.trans there)
  obtain rfl : other = offset := by simpa [place] using kind.symm
  have limit := frame.size_le
  omega

namespace Emit

open Asm

variable {program : Program} {tokens : TokenStream} {step : Instr} {value : Int}

/-- The constants that lead into structs and unions: the offset of a member that a tree
accesses, and those of the bytes of a struct or union that it assigns. -/
inductive LeadsInto (program : Program) (root : NodeId) : Instr -> Int -> Prop
  | member {id node base aggregate index owner place}
      (inside : program.Contains root id)
      (found : program.node? id = some node)
      (kind : node.kind = .member base aggregate index)
      (typed : program.types.get? aggregate = some owner)
      (listed : owner.members[index]? = some place) :
      LeadsInto program root (.addConst .rax place.offset) place.offset
  | copy {id node lhs rhs ty offset step}
      (inside : program.Contains root id)
      (found : program.node? id = some node)
      (kind : node.kind = .assign lhs rhs)
      (typed : program.nodeTy id = .ok ty)
      (whole : ty.isAggregate = true)
      (below : offset < ty.size.toNat)
      (copies : step = .loadByte offset ∨ step = .storeByte offset) :
      LeadsInto program root step offset

theorem exists_of_lookupMember
    {aggregate : TyId}
    {index : Nat}
    {place : Member}
    (placed : program.lookupMember aggregate index = .ok place) :
    ∃ owner, program.types.get? aggregate = some owner ∧ owner.members[index]? =
      some place := by
  unfold Program.lookupMember Program.lookupTy at placed
  cases found : program.types.get? aggregate with
  | none =>
      rw [found] at placed
      cases placed
  | some owner =>
      rw [found] at placed
      simp only [bind, Except.bind] at placed
      split at placed
      · cases placed
        exact ⟨owner, rfl, ‹_›⟩
      · cases placed

/-- Such a constant is not negative and not larger than the struct or union. -/
theorem LeadsInto.bounds
    (sound : program.Sound tokens)
    {root : NodeId}
    (leads : LeadsInto program root step value) :
    0 ≤ value ∧ ∃ id ty, program.types.get? id = some ty ∧ ty.isAggregate = true ∧
      value ≤ ty.size := by
  cases leads with
  | @member _ _ _ aggregate _ owner place _ _ _ typed listed =>
      have rule := (sound.types.entries aggregate owner typed).members
      have member := List.mem_of_getElem? listed
      obtain ⟨_, _, sized, room⟩ := rule.inside place member
      exact ⟨rule.nonneg place member, aggregate, owner, typed,
        Ty.isAggregate_of_mem_members member, by omega⟩
  | @copy id node _ _ ty offset _ _ found _ typed whole below _ =>
      obtain ⟨own, _, there, _⟩ := exists_typing sound found typed
      exact ⟨Int.natCast_nonneg offset, own, ty, there, whole, by omega⟩

section Definition

variable {base : Nat} {definition : Program.Definition}

/-- The constants in the code for the tree of a function. -/
theorem Origin.immediate
    (sound : program.Sound tokens)
    (rule : program.DefinitionRule base definition.symbol definition.function
      definition.body)
    (origin : Origin ⟨program, definition.symbol.name⟩ definition.body (.instr step))
    (known : step.immediate? = some value) :
    0 ≤ value ∧ value ≤ Extent.maxInt32 ∨
    LeadsInto program definition.body step value := by
  cases origin with
  | simple simple =>
      obtain rfl := Instr.immediate?_of_isSimple simple known
      exact .inl (by decide)
  | branch target =>
      cases step with
      | jump | jumpEq | jumpNe => cases known
      | _ => cases target
  | goto | leave | call => cases known
  | slot inside found kind declared place =>
      cases known
      obtain ⟨_, _, _, _, _, _, home⟩ := rule.homeRule sound
      obtain ⟨entry, there, own⟩ := (home _ _ inside found).own _ kind
      obtain rfl := Option.some.inj (declared.symm.trans there)
      exact .inl (rule.frame.offset_bounds (own (by simp [Symbol.isLocal, place]))
        declared place)
  | member inside found kind placed =>
      cases known
      obtain ⟨owner, typed, listed⟩ := exists_of_lookupMember placed
      exact .inr (.member inside found kind typed listed)
  | @copy _ _ _ _ _ offset _ inside found kind typed whole below copies =>
      have same : value = offset := by
        rcases copies with rfl | rfl
        · exact (Option.some.inj known).symm
        · exact (Option.some.inj known).symm
      rw [same]
      exact .inr (.copy inside found kind typed whole below copies)
  | pad pads =>
      rcases pads with rfl | rfl
      · cases known
        exact .inl (by decide)
      · cases known
        exact .inl (by decide)

/-- The constants in the text of a function. -/
theorem TextOrigin.immediate
    (sound : program.Sound tokens)
    (rule : program.DefinitionRule base definition.symbol definition.function
      definition.body)
    (origin : TextOrigin program definition (.instr step))
    (known : step.immediate? = some value) :
    0 ≤ value ∧ value ≤ Extent.maxInt32 ∨
    LeadsInto program definition.body step value := by
  cases origin with
  | data data => cases data
  | simple simple =>
      obtain rfl := Instr.immediate?_of_isSimple simple known
      exact .inl (by decide)
  | reserve positive =>
      cases known
      exact .inl ⟨Int.le_of_lt positive, rule.frame.size_le⟩
  | spill member declared place =>
      cases known
      exact .inl (rule.frame.offset_bounds (rule.params_first.subset member)
        declared place)
  | body origin => exact origin.immediate sound rule known

end Definition

/-- The constants in the instructions of a file. -/
theorem immediate_of_line
    {file : SourceFile}
    {lines above below : Code}
    (parsed : parseFile file = .ok program)
    (compiled : compileLines file = .ok lines)
    (divided : lines = above ++ .instr step :: below)
    (known : step.immediate? = some value) :
    0 ≤ value ∧ (value ≤ Extent.maxInt32 ∨
      ∃ place : Placement program lines, ∃ upper lower,
        place.text = upper ++ .instr step :: lower ∧ above = place.earlier ++ upper ∧
        LeadsInto program place.definition.body step value) := by
  obtain ⟨tokens, sound⟩ := sound_of_parseFile parsed
  obtain ⟨place, upper, lower, own, above_eq⟩ :=
    Placement.exists_of_line parsed compiled divided rfl
  obtain ⟨id, found, kind, bodied⟩ := definition_cases place.isDefinition
  obtain ⟨base, rule⟩ := sound.definitions id _ _ _ found kind bodied
  have member : .instr step ∈ place.text := by simp [own]
  rcases (place.textOrigin member).immediate sound rule known with bounds | leads
  · exact ⟨bounds.1, .inl bounds.2⟩
  · exact ⟨(leads.bounds sound).1, .inr ⟨place, upper, lower, own, above_eq, leads⟩⟩

/-- The constants in the instructions of a file are not negative, and they are in the
range of signed words of 32 bits except where they lead into a struct or union.  If no
struct or union exceeds that range, all of them are in it. -/
theorem immediates_are_encodable_unless_into_huge_aggregates
    {file : SourceFile}
    {lines : Code}
    (parsed : parseFile file = .ok program)
    (compiled : compileLines file = .ok lines) :
    (∀ above step below value, lines = above ++ .instr step :: below ->
      step.immediate? = some value ->
      0 ≤ value ∧ (value ≤ Extent.maxInt32 ∨
        ∃ place : Placement program lines, ∃ upper lower,
          place.text = upper ++ .instr step :: lower ∧ above = place.earlier ++ upper ∧
          LeadsInto program place.definition.body step value)) ∧
    ((∀ id ty, program.types.get? id = some ty -> ty.isAggregate = true ->
        ty.size ≤ Extent.maxInt32) ->
      ∀ step value, .instr step ∈ lines -> step.immediate? = some value ->
        0 ≤ value ∧ value ≤ Extent.maxInt32) := by
  refine ⟨fun above step below value => immediate_of_line parsed compiled, ?_⟩
  intro small step value member known
  obtain ⟨tokens, sound⟩ := sound_of_parseFile parsed
  obtain ⟨above, below, divided⟩ := List.append_of_mem member
  obtain ⟨nonneg, bounded | ⟨_, _, _, _, _, leads⟩⟩ :=
    immediate_of_line parsed compiled divided known
  · exact ⟨nonneg, bounded⟩
  · obtain ⟨_, id, ty, found, whole, inside⟩ := leads.bounds sound
    exact ⟨nonneg, Int.le_trans inside (small id ty found whole)⟩

/-- A file in which a local struct is assigned, one of its members is read through a
pointer, and a function is called with an operand waiting. -/
def pairCopyFile : SourceFile :=
  ⟨"t.c", "struct s { int a, b; }; int f(struct s *p) { struct s v; v = *p; return p->b + f(p); }"⟩

/-- The program in that file. -/
def pairCopyProgram : Program := (parseFile pairCopyFile).toOption.getD .empty

/-- The lines for that file. -/
def pairCopyLines : Code := (compileLines pairCopyFile).toOption.getD []

/-- In that file all constants are in range, among them the offset of the member. -/
theorem pairCopy_immediates_are_encodable :
    parseFile pairCopyFile = .ok pairCopyProgram ∧
    compileLines pairCopyFile = .ok pairCopyLines ∧
      .instr (.addConst .rax 4) ∈ pairCopyLines ∧
      ∀ step value, .instr step ∈ pairCopyLines -> step.immediate? = some value ->
        0 ≤ value ∧ value ≤ Extent.maxInt32 := by
  have facts : (parseFile pairCopyFile).isOk = true ∧
      (compileLines pairCopyFile).isOk = true ∧
      .instr (.addConst .rax 4) ∈ pairCopyLines ∧
      ∀ ty ∈ pairCopyProgram.types.entries.toList, ty.isAggregate = true ->
        ty.size ≤ Extent.maxInt32 := by decide +kernel
  obtain ⟨parses, compiles, adds, small⟩ := facts
  have parsed : parseFile pairCopyFile = .ok pairCopyProgram := eq_ok_of_isOk parses
  have compiled : compileLines pairCopyFile = .ok pairCopyLines := eq_ok_of_isOk compiles
  refine ⟨parsed, compiled, adds, ?_⟩
  refine (immediates_are_encodable_unless_into_huge_aggregates parsed compiled).2 ?_
  intro id ty found
  have listed : ty ∈ pairCopyProgram.types.entries := Array.mem_of_getElem? found
  exact small ty (Array.mem_toList_iff.mpr listed)

/-- A file with a member that lies behind three billion bytes. -/
def farMemberFile : SourceFile :=
  ⟨"t.c", "struct { char a[3000000000]; int b; } *p; int main() { return p->b; }"⟩

/-- The lines for that file. -/
def farMemberLines : Code := (compileLines farMemberFile).toOption.getD []

/-- That file is compiled, and the offset of the member is added as a constant that no
word of 32 bits can hold. -/
theorem farMember_offset_is_not_encodable :
    compileLines farMemberFile = .ok farMemberLines ∧
      .instr (.addConst .rax 3000000000) ∈ farMemberLines ∧
      (Instr.addConst .rax 3000000000).immediate? = some 3000000000 ∧
      Extent.maxInt32 < 3000000000 := by
  have facts : (compileLines farMemberFile).isOk = true ∧
      .instr (.addConst .rax 3000000000) ∈ farMemberLines := by decide +kernel
  exact ⟨eq_ok_of_isOk facts.1, facts.2, rfl, by decide⟩

end Emit
end MiniC
