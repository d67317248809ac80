import MiniC.Proofs.Program.Tree
import MiniC.Proofs.Simulation.Layout

/-!
# The frame of a function

The nodes of a function are those that its body contains.  Its local variables lie in its
frame, one apart from the other, so a frame together with global variables that the linker
has placed is a layout in which the code of the function can run.
-/

namespace MiniC

/-! ## The nodes of a function -/

namespace Program

variable {program : Program} {tokens : TokenStream}

/-- The nodes that the body of a function contains keep the rules of the function. -/
theorem DefinitionRule.homeRule
    (sound : program.Sound tokens)
    {base : Nat}
    {symbol : Symbol}
    {function : Function}
    {body : NodeId}
    (rule : program.DefinitionRule base symbol function body) :
    ∃ start result params declared, program.types.get? symbol.ty = some declared ∧
      declared.kind = .func result params ∧
      ∀ id node, program.Contains body id -> program.node? id = some node ->
        program.HomeRule start function.locals result node.kind := by
  obtain ⟨start, result, params, declared, inside, typed, kind, home⟩ := rule.home
  have range {id : NodeId} (contains : program.Contains body id) :
      start ≤ id.index ∧ id.index ≤ body.index := by
    induction contains with
    | refl => exact ⟨inside, Nat.le_refl _⟩
    | tail _ child hypothesis =>
        obtain ⟨node, found, member⟩ := child
        have near := (home _ node hypothesis.1 hypothesis.2 found).near _ member
        have earlier := (sound.nodes _ node found).earlier _ member
        exact ⟨near, Nat.le_trans (Nat.le_of_lt earlier) hypothesis.2⟩
  refine ⟨start, result, params, declared, typed, kind, ?_⟩
  intro id node contains found
  exact home id node (range contains).1 (range contains).2 found

end Program

namespace Semantics

open Asm Emit

variable {program : Program} {tokens : TokenStream}

/-- A variable that is declared with its type. -/
def Declared (program : Program) (target : Variable) (symbol : Symbol) : Prop :=
  program.symbol? target.id = some symbol ∧ symbol.ty = target.ty.id

/-- A local variable of a function. -/
def IsLocalOf (program : Program) (function : Function) (target : Variable) : Prop :=
  target.id ∈ function.locals ∧ ∃ symbol, Declared program target symbol

/-- A variable whose declared type counts as its own. -/
def DeclaredAs (program : Program) (target : Variable) (symbol : Symbol) : Prop :=
  program.symbol? target.id = some symbol ∧ program.intTy? symbol.ty = some target.ty

/-- A local variable of a function, whose declared type counts as its own. -/
def IsLocalAs (program : Program) (function : Function) (target : Variable) : Prop :=
  target.id ∈ function.locals ∧ ∃ symbol, DeclaredAs program target symbol

theorem Declared.unique {target : Variable} {first second : Symbol}
    (left : Declared program target first) (right : Declared program target second) :
    first = second :=
  Option.some.inj (left.1.symm.trans right.1)

theorem DeclaredAs.unique {target : Variable} {first second : Symbol}
    (left : DeclaredAs program target first) (right : DeclaredAs program target second) :
    first = second :=
  Option.some.inj (left.1.symm.trans right.1)

theorem Declared.declaredAs {target : Variable} {symbol : Symbol}
    (sound : program.types.Sound) (declared : Declared program target symbol) :
    DeclaredAs program target symbol :=
  ⟨declared.1, by rw [declared.2]; exact IntTy.intTy?_id sound _⟩

theorem IsLocalOf.isLocalAs {function : Function} {target : Variable}
    (sound : program.types.Sound) (isLocal : IsLocalOf program function target) :
    IsLocalAs program function target := by
  obtain ⟨member, symbol, declared⟩ := isLocal
  exact ⟨member, symbol, declared.declaredAs sound⟩

/-- The variables of an expression in a function are declared, and the local ones belong
to the function. -/
theorem Reads.vars
    {start : Nat}
    {function : Function}
    {result : TyId}
    {root : NodeId}
    (home : ∀ id node, program.Contains root id -> program.node? id = some node ->
      program.HomeRule start function.locals result node.kind)
    {id : NodeId}
    {expr : Expr}
    (contains : program.Contains root id)
    (reads : Reads program id expr) :
    ∀ target ∈ expr.vars, ∃ symbol, Declared program target symbol ∧
      (symbol.isLocal = true -> target.id ∈ function.locals) := by
  induction reads with
  | literal => exact fun target member => nomatch member
  | @var id node symbol entry ty found kind declared typed =>
      intro target member
      obtain rfl := List.mem_singleton.mp member
      obtain ⟨other, there, own⟩ := (home id node contains found).own symbol kind
      rw [declared] at there
      cases there
      exact ⟨entry, ⟨declared, typed⟩, own⟩
  | cast found kind _ _ hypothesis | unary found kind _ hypothesis =>
      exact hypothesis (contains.child found (by simp [kind, NodeKind.children]))
  | binary found kind _ _ left right | comma found kind _ _ left right =>
      intro target member
      rcases List.mem_append.mp member with inLeft | inRight
      · exact left (contains.child found (by simp [kind, NodeKind.children])) target
          inLeft
      · exact right (contains.child found (by simp [kind, NodeKind.children]))
          target inRight
  | @assign _ _ lhs rhs _ _ _ _ found kind _ converted conversionKind _ left right =>
      intro target member
      have lhsInside : program.Contains root lhs :=
        contains.child found (by simp [kind, NodeKind.children])
      have rhsInside : program.Contains root rhs :=
        contains.child found (by simp [kind, NodeKind.children])
      rcases List.mem_cons.mp member with rfl | inner
      · exact left lhsInside target List.mem_cons_self
      · exact right (rhsInside.child converted
          (by simp [conversionKind, NodeKind.children])) target inner

/-- The same for expressions in which enums count as `int`. -/
theorem Spells.vars
    {start : Nat}
    {function : Function}
    {result : TyId}
    {root : NodeId}
    (home : ∀ id node, program.Contains root id -> program.node? id = some node ->
      program.HomeRule start function.locals result node.kind)
    {id : NodeId}
    {expr : Expr}
    (contains : program.Contains root id)
    (spells : Spells program id expr) :
    ∀ target ∈ expr.vars, ∃ symbol, DeclaredAs program target symbol ∧
      (symbol.isLocal = true -> target.id ∈ function.locals) := by
  induction spells with
  | literal => exact fun target member => nomatch member
  | @var id node symbol entry ty found kind declared counts =>
      intro target member
      obtain rfl := List.mem_singleton.mp member
      obtain ⟨other, there, own⟩ := (home id node contains found).own symbol kind
      obtain rfl := Option.some.inj (declared.symm.trans there)
      exact ⟨entry, ⟨declared, counts⟩, own⟩
  | cast found kind _ _ _ hypothesis | unary found kind _ hypothesis =>
      exact hypothesis (contains.child found (by simp [kind, NodeKind.children]))
  | binary found kind _ _ left right | comma found kind _ _ left right =>
      exact List.forall_mem_append.mpr
        ⟨left (contains.child found (by simp [kind, NodeKind.children])),
          right (contains.child found (by simp [kind, NodeKind.children]))⟩
  | @assign _ _ lhs rhs _ _ _ _ found kind _ converted conversionKind _ left right =>
      have lhsInside : program.Contains root lhs :=
        contains.child found (by simp [kind, NodeKind.children])
      have rhsInside : program.Contains root rhs :=
        contains.child found (by simp [kind, NodeKind.children])
      exact List.forall_mem_cons.mpr ⟨left lhsInside _ List.mem_cons_self,
        right (rhsInside.child converted (by simp [conversionKind, NodeKind.children]))⟩

/-! ## Slots -/

/-- Whether a byte belongs to a local variable, in a frame with a base. -/
def InSlot (program : Program) (base : Word) (id : SymbolId) (place : Word) : Prop :=
  ∃ offset ty, program.Placed id offset ty ∧ (base.toNat : Int) - offset ≤ place.toNat ∧
    (place.toNat : Int) < base.toNat - offset + ty.size

section Slots

variable {names : Names} {function : Function} {base place : Word} {id : SymbolId}

/-- A local variable has its room in the frame. -/
theorem slot_bounds
    (frame : program.FrameSound function.locals function.stackSize)
    (member : id ∈ function.locals)
    {offset : Int}
    {ty : Ty}
    (placed : program.Placed id offset ty) :
    0 ≤ ty.size ∧ ty.size ≤ offset ∧ offset ≤ function.stackSize := by
  obtain ⟨own, ownTy, ownPlaced, sized, bounds⟩ := frame.placed id member
  obtain ⟨rfl, rfl⟩ := placed.unique ownPlaced
  exact ⟨sized, bounds⟩

/-- A local variable lies in the frame at its offset. -/
theorem toNat_addressOf
    (names : Names)
    (frame : program.FrameSound function.locals function.stackSize)
    (fits : function.stackSize ≤ base.toNat)
    (member : id ∈ function.locals)
    {offset : Int}
    {ty : Ty}
    (placed : program.Placed id offset ty) :
    ((addressOf program names base id).toNat : Int) = base.toNat - offset := by
  have bounds := slot_bounds frame member placed
  obtain ⟨symbol, declared, kind, _⟩ := placed
  have bound := base.isLt
  have distance : (BitVec.ofInt 64 offset).toNat = offset.toNat := by
    rw [BitVec.toNat_ofInt]
    omega
  rw [addressOf_local declared kind, BitVec.toNat_sub_of_le, distance]
  · omega
  · rw [BitVec.le_def, distance]
    omega

/-- The first bytes of a local variable belong to it. -/
theorem inSlot_of_covers
    (frame : program.FrameSound function.locals function.stackSize)
    (fits : function.stackSize ≤ base.toNat)
    (member : id ∈ function.locals)
    {offset : Int}
    {ty : Ty}
    (placed : program.Placed id offset ty)
    {count : Nat}
    (small : count ≤ ty.size)
    (covered : Covers (addressOf program names base id) count place) :
    InSlot program base id place := by
  have address := toNat_addressOf names frame fits member placed
  have bounds := slot_bounds frame member placed
  have bound := base.isLt
  rw [covers_iff (by omega)] at covered
  exact ⟨offset, ty, placed, by omega, by omega⟩

/-- Local variables lie in the frame. -/
theorem InSlot.bounds
    (frame : program.FrameSound function.locals function.stackSize)
    (member : id ∈ function.locals)
    (inside : InSlot program base id place) :
    (base.toNat : Int) - function.stackSize ≤ place.toNat ∧ place.toNat < base.toNat := by
  obtain ⟨offset, ty, placed, low, high⟩ := inside
  have bounds := slot_bounds frame member placed
  omega

/-- No byte belongs to two local variables. -/
theorem InSlot.unique
    (frame : program.FrameSound function.locals function.stackSize)
    (member : id ∈ function.locals)
    {other : SymbolId}
    (otherMember : other ∈ function.locals)
    (left : InSlot program base id place)
    (right : InSlot program base other place) :
    id = other := by
  by_contra different
  obtain ⟨offset, ty, placed, _, _⟩ := left
  obtain ⟨otherOffset, otherTy, otherPlaced, _, _⟩ := right
  have apart :=
    frame.apart id member other otherMember different _ _ _ _ placed otherPlaced
  omega

/-- A local variable has the size of its type. -/
theorem IsLocalAs.placed
    (sound : program.types.Sound)
    (frame : program.FrameSound function.locals function.stackSize)
    {target : Variable}
    (isLocal : IsLocalAs program function target) :
    ∃ offset ty, program.Placed target.id offset ty ∧
    ty.size = target.ty.width.bytes := by
  obtain ⟨member, symbol, declared, counts⟩ := isLocal
  obtain ⟨offset, ty, placed, _⟩ := frame.placed target.id member
  obtain ⟨other, found, _, typed⟩ := id placed
  obtain rfl := Option.some.inj (declared.symm.trans found)
  obtain ⟨entry, there, holds⟩ := holds_of_intTy? sound counts
  obtain rfl := Option.some.inj (typed.symm.trans there)
  exact ⟨offset, ty, placed, holds.size⟩

/-- The bytes of a local variable belong to it. -/
theorem IsLocalAs.inSlot
    (sound : program.types.Sound)
    (frame : program.FrameSound function.locals function.stackSize)
    (fits : function.stackSize ≤ base.toNat)
    {target : Variable}
    (isLocal : IsLocalAs program function target)
    (covered : Covers (addressOf program names base target.id)
      target.ty.width.bytes place) :
    InSlot program base target.id place := by
  obtain ⟨offset, ty, placed, size⟩ := isLocal.placed sound frame
  exact inSlot_of_covers frame fits isLocal.1 placed (Int.le_of_eq size.symm) covered

end Slots

/-! ## Layouts -/

/-- Global variables as the linker has placed them: apart from each other, and outside the
stretch of memory between two addresses that belongs to the stack. -/
structure Linked (program : Program) (names : Names) (globals : Variable -> Prop)
    (low high : Nat) : Prop where
  declared : ∀ target, globals target -> ∃ symbol, Declared program target symbol ∧
    symbol.isLocal = false
  apart : ∀ first second firstSymbol secondSymbol, globals first -> globals second ->
    first.id ≠ second.id -> Declared program first firstSymbol ->
    Declared program second secondSymbol ->
    Apart (names firstSymbol.name) first.ty.width.bytes
      (names secondSymbol.name) second.ty.width.bytes
  clear : ∀ target symbol, globals target -> Declared program target symbol ->
    ∀ place, Covers (names symbol.name) target.ty.width.bytes place ->
      place.toNat < low ∨ high ≤ place.toNat

/-- The same for global variables whose declared types count as their own. -/
structure Links (program : Program) (names : Names) (globals : Variable -> Prop)
    (low high : Nat) : Prop where
  declared : ∀ target, globals target -> ∃ symbol, DeclaredAs program target symbol ∧
    symbol.isLocal = false
  apart : ∀ first second firstSymbol secondSymbol, globals first -> globals second ->
    first.id ≠ second.id -> DeclaredAs program first firstSymbol ->
    DeclaredAs program second secondSymbol ->
    Apart (names firstSymbol.name) first.ty.width.bytes
      (names secondSymbol.name) second.ty.width.bytes
  clear : ∀ target symbol, globals target -> DeclaredAs program target symbol ->
    ∀ place, Covers (names symbol.name) target.ty.width.bytes place ->
      place.toNat < low ∨ high ≤ place.toNat

/-- The layout of a frame with a base, beside global variables. -/
def frameLayout (program : Program) (names : Names) (function : Function)
    (globals : Variable -> Prop) (base : Word) (bottom top : Nat) : Layout where
  program := program
  names := names
  base := base
  tracked target := globals target ∨ IsLocalOf program function target
  bottom := bottom
  top := top

/-- The layout of a frame in which all local variables are followed whose declared types
count as integer types. -/
def functionLayout (program : Program) (names : Names) (function : Function)
    (globals : Variable -> Prop) (base : Word) (bottom top : Nat) : Layout where
  program := program
  names := names
  base := base
  tracked target := globals target ∨ IsLocalAs program function target
  bottom := bottom
  top := top

/-- The layout of the frame that a machine is in, with room for some words on the
stack. -/
def machineLayout (program : Program) (names : Names) (function : Function)
    (globals : Variable -> Prop) (machine : Machine) (words : Nat) : Layout :=
  frameLayout program names function globals (machine.regs .rbp)
    ((machine.regs .rsp).toNat - 8 * words) (machine.regs .rsp).toNat

/-- A machine on which code of a function can run: the stack pointer lies at or below the
frame and has room for some words below it, global variables are placed off the stack, and
all variables hold what the store says. -/
structure Prepared (program : Program) (names : Names) (function : Function)
    (globals : Variable -> Prop) (store : Store) (machine : Machine) (words : Nat) :
    Prop where
  below : (machine.regs .rsp).toNat + function.stackSize ≤ (machine.regs .rbp).toNat
  room : 8 * words ≤ (machine.regs .rsp).toNat
  linked : Linked program names globals ((machine.regs .rsp).toNat - 8 * words)
    (machine.regs .rbp).toNat
  agrees : (machineLayout program names function globals machine words).Agrees store
    machine.memory

section Sound

variable {names : Names} {function : Function} {globals : Variable -> Prop} {base : Word}
variable {bottom top low high : Nat}

/-- The address of a global variable is that of its name. -/
theorem addressOf_of_not_isLocal
    {id : SymbolId}
    {symbol : Symbol}
    (declared : program.symbol? id = some symbol)
    (isGlobal : symbol.isLocal = false) :
    addressOf program names base id = names symbol.name :=
  addressOf_name declared fun offset kind => by simp [Symbol.isLocal, kind] at isGlobal

theorem addressOf_global
    {target : Variable}
    {symbol : Symbol}
    (declared : Declared program target symbol)
    (isGlobal : symbol.isLocal = false) :
    addressOf program names base target.id = names symbol.name :=
  addressOf_of_not_isLocal declared.1 isGlobal

theorem Linked.links
    (sound : program.types.Sound)
    (linked : Linked program names globals low high) :
    Links program names globals low high := by
  -- A global variable has one declaration, so the two notions agree on it.
  have strict {target : Variable} {symbol : Symbol} (isGlobal : globals target)
      (declared : DeclaredAs program target symbol) : Declared program target symbol := by
    obtain ⟨other, strictly, _⟩ := linked.declared target isGlobal
    rwa [declared.unique (strictly.declaredAs sound)]
  refine ⟨?_, ?_, ?_⟩
  · intro target isGlobal
    obtain ⟨symbol, declared, notLocal⟩ := linked.declared target isGlobal
    exact ⟨symbol, declared.declaredAs sound, notLocal⟩
  · intro first second _ _ left right different firstDeclared secondDeclared
    exact linked.apart first second _ _ left right different (strict left firstDeclared)
      (strict right secondDeclared)
  · intro target symbol isGlobal declared
    exact linked.clear target symbol isGlobal (strict isGlobal declared)

/-- A global variable lies off the stack. -/
theorem Links.clear_of_covers
    (links : Links program names globals low high)
    {target : Variable}
    (isGlobal : globals target)
    {place : Word}
    (covered : Covers (addressOf program names base target.id)
      target.ty.width.bytes place) :
    place.toNat < low ∨ high ≤ place.toNat := by
  obtain ⟨symbol, declared, notLocal⟩ := links.declared target isGlobal
  rw [addressOf_of_not_isLocal declared.1 notLocal] at covered
  exact links.clear target symbol isGlobal declared place covered

/-- Fewer variables do not overlap either. -/
theorem Layout.Sound.mono
    {layout : Layout}
    (sound : layout.Sound)
    {tracked : Variable -> Prop}
    (fewer : ∀ target, tracked target -> layout.tracked target) :
    Layout.Sound { layout with tracked := tracked } where
  single :=
    fun first second left right => sound.single first second (fewer _ left)
      (fewer _ right)
  apart := fun first second left right => sound.apart first second (fewer _ left)
    (fewer _ right)
  clear := fun target inside => sound.clear target (fewer _ inside)

/-- In a frame with room below it, beside global variables off the stack, nothing
overlaps. -/
theorem functionLayout_sound
    (sound : program.types.Sound)
    (frame : program.FrameSound function.locals function.stackSize)
    (links : Links program names globals bottom high)
    (ordered : bottom ≤ top)
    (below : top + function.stackSize ≤ base.toNat)
    (above : base.toNat ≤ high) :
    (functionLayout program names function globals base bottom top).Sound := by
  have nonneg := frame.size_nonneg
  have fits : function.stackSize ≤ base.toNat := by omega
  -- A global variable lies off the stack and a local one on it.
  have separate {first second : Variable} {place : Word}
      (isGlobal : globals first)
      (isLocal : IsLocalAs program function second)
      (left : Covers (addressOf program names base first.id) first.ty.width.bytes place)
      (right : Covers (addressOf program names base second.id)
        second.ty.width.bytes place) :
      False := by
    have clear := links.clear_of_covers isGlobal left
    have inside := (isLocal.inSlot sound frame fits right).bounds frame isLocal.1
    omega
  refine ⟨?_, ?_, ?_⟩
  · have declaredIn {target : Variable}
        (tracked : globals target ∨ IsLocalAs program function target) :
        ∃ symbol, DeclaredAs program target symbol := by
      rcases tracked with isGlobal | isLocal
      · obtain ⟨symbol, declared, _⟩ := links.declared target isGlobal
        exact ⟨symbol, declared⟩
      · exact isLocal.2
    rintro ⟨id, ty⟩ ⟨other, otherTy⟩ first second same
    obtain ⟨symbol, found, counts⟩ := declaredIn first
    obtain ⟨otherSymbol, otherFound, otherCounts⟩ := declaredIn second
    dsimp only at same found counts otherFound otherCounts
    subst same
    obtain rfl := Option.some.inj (found.symm.trans otherFound)
    rw [Option.some.inj (counts.symm.trans otherCounts)]
  · intro first second firstTracked secondTracked different place left right
    rcases firstTracked with firstGlobal | firstLocal
    · rcases secondTracked with secondGlobal | secondLocal
      · obtain ⟨symbol, declared, notLocal⟩ := links.declared first firstGlobal
        obtain ⟨other, otherDeclared, otherNotLocal⟩ := links.declared second secondGlobal
        have leftPlace : Covers (addressOf program names base first.id) _ place := left
        have rightPlace : Covers (addressOf program names base second.id) _ place := right
        rw [addressOf_of_not_isLocal declared.1 notLocal] at leftPlace
        rw [addressOf_of_not_isLocal otherDeclared.1 otherNotLocal] at rightPlace
        exact links.apart first second symbol other firstGlobal secondGlobal
          different declared otherDeclared place leftPlace rightPlace
      · exact separate firstGlobal secondLocal left right
    · rcases secondTracked with secondGlobal | secondLocal
      · exact separate secondGlobal firstLocal right left
      · exact different (InSlot.unique frame firstLocal.1 secondLocal.1
          (firstLocal.inSlot sound frame fits left)
            (secondLocal.inSlot sound frame fits right))
  · intro target tracked place occupied
    have covered : Covers (addressOf program names base target.id) _ place := occupied
    change place.toNat < bottom ∨ top ≤ place.toNat
    rcases tracked with isGlobal | isLocal
    · have clear := links.clear_of_covers isGlobal covered
      omega
    · have inside := (isLocal.inSlot sound frame fits covered).bounds frame isLocal.1
      omega

theorem frameLayout_sound
    (sound : program.Sound tokens)
    (frame : program.FrameSound function.locals function.stackSize)
    (linked : Linked program names globals bottom high)
    (ordered : bottom ≤ top)
    (below : top + function.stackSize ≤ base.toNat)
    (above : base.toNat ≤ high) :
    (frameLayout program names function globals base bottom top).Sound :=
  (functionLayout_sound sound.types frame (linked.links sound.types) ordered
    below above).mono fun _ => Or.imp_right (IsLocalOf.isLocalAs sound.types)

/-- A prepared machine has a layout without overlaps, and is ready to run. -/
theorem Prepared.ready
    {store : Store}
    {machine : Machine}
    {words : Nat}
    (sound : program.Sound tokens)
    (frame : program.FrameSound function.locals function.stackSize)
    (prepared : Prepared program names function globals store machine words) :
    (machineLayout program names function globals machine words).Sound ∧
      (machineLayout program names function globals machine words).Ready store
        machine words := by
  have room := prepared.room
  refine ⟨?_, rfl, ?_, Nat.le_refl _, prepared.agrees⟩
  · exact frameLayout_sound sound frame prepared.linked (Nat.sub_le _ _) prepared.below
      (Nat.le_refl _)
  · change (machine.regs .rsp).toNat - 8 * words + 8 * words ≤ (machine.regs .rsp).toNat
    omega

end Sound

end Semantics
end MiniC
