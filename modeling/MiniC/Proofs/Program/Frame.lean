import MiniC.Program.Frame
import MiniC.Proofs.Ty.Layout

/-!
# Frames in well-formed programs

Laying out the frame of a function either exceeds the range of sizes or gives every local
a place of its own.  Locals are placed one behind the other, so that each ends where the
places of those before it are already below.

`frameExtent` is the size of the frame over all integers.  The layout exceeds the range
exactly when that size exceeds the range of a displacement.
-/

namespace MiniC
namespace Program

/-! ## Changing one symbol -/

theorem symbol?_setSymbolKind (program : Program) (id other : SymbolId)
    (kind : SymbolKind) :
    (program.setSymbolKind id kind).symbol? other =
      if id = other then (program.symbol? other).map fun symbol =>
        { symbol with kind := kind }
      else program.symbol? other := by
  change (program.symbols.modify id.index _)[other.index]? = _
  rw [Array.getElem?_modify]
  by_cases same : id = other
  · rw [if_pos same, if_pos (by rw [same])]
    rfl
  · rw [if_neg same, if_neg]
    · rfl
    · intro equal
      apply same
      cases id
      cases other
      simp_all

theorem symbol?_setSymbolKind_self {program : Program} {id : SymbolId} {symbol : Symbol}
    (found : program.symbol? id = some symbol) (kind : SymbolKind) :
    (program.setSymbolKind id kind).symbol? id = some { symbol with kind := kind } := by
  rw [symbol?_setSymbolKind, if_pos rfl, found]
  rfl

theorem symbol?_setSymbolKind_ne {program : Program} {id other : SymbolId}
    (different : id ≠ other) (kind : SymbolKind) :
    (program.setSymbolKind id kind).symbol? other = program.symbol? other := by
  rw [symbol?_setSymbolKind, if_neg different]

/-! ## The size of a frame over all integers -/

/-- The type of a symbol. -/
def symbolTy? (program : Program) (id : SymbolId) : Option Ty :=
  (program.symbol? id).bind fun symbol => program.types.get? symbol.ty

theorem symbolTy?_eq_some {program : Program} {id : SymbolId} {symbol : Symbol} {ty : Ty}
    (found : program.symbol? id = some symbol)
    (typed : program.types.get? symbol.ty = some ty) :
    program.symbolTy? id = some ty := by
  rw [symbolTy?, found]
  exact typed

/-- A symbol of another kind has the same type. -/
@[simp] theorem symbolTy?_setSymbolKind (program : Program) (id : SymbolId)
    (kind : SymbolKind) : (program.setSymbolKind id kind).symbolTy? =
      program.symbolTy? := by
  funext other
  unfold symbolTy?
  rw [symbol?_setSymbolKind]
  split
  · cases program.symbol? other <;> rfl
  · rfl

/-- The offset of the last of several objects of the given types that are placed below an
offset one after the other. -/
def extentBelow : List Ty -> Int -> Int
  | [], offset => offset
  | ty :: rest, offset => extentBelow rest (Extent.roundUp (offset + ty.size) ty.align)

/-- The size of the frame with the given locals, however large. -/
def frameExtent (program : Program) (locals : List SymbolId) : Int :=
  Extent.roundUp (extentBelow (locals.reverse.filterMap program.symbolTy?) 0) 16

@[simp] theorem frameExtent_setSymbolKind (program : Program) (id : SymbolId)
    (kind : SymbolKind) : (program.setSymbolKind id kind).frameExtent =
      program.frameExtent := by
  funext locals
  rw [frameExtent, symbolTy?_setSymbolKind]
  rfl

/-! ## Placing locals -/

/-- A local that can be placed: its type is there, with a size and an alignment. -/
def LocalRule (program : Program) (id : SymbolId) : Prop :=
  ∃ symbol ty, program.symbol? id = some symbol ∧ program.types.get? symbol.ty = some ty ∧
    0 ≤ ty.size ∧ 0 < ty.align ∧ ty.align ≤ 8

/-- Objects are placed below the offset. -/
theorem le_extentBelow {program : Program} {locals : List SymbolId} (offset : Int)
    (ruled : ∀ id ∈ locals, program.LocalRule id) :
    offset ≤ extentBelow (locals.filterMap program.symbolTy?) offset := by
  induction locals generalizing offset with
  | nil => exact Int.le_refl offset
  | cons id rest hypothesis =>
      obtain ⟨symbol, ty, found, typed, sized, positive, _⟩ := ruled id List.mem_cons_self
      rw [List.filterMap_cons_some (symbolTy?_eq_some found typed), extentBelow]
      have step := Extent.le_roundUp (offset + ty.size) positive
      have further := hypothesis (Extent.roundUp (offset + ty.size) ty.align)
        fun other member => ruled other (List.mem_cons_of_mem id member)
      omega

/-- Locals have been placed below an offset, down to a last one. -/
structure LocalsPlaced (locals : List SymbolId) (offset last : Int) (old new : Program) :
    Prop where
  types : new.types = old.types
  nodes : new.nodes = old.nodes
  globals : new.globals = old.globals
  others : ∀ id, id ∉ locals -> new.symbol? id = old.symbol? id
  placed : ∀ id ∈ locals, ∃ symbol place ty, old.symbol? id = some symbol ∧
    new.symbol? id = some { symbol with kind := .localVar (some place) } ∧
    old.types.get? symbol.ty = some ty ∧ 0 ≤ ty.size ∧ offset + ty.size ≤ place ∧
    place ≤ last
  aligned : ∀ id ∈ locals, ∀ place ty, new.Placed id place ty -> place % ty.align = 0
  apart : ∀ id ∈ locals, ∀ other ∈ locals, id ≠ other ->
    ∀ place ty otherPlace otherTy, new.Placed id place ty ->
    new.Placed other otherPlace otherTy ->
      place ≤ otherPlace - otherTy.size ∨ otherPlace ≤ place - ty.size
  le : offset ≤ last
  last_eq : last = extentBelow (locals.filterMap old.symbolTy?) offset

namespace LocalsPlaced

theorem nil (program : Program) (offset : Int) :
    LocalsPlaced [] offset offset program program where
  types := rfl
  nodes := rfl
  globals := rfl
  others := fun _ _ => rfl
  placed := by simp
  aligned := by simp
  apart := by simp
  last_eq := rfl
  le := Int.le_refl _

/-- One more local may be placed before the others. -/
theorem cons
    {program new : Program}
    {id : SymbolId}
    {rest : List SymbolId}
    {symbol : Symbol}
    {ty : Ty}
    {offset place last : Int}
    (found : program.symbol? id = some symbol)
    (typed : program.types.get? symbol.ty = some ty)
    (sized : 0 ≤ ty.size)
    (room : offset + ty.size ≤ place)
    (aligned : place % ty.align = 0)
    (place_eq : place = Extent.roundUp (offset + ty.size) ty.align)
    (fresh : id ∉ rest)
    (further : LocalsPlaced rest place last
      (program.setSymbolKind id (.localVar (some place))) new) :
    LocalsPlaced (id :: rest) offset last program new := by
  have own : new.symbol? id = some { symbol with kind := .localVar (some place) } := by
    rw [further.others id fresh]
    exact symbol?_setSymbolKind_self found _
  have sameTypes : new.types = program.types := further.types
  have different {other : SymbolId} (member : other ∈ rest) : id ≠ other := by
    rintro rfl
    exact fresh member
  -- A later local ends above the place of this one.
  have below {other : SymbolId} (member : other ∈ rest) {otherPlace : Int} {otherTy : Ty}
      (otherPlaced : new.Placed other otherPlace otherTy) :
      place ≤ otherPlace - otherTy.size := by
    obtain ⟨entry, its, itsTy, _, there, itsTyped, _, above, _⟩ :=
      further.placed other member
    have itsTypedThen : new.types.get? entry.ty = some itsTy := by
      rw [sameTypes]
      exact itsTyped
    obtain ⟨rfl, rfl⟩ := otherPlaced.unique ⟨_, there, rfl, itsTypedThen⟩
    omega
  have typedThen : new.types.get? symbol.ty = some ty := by
    rw [sameTypes]
    exact typed
  refine ⟨sameTypes, further.nodes, further.globals, ?_, ?_, ?_, ?_, ?_, ?_⟩
  · intro other outside
    simp only [List.mem_cons, not_or] at outside
    rw [further.others other outside.2]
    exact symbol?_setSymbolKind_ne (fun equal => outside.1 equal.symm) _
  · intro other member
    rcases List.mem_cons.mp member with rfl | later
    · exact ⟨symbol, place, ty, found, own, typed, sized, room, further.le⟩
    · obtain ⟨entry, its, itsTy, was, there, itsTyped, itsSized, above, below⟩ :=
        further.placed other later
      rw [symbol?_setSymbolKind_ne (different later)] at was
      exact ⟨entry, its, itsTy, was, there, itsTyped, itsSized, by omega, below⟩
  · intro other member otherPlace otherTy otherPlaced
    rcases List.mem_cons.mp member with rfl | later
    · obtain ⟨rfl, rfl⟩ := otherPlaced.unique ⟨_, own, rfl, typedThen⟩
      exact aligned
    · exact further.aligned other later _ _ otherPlaced
  · intro first firstMember second secondMember unequal firstPlace firstTy secondPlace
      secondTy firstPlaced secondPlaced
    rcases List.mem_cons.mp firstMember with rfl | firstLater
    · rcases List.mem_cons.mp secondMember with rfl | secondLater
      · exact absurd rfl unequal
      · obtain ⟨rfl, rfl⟩ := firstPlaced.unique ⟨_, own, rfl, typedThen⟩
        exact .inl (below secondLater secondPlaced)
    · rcases List.mem_cons.mp secondMember with rfl | secondLater
      · obtain ⟨rfl, rfl⟩ := secondPlaced.unique ⟨_, own, rfl, typedThen⟩
        exact .inr (below firstLater firstPlaced)
      · exact further.apart first firstLater second secondLater
          unequal _ _ _ _ firstPlaced secondPlaced
  · have reached := further.le
    omega
  · have same := further.last_eq
    rw [symbolTy?_setSymbolKind] at same
    rw [List.filterMap_cons_some (symbolTy?_eq_some found typed), extentBelow, ← place_eq]
    exact same

end LocalsPlaced

/-- A computation on a program runs out of range, and then something is too large, or it
reaches a result. -/
def OverflowsOr {α : Type} (computation : FrameM α) (program : Program) (excess : Prop)
    (post : α -> Program -> Prop) : Prop :=
  match computation program with
  | .ok value new => post value new
  | .error error _ => error = .sizeOverflow ∧ excess

namespace OverflowsOr

variable {α β : Type} {program : Program} {excess : Prop}

theorem bind
    {computation : FrameM α}
    {rest : α -> FrameM β}
    {middle : α -> Program -> Prop}
    {post : β -> Program -> Prop}
    (first : OverflowsOr computation program excess middle)
    (second : ∀ value new, middle value new -> OverflowsOr (rest value) new excess post) :
    OverflowsOr (computation >>= rest) program excess post := by
  unfold OverflowsOr at first ⊢
  have unfolded :
      (computation >>= rest) program = EStateM.bind computation rest program := rfl
  rw [unfolded, EStateM.bind]
  cases run : computation program with
  | ok value new =>
      rw [run] at first
      exact second value new first
  | error error new =>
      rw [run] at first
      exact first

/-- A computation behind one whose run is known. -/
theorem run
    {computation : FrameM α}
    {rest : α -> FrameM β}
    {value : α}
    {new : Program}
    {post : β -> Program -> Prop}
    (known : computation program = .ok value new)
    (second : OverflowsOr (rest value) new excess post) :
    OverflowsOr (computation >>= rest) program excess post := by
  have first : OverflowsOr computation program excess fun other reached =>
      other = value ∧ reached = new := by
    unfold OverflowsOr
    rw [known]
    exact ⟨rfl, rfl⟩
  refine bind first ?_
  rintro _ _ ⟨rfl, rfl⟩
  exact second

theorem weaken
    {computation : FrameM α}
    {post other : α -> Program -> Prop}
    (meets : OverflowsOr computation program excess post)
    (implies : ∀ value new, post value new -> other value new) :
    OverflowsOr computation program excess other := by
  unfold OverflowsOr at meets ⊢
  split <;> simp_all

/-- What is too large may be said of something larger. -/
theorem exceed
    {computation : FrameM α}
    {more : Prop}
    {post : α -> Program -> Prop}
    (meets : OverflowsOr computation program excess post)
    (implies : excess -> more) :
    OverflowsOr computation program more post := by
  unfold OverflowsOr at meets ⊢
  split <;> simp_all

theorem pure {value : α} {post : α -> Program -> Prop} (holds : post value program) :
    OverflowsOr (Pure.pure value) program excess post :=
  holds

theorem sized {size : Option Int} (lacking : size = none -> excess) :
    OverflowsOr (FrameM.sized size) program excess fun value new =>
      program = new ∧ size = some value := by
  cases size with
  | none => exact ⟨rfl, lacking rfl⟩
  | some value => exact ⟨rfl, rfl⟩

theorem aligned {size align : Int} (positive : 0 < align)
    (lacking : Extent.alignUp? size align = none -> excess) :
    OverflowsOr (FrameM.aligned size align) program excess fun value new =>
      program = new ∧ Extent.alignUp? size align = some value := by
  unfold OverflowsOr FrameM.aligned Layout.aligned
  rw [if_pos positive]
  cases rounded : Extent.alignUp? size align with
  | none => exact ⟨rfl, lacking rounded⟩
  | some place => exact ⟨rfl, rfl⟩

end OverflowsOr

/-- A computation that reads the program first. -/
theorem FrameM.get_run {α : Type} {program : Program} (rest : Program -> FrameM α) :
    (get >>= rest) program = rest program program := rfl

theorem symbol_run {program : Program} {id : SymbolId} {symbol : Symbol}
    (found : program.symbol? id = some symbol) :
    FrameM.symbol id program = .ok symbol program := by
  unfold FrameM.symbol
  rw [FrameM.get_run, found]
  rfl

theorem symbolTy_run {program : Program} {id : SymbolId} {symbol : Symbol} {ty : Ty}
    (found : program.symbol? id = some symbol)
    (typed : program.types.get? symbol.ty = some ty) :
    FrameM.symbolTy id program = .ok ty program := by
  change EStateM.bind (FrameM.symbol id) _ program = _
  rw [EStateM.bind, symbol_run found]
  dsimp only
  rw [FrameM.get_run, typed]
  rfl

/-- Locals that can be placed are placed, or reach further than a displacement. -/
theorem placeLocals_overflowsOr {program : Program}
    {locals : List SymbolId} {offset : Int}
    (nonneg : 0 ≤ offset) (ruled : ∀ id ∈ locals, program.LocalRule id)
    (nodup : locals.Nodup) :
    OverflowsOr (placeLocals locals offset) program
      (Extent.maxInt32 < extentBelow (locals.filterMap program.symbolTy?) offset)
      fun last new => LocalsPlaced locals offset last program new := by
  induction locals generalizing program offset with
  | nil => exact .pure (.nil program offset)
  | cons id rest hypothesis =>
      obtain ⟨symbol, ty, found, typed, sized, positive, narrow⟩ :=
        ruled id List.mem_cons_self
      obtain ⟨fresh, restNodup⟩ := List.nodup_cons.mp nodup
      have stopNonneg : 0 ≤ offset + ty.size := by omega
      rw [List.filterMap_cons_some (symbolTy?_eq_some found typed), extentBelow]
      -- A sum that leaves the range is far beyond that of a displacement.
      have reaches (beyond : ¬offset + ty.size + 7 ≤ Extent.maxValue) : Extent.maxInt32 <
          extentBelow (rest.filterMap program.symbolTy?)
            (Extent.roundUp (offset + ty.size) ty.align) := by
        have step := Extent.le_roundUp (offset + ty.size) positive
        have further := le_extentBelow (Extent.roundUp (offset + ty.size) ty.align)
          fun other member => ruled other (List.mem_cons_of_mem id member)
        unfold Extent.maxValue at beyond
        unfold Extent.maxInt32
        omega
      refine .run (symbolTy_run found typed) ?_
      refine .bind (.sized fun failed => reaches ?_) ?_
      · have outside := Extent.check?_eq_none_iff.mp failed
        unfold Extent.InRange Extent.minValue at outside
        omega
      rintro stop _ ⟨rfl, added⟩
      obtain ⟨_, rfl⟩ := Extent.check?_eq_some_iff.mp added
      have exactly := Extent.alignUp?_eq stopNonneg positive
      refine .bind (.aligned positive fun failed => reaches ?_) ?_
      · rw [failed] at exactly
        split at exactly
        · cases exactly
        · omega
      rintro place _ ⟨rfl, rounded⟩
      obtain ⟨room, _, aligned⟩ := Extent.alignUp?_bounds stopNonneg positive rounded
      have place_eq : place = Extent.roundUp (offset + ty.size) ty.align := by
        rw [rounded] at exactly
        split at exactly
        · exact Option.some.inj exactly
        · cases exactly
      refine .run rfl ?_
      have later : ∀ other ∈ rest,
          (program.setSymbolKind id (.localVar (some place))).LocalRule other := by
        intro other member
        obtain ⟨entry, entryTy, entryFound, rule⟩ :=
          ruled other (List.mem_cons_of_mem id member)
        refine ⟨entry, entryTy, ?_, rule⟩
        rw [symbol?_setSymbolKind_ne (by rintro rfl; exact fresh member)]
        exact entryFound
      have placeNonneg : 0 ≤ place := by omega
      have placed := hypothesis placeNonneg later restNodup
      rw [symbolTy?_setSymbolKind, place_eq] at placed
      rw [place_eq]
      refine placed.weaken fun last new placed => ?_
      exact .cons found typed sized (by omega)
        (by rw [← place_eq]; exact aligned) rfl fresh placed

/-! ## The whole frame -/

/-- A function has been given its body and its frame, and its locals their places. -/
structure Defined (old new : Program) (id : SymbolId) (symbol : Symbol)
    (function : Function) :
    Prop where
  types : new.types = old.types
  nodes : new.nodes = old.nodes
  globals : new.globals = old.globals
  was : old.symbol? id = some symbol
  global : symbol.isLocal = false
  own : new.symbol? id = some { symbol with kind := .function function }
  locals : ∀ other ∈ function.locals, ∃ entry place, old.symbol? other = some entry ∧
    entry.kind = .localVar none ∧
    new.symbol? other = some { entry with kind := .localVar (some place) }
  others : ∀ other, other ≠ id -> other ∉ function.locals ->
    new.symbol? other = old.symbol? other
  frame : new.FrameSound function.locals function.stackSize

namespace Defined

variable {old new : Program} {id : SymbolId} {symbol : Symbol} {function : Function}

theorem node?_eq (defined : Defined old new id symbol function) (other : NodeId) :
    new.node? other = old.node? other := by
  rw [node?, node?, defined.nodes]

/-- Each symbol is the function itself, one of its locals, or as it was. -/
theorem symbol_cases (defined : Defined old new id symbol function) {other : SymbolId}
    {was : Symbol} (there : old.symbol? other = some was) :
    ∃ now, new.symbol? other = some now ∧ was.Refines now ∧
      (other = id ∨ now.isLocal = true ∨ now = was) := by
  by_cases same : other = id
  · subst same
    obtain rfl : symbol = was := by simpa [defined.was] using there
    refine ⟨_, defined.own, ⟨rfl, rfl, ?_⟩, .inl rfl⟩
    rw [defined.global]
    rfl
  · by_cases member : other ∈ function.locals
    · obtain ⟨entry, place, before, kind, now⟩ := defined.locals other member
      obtain rfl : was = entry := by simpa [there] using before
      refine ⟨_, now, ⟨rfl, rfl, ?_⟩, .inr (.inl rfl)⟩
      simp [Symbol.isLocal, kind]
    · exact ⟨was, (defined.others other same member).trans there, .refl was,
        .inr (.inr rfl)⟩

/-- No symbol is new. -/
theorem was_there (defined : Defined old new id symbol function) {other : SymbolId}
    {now : Symbol} (there : new.symbol? other = some now) :
    ∃ was, old.symbol? other = some was := by
  by_cases same : other = id
  · exact ⟨symbol, by rw [same]; exact defined.was⟩
  · by_cases member : other ∈ function.locals
    · obtain ⟨entry, _, before, _⟩ := defined.locals other member
      exact ⟨entry, before⟩
    · exact ⟨now, (defined.others other same member).symm.trans there⟩

theorem keeps (defined : Defined old new id symbol function) (base : Nat) :
    Keeps base old new where
  types := fun _ ty there => ⟨ty, by rw [defined.types]; exact there, .refl ty⟩
  nodes := fun _ node there => ⟨node, by rw [defined.node?_eq]; exact there, .refl node⟩
  symbols := by
    intro other was there
    obtain ⟨now, reached, refines, _⟩ := defined.symbol_cases there
    exact ⟨now, reached, refines⟩
  exactPlaces := by
    intro other was offset there placed
    rw [defined.others other]
    · exact there
    · rintro rfl
      obtain rfl : symbol = was := by simpa [defined.was] using there
      have global := defined.global
      simp [Symbol.isLocal, placed] at global
    · intro member
      obtain ⟨entry, _, before, kind, _⟩ := defined.locals other member
      obtain rfl : was = entry := by simpa [there] using before
      simp [kind] at placed
  exactNodes := fun _ node _ there => by rw [defined.node?_eq]; exact there

end Defined

/-- The size of a frame is the offset of its last local rounded up, unless that exceeds
the range of a displacement. -/
theorem frameSize?_eq {offset : Int} (nonneg : 0 ≤ offset) :
    frameSize? offset =
      if Extent.roundUp offset 16 ≤ Extent.maxInt32 then some (Extent.roundUp offset 16)
      else none := by
  have above := Extent.le_roundUp offset (by decide : (0 : Int) < 16)
  unfold frameSize?
  rw [Extent.alignUp?_eq nonneg (by decide)]
  by_cases high : offset + (16 - 1) ≤ Extent.maxValue
  · rw [if_pos high, Option.filter_some]
    simp only [decide_eq_true_eq]
  · rw [if_neg high, Option.filter_none, if_neg]
    unfold Extent.maxValue at high
    unfold Extent.maxInt32
    omega

/-- The size of a frame holds its locals. -/
theorem frameSize?_bounds {offset size : Int} (nonneg : 0 ≤ offset)
    (sized : frameSize? offset = some size) :
    offset ≤ size ∧ size % 16 = 0 ∧ size ≤ Extent.maxInt32 ∧
    size = Extent.roundUp offset 16 := by
  rw [frameSize?_eq nonneg] at sized
  split at sized
  · rename_i small
    obtain rfl := Option.some.inj sized
    exact ⟨Extent.le_roundUp offset (by decide), Int.mul_emod_left _ _, small, rfl⟩
  · cases sized

/-- Recording the size of a frame keeps the places of the locals. -/
theorem LocalsPlaced.frameSound {old new : Program} {locals : List SymbolId}
    {last size : Int} (placed : LocalsPlaced locals.reverse 0 last old new)
    (above : last ≤ size) (multiple : size % 16 = 0) (small : size ≤ Extent.maxInt32)
    {id : SymbolId} (outside : id ∉ locals) (kind : SymbolKind) :
    (new.setSymbolKind id kind).FrameSound locals size := by
  have same {other : SymbolId} (member : other ∈ locals) :
      (new.setSymbolKind id kind).symbol? other = new.symbol? other :=
    symbol?_setSymbolKind_ne (by rintro rfl; exact outside member) kind
  have back {other : SymbolId} (member : other ∈ locals) {place : Int} {ty : Ty}
      (there : (new.setSymbolKind id kind).Placed other place ty) :
      new.Placed other place ty := by
    obtain ⟨symbol, found, rest⟩ := there
    rw [same member] at found
    exact ⟨symbol, found, rest⟩
  have nonneg := placed.le
  refine ⟨?_, ?_, ?_, by omega, multiple, small⟩
  · intro other member
    obtain ⟨symbol, place, ty, _, found, typed, sized, room, bound⟩ :=
      placed.placed other (List.mem_reverse.mpr member)
    refine ⟨place, ty, ⟨_, (same member).trans found, rfl, ?_⟩, sized, by omega, by omega⟩
    change new.types.get? symbol.ty = some ty
    rw [placed.types]
    exact typed
  · intro other member _ _ otherPlaced
    exact placed.aligned other (List.mem_reverse.mpr member) _ _ (back member otherPlaced)
  · intro first firstMember second secondMember unequal _ _ _ _ firstPlaced secondPlaced
    exact placed.apart first (List.mem_reverse.mpr firstMember) second
      (List.mem_reverse.mpr secondMember) unequal _ _ _ _ (back firstMember firstPlaced)
      (back secondMember secondPlaced)

/-- Giving a function its body and laying out its frame.  The layout fails only if the
frame exceeds the range of a displacement. -/
theorem layoutFrame_overflowsOr {program : Program} {id : SymbolId} {symbol : Symbol}
    (found : program.symbol? id = some symbol) (global : symbol.isLocal = false)
    {function : Function} (ruled : ∀ other ∈ function.locals, program.LocalRule other)
    (unplaced : ∀ other ∈ function.locals, ∃ entry, program.symbol? other = some entry ∧
      entry.kind = .localVar none)
    (nodup : function.locals.Nodup) :
    OverflowsOr (layoutFrame id) (program.setSymbolKind id (.function function))
      (Extent.maxInt32 < program.frameExtent function.locals) fun _ new =>
        Defined program new id symbol
          { function with stackSize := program.frameExtent function.locals } := by
  have outside : id ∉ function.locals := by
    intro member
    obtain ⟨entry, there, kind⟩ := unplaced id member
    obtain rfl : symbol = entry := by simpa [found] using there
    simp [Symbol.isLocal, kind] at global
  have apart {other : SymbolId} (member : other ∈ function.locals) : id ≠ other := by
    rintro rfl
    exact outside member
  have bodied := symbol?_setSymbolKind_self found (.function function)
  have reversed : ∀ other ∈ function.locals.reverse,
      (program.setSymbolKind id (.function function)).LocalRule other := by
    intro other member
    have inside := List.mem_reverse.mp member
    obtain ⟨entry, ty, there, rule⟩ := ruled other inside
    refine ⟨entry, ty, ?_, rule⟩
    rw [symbol?_setSymbolKind_ne (apart inside)]
    exact there
  have reversedNodup : function.locals.reverse.Nodup :=
    List.pairwise_reverse.mpr (nodup.imp Ne.symm)
  have within := Extent.le_roundUp
    (extentBelow (function.locals.reverse.filterMap program.symbolTy?) 0)
    (by decide : (0 : Int) < 16)
  have placing := placeLocals_overflowsOr (Int.le_refl 0) reversed reversedNodup
  rw [symbolTy?_setSymbolKind] at placing
  refine .run (symbol_run bodied) ?_
  refine .bind (placing.exceed fun beyond => Int.lt_of_lt_of_le beyond within) ?_
  intro last middle placed
  have reached : Extent.roundUp last 16 = program.frameExtent function.locals := by
    rw [placed.last_eq, symbolTy?_setSymbolKind]
    rfl
  refine .bind (.sized fun failed => ?_) ?_
  · rw [frameSize?_eq placed.le, reached] at failed
    split at failed
    · cases failed
    · omega
  rintro size _ ⟨rfl, sized⟩
  obtain ⟨above, multiple, small, rfl⟩ := frameSize?_bounds placed.le sized
  rw [reached] at above multiple small
  have own : middle.symbol? id = some { symbol with kind := .function function } := by
    rw [placed.others id (fun member => outside (List.mem_reverse.mp member))]
    exact bodied
  refine .run (symbol_run own) ?_
  rw [reached]
  refine ⟨placed.types, placed.nodes, placed.globals, found, global,
    symbol?_setSymbolKind_self own _, ?_, ?_,
    placed.frameSound above multiple small outside _⟩
  · intro other member
    obtain ⟨entry, place, _, was, now, _⟩ :=
      placed.placed other (List.mem_reverse.mpr member)
    rw [symbol?_setSymbolKind_ne (apart member)] at was
    obtain ⟨again, there, kind⟩ := unplaced other member
    obtain rfl : entry = again := by simpa [was] using there
    refine ⟨entry, place, was, kind, ?_⟩
    rw [symbol?_setSymbolKind_ne (apart member)]
    exact now
  · intro other different notLocal
    rw [symbol?_setSymbolKind_ne different.symm,
      placed.others other (fun member => notLocal (List.mem_reverse.mp member)),
      symbol?_setSymbolKind_ne different.symm]

end Program
end MiniC
