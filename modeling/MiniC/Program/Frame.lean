import MiniC.Program
import MiniC.Ty.Layout

/-!
# Stack frames

The locals of a function lie below the base of its frame, the last declared
nearest to the base.  The frame is a multiple of sixteen bytes, and every byte of
it has to be reachable with a 32-bit displacement.
-/

namespace MiniC
namespace Program

/-- Computations on a program that may fail and keep what was done before. -/
abbrev FrameM := EStateM LayoutError Program

namespace FrameM

/-- A size in range. -/
def sized : Option Int -> FrameM Int
  | some size => return size
  | none => throw .sizeOverflow

/-- A size rounded up to a multiple of an alignment. -/
def aligned (size align : Int) : FrameM Int :=
  match Layout.aligned size align with
  | .ok place => return place
  | .error reason => throw reason

/-- The entry of a symbol. -/
def symbol (id : SymbolId) : FrameM Symbol := do
  match (← get).symbol? id with
  | some symbol => return symbol
  | none => throw (.fault (.missing .symbols id.index))

/-- The type of a symbol. -/
def symbolTy (id : SymbolId) : FrameM Ty := do
  let symbol ← symbol id
  match (← get).types.get? symbol.ty with
  | some ty => return ty
  | none => throw (.fault (.missing .types symbol.ty.index))

end FrameM

/-- Place locals below an offset, one after the other: the offset of the last
one. -/
def placeLocals : List SymbolId -> Int -> FrameM Int
  | [], offset => return offset
  | id :: rest, offset => do
      let ty ← FrameM.symbolTy id
      let stop ← FrameM.sized (Extent.add? offset ty.size)
      let place ← FrameM.aligned stop ty.align
      modify (·.setSymbolKind id (.localVar (some place)))
      placeLocals rest place

/-- The size of a frame whose locals end at the given offset. -/
def frameSize? (offset : Int) : Option Int :=
  (Extent.alignUp? offset 16).filter (· ≤ Extent.maxInt32)

/-- Record the size of a function's frame. -/
def setFrameSize (id : SymbolId) (size : Int) : FrameM Unit := do
  match (← FrameM.symbol id).kind with
  | .function function =>
      modify (·.setSymbolKind id (.function { function with stackSize := size }))
  | _ => return

/-- Lay out the frame of a function.  For another symbol nothing happens. -/
def layoutFrame (id : SymbolId) : FrameM Unit := do
  match (← FrameM.symbol id).kind with
  | .function function =>
      let offset ← placeLocals function.locals.reverse 0
      let size ← FrameM.sized (frameSize? offset)
      setFrameSize id size
  | _ => return

end Program
end MiniC
