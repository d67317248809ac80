import MiniC.Proofs.Emit.StackDiscipline
import MiniC.Proofs.Emit.Text
import MiniC.Proofs.Program.Tree

/-!
# Labels of the source text in generated code

A goto statement becomes a jump and a labelled statement the definition of a label.  No
other node gives a line with a label of the source text.  So these lines, together with
the heights of the stack at them, can be read off the tree of the body: they stand in the
order of the nodes, and at each as many words are on the stack as values wait there.
-/

namespace MiniC

namespace Asm

/-- Whether an instruction neither jumps nor calls and has no constant but one that `rax`
is set to. -/
def Instr.isSimple : Instr -> Bool
  | set target _ => target = .rax
  | addConst _ _ | subConst _ _ | frameAddress _ | storeFrame _ _ _ => false
  | loadByte _ | storeByte _ => false
  | jump _ | jumpEq _ | jumpNe _ | call _ => false
  | _ => true

/-- Whether a line defines a label of the source text or jumps to one. -/
def Line.isNamed : Line -> Bool
  | label (.named _ _) => true
  | instr (.jump (.named _ _)) | instr (.jumpEq (.named _ _))
  | instr (.jumpNe (.named _ _)) => true
  | _ => false

namespace Code

/-- The lines of a text with labels of the source text, with the heights of the stack
there. -/
def signs : Code -> Int -> List (Int × Line)
  | [], _ => []
  | line :: rest, height =>
      (if line.isNamed then [(height, line)] else []) ++ signs rest (height + line.rise)

/-- The signs of the second of two texts are at heights above that of the first. -/
@[simp] theorem signs_append (first second : Code) (start : Int) :
    (first ++ second).signs start =
      first.signs start ++ second.signs (start + first.height) := by
  induction first generalizing start with
  | nil => simp [signs, height]
  | cons line rest hypothesis => simp [signs, height, hypothesis, Int.add_assoc]

/-- A sign is a line and the height of the text before it. -/
theorem mem_signs {code : Code} {start height : Int} {line : Line} :
    (height, line) ∈ code.signs start ↔
      line.isNamed = true ∧ ∃ before after, code = before ++ line :: after ∧
        height = start + before.height := by
  induction code generalizing start with
  | nil => simp [signs]
  | cons first rest hypothesis =>
      rw [signs, List.mem_append, hypothesis]
      constructor
      · rintro (own | ⟨named, before, after, rfl, equal⟩)
        · split at own
          · obtain ⟨rfl, rfl⟩ := Prod.mk.inj (List.mem_singleton.mp own)
            exact ⟨‹_›, [], rest, rfl, by simp [Code.height]⟩
          · cases own
        · exact ⟨named, first :: before, after, rfl, by rw [equal, Code.height]; omega⟩
      · rintro ⟨named, before, after, divided, equal⟩
        cases before with
        | nil =>
            obtain ⟨rfl, rfl⟩ := List.cons.inj divided
            refine .inl ?_
            rw [if_pos named, equal]
            simp [Code.height]
        | cons other before =>
            obtain ⟨rfl, rfl⟩ := List.cons.inj divided
            exact .inr ⟨named, before, after, rfl, by rw [equal, Code.height]; omega⟩

/-- The lines with labels of the source text, whatever their heights. -/
theorem map_signs (code : Code) (start : Int) :
    (code.signs start).map (·.2) = code.filter (·.isNamed) := by
  induction code generalizing start with
  | nil => rfl
  | cons line rest hypothesis =>
      rw [signs, List.map_append, hypothesis, List.filter_cons]
      split <;> rfl

/-- A text without labels of the source text. -/
def Nameless (code : Code) : Prop := ∀ line ∈ code, line.isNamed = false

namespace Nameless

variable {code first second : Code}

theorem append (left : Nameless first) (right : Nameless second) :
    Nameless (first ++ second) := by
  intro line member
  rcases List.mem_append.mp member with own | later
  · exact left line own
  · exact right line later

/-- A text without labels of the source text has no signs. -/
theorem signs_eq_nil (nameless : Nameless code) (start : Int) :
    code.signs start = [] := by
  apply List.map_eq_nil_iff.mp
  rw [map_signs, List.filter_eq_nil_iff]
  intro line member
  rw [nameless line member]
  exact Bool.false_ne_true

end Nameless
end Code
end Asm

namespace Emit

open Asm Code

/-! ## Lines without labels of the source text -/

/-- Extending a sign takes simple instructions. -/
theorem isSimple_extend (width : Width) :
    ∀ step ∈ extend width, step.isSimple = true := by
  unfold extend
  split <;> simp [Instr.isSimple]

/-- Narrowing a value takes simple instructions. -/
theorem isSimple_narrow (ty : Ty) : ∀ step ∈ narrow ty, step.isSimple = true := by
  unfold narrow
  split
  · exact isSimple_extend ty.width
  · simp

/-- Binary operators take simple instructions. -/
theorem isSimple_operation (op : BinaryOp) (ty : Ty) :
    ∀ step ∈ operation op ty, step.isSimple = true := by
  have narrowed := isSimple_narrow ty
  cases op <;> simp_all [operation, truth, Instr.isSimple]

/-- Unary operators take simple instructions. -/
theorem isSimple_unaryOperation (op : UnaryOp) (ty : Ty) :
    ∀ step ∈ unaryOperation op ty, step.isSimple = true := by
  have narrowed := isSimple_narrow ty
  cases op <;> simp_all [unaryOperation, truth, Instr.isSimple]

/-- Simple instructions have no labels. -/
theorem nameless_of_isSimple {list : List Instr}
    (simple : ∀ step ∈ list, step.isSimple = true) :
    Nameless (instrs list) := by
  intro line member
  obtain ⟨step, listed, rfl⟩ := List.mem_map.mp member
  have isSimple := simple step listed
  cases step with
  | jump | jumpEq | jumpNe => cases isSimple
  | _ => rfl

/-- Instructions on the topmost word have no labels of the source text if they have none
themselves. -/
theorem nameless_top {list : List Instr} (nameless : Nameless (instrs list)) :
    Nameless (topLines list) := by
  have pop : Nameless (instrs [.pop .rax]) := by simp [Nameless, instrs, Line.isNamed]
  have push : Nameless (instrs [.push .rax]) := by simp [Nameless, instrs, Line.isNamed]
  exact (pop.append nameless).append push

/-- Loading an object takes no label. -/
theorem nameless_load (ty : Ty) : Nameless (loadLines ty) := by
  unfold loadLines
  split
  · simp [Nameless]
  · exact nameless_top (by simp [Nameless, instrs, Line.isNamed])

/-- Storing an object takes no label. -/
theorem nameless_store (ty : Ty) : Nameless (storeLines ty) := by
  have stored : Nameless (instrs (storeInstrs ty)) := by
    unfold storeInstrs
    split
    · intro line member
      simp only [instrs, copyBytes, List.mem_map, List.mem_flatMap] at member
      obtain ⟨step, ⟨offset, _, copies⟩, rfl⟩ := member
      simp only [List.mem_cons, List.not_mem_nil, or_false] at copies
      rcases copies with rfl | rfl <;> rfl
    · simp [Nameless, instrs, Line.isNamed]
  have lines : storeLines ty = instrs [.pop .rdi, .pop .rax] ++ instrs (storeInstrs ty)
      ++ instrs [.move .rax .rdi, .push .rax] := by
    simp [storeLines, instrs]
  rw [lines]
  refine (Nameless.append ?_ stored).append ?_
  · simp [Nameless, instrs, Line.isNamed]
  · simp [Nameless, instrs, Line.isNamed]

theorem nameless_convert (source target : Ty) :
    Nameless (convertLines source target) := by
  unfold convertLines
  split
  · simp [Nameless]
  · split
    · exact nameless_top (by simp [Nameless, truth, instrs, Line.isNamed])
    · split
      · exact nameless_top (nameless_of_isSimple (isSimple_extend _))
      · simp [Nameless]

theorem nameless_offset (offset : Int) : Nameless (offsetLines offset) := by
  unfold offsetLines
  split
  · simp [Nameless]
  · exact nameless_top (by simp [Nameless, instrs, Line.isNamed])

theorem nameless_pops (regs : List Reg) : Nameless (popLines regs) := by
  intro line member
  simp only [popLines, instrs, List.mem_map] at member
  obtain ⟨_, ⟨_, _, rfl⟩, rfl⟩ := member
  rfl

/-- A call names a function and no label of the source text. -/
theorem nameless_call (depth : Int) (name : String) :
    Nameless (callLines depth name) := by
  unfold callLines
  split <;> simp [Nameless, instrs, Line.isNamed]

/-! ## Lines of nodes -/

end Emit

/-- The line that a goto or a label becomes in the code of a function. -/
def Sign.line (function : String) : Sign -> Asm.Line
  | goto name => .instr (.jump (.named function name))
  | .label name => .label (.named function name)

/-- Different labels and jumps become different lines. -/
theorem Sign.line_injective (function : String) :
    Function.Injective (Sign.line function) := by
  intro first second same
  cases first <;> cases second <;> simp_all [line]

namespace Emit

open Asm Code

namespace Context

/-- The line with a label of the source text that a node gives, at its height. -/
def sign? (context : Context) (start : Int) (spot : Spot) : Option (Int × Line) :=
  (context.program.sign? spot.id).map fun sign =>
    (start + spot.waiting, sign.line context.function)

/-- Words that wait below a node raise its sign. -/
theorem sign?_raise (context : Context) (start : Int) (count : Nat) (spot : Spot) :
    context.sign? start (spot.raise count) = context.sign? (start + count) spot := by
  have height :
      start + ((count + spot.waiting : Nat) : Int) = start + count + spot.waiting := by
    omega
  rw [sign?, sign?, Spot.raise_id, Spot.raise_waiting, height]

end Context

/-- The signs of trees of nodes, given the roots. -/
def Signs (context : Context) (spots : List Spot) (signs : Int -> List (Int × Line)) :
    Prop :=
  ∃ nodes, context.program.Lists spots nodes ∧
    ∀ start, signs start = nodes.filterMap (context.sign? start)

namespace Signs

variable {context : Context} {spots more : List Spot}
    {first second : Int -> List (Int × Line)}

theorem none : Signs context [] fun _ => [] := ⟨[], .nil, fun _ => rfl⟩

/-- The signs of nodes one behind the other. -/
theorem append (left : Signs context spots first) (right : Signs context more second) :
    Signs context (spots ++ more) fun start => first start ++ second start := by
  obtain ⟨nodes, lists, equal⟩ := left
  obtain ⟨others, othersLists, othersEqual⟩ := right
  refine ⟨nodes ++ others, lists.append othersLists, fun start => ?_⟩
  change first start ++ second start = _
  rw [equal, othersEqual, List.filterMap_append]

/-- Below more values all signs are higher. -/
theorem raise (signs : Signs context spots first) (count : Nat) :
    Signs context (spots.map (.raise count)) fun start => first (start + count) := by
  obtain ⟨nodes, lists, equal⟩ := signs
  refine ⟨nodes.map (.raise count), lists.raise count, fun start => ?_⟩
  change first (start + count) = _
  rw [equal, List.filterMap_map]
  congr 1
  funext spot
  rw [Function.comp_apply, Context.sign?_raise]

/-- The signs of a node are its own and those of its children. -/
theorem node
    {id : NodeId}
    {node : Node}
    {kind : NodeKind}
    (found : context.program.node? id = some node)
    (isKind : node.kind = kind)
    (below : Signs context kind.spots first)
    (own : ∀ start, second start =
      (kind.sign?.map fun sign => (start, sign.line context.function)).toList ++
        first start) :
    Signs context [⟨0, id⟩] second := by
  subst isKind
  obtain ⟨nodes, lists, equal⟩ := below
  refine ⟨⟨0, id⟩ :: nodes, .single found ?_, fun start => ?_⟩
  · have level : node.kind.spots.map (Spot.raise 0) = node.kind.spots :=
      List.map_id'' Spot.raise_zero _
    rw [level]
    exact lists
  · rw [own, equal, List.filterMap_cons]
    cases sign : node.kind.sign? <;> simp [Context.sign?, Program.sign?, found, sign]

/-- A node without a sign of its own. -/
theorem inner
    {id : NodeId}
    {node : Node}
    {kind : NodeKind}
    (found : context.program.node? id = some node)
    (isKind : node.kind = kind)
    (silent : kind.sign? = Option.none)
    (below : Signs context kind.spots first) : Signs context [⟨0, id⟩] first :=
  .node found isKind below fun start => by rw [silent]; rfl

/-- Signs may be written in another way. -/
theorem congr (signs : Signs context spots first)
    (same : ∀ start, second start = first start) :
    Signs context spots second := by
  rwa [funext same]

end Signs

/-- The nodes whose code a task asks for. -/
def Task.spots : Task -> List Spot
  | address id | value id | statement id => [⟨0, id⟩]
  | values ids => Spot.stacked ids
  | discard id | optional id => Spot.level id.toList
  | statements ids => Spot.level ids

/-- The signs of generated code are those of the trees it was generated for.  The
induction is over the rules; the heights between the parts come from the stack
discipline. -/
theorem Emits.signs
    {context : Context}
    {task : Task}
    {state after : State}
    {code : Code}
    (emitted : Emits context task state code after) :
    Signs context task.spots code.signs := by
  induction emitted with
  | localAddress found kind | globalAddress found kind =>
      exact .inner found kind rfl .none
  | derefAddress found kind _ hypothesis =>
      exact .inner found kind rfl hypothesis
  | memberAddress found kind _ _ hypothesis =>
      refine .inner found kind rfl (hypothesis.congr fun start => ?_)
      rw [signs_append, (nameless_offset _).signs_eq_nil, List.append_nil]
  | num found _ kind =>
      exact .inner found kind rfl .none
  | object _ _ _ _ hypothesis =>
      refine hypothesis.congr fun start => ?_
      rw [signs_append, (nameless_load _).signs_eq_nil, List.append_nil]
  | deref found _ kind _ hypothesis =>
      refine .inner found kind rfl (hypothesis.congr fun start => ?_)
      rw [signs_append, (nameless_load _).signs_eq_nil, List.append_nil]
  | addr found _ kind _ hypothesis =>
      exact .inner found kind rfl hypothesis
  | assign found _ kind left _ leftSigns rightSigns =>
      refine .inner found kind rfl
        ((leftSigns.append (rightSigns.raise 1)).congr fun start => ?_)
      rw [signs_append, signs_append, (nameless_store _).signs_eq_nil, List.append_nil,
        left.disciplined.piece.height]
      rfl
  | comma found _ kind left _ leftSigns rightSigns =>
      refine .inner found kind rfl ((leftSigns.append rightSigns).congr fun start => ?_)
      simp [Code.signs, instrs, Line.isNamed, Line.rise, left.disciplined.piece.height,
        Task.rise]
  | @stmtExpr _ _ _ body last _ _ _ _ _ _ _ found _ kind ending lastFound lastKind init _
      before value =>
      have final : Signs context [⟨0, last⟩] _ := .inner lastFound lastKind rfl value
      obtain ⟨others, rfl⟩ := List.getLast?_eq_some_iff.mp ending
      rw [List.dropLast_concat] at init before
      have spots : (NodeKind.stmtExpr (others ++ [last])).spots =
          Spot.level others ++ [⟨0, last⟩] := Spot.level_append others [last]
      refine .inner found kind rfl ?_
      rw [spots]
      refine (before.append final).congr fun start => ?_
      rw [signs_append, init.disciplined.piece.height]
      simp [Task.rise]
  | cast found _ kind _ _ hypothesis =>
      refine .inner found kind rfl (hypothesis.congr fun start => ?_)
      rw [signs_append, (nameless_convert _ _).signs_eq_nil, List.append_nil]
  | @unary _ _ ty op _ _ _ _ found _ kind _ hypothesis =>
      refine .inner found kind rfl (hypothesis.congr fun start => ?_)
      have operated := nameless_top (nameless_of_isSimple (isSimple_unaryOperation op ty))
      rw [signs_append, operated.signs_eq_nil, List.append_nil]
  | logAnd found _ kind first second firstSigns secondSigns =>
      refine .inner found kind rfl ((firstSigns.append secondSigns).congr fun start => ?_)
      simp [shortCircuitLines, testLines, define, instrs, Code.signs,
        Line.isNamed, Line.rise, first.disciplined.piece.height, Task.rise]
  | logOr found _ kind first second firstSigns secondSigns =>
      refine .inner found kind rfl ((firstSigns.append secondSigns).congr fun start => ?_)
      simp [shortCircuitLines, testLines, define, instrs, Code.signs,
        Line.isNamed, Line.rise, first.disciplined.piece.height, Task.rise]
  | @binary _ _ ty op _ _ _ _ _ _ _ found _ kind notAnd notOr first _ firstSigns
    secondSigns =>
      refine .inner found kind rfl ?_
      rw [NodeKind.spots_binary notAnd notOr]
      refine (firstSigns.append (secondSigns.raise 1)).congr fun start => ?_
      have combine := nameless_top (nameless_of_isSimple (isSimple_operation op ty))
      simp [combine.signs_eq_nil, Code.signs, instrs, Line.isNamed,
        first.disciplined.piece.height, Task.rise]
  | call found _ kind _ _ _ hypothesis =>
      refine .inner found kind rfl (hypothesis.congr fun start => ?_)
      have push :
          Nameless (instrs [.push .rax]) := by simp [Nameless, instrs, Line.isNamed]
      simp only [signs_append, (nameless_pops _).signs_eq_nil,
        (nameless_call _ _).signs_eq_nil,
          (nameless_of_isSimple (isSimple_narrow _)).signs_eq_nil, push.signs_eq_nil,
            List.append_nil]
  | noValues => exact .none
  | moreValues head _ headSigns tailSigns =>
      refine (headSigns.append (tailSigns.raise 1)).congr fun start => ?_
      rw [signs_append, head.disciplined.piece.height]
      rfl
  | discardNone => exact .none
  | discardSome _ hypothesis =>
      refine hypothesis.congr fun start => ?_
      simp [Code.signs, instrs, Line.isNamed]
  | branch found kind decision taken _ test first second =>
      refine .inner found kind rfl
        ((test.append (first.append second)).congr fun start => ?_)
      simp [branchLines, testLines, define, instrs, Code.signs, Line.isNamed, Line.rise,
        decision.disciplined.piece.height, taken.disciplined.piece.height, Task.rise]
  | @loop _ _ init step body _ _ _ _ _ _ _ found kind start inner _ first round next =>
      have spots : (NodeKind.loop init none step body).spots =
          Spot.level init.toList ++ [⟨0, body⟩] ++ Spot.level step.toList := by
        simp [NodeKind.spots, Spot.level]
      refine .inner found kind rfl ?_
      rw [spots]
      refine ((first.append round).append next).congr fun height => ?_
      simp [loopLines, define, instrs, Code.signs, Line.isNamed, Line.rise,
        start.disciplined.piece.height, inner.disciplined.piece.height, Task.rise]
  | @loopWhile _ _ init cond step body _ _ _ _ _ _ _ _ _ found kind start
    decision inner _ first
      test round next =>
      have spots : (NodeKind.loop init (some cond) step body).spots =
          Spot.level init.toList ++ [⟨0, cond⟩] ++ [⟨0, body⟩] ++
            Spot.level step.toList := by
        simp [NodeKind.spots, Spot.level]
      refine .inner found kind rfl ?_
      rw [spots]
      refine (((first.append test).append round).append next).congr fun height => ?_
      simp [loopLines, leaveLines, testLines, define, instrs, Code.signs,
        Line.isNamed, Line.rise, start.disciplined.piece.height,
          decision.disciplined.piece.height,
        inner.disciplined.piece.height, Task.rise]
  | block found kind _ hypothesis =>
      refine .inner found kind rfl (hypothesis.congr fun start => ?_)
      simp [Code.signs, Line.isNamed, Line.rise]
  | ret found kind _ hypothesis =>
      refine .inner found kind rfl (hypothesis.congr fun start => ?_)
      simp [Code.signs, instrs, Line.isNamed, Line.rise]
  | exprStmt found kind _ hypothesis =>
      refine .inner found kind rfl (hypothesis.congr fun start => ?_)
      simp [Code.signs, Line.isNamed, Line.rise]
  | goto found kind =>
      refine .node found kind .none fun start => ?_
      simp [Code.signs, instrs, Line.isNamed, Line.rise, NodeKind.sign?, Sign.line]
  | label found kind _ hypothesis =>
      refine .node found kind hypothesis fun start => ?_
      simp [Code.signs, Line.isNamed, Line.rise, NodeKind.sign?, Sign.line]
  | optionalNone => exact .none
  | optionalSome _ hypothesis => exact hypothesis
  | noStatements => exact .none
  | moreStatements head _ headSigns tailSigns =>
      refine (headSigns.append tailSigns).congr fun start => ?_
      rw [signs_append, head.disciplined.piece.height]
      simp [Task.rise]

/-! ## The lines of a file -/

section File

variable {program : Program}

/-- The beginning of a function has no label of the source text. -/
theorem nameless_prologue {definition : Program.Definition} {start : Code}
    (given : prologue program definition = .ok start) : Nameless start := by
  obtain ⟨spills, spilled, rfl⟩ := prologue_lines given
  refine Nameless.append ?_ ?_
  · unfold reserve
    split <;> simp [Nameless, visibility, instrs, Line.isNamed]
  · intro line member
    obtain ⟨_, _, _, rfl⟩ := spillFrom_stores spilled line member
    rfl

/-- The end of a function has no label of the source text. -/
theorem nameless_epilogue (name : String) : Nameless (epilogue name) := by
  unfold epilogue
  split <;> simp [Nameless, instrs, Line.isNamed]

/-- Every line with a label of the source text stands in the body of a function. -/
theorem Placement.exists_of_isNamed
    {file : SourceFile}
    {lines above below : Code}
    {line : Line}
    (parsed : parseFile file = .ok program)
    (compiled : compileLines file = .ok lines)
    (divided : lines = above ++ line :: below)
    (named : line.isNamed = true) :
    ∃ place : Placement program lines, ∃ before rest,
      place.body = before ++ line :: rest ∧
      above = place.earlier ++ place.start ++ before := by
  have outside {code : Code} (nameless : Nameless code) : line ∉ code := by
    intro member
    rw [nameless line member] at named
    cases named
  have code : isData line = false := by
    cases line with
    | label place => cases place <;> simp_all [isData, Line.isNamed]
    | directive => cases named
    | instr => rfl
  obtain ⟨place, above, lower, text, same⟩ :=
    Placement.exists_of_line parsed compiled divided code
  refine ⟨place, ?_⟩
  rcases split_append text with ⟨lower, own, _⟩ | ⟨_, _, own⟩
  · rcases split_append own with ⟨_, entry, _⟩ | ⟨before, rfl, body⟩
    · exact absurd (by simp [entry]) (outside (nameless_prologue place.entry))
    · exact ⟨before, lower, body, same.trans (List.append_assoc _ _ _).symm⟩
  · exact absurd (by simp [own]) (outside (nameless_epilogue place.name))

/-- The lines with labels of the source text in the body of a function are those of its
tree, at the heights that the tree gives. -/
theorem Placement.signs
    {lines : Code}
    (place : Placement program lines) :
    ∃ nodes, program.Lists [⟨0, place.definition.body⟩] nodes ∧
      ∀ start, place.body.signs start =
        nodes.filterMap (Context.sign? ⟨program, place.name⟩ start) := by
  obtain ⟨_, _, inner⟩ := place.inner
  exact inner.signs

end File

end Emit
end MiniC
