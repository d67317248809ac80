import MiniC.Proofs.Compile
import MiniC.Proofs.Grammar.Halting.Productions

/-!
# Parsing terminates

The measure of a production is the number of tokens ahead of it.  A production calls
others again only where that number is smaller, and a loop goes on only where it is
smaller than a round before, but for the first round of a list.  So as many layers of
productions as there are tokens ahead are enough, whatever the tokens are: what lies under
them is never looked at, and no loop reaches its bound.

A parenthesised declarator is read, left behind, and read again.  It counts as one
production that ends behind the suffix of the parentheses.
-/

namespace MiniC
namespace Grammar

/-- The productions of the grammar, as they are built over those that they may call again,
and the steps of the cursor that they take. -/
inductive Production : {α : Type} -> (Productions -> Parser α) -> Prop
  | accept (symbol : String) :
    Production fun _ => do if ← accept symbol then return else return
  | expect (symbol : String) : Production fun _ => expect symbol
  | advance : Production fun _ => advance
  | identifier : Production fun _ => identifier
  | identifier? : Production fun _ => identifier?
  | number : Production fun _ => number
  | pointers (base : TyId) : Production fun _ => pointers base
  | parameter : Production parameter
  | parameters (result : TyId) : Production (parameters · result)
  | arraySuffix (ty : TyId) : Production (arraySuffix · ty)
  | suffix (ty : TyId) : Production (suffix · ty)
  | nestedDeclarator (ty : TyId) : Production (nestedDeclarator · ty)
  | declarator (base : TyId) : Production (declarator · base)
  | fieldList : Production fieldList
  | aggregateBody (form : Form) (tag : Option (String × Nat)) :
      Production (aggregateBody · form tag)
  | aggregate (form : Form) : Production (aggregate · form)
  | enumConstant (ty : TyId) (next : Option Int) : Production fun _ =>
    enumConstant ty next
  | enumConstants (ty : TyId) : Production fun _ => enumConstants ty
  | enumBody (tag : Option (String × Nat)) : Production fun _ => enumBody tag
  | enumeration : Production fun _ => enumeration
  | specifiers (allowed : Bool) : Production (specifiers · allowed)
  | typeName : Production typeName
  | argument (param : Option Param) : Production (argument · param)
  | arguments (params : List Param) : Production (arguments · params)
  | call : Production call
  | variableReference : Production fun _ => variableReference
  | statementExpression : Production statementExpression
  | sizeofOperand (tok : Nat) : Production (sizeofOperand · tok)
  | sizeof (tok : Nat) : Production (sizeof · tok)
  | atom : Production atom
  | primary : Production primary
  | memberAccess (base : NodeId) : Production fun _ => memberAccess base
  | trailer : Production trailer
  | unary : Production unary
  | cast : Production cast
  | product : Production product
  | sum : Production sum
  | relational : Production relational
  | equality : Production equality
  | logAnd : Production logAnd
  | logOr : Production logOr
  | assign : Production assign
  | expr : Production expr
  | initialiser (symbol : SymbolId) (tok : Nat) : Production (initialiser · symbol tok)
  | declareLocal (body : List NodeId) (declared : Declarator) (tok : Nat) :
      Production (declareLocal · body declared tok)
  | declaration (base : TyId) : Production (declaration · base)
  | typedefNames (base : TyId) : Production (typedefNames · base)
  | exprStmt : Production exprStmt
  | returnStmt (tok : Nat) : Production (returnStmt · tok)
  | condition (tok : Nat) : Production (condition · tok)
  | ifStmt (tok : Nat) : Production (ifStmt · tok)
  | forInit : Production forInit
  | forCond (tok : Nat) : Production (forCond · tok)
  | forStep : Production forStep
  | forStmt (tok : Nat) : Production (forStmt · tok)
  | whileStmt (tok : Nat) : Production (whileStmt · tok)
  | gotoStmt (tok : Nat) : Production fun _ => gotoStmt tok
  | labelStmt (tok : Nat) : Production (labelStmt · tok)
  | stmt : Production stmt
  | blockDeclaration : Production blockDeclaration
  | blockItem : Production blockItem
  | block : Production block
  | functionBody (params : List Param) : Production (functionBody · params)
  | functionDefinition (id : SymbolId) (result : TyId) (params : List Param) (tok : Nat) :
      Production (functionDefinition · id result params tok)
  | function (declared : Declarator) (storage : Storage) :
      Production (function · declared storage)
  | globalVariables (base : TyId) (first : Declarator) (storage : Storage) :
      Production (globalVariables · base first storage)
  | fileDeclaration : Production fileDeclaration
  | unit : Production unit

variable {tokens : TokenStream} {low : Nat} {α : Type} {again beside : Productions}
  {production : Productions -> Parser α}

/-- Built over productions that agree, every production halts alike. -/
theorem Production.halts (listed : Production production)
    (here : again.Agree tokens low beside) :
    Halts tokens low stays (production again) (production beside) := by
  cases listed with
  | accept symbol => exact .accept (.pure rfl) (.pure rfl)
  | expect symbol => exact Halts.expect.loose
  | advance => exact .advance
  | identifier => exact Halts.identifier.loose
  | identifier? => exact .identifier?
  | number => exact Halts.number.loose
  | pointers base => exact .pointers base
  | parameter => exact .parameter here
  | parameters result => exact .parameters here result
  | arraySuffix ty => exact .arraySuffix here ty
  | suffix ty => exact .suffix here.succ ty
  | nestedDeclarator ty => exact .nestedDeclarator here ty
  | declarator base => exact .declarator here.succ base
  | fieldList => exact .fieldList here
  | aggregateBody form tag => exact .aggregateBody here form tag
  | aggregate form => exact .aggregate here form
  | enumConstant ty next => exact (Halts.enumConstant ty next).loose
  | enumConstants ty => exact .enumConstants ty
  | enumBody tag => exact .enumBody tag
  | enumeration => exact .enumeration
  | specifiers allowed => exact .specifiers here.succ allowed
  | typeName => exact .typeName here.succ
  | argument param => exact .argument here param
  | arguments params => exact .arguments here params
  | call => exact .call here.succ
  | variableReference => exact .variableReference
  | statementExpression => exact .statementExpression here
  | sizeofOperand tok => exact .sizeofOperand here tok
  | sizeof tok => exact .sizeof here tok
  | atom => exact .atom here.succ
  | primary => exact .primary here.succ
  | memberAccess base => exact .memberAccess base
  | trailer => exact .trailer here.succ
  | unary => exact .unary here.succ
  | cast => exact .cast here.succ
  | product => exact .product here.succ
  | sum => exact .sum here.succ
  | relational => exact .relational here.succ
  | equality => exact .equality here.succ
  | logAnd => exact .logAnd here.succ
  | logOr => exact .logOr here.succ
  | assign => exact .assign here.succ
  | expr => exact .expr here.succ
  | initialiser symbol tok => exact .initialiser here.succ symbol tok
  | declareLocal body declared tok => exact .declareLocal here.succ body declared tok
  | declaration base => exact (Halts.declaration here.succ base).loose
  | typedefNames base => exact (Halts.typedefNames here.succ base).loose
  | exprStmt => exact (Halts.exprStmt here.succ).loose
  | returnStmt tok => exact .returnStmt here tok
  | condition tok => exact .condition here.succ tok
  | ifStmt tok => exact .ifStmt here tok
  | forInit => exact .forInit here.succ
  | forCond tok => exact .forCond here tok
  | forStep => exact .forStep here
  | forStmt tok => exact .forStmt here tok
  | whileStmt tok => exact .whileStmt here tok
  | gotoStmt tok => exact .gotoStmt tok
  | labelStmt tok => exact (Halts.labelStmt here.succ tok).loose
  | stmt => exact (Halts.stmt here.succ).loose
  | blockDeclaration => exact (Halts.blockDeclaration here.succ).loose
  | blockItem => exact (Halts.blockItem here.succ).loose
  | block => exact .block here.succ
  | functionBody params => exact (Halts.functionBody here.succ params).loose
  | functionDefinition id result params tok =>
      exact (Halts.functionDefinition here.succ id result params tok).loose
  | function declared storage => exact (Halts.function here.succ declared storage).loose
  | globalVariables base first storage =>
      exact (Halts.globalVariables here.succ base first storage).loose
  | fileDeclaration => exact (Halts.fileDeclaration here.succ).loose
  | unit => exact .unit here.succ

end Grammar

open Grammar

/-- Parsing terminates on the tokens of every file.  It gives a program or rejects the
file at a token, and no recursion is deeper than the number of tokens: under that many
layers any productions may lie.  The same holds of every production from every token on,
with a layer for each token ahead.  It does not end because a loop or a recursion has no
end, its cursor does not pass the last token, and if it succeeds, the cursor is not before
where it began. -/
theorem parsing_terminates {file : SourceFile} {tokens : TokenStream}
    (cut : tokenize file = .ok tokens) :
    ((∃ program, parse tokens = .ok program) ∨
      ∃ error, parse tokens = .error error ∧ RejectsAt tokens error) ∧
    (∀ innermost : Productions,
      unit (innermost.under (tokens.last + 1)) (.initial tokens) =
        unit (productions (tokens.last + 1)) (.initial tokens)) ∧
    ∀ {α : Type} {production : Productions -> Parser α}, Production production ->
      ∀ (depth : Nat) (state : State), state.tokens = tokens -> state.pos ≤ tokens.last ->
        tokens.last < state.pos + depth ->
          (∀ innermost : Productions,
            production (innermost.under depth) state =
              production (productions depth) state) ∧
          match production (productions depth) state with
          | .ok _ after => state.pos ≤ after.pos ∧ after.pos ≤ tokens.last
          | .error error after => error ≠ .fault .endless ∧ after.pos ≤ tokens.last := by
  obtain ⟨_, same, sound, -⟩ | ⟨_, _, failed, -⟩ := tokenize_cases file
  rotate_left
  · rw [cut] at failed
    cases failed
  rw [cut] at same
  cases same
  have alike {α : Type} {production : Productions -> Parser α}
      (listed : Production production)
      {depth : Nat} {state : State} (own : state.tokens = tokens)
      (cursor : state.pos ≤ tokens.last) (enough : tokens.last < state.pos + depth)
      (innermost : Productions) :
      HaltsAt tokens state stays (production (productions depth))
        (production (innermost.under depth)) := by
    have agree := Productions.Agree.under .exhausted innermost enough
    rw [← Productions.productions_eq_under] at agree
    exact listed.halts agree state ⟨sound.ended, own, cursor⟩ (Nat.le_refl _)
  refine ⟨?_, ?_, ?_⟩
  · rcases parse_cases sound with ⟨program, parsed, -⟩ | ⟨error, failed, rejects⟩
    · exact .inl ⟨program, parsed⟩
    · exact .inr ⟨error, failed, rejects⟩
  · intro innermost
    have enough : tokens.last < (State.initial tokens).pos + (tokens.last + 1) := by
      change tokens.last < 0 + (tokens.last + 1)
      omega
    exact (alike .unit rfl (Nat.zero_le _) enough innermost).agrees
  · intro α production listed depth state own cursor enough
    have halts := alike listed own cursor enough
    refine ⟨fun innermost => (halts innermost).agrees, ?_⟩
    cases run : production (productions depth) state with
    | ok value after =>
        obtain ⟨inside, forward⟩ := (halts .exhausted).result value after run
        exact ⟨forward, inside.cursor⟩
    | error error after =>
        obtain ⟨inside, ends⟩ := (halts .exhausted).failure error after run
        exact ⟨ends, inside.cursor⟩

/-- A file with a declaration without specifiers, a declarator in parentheses in
parentheses, an empty parameter, and an end where none is allowed. -/
def brokenFile : SourceFile := ⟨"t.c", "x; int (*(p)[2])(,"⟩

/-- The declarator of that file is read at the fourth token with one layer for each token
ahead, and the file is rejected. -/
theorem brokenFile_terminates :
    ∃ tokens, tokenize brokenFile = .ok tokens ∧ (parse tokens).isOk = false ∧
      (∃ error, parse tokens = .error error ∧ RejectsAt tokens error) ∧
      ∀ innermost : Productions,
        declarator (innermost.under (tokens.last - 2)) .int
            { State.initial tokens with pos := 3 } =
          declarator (productions (tokens.last - 2)) .int
            { State.initial tokens with pos := 3 } := by
  have facts : (tokenize brokenFile).isOk = true ∧
      (tokenize brokenFile).toOption.map
        (fun tokens => (tokens.last, (parse tokens).isOk)) =
        some (14, false) := by decide +kernel
  have cut : tokenize brokenFile = .ok _ :=
    @eq_ok_of_isOk _ _ _ (⟨#[], ⟨.eof, "", 0, 0⟩⟩ : TokenStream) facts.1
  have numbers := facts.2
  rw [cut] at numbers
  obtain ⟨last, rejected⟩ := Prod.mk.inj (Option.some.inj numbers)
  obtain ⟨ends, -, productions⟩ := parsing_terminates cut
  refine ⟨_, cut, rejected, ?_, ?_⟩
  · rcases ends with ⟨program, parsed⟩ | error
    · rw [parsed] at rejected
      cases rejected
    · exact error
  · refine (productions (.declarator .int) _ _ rfl ?_ ?_).1
    · change 3 ≤ TokenStream.last _
      rw [last]
      decide
    · change TokenStream.last _ < 3 + (TokenStream.last _ - 2)
      rw [last]
      decide

end MiniC
