import Mathlib.Data.List.Infix
import MiniC.Scope

/-!
# Lexical scoping

A stack of scopes is looked at through everything that was done to it.  A
declaration is in force as long as the block that it was made in is open, and a
lookup finds the declaration in force that was made last.
-/

namespace MiniC

/-- One operation on the scopes. -/
inductive ScopeStep
  | enter
  | leave
  | declareVariable (name : String) (binding : Binding)
  | declareTag (name : String) (ty : TyId)
  deriving DecidableEq

namespace ScopeStep

/-- What the step lets an ordinary identifier stand for. -/
def binds (name : String) : ScopeStep -> Option Binding
  | .declareVariable declared binding =>
      if name = declared then some binding else none
  | _ => none

/-- The type that the step gives to a tag. -/
def tags (name : String) : ScopeStep -> Option TyId
  | .declareTag declared ty => if name = declared then some ty else none
  | _ => none

/-- Number of open blocks after the step.  At file scope nothing is left. -/
def openBlocks (count : Nat) : ScopeStep -> Nat
  | .enter => count + 1
  | .leave => count - 1
  | _ => count

end ScopeStep

/-- Number of blocks that are open at the end of a history. -/
def openBlocks (history : List ScopeStep) : Nat :=
  history.foldl ScopeStep.openBlocks 0

/-- The declaration made right after the steps `before` still counts at the end
of the history: since then its block was open all the time. -/
structure InForce
    (declares : ScopeStep -> Option α)
    (history before : List ScopeStep)
    (value : α) : Prop where
  made : ∃ step, declares step = some value ∧ before ++ [step] <+: history
  kept :
    ∀ now, before <+: now -> now <+: history ->
      openBlocks before ≤ openBlocks now

/-- The value of the declaration in force that was made last. -/
def Latest
    (declares : ScopeStep -> Option α)
    (history : List ScopeStep)
    (value : α) : Prop :=
  ∃ before, InForce declares history before value ∧
    ∀ other replaced, InForce declares history other replaced ->
      other.length ≤ before.length

namespace Scopes

/-- The scopes after one operation. -/
def step (scopes : Scopes) : ScopeStep -> Scopes
  | .enter => scopes.enter
  | .leave => scopes.leave
  | .declareVariable name binding => scopes.declareVariable name binding
  | .declareTag name ty => scopes.declareTag name ty

/-- The scopes after a history of operations. -/
def after (history : List ScopeStep) : Scopes :=
  history.foldl step initial

@[simp] theorem after_concat
    (history : List ScopeStep)
    (last : ScopeStep) :
    after (history ++ [last]) = (after history).step last := by
  simp [after]

end Scopes

@[simp] theorem openBlocks_concat
    (history : List ScopeStep)
    (last : ScopeStep) :
    openBlocks (history ++ [last]) = last.openBlocks (openBlocks history) := by
  simp [openBlocks]

/-- A change of the innermost frame opens and closes nothing. -/
theorem Scopes.length_blocks_modifyInnermost
    (scopes : Scopes)
    (change : Frame -> Frame) :
    (scopes.modifyInnermost change).blocks.length = scopes.blocks.length := by
  obtain ⟨file, blocks⟩ := scopes
  cases blocks <;> rfl

/-- The scopes hold one frame for each open block. -/
theorem Scopes.length_blocks_after
    (history : List ScopeStep) :
    (Scopes.after history).blocks.length = openBlocks history := by
  induction history using List.reverseRecOn with
  | nil => rfl
  | append_singleton history last inductionHypothesis =>
      rw [Scopes.after_concat, openBlocks_concat, ← inductionHypothesis]
      cases last with
      | enter => rfl
      | leave => exact List.length_tail
      | declareVariable name binding =>
          exact Scopes.length_blocks_modifyInnermost _ _
      | declareTag name ty =>
          exact Scopes.length_blocks_modifyInnermost _ _

namespace InForce

variable
  {declares : ScopeStep -> Option α}
  {history before : List ScopeStep}
  {value : α}

/-- The block of a declaration in force is among the open ones. -/
theorem openBlocks_le
    (inForce : InForce declares history before value) :
    openBlocks before ≤ openBlocks history := by
  have ⟨step, _, made⟩ := inForce.made
  have earlier : before <+: history := (List.prefix_append before [step]).trans made
  exact inForce.kept history earlier (List.prefix_refl history)

/-- Two declarations in force that were made at the same time are the same. -/
theorem value_eq
    {other : List ScopeStep}
    {replaced : α}
    (inForce : InForce declares history before value)
    (another : InForce declares history other replaced)
    (sameTime : before.length = other.length) :
    value = replaced := by
  obtain ⟨step, declared, made⟩ := inForce.made
  obtain ⟨step', declared', made'⟩ := another.made
  have sameSteps : before ++ [step] = other ++ [step'] := by
    apply (List.prefix_of_prefix_length_le made made' _).eq_of_length
    · simp [sameTime]
    · simp [sameTime]
  have sameStep : step = step' := by
    have := (List.append_inj sameSteps sameTime).2
    simpa using this
  subst sameStep
  exact Option.some.inj (declared.symm.trans declared')

/-- One more step: the earlier declarations stay in force as long as their
block is open, and the step may be a declaration itself. -/
theorem concat_iff
    (last : ScopeStep) :
    InForce declares (history ++ [last]) before value ↔
      (InForce declares history before value ∧
          openBlocks before ≤ openBlocks (history ++ [last])) ∨
        (before = history ∧ declares last = some value ∧
          openBlocks history ≤ openBlocks (history ++ [last])) := by
  constructor
  · intro inForce
    have stillOpen := inForce.openBlocks_le
    obtain ⟨step, declared, made⟩ := inForce.made
    rcases List.prefix_concat_iff.mp made with newest | earlier
    · have ⟨sameHistory, sameStep⟩ := List.append_inj' newest rfl
      subst sameHistory
      obtain rfl : step = last := by simpa using sameStep
      exact Or.inr ⟨rfl, declared, stillOpen⟩
    · refine Or.inl ⟨⟨⟨step, declared, earlier⟩, ?_⟩, stillOpen⟩
      intro now since within
      exact inForce.kept now since (within.trans (List.prefix_append history [last]))
  · rintro (⟨inForce, stillOpen⟩ | ⟨rfl, declared, stillOpen⟩)
    · obtain ⟨step, declared, made⟩ := inForce.made
      refine ⟨⟨step, declared, made.trans (List.prefix_append history [last])⟩, ?_⟩
      intro now since earlier
      rcases List.prefix_concat_iff.mp earlier with atEnd | within
      · rw [atEnd]
        exact stillOpen
      · exact inForce.kept now since within
    · refine ⟨⟨last, declared, List.prefix_refl _⟩, ?_⟩
      intro now since earlier
      rcases List.prefix_concat_iff.mp earlier with atEnd | within
      · rw [atEnd]
        exact stillOpen
      · rw [within.eq_of_length_le since.length_le]

end InForce

/-- A kind of names: what a frame holds for one of them, and which steps declare
it. -/
structure NameReading (α : Type) where
  read : Frame -> Option α
  declares : ScopeStep -> Option α
  read_empty : read .empty = none
  declares_enter : declares .enter = none
  declares_leave : declares .leave = none
  read_declareVariable :
    ∀ frame name binding,
      read (frame.declareVariable name binding) =
        (declares (.declareVariable name binding)).or (read frame)
  read_declareTag :
    ∀ frame name ty,
      read (frame.declareTag name ty) =
        (declares (.declareTag name ty)).or (read frame)

namespace NameReading

/-- An ordinary identifier. -/
def ordinary (name : String) : NameReading Binding where
  read frame := frame.vars.lookup name
  declares := ScopeStep.binds name
  read_empty := rfl
  declares_enter := rfl
  declares_leave := rfl
  read_declareVariable frame declared binding := by
    unfold Frame.declareVariable ScopeStep.binds
    by_cases same : name = declared
    · simp [same]
    · have other : (name == declared) = false := beq_false_of_ne same
      simp [List.lookup_cons, same, other]
  read_declareTag _ _ _ := rfl

/-- A tag. -/
def tag (name : String) : NameReading TyId where
  read frame := frame.tags.lookup name
  declares := ScopeStep.tags name
  read_empty := rfl
  declares_enter := rfl
  declares_leave := rfl
  read_declareVariable _ _ _ := rfl
  read_declareTag frame declared ty := by
    unfold Frame.declareTag ScopeStep.tags
    by_cases same : name = declared
    · simp [same]
    · have other : (name == declared) = false := beq_false_of_ne same
      simp [List.lookup_cons, same, other]

variable (reading : NameReading α)

/-- What the name stands for outside all blocks after the first `level`. -/
def find (scopes : Scopes) (level : Nat) : Option α :=
  (scopes.frames.drop (scopes.blocks.length - level)).findSome? reading.read

/-- A change of the innermost frame is seen only from inside its block. -/
theorem find_modifyInnermost
    (scopes : Scopes)
    (change : Frame -> Frame)
    (declared : Option α)
    (changed : ∀ frame, reading.read (change frame) = declared.or (reading.read frame))
    (level : Nat) :
    reading.find (scopes.modifyInnermost change) level =
      if scopes.blocks.length ≤ level then
        declared.or (reading.find scopes level)
      else reading.find scopes level := by
  obtain ⟨file, blocks⟩ := scopes
  cases blocks with
  | nil => simp [find, Scopes.modifyInnermost, Scopes.frames, changed]
  | cons block outer =>
      unfold find Scopes.modifyInnermost Scopes.frames
      by_cases inside : (block :: outer).length ≤ level
      · have nothingLeft : outer.length + 1 - level = 0 := by
          simp only [List.length_cons] at inside
          omega
        rw [if_pos inside]
        simp only [List.length_cons, nothingLeft, List.drop_zero,
          List.cons_append, List.findSome?_cons, changed]
        cases declared <;> rfl
      · have someLeft : outer.length + 1 - level = (outer.length - level) + 1 := by
          simp only [List.length_cons] at inside
          omega
        rw [if_neg inside]
        simp only [List.length_cons, someLeft, List.cons_append,
          List.drop_succ_cons]

/-- What one operation changes for somebody who sees only the blocks that are
still open after it. -/
theorem find_step
    (scopes : Scopes)
    (last : ScopeStep)
    (level : Nat)
    (stillOpen : level ≤ last.openBlocks scopes.blocks.length) :
    reading.find (scopes.step last) level =
      if scopes.blocks.length ≤ level then
        (reading.declares last).or (reading.find scopes level)
      else reading.find scopes level := by
  cases last with
  | enter =>
      rw [reading.declares_enter, Option.none_or, ite_self]
      change level ≤ scopes.blocks.length + 1 at stillOpen
      unfold find Scopes.step Scopes.enter Scopes.frames
      rcases Nat.eq_or_lt_of_le stillOpen with innermost | outside
      · have noneLeft : scopes.blocks.length + 1 - level = 0 := by omega
        have noneLeft' : scopes.blocks.length - level = 0 := by omega
        simp [noneLeft, noneLeft', List.findSome?_cons, reading.read_empty]
      · have oneMore :
            scopes.blocks.length + 1 - level =
              (scopes.blocks.length - level) + 1 := by
          omega
        simp only [List.length_cons, oneMore, List.cons_append,
          List.drop_succ_cons]
  | leave =>
      rw [reading.declares_leave, Option.none_or, ite_self]
      obtain ⟨file, blocks⟩ := scopes
      cases blocks with
      | nil => rfl
      | cons block outer =>
          change level ≤ outer.length + 1 - 1 at stillOpen
          have oneMore :
              outer.length + 1 - level = (outer.length - level) + 1 := by
            omega
          unfold find Scopes.step Scopes.leave Scopes.frames
          simp only [List.tail_cons, List.length_cons, oneMore,
            List.cons_append, List.drop_succ_cons]
  | declareVariable name binding =>
      apply reading.find_modifyInnermost scopes (·.declareVariable name binding)
      exact fun frame => reading.read_declareVariable frame name binding
  | declareTag name ty =>
      apply reading.find_modifyInnermost scopes (·.declareTag name ty)
      exact fun frame => reading.read_declareTag frame name ty

/-- What was found is the declaration in force made last, among those of the
first `level` blocks and the file scope. -/
def Finds
    (history : List ScopeStep)
    (level : Nat) :
    Option α -> Prop
  | none =>
      ∀ before value, InForce reading.declares history before value ->
        level < openBlocks before
  | some value =>
      ∃ before, InForce reading.declares history before value ∧
        openBlocks before ≤ level ∧
        ∀ other replaced, InForce reading.declares history other replaced ->
          openBlocks other ≤ level -> other.length ≤ before.length

/-- Without a new declaration in sight, what was found stays found. -/
theorem Finds.concat
    {history : List ScopeStep}
    {last : ScopeStep}
    {level : Nat}
    {found : Option α}
    (finds : reading.Finds history level found)
    (stillOpen : level ≤ openBlocks (history ++ [last]))
    (unseen : openBlocks history ≤ level -> reading.declares last = none) :
    reading.Finds (history ++ [last]) level found := by
  have earlier :
      ∀ before value,
        InForce reading.declares (history ++ [last]) before value ->
          openBlocks before ≤ level ->
            InForce reading.declares history before value := by
    intro before value inForce seen
    rcases (InForce.concat_iff last).mp inForce with ⟨inForce, _⟩ | newest
    · exact inForce
    · obtain ⟨sameHistory, declared, _⟩ := newest
      subst sameHistory
      rw [unseen seen] at declared
      contradiction
  cases found with
  | none =>
      intro before value inForce
      by_contra seen
      exact seen (finds before value (earlier before value inForce (not_lt.mp seen)))
  | some value =>
      obtain ⟨before, inForce, seen, latest⟩ := finds
      refine ⟨before, ?_, seen, ?_⟩
      · exact (InForce.concat_iff last).mpr (Or.inl ⟨inForce, seen.trans stillOpen⟩)
      · intro other replaced another alsoSeen
        exact latest other replaced (earlier other replaced another alsoSeen) alsoSeen

/-- A declaration in sight is the one that is found from then on. -/
theorem Finds.declared
    {history : List ScopeStep}
    {last : ScopeStep}
    {level : Nat}
    {value : α}
    (stillOpen : level ≤ openBlocks (history ++ [last]))
    (seen : openBlocks history ≤ level)
    (declared : reading.declares last = some value) :
    reading.Finds (history ++ [last]) level (some value) := by
  refine ⟨history, ?_, seen, ?_⟩
  · exact (InForce.concat_iff last).mpr
      (Or.inr ⟨rfl, declared, seen.trans stillOpen⟩)
  · intro other replaced another _
    have ⟨step, _, made⟩ := another.made
    have shorter := made.length_le
    simp only [List.length_append, List.length_singleton] at shorter
    omega

/-- Nothing is found further in than the innermost open block. -/
theorem find_min
    (scopes : Scopes)
    (level : Nat) :
    reading.find scopes (min level scopes.blocks.length) =
      reading.find scopes level := by
  unfold find
  congr 2
  omega

/-- No declaration in force is further in than the innermost open block. -/
theorem Finds.of_min
    {history : List ScopeStep}
    {level : Nat}
    {found : Option α}
    (finds : reading.Finds history (min level (openBlocks history)) found) :
    reading.Finds history level found := by
  cases found with
  | none =>
      intro before value inForce
      have hidden := finds before value inForce
      have shown := inForce.openBlocks_le
      omega
  | some value =>
      obtain ⟨before, inForce, seen, latest⟩ := finds
      refine ⟨before, inForce, seen.trans (min_le_left _ _), ?_⟩
      intro other replaced another alsoSeen
      apply latest other replaced another
      exact le_min alsoSeen another.openBlocks_le

/-- The stack of frames finds the latest declaration in force, whatever the
history. -/
theorem finds_find
    (history : List ScopeStep)
    (level : Nat)
    (opened : level ≤ openBlocks history) :
    reading.Finds history level (reading.find (Scopes.after history) level) := by
  -- Leaving a block uncovers what lies further out, so the induction speaks of
  -- every level and not only of the innermost one.
  induction history using List.reverseRecOn generalizing level with
  | nil =>
      have nothing : reading.find (Scopes.after []) level = none := by
        simp [find, Scopes.after, Scopes.initial, Scopes.frames, reading.read_empty]
      rw [nothing]
      intro before value inForce
      obtain ⟨step, _, made⟩ := inForce.made
      simpa using made.length_le
  | append_singleton history last inductionHypothesis =>
      have stillOpen : level ≤ last.openBlocks (Scopes.after history).blocks.length := by
        rw [Scopes.length_blocks_after, ← openBlocks_concat]
        exact opened
      have before :
          reading.Finds history level
            (reading.find (Scopes.after history) level) := by
        apply Finds.of_min
        rw [← find_min, Scopes.length_blocks_after]
        exact inductionHypothesis _ (min_le_right _ _)
      rw [Scopes.after_concat, reading.find_step _ last level stillOpen,
        Scopes.length_blocks_after]
      by_cases seen : openBlocks history ≤ level
      · rw [if_pos seen]
        cases declared : reading.declares last with
        | none => exact before.concat reading opened fun _ => declared
        | some value => exact Finds.declared reading opened seen declared
      · rw [if_neg seen]
        exact before.concat reading opened fun inside => absurd inside seen

/-- The lookup through all frames. -/
theorem findSome?_iff_latest
    (history : List ScopeStep)
    (value : α) :
    (Scopes.after history).frames.findSome? reading.read = some value ↔
      Latest reading.declares history value := by
  have finds := reading.finds_find history (openBlocks history) le_rfl
  unfold find at finds
  rw [Scopes.length_blocks_after, Nat.sub_self, List.drop_zero] at finds
  constructor
  · intro found
    rw [found] at finds
    obtain ⟨before, inForce, _, latest⟩ := finds
    refine ⟨before, inForce, ?_⟩
    intro other replaced another
    exact latest other replaced another another.openBlocks_le
  · rintro ⟨before, inForce, latest⟩
    cases found : (Scopes.after history).frames.findSome? reading.read with
    | none =>
        rw [found] at finds
        have hidden := finds before value inForce
        exact absurd inForce.openBlocks_le (not_le.mpr hidden)
    | some seen =>
        rw [found] at finds
        obtain ⟨newest, another, _, newestLatest⟩ := finds
        have sameTime : newest.length = before.length := by
          apply le_antisymm
          · exact latest newest seen another
          · exact newestLatest before value inForce inForce.openBlocks_le
        rw [another.value_eq inForce sameTime]

/-- Nothing is found exactly if no declaration is in force. -/
theorem findSome?_eq_none_iff
    (history : List ScopeStep) :
    (Scopes.after history).frames.findSome? reading.read = none ↔
      ∀ before value, ¬ InForce reading.declares history before value := by
  have finds := reading.finds_find history (openBlocks history) le_rfl
  unfold find at finds
  rw [Scopes.length_blocks_after, Nat.sub_self, List.drop_zero] at finds
  constructor
  · intro found before value inForce
    rw [found] at finds
    exact absurd inForce.openBlocks_le (not_le.mpr (finds before value inForce))
  · intro noneInForce
    cases found : (Scopes.after history).frames.findSome? reading.read with
    | none => rfl
    | some value =>
        rw [found] at finds
        obtain ⟨before, inForce, _⟩ := finds
        exact absurd inForce (noneInForce before value)

end NameReading

/-- A name is a typedef name if the binding that is found for it is one; a
typedef further out does not count. -/
theorem Scopes.typedef?_eq_some_iff
    (scopes : Scopes)
    (name : String)
    (ty : TyId) :
    scopes.typedef? name = some ty ↔
      scopes.lookupVariable? name = some (.typedef ty) := by
  unfold Scopes.typedef?
  split <;> simp_all

/-- After any history of operations, unmatched `leave`s included, a lookup gives
the latest declaration of the name whose block is still open, and nothing if
there is none.  Ordinary identifiers and tags do not see each other, and only
the binding that is found decides whether an identifier is a typedef name. -/
theorem Scopes.lookups_of_history
    (history : List ScopeStep)
    (name : String) :
    (∀ binding,
        (Scopes.after history).lookupVariable? name = some binding ↔
          Latest (ScopeStep.binds name) history binding) ∧
      ((Scopes.after history).lookupVariable? name = none ↔
        ∀ before binding,
          ¬ InForce (ScopeStep.binds name) history before binding) ∧
      (∀ ty,
        (Scopes.after history).lookupTag? name = some ty ↔
          Latest (ScopeStep.tags name) history ty) ∧
      ((Scopes.after history).lookupTag? name = none ↔
        ∀ before ty, ¬ InForce (ScopeStep.tags name) history before ty) ∧
      ∀ ty,
        (Scopes.after history).typedef? name = some ty ↔
          Latest (ScopeStep.binds name) history (.typedef ty) := by
  have ordinary :
      ∀ binding,
        (Scopes.after history).lookupVariable? name = some binding ↔
          Latest (ScopeStep.binds name) history binding :=
    (NameReading.ordinary name).findSome?_iff_latest history
  refine ⟨ordinary, ?_, ?_, ?_, ?_⟩
  · exact (NameReading.ordinary name).findSome?_eq_none_iff history
  · exact (NameReading.tag name).findSome?_iff_latest history
  · exact (NameReading.tag name).findSome?_eq_none_iff history
  · intro ty
    rw [Scopes.typedef?_eq_some_iff]
    exact ordinary (.typedef ty)

/-- An object in a block hides the typedef at file scope until the block ends. -/
example :
    let history := [
      .declareVariable "name" (.typedef ⟨3⟩),
      .enter,
      .declareVariable "name" (.object ⟨0⟩)]
    (Scopes.after history).typedef? "name" = none ∧
      (Scopes.after (history ++ [.leave])).typedef? "name" = some ⟨3⟩ := by
  decide

end MiniC
