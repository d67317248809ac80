import MiniC.Proofs.Grammar.Moves

/-!
# Labels and jumps in the trees that are built

A label or a jump is noted for the function when its statement is read, and later code
generation finds it in the tree of the body.  `Accounts` says that what a production has
noted is what the trees of the nodes it gives bear.  Only `sizeof` drops a tree, so it
takes a `sizeof` for something noted to be in no tree.
-/

namespace MiniC
namespace Grammar

variable {tokens : TokenStream} {base : Nat} {before middle after : State}

/-- Signs that are all among others, each as often.  They are all of the others unless a
`sizeof` has dropped some. -/
def Covers (tokens : TokenStream) (found noted : List Sign) : Prop :=
  found.Subperm noted ∧ (tokens.Unsized -> found.Perm noted)

namespace Covers

variable {first second third : List Sign}

theorem of_perm (order : first.Perm second) : Covers tokens first second :=
  ⟨order.subperm, fun _ => order⟩

theorem trans (left : Covers tokens first second) (right : Covers tokens second third) :
    Covers tokens first third :=
  ⟨left.1.trans right.1, fun unsized => (left.2 unsized).trans (right.2 unsized)⟩

theorem append_left (covers : Covers tokens first second) (more : List Sign) :
    Covers tokens (more ++ first) (more ++ second) :=
  ⟨(List.subperm_append_left more).mpr covers.1,
    fun unsized => (covers.2 unsized).append_left more⟩

end Covers

/-- The trees of nodes bear the labels and jumps noted since a state. -/
def Accounts (tokens : TokenStream) (before after : State) (ids : List NodeId) : Prop :=
  ∃ signs, after.program.Bears ids signs ∧
    Covers tokens (signs ++ before.signs) after.signs

namespace Accounts

variable {ids more : List NodeId}

/-- A run that notes nothing needs no trees. -/
theorem none (same : after.signs = before.signs) : Accounts tokens before after [] :=
  ⟨[], .nil, .of_perm (by rw [same]; exact .refl _)⟩

/-- One production behind another. -/
theorem append
    (first : Accounts tokens before middle ids)
    (second : Accounts tokens middle after more)
    (extended : middle.program.Extends after.program) :
    Accounts tokens before after (ids ++ more) := by
  obtain ⟨signs, bears, covers⟩ := first
  obtain ⟨others, moreBears, moreCovers⟩ := second
  refine ⟨signs ++ others, (bears.extend extended).append moreBears, ?_⟩
  have order :
      (signs ++ others ++ before.signs).Perm (others ++ (signs ++ before.signs)) := by
    rw [← List.append_assoc]
    exact List.perm_append_comm.append_right _
  exact ((Covers.of_perm order).trans (covers.append_left others)).trans moreCovers

/-- Nodes may be built from nodes as long as their trees bear the same. -/
theorem build
    (accounts : Accounts tokens before middle ids)
    (bears : ∀ signs, middle.program.Bears ids signs -> after.program.Bears more signs)
    (same : after.signs = middle.signs) :
    Accounts tokens before after more := by
  obtain ⟨signs, own, covers⟩ := accounts
  exact ⟨signs, bears signs own, by rw [same]; exact covers⟩

/-- A run behind a production that notes nothing. -/
theorem onward (accounts : Accounts tokens before middle ids)
    (ran : Ran tokens base middle after) : Accounts tokens before after ids :=
  accounts.build (fun _ bears => bears.extend ran.extended) ran.signs

/-- A production behind a run that notes nothing. -/
theorem behind (accounts : Accounts tokens middle after ids)
    (ran : Ran tokens base before middle) : Accounts tokens before after ids := by
  obtain ⟨signs, bears, covers⟩ := accounts
  exact ⟨signs, bears, by rw [← ran.signs]; exact covers⟩

/-- A label or jump noted before a production goes to the node built from what it
gives. -/
theorem note
    {last : State}
    {sign : Sign}
    (noted : middle.signs.Perm (sign :: before.signs))
    (accounts : Accounts tokens middle after ids)
    (bears : ∀ signs, after.program.Bears ids signs ->
      last.program.Bears more (sign :: signs))
    (same : last.signs = after.signs) :
    Accounts tokens before last more := by
  obtain ⟨signs, own, covers⟩ := accounts
  refine ⟨sign :: signs, bears signs own, ?_⟩
  rw [same]
  have order : (sign :: signs ++ before.signs).Perm (signs ++ middle.signs) :=
    List.perm_middle.symm.trans (noted.symm.append_left signs)
  exact (Covers.of_perm order).trans covers

/-- Behind a `sizeof` trees may be dropped. -/
theorem drop (accounts : Accounts tokens before after ids) (sized : ¬ tokens.Unsized) :
    Accounts tokens before after [] := by
  obtain ⟨signs, _, covers, _⟩ := accounts
  refine ⟨[], .nil, ?_, fun unsized => absurd unsized sized⟩
  exact (List.sublist_append_right signs before.signs).subperm.trans covers

end Accounts

end Grammar
end MiniC
