import Mathlib

/-!
# Trees under some roots

A node is looked at through a relation and has further roots below it. `Spans` lists all nodes of the
trees under a list of roots, so roots that span a list of nodes have finite trees under them. A walk
that keeps a list of the roots still to be visited takes one node off and puts the roots below it in,
in whatever order: the nodes stay the same up to their order.
-/

namespace Unfolding

variable {α β : Type}

/-- The nodes of the trees under some roots. -/
inductive Spans (node : α → β → Prop) (below : β → List α) : List α → List (α × β) → Prop where
  | nil : Spans node below [] []
  | cons {a : α} {b : β} {roots : List α} {under others : List (α × β)} (hnode : node a b)
      (hunder : Spans node below (below b) under) (hothers : Spans node below roots others) :
      Spans node below (a :: roots) ((a, b) :: (under ++ others))

namespace Spans

variable {node : α → β → Prop} {below : β → List α} {roots roots' : List α}
  {nodes nodes' : List (α × β)}

protected theorem append (h : Spans node below roots nodes) (h' : Spans node below roots' nodes') :
    Spans node below (roots ++ roots') (nodes ++ nodes') := by
  induction h with
  | nil => exact h'
  | cons hnode hunder _ _ ih =>
    rw [List.cons_append, List.cons_append, List.append_assoc]
    exact .cons hnode hunder ih

/-- The order of the roots changes only the order of the nodes. -/
theorem perm (hperm : roots.Perm roots') (h : Spans node below roots nodes) :
    ∃ nodes', Spans node below roots' nodes' ∧ nodes'.Perm nodes := by
  induction hperm generalizing nodes with
  | nil => exact ⟨nodes, h, .refl _⟩
  | cons a _ ih =>
    obtain - | ⟨hnode, hunder, hothers⟩ := h
    obtain ⟨others', hothers', hsame⟩ := ih hothers
    exact ⟨_, .cons hnode hunder hothers', (hsame.append_left _).cons _⟩
  | swap a a' _ =>
    obtain - | ⟨hnode, hunder, hothers⟩ := h
    obtain - | ⟨hnode', hunder', hothers'⟩ := hothers
    refine ⟨_, .cons hnode' hunder' (.cons hnode hunder hothers'), ?_⟩
    rw [← List.cons_append, ← List.cons_append, ← List.append_assoc, ← List.cons_append,
      ← List.cons_append, ← List.append_assoc]
    exact List.perm_append_comm.append_right _
  | trans _ _ ih ih' =>
    obtain ⟨nodes₁, h₁, hsame₁⟩ := ih h
    obtain ⟨nodes₂, h₂, hsame₂⟩ := ih' h₁
    exact ⟨nodes₂, h₂, hsame₂.trans hsame₁⟩

/-- Every node is a root or below a node. -/
theorem length_eq (h : Spans node below roots nodes) :
    nodes.length = roots.length + (nodes.map fun n => (below n.2).length).sum := by
  induction h with
  | nil => rfl
  | cons _ _ _ ihunder ihothers =>
    simp only [List.length_cons, List.length_append, List.map_cons, List.map_append, List.sum_cons,
      List.sum_append]
    omega

/-- Totals that are known for each root. -/
theorem sum_roots {total : α → Nat} {weight : α × β → Nat}
    (htotal : ∀ a nodes, Spans node below [a] nodes → total a = (nodes.map weight).sum)
    (h : Spans node below roots nodes) : (roots.map total).sum = (nodes.map weight).sum := by
  induction h with
  | nil => rfl
  | cons hnode hunder _ _ ih =>
    have hroot := htotal _ _ (.cons hnode hunder .nil)
    rw [List.map_cons, List.sum_cons, hroot, ih, List.append_nil, ← List.sum_append, ← List.map_append,
      List.cons_append]

theorem sum_roots_length {total : α → Nat}
    (htotal : ∀ a nodes, Spans node below [a] nodes → total a = nodes.length)
    (h : Spans node below roots nodes) : (roots.map total).sum = nodes.length := by
  have hone (nodes : List (α × β)) : (nodes.map fun _ => 1).sum = nodes.length := by simp
  rw [← hone nodes]
  apply sum_roots _ h
  intro a under hunder
  rw [htotal a under hunder, hone]

/-- Totals that are known from what is below a root. -/
theorem sum_below {total : α → Nat} {weight : α × β → Nat}
    (htotal : ∀ a b, node a b → total a = weight (a, b) + ((below b).map total).sum)
    (h : Spans node below roots nodes) : (roots.map total).sum = (nodes.map weight).sum := by
  induction h with
  | nil => rfl
  | cons hnode _ _ ihunder ihothers =>
    rw [List.map_cons, List.sum_cons, htotal _ _ hnode, ihunder, ihothers, List.map_cons, List.sum_cons,
      List.map_append, List.sum_append, Nat.add_assoc]

end Spans

end Unfolding
