import PhpTaint.Proofs.Annotation.Dictionary
import PhpTaint.Proofs.Syntax.Named

/-!
# Reading what binds nothing

A tree without constructs that bind or declare leaves the dictionaries as they
are, and all that is read of it is stamped with the current one.
-/

namespace PhpTaint.Annotation.Dictionary

open Scopes Syntax

/-- Whether a tree binds no variable and declares nothing. -/
def isInert (node : Node) : Bool :=
  node.preorder.all fun part =>
    match part.construct with
    | .plain | .call => true
    | _ => false

/-- A reading adds stamps only. They are of nodes of one kind, carry one
dictionary, and are there for all nodes of another kind. -/
structure Stamped (store : Store) (inside reached : Node -> Prop) (before after : State) :
    Prop where
  stack : after.stack = before.stack
  stamps : ∃ added, after.stamps = added ++ before.stamps ∧
    (forall entry, entry ∈ added -> inside entry.1 ∧ entry.2 = store) ∧
    forall node, reached node -> ∃ entry, entry ∈ added ∧ entry.1 = node

namespace Stamped

variable {store : Store} {inside within reached found : Node -> Prop} {before middle after : State}

/-- Inert code leaves the dictionary on top as it is. -/
theorem top_eq (stamped : Stamped store inside reached before after) : after.top = before.top := by
  rw [State.top, stamped.stack, State.top]

theorem refl (state : State) : Stamped store inside (fun _ => False) state state := by
  refine ⟨rfl, [], rfl, ?_, nofun⟩
  intro entry member
  cases member

/-- A stamp records the dictionary on top. -/
theorem stampHere (state : State) (node : Node) :
    Stamped state.top (· = node) (· = node) state (state.stampHere node) := by
  refine ⟨rfl, [(node, state.top)], rfl, ?_, ?_⟩
  · intro entry member
    cases List.mem_singleton.1 member
    exact ⟨rfl, rfl⟩
  · rintro _ rfl
    exact ⟨_, List.mem_singleton_self _, rfl⟩

/-- More may be taken for the inside and for what is reached. -/
theorem mono (stamped : Stamped store inside reached before after)
    (inner : forall node, inside node -> within node)
    (all : forall node, found node -> reached node) : Stamped store within found before after := by
  obtain ⟨stack, added, stamps, entries, complete⟩ := stamped
  refine ⟨stack, added, stamps, ?_, fun node isFound => complete node (all node isFound)⟩
  intro entry member
  exact ⟨inner _ (entries entry member).1, (entries entry member).2⟩

/-- What is stamped in two stretches is stamped in both together. -/
theorem trans (first : Stamped store inside reached before middle)
    (second : Stamped store inside found middle after) :
    Stamped store inside (fun node => reached node ∨ found node) before after := by
  obtain ⟨firstStack, firstAdded, firstStamps, firstEntries, firstComplete⟩ := first
  obtain ⟨secondStack, secondAdded, secondStamps, secondEntries, secondComplete⟩ := second
  refine ⟨secondStack.trans firstStack, secondAdded ++ firstAdded, ?_, ?_, ?_⟩
  · rw [secondStamps, firstStamps, List.append_assoc]
  · intro entry member
    rcases List.mem_append.1 member with later | earlier
    · exact secondEntries entry later
    · exact firstEntries entry earlier
  · rintro node (isReached | isFound)
    · obtain ⟨entry, member, same⟩ := firstComplete node isReached
      exact ⟨entry, List.mem_append_right _ member, same⟩
    · obtain ⟨entry, member, same⟩ := secondComplete node isFound
      exact ⟨entry, List.mem_append_left _ member, same⟩

/-- Reading one part after the other. -/
theorem foldl {read : Reading} {parts : List Node} (state : State)
    (each : forall part, part ∈ parts -> forall state,
      Stamped state.top (· ∈ part.preorder) (·.Beneath part) state (read part state)) :
    Stamped state.top (fun node => ∃ part ∈ parts, node ∈ part.preorder)
      (fun node => ∃ part ∈ parts, node.Beneath part) state
      (parts.foldl (fun current part => read part current) state) := by
  induction parts generalizing state with
  | nil =>
      refine (refl state).mono (fun _ inside => inside) ?_
      rintro node ⟨part, member, _⟩
      cases member
  | cons part rest inductionHypothesis =>
      have first := each part (List.mem_cons_self ..) state
      have others := inductionHypothesis (read part state)
        fun other member => each other (List.mem_cons_of_mem _ member)
      rw [first.top_eq] at others
      refine Stamped.mono (Stamped.trans (first.mono ?_ fun _ reached => reached)
        (others.mono ?_ fun _ reached => reached)) (fun _ inside => inside) ?_
      · intro node below
        exact ⟨part, List.mem_cons_self .., below⟩
      · rintro node ⟨other, member, below⟩
        exact ⟨other, List.mem_cons_of_mem _ member, below⟩
      · rintro node ⟨other, member, beneath⟩
        rcases List.mem_cons.1 member with rfl | later
        · exact Or.inl beneath
        · exact Or.inr ⟨other, later, beneath⟩

end Stamped

/-- The parts of inert code are inert. -/
theorem isInert_of_mem_preorder {part node : Node} (inert : isInert node = true)
    (below : part ∈ node.preorder) : isInert part = true :=
  List.all_eq_true.2 fun _ inside =>
    List.all_eq_true.1 inert _ (Node.mem_preorder_trans inside below)

/-- A node that is read by its children alone. -/
theorem readNode_of_isInert {owner : ScopeId} {read : Reading} {node : Node}
    (inert : isInert node = true) (state : State) :
    readNode owner read node state = readPlain read node state := by
  have self := List.all_eq_true.1 inert node node.self_mem_preorder
  unfold readNode
  split at self
  · rename_i construct
    rw [construct]
  · rename_i construct
    rw [construct]
  · cases self

/-- Reading an inert tree stamps it with the current dictionary. -/
theorem read_inert (owner : ScopeId) {height : Nat} {node : Node} (inert : isInert node = true)
    (bound : node.tree.height <= height) (state : State) :
    Stamped state.top (· ∈ node.preorder) (·.Beneath node) state (read owner height node state) := by
  induction height generalizing node state with
  | zero =>
      have positive := node.tree.height_pos
      omega
  | succ height inductionHypothesis =>
      have each : forall part, part ∈ node.namedChildren -> forall current,
          Stamped current.top (· ∈ part.preorder) (·.Beneath part) current
            (read owner height part current) := by
        intro part member current
        have inside := Node.mem_children_of_mem_namedChildren member
        have lower := Node.height_lt_of_mem_children inside
        exact inductionHypothesis (isInert_of_mem_preorder inert
          (Node.mem_preorder_of_mem_children node.self_mem_preorder inside)) (by omega) current
      have children := Stamped.foldl (state.stampHere node) each
      rw [read, readNode_of_isInert inert]
      refine Stamped.mono (Stamped.trans ((Stamped.stampHere state node).mono ?_ fun _ same => same)
        (children.mono ?_ fun _ reached => reached)) (fun _ inside => inside) ?_
      · rintro _ rfl
        exact Node.self_mem_preorder _
      · rintro inner ⟨part, member, below⟩
        exact Node.mem_preorder_trans below (Node.mem_preorder_of_mem_children
          node.self_mem_preorder (Node.mem_children_of_mem_namedChildren member))
      · intro inner beneath
        exact beneath.cases_child

end PhpTaint.Annotation.Dictionary
