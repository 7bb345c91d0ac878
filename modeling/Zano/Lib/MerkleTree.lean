import Mathlib

/-! # Merkle trees of any number of leaves

With the largest power of two below the number of leaves, so many leaves stay as they are that
joining the others in pairs leaves a power of two of nodes, which are then joined pairwise, level by
level. The shape of the tree does not depend on what is at its leaves, and the root can be joined on
the way as well.
-/

namespace MerkleTree

variable {α β : Type*}

inductive HashTree (α : Type*) where
  | leaf (a : α)
  | node (left right : HashTree α)

def HashTree.root (join : α → α → α) : HashTree α → α
  | .leaf a => a
  | .node left right => join (left.root join) (right.root join)

def pairs (join : α → α → α) : List α → List α
  | [] => []
  | [a] => [a]
  | a :: b :: rest => join a b :: pairs join rest

theorem length_pairs (join : α → α → α) (nodes : List α) :
    (pairs join nodes).length = (nodes.length + 1) / 2 := by
  induction nodes using pairs.induct with
  | case1 => simp [pairs]
  | case2 a => simp [pairs]
  | case3 a b rest inductionHypothesis =>
      simp only [pairs, List.length_cons, inductionHypothesis]
      omega

/-- Level by level, up to a single node. -/
def top (join : α → α → α) : List α → Option α
  | [] => none
  | [a] => some a
  | a :: b :: rest => top join (join a b :: pairs join rest)
termination_by nodes => nodes.length
decreasing_by
  simp only [List.length_cons, length_pairs]
  omega

theorem top_pairs (join : α → α → α) (nodes : List α) :
    top join (pairs join nodes) = top join nodes := by
  match nodes with
  | [] => rfl
  | [a] => rfl
  | a :: b :: rest => rw [pairs, top]

theorem exists_top (join : α → α → α) {nodes : List α} (some_ : nodes ≠ []) :
    ∃ a, top join nodes = some a := by
  induction nodes using top.induct join with
  | case1 => exact absurd rfl some_
  | case2 a => exact ⟨a, by rw [top]⟩
  | case3 a b rest inductionHypothesis =>
      rw [top]
      exact inductionHypothesis (by simp)

/-- The number of nodes that is reached first, a power of two. -/
def width (count : ℕ) : ℕ := 2 ^ Nat.log2 (count - 1)

def firstLevel (join : α → α → α) (leaves : List α) : List α :=
  let kept := 2 * width leaves.length - leaves.length
  leaves.take kept ++ pairs join (leaves.drop kept)

def tree (leaves : List α) : Option (HashTree α) := top .node (firstLevel .node (leaves.map .leaf))

/-- The width is the largest power of two below the number of leaves. -/
theorem width_greatest {count : ℕ} (several : 1 < count) :
    IsGreatest {c | (∃ k, c = 2 ^ k) ∧ c < count} (width count) := by
  have notZero : count - 1 ≠ 0 := by omega
  refine ⟨⟨⟨_, rfl⟩, ?_⟩, ?_⟩
  · have below := Nat.log2_self_le notZero
    rw [width]
    omega
  · rintro c ⟨⟨k, rfl⟩, less⟩
    exact Nat.pow_le_pow_right (by omega) ((Nat.le_log2 notZero).mpr (by omega))

theorem lt_two_mul_width {count : ℕ} (several : 1 < count) : count ≤ 2 * width count := by
  have above := Nat.lt_log2_self (n := count - 1)
  rw [width, ← Nat.pow_succ']
  omega

theorem length_firstLevel (join : α → α → α) {leaves : List α} (several : 1 < leaves.length) :
    (firstLevel join leaves).length = width leaves.length := by
  have less := (width_greatest several).1.2
  have atMost := lt_two_mul_width several
  simp only [firstLevel, List.length_append, List.length_take, length_pairs, List.length_drop]
  omega

theorem firstLevel_singleton (join : α → α → α) (a : α) : firstLevel join [a] = [a] := by
  simp [firstLevel, width, pairs]

theorem exists_tree {leaves : List α} (some_ : leaves ≠ []) : ∃ t, tree leaves = some t := by
  apply exists_top
  rw [← List.length_pos_iff]
  obtain _ | ⟨a, _ | ⟨b, rest⟩⟩ := leaves
  · exact absurd rfl some_
  · simp [firstLevel_singleton]
  · rw [length_firstLevel _ (by simp), width]
    exact Nat.two_pow_pos _

/-! ## Joining on the way -/

section

variable {joinTrees : β → β → β} {join : α → α → α} {f : β → α}
  (joins : ∀ x y, f (joinTrees x y) = join (f x) (f y))

include joins

theorem map_pairs (nodes : List β) : (pairs joinTrees nodes).map f = pairs join (nodes.map f) := by
  induction nodes using pairs.induct with
  | case1 => rfl
  | case2 a => rfl
  | case3 a b rest inductionHypothesis =>
      simp only [pairs, List.map_cons, joins, inductionHypothesis]

theorem map_top (nodes : List β) : (top joinTrees nodes).map f = top join (nodes.map f) := by
  induction nodes using top.induct joinTrees with
  | case1 => simp [top]
  | case2 a => simp [top]
  | case3 a b rest inductionHypothesis =>
      rw [top, inductionHypothesis, List.map_cons, map_pairs joins, joins, List.map_cons,
        List.map_cons, top]

theorem map_firstLevel (leaves : List β) :
    (firstLevel joinTrees leaves).map f = firstLevel join (leaves.map f) := by
  simp only [firstLevel, List.map_append, List.map_take, map_pairs joins, List.map_drop,
    List.length_map]

end

/-- The root of the tree is what joining level by level gives. -/
theorem root_tree (join : α → α → α) (leaves : List α) :
    (tree leaves).map (HashTree.root join) = top join (firstLevel join leaves) := by
  have joins (left right : HashTree α) :
      (HashTree.node left right).root join = join (left.root join) (right.root join) := rfl
  rw [tree, map_top joins, map_firstLevel joins, List.map_map]
  exact congrArg (fun leaves => top join (firstLevel join leaves)) (List.map_id leaves)

end MerkleTree
