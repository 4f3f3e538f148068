import Mathlib

/-!
# Merkle roots of leaf lists

The root of a tree of fixed depth whose leaves are a list, filled up with empty leaves
on the right, and the paths that lead from a leaf to the root. The walk along a path reads
as many bits of the position as the path has nodes.
-/
namespace ZcashVoting.Merkle

open List

variable {H : Type} (combine : H → H → H) (emptyLeaf : H)

def emptyRoot : Nat → H
  | 0 => emptyLeaf
  | depth + 1 => combine (emptyRoot depth) (emptyRoot depth)

def root : Nat → List H → H
  | depth, [] => emptyRoot combine emptyLeaf depth
  | 0, leaf :: _ => leaf
  | depth + 1, leaf :: rest =>
    combine (root depth ((leaf :: rest).take (2 ^ depth)))
      (root depth ((leaf :: rest).drop (2 ^ depth)))

@[simp] theorem root_nil (depth : Nat) :
    root combine emptyLeaf depth [] = emptyRoot combine emptyLeaf depth := by
  cases depth <;> rfl

theorem root_succ (depth : Nat) (leaves : List H) : root combine emptyLeaf (depth + 1) leaves =
    combine (root combine emptyLeaf depth (leaves.take (2 ^ depth)))
      (root combine emptyLeaf depth (leaves.drop (2 ^ depth))) := by
  cases leaves with
  | nil => simp [emptyRoot]
  | cons => rfl

/-! ### Paths -/

/-- The nodes beside the way from a leaf to the root, from the leaf on. -/
def siblings : Nat → List H → Nat → List H
  | 0, _, _ => []
  | depth + 1, leaves, position =>
    if position.testBit depth then
      siblings depth (leaves.drop (2 ^ depth)) position ++
        [root combine emptyLeaf depth (leaves.take (2 ^ depth))]
    else siblings depth (leaves.take (2 ^ depth)) position ++
      [root combine emptyLeaf depth (leaves.drop (2 ^ depth))]

/-- From a leaf to the root: each bit of the position says on which side the sibling is. -/
def walk (position : Nat) (leaf : H) (path : List H) : H := path.zipIdx.foldl (fun node step =>
    if position.testBit step.2 then combine step.1 node else combine node step.1) leaf

/-- The leaf at the place that the low bits of a position name. -/
def slot (depth : Nat) (leaves : List H) (position : Nat) :
    H := leaves.getD (position % 2 ^ depth) emptyLeaf

variable {combine emptyLeaf} {position depth : Nat} {leaf sibling : H} {leaves path : List H}

theorem walk_concat : walk combine position leaf (path ++ [sibling]) =
    if position.testBit path.length then combine sibling (walk combine position leaf path)
    else combine (walk combine position leaf path) sibling := by
  simp [walk, zipIdx_append]

theorem length_siblings : (siblings combine emptyLeaf depth leaves position).length = depth := by
  induction depth generalizing leaves with
  | zero => rfl
  | succ _ ih => rw [siblings]; split <;> rw [length_append, ih, length_singleton]

/-- The top bit of the place chooses the half of the leaves. -/
theorem slot_succ : slot emptyLeaf (depth + 1) leaves position =
    slot emptyLeaf depth (if position.testBit depth then leaves.drop (2 ^ depth) else leaves.take (2 ^ depth))
      position := by
  have hlow : position % 2 ^ depth < 2 ^ depth := Nat.mod_lt _ (Nat.two_pow_pos depth)
  unfold slot
  rw [Nat.mod_pow_succ, Nat.testBit_eq_decide_div_mod_eq]
  rcases Nat.mod_two_eq_zero_or_one (position / 2 ^ depth) with hbit | hbit <;>
    simp [hbit, hlow, Nat.add_comm]

theorem walk_siblings : walk combine position (slot emptyLeaf depth leaves position)
    (siblings combine emptyLeaf depth leaves position) = root combine emptyLeaf depth leaves := by
  induction depth generalizing leaves with
  | zero => cases leaves <;> simp [walk, slot, siblings, root, emptyRoot, Nat.mod_one]
  | succ _ ih =>
    rw [slot_succ, siblings, root_succ]
    split <;> rw [walk_concat, length_siblings, ih] <;> simp [*]

/-- With an injective hash, only the leaf in the slot leads to the root. -/
theorem leaf_of_walk (hinj : ∀ a b c d, combine a b = combine c d → a = c ∧ b = d)
    (hp : path.length = depth)
    (h : walk combine position leaf path = root combine emptyLeaf depth leaves) :
    leaf = slot emptyLeaf depth leaves position := by
  induction depth generalizing leaves path with
  | zero =>
    obtain rfl := length_eq_zero_iff.mp hp
    cases leaves <;> simpa [walk, slot, root, emptyRoot, Nat.mod_one] using h
  | succ depth ih =>
    -- the last sibling is the one below the root
    rcases eq_nil_or_concat path with rfl | ⟨below, _, rfl⟩
    · cases hp
    have hb : below.length = depth := by simpa using hp
    rw [concat_eq_append, walk_concat, root_succ, hb] at h
    rw [slot_succ]
    split at h
    case isTrue hbit => rw [if_pos hbit]; exact ih hb (hinj _ _ _ _ h).2
    case isFalse hbit => rw [if_neg hbit]; exact ih hb (hinj _ _ _ _ h).1

end ZcashVoting.Merkle
