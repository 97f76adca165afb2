import Mathlib.Data.List.Basic
import Mathlib.Data.List.Induction

/-!
# Lexical paths

A path goes down by names and up again.  Without the tree it can be normalized to names alone, and
in a tree without links the normalized path leads to where the path does, so that two paths meet
when their normal forms are the same and only then.
-/

namespace TokenWeasel.Library

universe u v
variable {ν : Type u} {α : Type v}

inductive PathStep (α : Type v) where
  | up
  | down (name : α)
  deriving DecidableEq, Repr

/-- One step from a normal form: above the root there is the root. -/
def PathStep.push (names : List α) : PathStep α → List α
  | .up => names.dropLast
  | .down name => names ++ [name]

/-- The names that are left when every step up has taken back the last one down. -/
def normalizePath (steps : List (PathStep α)) : List α := steps.foldl PathStep.push []

theorem normalizePath_concat (steps : List (PathStep α)) (step : PathStep α) :
    normalizePath (steps ++ [step]) = step.push (normalizePath steps) := List.foldl_concat ..

/-- A tree of files: every node but the root has one name in one directory. -/
structure FileTree (ν : Type u) (α : Type v) where
  root : ν
  child : ν → α → Option ν
  parent : ν → ν
  parent_root : parent root = root
  parent_child : ∀ {dir name node}, child dir name = some node → parent node = dir
  name_unique : ∀ {dir name name' node}, child dir name = some node →
    child dir name' = some node → name = name'
  root_not_child : ∀ dir name, child dir name ≠ some root

namespace FileTree

variable (tree : FileTree ν α)

def step (node : ν) : PathStep α → Option ν
  | .up => some (tree.parent node)
  | .down name => tree.child node name

/-- Where a path leads, if there is anything. -/
def walk (steps : List (PathStep α)) : Option ν :=
  steps.foldl (fun node step ↦ node.bind (tree.step · step)) (some tree.root)

variable {tree}

theorem walk_concat (steps : List (PathStep α)) (step : PathStep α) :
    tree.walk (steps ++ [step]) = (tree.walk steps).bind (tree.step · step) :=
  List.foldl_concat ..

/-- What a path of names leads to determines the names. -/
theorem walk_down_inj {node : ν} {names names' : List α}
    (h : tree.walk (names.map .down) = some node)
    (h' : tree.walk (names'.map .down) = some node) : names = names' := by
  induction names using List.reverseRecOn generalizing names' node with
  | nil =>
      have hroot : node = tree.root := (Option.some.inj h).symm
      induction names' using List.reverseRecOn with
      | nil => rfl
      | append_singleton names' name' _ =>
          rw [List.map_append, List.map_singleton, walk_concat] at h'
          rcases Option.bind_eq_some_iff.mp h' with ⟨dir, -, hchild⟩
          rw [hroot] at hchild
          exact absurd hchild (tree.root_not_child dir name')
  | append_singleton names name ih =>
      rw [List.map_append, List.map_singleton, walk_concat] at h
      rcases Option.bind_eq_some_iff.mp h with ⟨dir, hdir, hchild⟩
      induction names' using List.reverseRecOn with
      | nil =>
          have hroot : node = tree.root := (Option.some.inj h').symm
          rw [hroot] at hchild
          exact absurd hchild (tree.root_not_child dir name)
      | append_singleton names' name' _ =>
          rw [List.map_append, List.map_singleton, walk_concat] at h'
          rcases Option.bind_eq_some_iff.mp h' with ⟨dir', hdir', hchild'⟩
          -- both directories are the node's parent
          have hsame : dir' = dir :=
            (tree.parent_child hchild').symm.trans (tree.parent_child hchild)
          rw [hsame] at hdir' hchild'
          rw [ih hdir hdir', tree.name_unique hchild hchild']

/-- Where a path leads its normal form leads as well. -/
theorem walk_normalizePath {steps : List (PathStep α)} {node : ν}
    (h : tree.walk steps = some node) :
    tree.walk ((normalizePath steps).map .down) = some node := by
  induction steps using List.reverseRecOn generalizing node with
  | nil => exact h
  | append_singleton steps step ih =>
      rw [walk_concat] at h
      rcases Option.bind_eq_some_iff.mp h with ⟨before, hbefore, hstep⟩
      have hnames := ih hbefore
      rw [normalizePath_concat]
      cases step with
      | down name =>
          show tree.walk ((normalizePath steps ++ [name]).map .down) = some node
          rw [List.map_append, List.map_singleton, walk_concat, hnames]
          exact hstep
      | up =>
          have hparent : node = tree.parent before := (Option.some.inj hstep).symm
          show tree.walk ((normalizePath steps).dropLast.map .down) = some node
          -- the last name, if there is one, leads from the parent to the node
          cases List.eq_nil_or_concat' (normalizePath steps) with
          | inl hnil =>
              rw [hnil] at hnames ⊢
              have hroot : before = tree.root := (Option.some.inj hnames).symm
              rw [hparent, hroot, tree.parent_root]
              rfl
          | inr hconcat =>
              rcases hconcat with ⟨names, name, hconcat⟩
              rw [hconcat, List.map_append, List.map_singleton, walk_concat] at hnames
              rcases Option.bind_eq_some_iff.mp hnames with ⟨dir, hdir, hchild⟩
              rw [hconcat, List.dropLast_concat, hparent, tree.parent_child hchild]
              exact hdir

/-- Two paths that lead somewhere meet exactly if their normal forms are the same. -/
theorem walk_eq_iff {steps steps' : List (PathStep α)} {node node' : ν}
    (h : tree.walk steps = some node) (h' : tree.walk steps' = some node') :
    node = node' ↔ normalizePath steps = normalizePath steps' := by
  have hnames := walk_normalizePath h
  have hnames' := walk_normalizePath h'
  constructor
  · intro heq
    rw [heq] at hnames
    exact walk_down_inj hnames hnames'
  · intro heq
    rw [heq, hnames'] at hnames
    exact (Option.some.inj hnames).symm

/-- The tree in which every name is in every directory: a node is the list of its names. -/
def full (α : Type v) : FileTree (List α) α where
  root := []
  child := fun dir name ↦ some (dir ++ [name])
  parent := List.dropLast
  parent_root := rfl
  parent_child := by
    intro dir name node h
    rw [← Option.some.inj h, List.dropLast_concat]
  name_unique := by
    intro dir name name' node h h'
    have heq := (Option.some.inj h).trans (Option.some.inj h').symm
    exact List.singleton_inj.mp (List.append_inj' heq rfl).2
  root_not_child := by
    intro dir name h
    exact List.append_ne_nil_of_right_ne_nil dir (List.cons_ne_nil name []) (Option.some.inj h)

end FileTree

end TokenWeasel.Library
