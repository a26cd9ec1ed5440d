/-!
# Search trees

The nodes of a search tree, numbered in the order in which they are made. Node zero is the root and
holds no sound; every other node holds a sound and knows its parent, which has a smaller number. The
sounds on the way from the root to a node are a beginning of a scene.

* `Tree.add`, `Tree.exhaust` — one more node, a node with no child to come;
* `Tree.path` — the sounds on the way to a node;
* `Tree.hasRoom` — whether a node may have another child.
-/

namespace SoundScenes

/-- Where a node comes from: its parent and its sound. -/
structure Origin where
  parent : Nat
  sound : Nat
  deriving DecidableEq, Repr

/-- A node of a search tree. -/
structure Node where
  /-- The number of sounds on the way to the node. -/
  level : Nat
  /-- Only the root has none. -/
  origin : Option Origin
  /-- The children so far, in the order in which they were made. -/
  children : List Nat
  /-- Whether there was no sound left for another child. -/
  exhausted : Bool
  deriving DecidableEq, Repr

namespace Node

/-- The root before it has children. -/
def root : Node := ⟨0, none, [], false⟩

/-- The depth of a node: zero for the first sound of a scene. -/
def depth (n : Node) : Int := n.level - 1

/-- The sound of a node. -/
def sound (n : Node) : Option Nat := n.origin.map (·.sound)

/-- The parent of a node. -/
def parent (n : Node) : Option Nat := n.origin.map (·.parent)

end Node

/-- A search tree. -/
structure Tree where
  nodes : Array Node
  deriving Repr

namespace Tree

/-- The tree with nothing but its root. -/
def start : Tree := ⟨#[.root]⟩

/-- The number of nodes. -/
def size (t : Tree) : Nat := t.nodes.size

/-- The node with a number. -/
def node? (t : Tree) (id : Nat) : Option Node := t.nodes[id]?

/-- The node with a number. Where there is none, it is like the root. -/
def node (t : Tree) (id : Nat) : Node := t.nodes.getD id .root

/-- A new last node, the child of a node with a sound. -/
def add (t : Tree) (parent sound : Nat) : Tree :=
  let child : Node := ⟨(t.node parent).level + 1, some ⟨parent, sound⟩, [], false⟩
  let id := t.size
  ⟨(t.nodes.modify parent fun n => { n with children := n.children ++ [id] }).push child⟩

/-- Marks a node for which there is no sound left. -/
def exhaust (t : Tree) (id : Nat) : Tree :=
  ⟨t.nodes.modify id fun n => { n with exhausted := true }⟩

/-- The sounds of the children of a node. -/
def childSounds (t : Tree) (id : Nat) : List Nat :=
  (t.node id).children.filterMap fun child => (t.node child).sound

/-- Whether a node may have another child where so many are allowed. -/
def hasRoom (t : Tree) (id width : Nat) : Bool :=
  !(t.node id).exhausted && (t.node id).children.length < width

/-- The largest number of children of any node. -/
def maxChildren (t : Tree) : Nat := t.nodes.foldl (fun m n => max m n.children.length) 0

/-- The sounds on the way to a node, before some others. -/
def pathBefore (t : Tree) (id : Nat) (sounds : List Nat) : List Nat :=
  match (t.node id).origin with
  | none => sounds
  | some o => if o.parent < id then t.pathBefore o.parent (o.sound :: sounds) else o.sound :: sounds

/-- The sounds on the way to a node. -/
def path (t : Tree) (id : Nat) : List Nat := t.pathBefore id []

/-! ## Lemmas -/

@[simp] theorem size_start : start.size = 1 := rfl

@[simp] theorem size_add (t : Tree) (parent sound : Nat) :
    (t.add parent sound).size = t.size + 1 := by
  simp [add, size]

@[simp] theorem size_exhaust (t : Tree) (id : Nat) : (t.exhaust id).size = t.size := by
  simp [exhaust, size]

/-- A new node is there, its parent has it as its last child, and the others are unchanged. -/
theorem node_add (t : Tree) {parent : Nat} (sound : Nat) (h : parent < t.size) (id : Nat) :
    (t.add parent sound).node id =
      if id = t.size then ⟨(t.node parent).level + 1, some ⟨parent, sound⟩, [], false⟩
      else if id = parent then
        { t.node parent with children := (t.node parent).children ++ [t.size] }
      else t.node id := by
  simp only [add, node, size, Array.getD_eq_getD_getElem?, Array.getElem?_push,
    Array.size_modify, Array.getElem?_modify] at h ⊢
  split
  · rfl
  · split
    · next heq =>
      subst heq
      simp [h]
    · next h' => simp [Ne.symm h']

theorem node_exhaust (t : Tree) {i : Nat} (h : i < t.size) (id : Nat) :
    (t.exhaust i).node id = if id = i then { t.node i with exhausted := true } else t.node id := by
  simp only [exhaust, node, size, Array.getD_eq_getD_getElem?, Array.getElem?_modify] at h ⊢
  split
  · next heq =>
    subst heq
    simp [h]
  · next h' => simp [Ne.symm h']

theorem pathBefore_eq (t : Tree) (id : Nat) (sounds : List Nat) :
    t.pathBefore id sounds = t.path id ++ sounds := by
  induction id using Nat.strongRecOn generalizing sounds with
  | _ id ih =>
    unfold path
    rw [pathBefore, pathBefore]
    split
    · rfl
    · next o _ =>
      split
      · next h => rw [ih _ h, ih _ h [o.sound], List.append_assoc, List.singleton_append]
      · rfl

/-- The path of a child goes through its parent. -/
theorem path_of_origin {t : Tree} {id : Nat} {o : Origin} (h : (t.node id).origin = some o)
    (hlt : o.parent < id) : t.path id = t.path o.parent ++ [o.sound] := by
  rw [path, pathBefore, h]
  simp only [hlt, if_true]
  exact pathBefore_eq t _ _

end Tree

end SoundScenes
