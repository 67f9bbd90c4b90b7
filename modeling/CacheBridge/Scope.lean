import CacheBridge.Time

/-!
Cancellation scopes. A scope ends when it is cancelled, itself or through a scope that it was
derived from, or when its deadline passes. Scopes that can be cancelled are nodes of a tree. A node
lives as long as somebody holds a handle on it; when the last handle goes, the nodes below it move
up to its parent, so that a cancellation still reaches them.
-/

namespace CacheBridge

/-- What is handed to a call: the node that can cancel it, if there is one, and a deadline. -/
structure Scope where
  node : Option Nat
  deadline : Option Nat
  deriving DecidableEq, Inhabited

/-- The scope that nobody can cancel and that has no deadline. -/
def Scope.background : Scope := ⟨none, none⟩

/-- A node of the tree of scopes. -/
structure ScopeNode where
  number : Nat
  parent : Option Nat
  cancelled : Bool
  /-- How many hold on to this node. -/
  handles : Nat
  deriving DecidableEq, Inhabited

/-- The nodes that are held, the oldest first, so that a parent comes before its children. -/
structure ScopeTree where
  nodes : List ScopeNode := []
  next : Nat := 0
  deriving Inhabited

namespace ScopeTree

def node? (t : ScopeTree) (n : Nat) : Option ScopeNode := t.nodes.find? (·.number == n)

def isCancelled (t : ScopeTree) (n : Nat) : Bool := (t.node? n).any (·.cancelled)

/-- A new node below `parent`. It is cancelled from the start if its parent is. -/
def derive (t : ScopeTree) (parent : Option Nat) : ScopeTree × Nat :=
  let node : ScopeNode := ⟨t.next, parent, parent.any t.isCancelled, 1⟩
  (⟨t.nodes ++ [node], t.next + 1⟩, t.next)

/-- One more handle on a node. -/
def share (t : ScopeTree) (n : Nat) : ScopeTree :=
  { t with nodes := t.nodes.map fun node =>
      if node.number = n then { node with handles := node.handles + 1 } else node }

/-- Takes a node out; the nodes below it move up to its parent. -/
def remove (t : ScopeTree) (node : ScopeNode) : ScopeTree :=
  { t with nodes := (t.nodes.filter (·.number != node.number)).map fun other =>
      if other.parent = some node.number then { other with parent := node.parent } else other }

/-- One handle less on a node, which is taken out with its last handle. -/
def release (t : ScopeTree) (n : Nat) : ScopeTree :=
  match t.node? n with
  | none => t
  | some node =>
    if node.handles ≤ 1 then t.remove node
    else { t with nodes := t.nodes.map fun other =>
      if other.number = n then { other with handles := other.handles - 1 } else other }

/-- The numbers of a node and of all nodes below it: one walk from the oldest node on. -/
def below (nodes : List ScopeNode) (n : Nat) : List Nat :=
  nodes.foldl (fun hit node =>
    if node.number = n ∨ node.parent.any hit.contains then node.number :: hit else hit) []

/-- Cancels a node and all nodes below it. -/
def cancel (t : ScopeTree) (n : Nat) : ScopeTree :=
  let hit := below t.nodes n
  { t with nodes := t.nodes.map fun node =>
      if hit.contains node.number then { node with cancelled := true } else node }

/-! ## Scopes over a tree -/

/-- A new scope that ends only when it is cancelled. -/
def root (t : ScopeTree) : ScopeTree × Scope :=
  let (t, n) := t.derive none
  (t, ⟨some n, none⟩)

/-- A scope that ends with `s`. -/
def child (t : ScopeTree) (s : Scope) : ScopeTree × Scope :=
  let (t, n) := t.derive s.node
  (t, ⟨some n, s.deadline⟩)

/-- The earlier of two deadlines, either of which may be missing. -/
def earlier : Option Nat → Option Nat → Option Nat
  | some a, some b => some (min a b)
  | a, b => a.or b

/-- A scope that ends with `s`, and no later than `span` from now. A span whose end cannot be
written adds no deadline. -/
def within (t : ScopeTree) (now : Nat) (s : Scope) (span : Nat) : ScopeTree × Scope :=
  let (t, n) := t.derive s.node
  (t, ⟨some n, earlier s.deadline (Time.after? now span)⟩)

/-- A second handle on the same scope. -/
def clone (t : ScopeTree) (s : Scope) : ScopeTree := s.node.elim t t.share

/-- Lets go of a scope. -/
def drop (t : ScopeTree) (s : Scope) : ScopeTree := s.node.elim t t.release

def cancelScope (t : ScopeTree) (s : Scope) : ScopeTree := s.node.elim t t.cancel

/-- Whether a scope has ended. -/
def ended (t : ScopeTree) (now : Nat) (s : Scope) : Bool :=
  s.node.any t.isCancelled || s.deadline.any (· ≤ now)

@[simp] theorem ended_background (t : ScopeTree) (now : Nat) :
    t.ended now Scope.background = false := rfl

theorem ended_mono {t : ScopeTree} {s : Scope} {now later : Nat} (h : now ≤ later)
    (he : t.ended now s = true) : t.ended later s = true := by
  simp only [ended, Bool.or_eq_true, Option.any_eq_true, decide_eq_true_eq] at he ⊢
  rcases he with he | ⟨d, hd, hle⟩
  · exact .inl he
  · exact .inr ⟨d, hd, Nat.le_trans hle h⟩

end ScopeTree

/-- When the deadline of a scope rings. -/
def Scope.alarm (s : Scope) : Option Nat := s.deadline.map Time.roundUp

/-- Whether one who waits for the end of a scope hears of it: its node is cancelled, or its deadline
has rung. -/
def ScopeTree.heard (t : ScopeTree) (now : Nat) (s : Scope) : Bool :=
  s.node.any t.isCancelled || s.alarm.any (· ≤ now)

/-- On a clock that stands at whole milliseconds the end of a scope is heard of exactly when it has
come. -/
theorem ScopeTree.heard_eq_ended (t : ScopeTree) {now : Nat} (h : Time.millisecond ∣ now)
    (s : Scope) : t.heard now s = t.ended now s := by
  have htimer (d : Nat) : decide (Time.roundUp d ≤ now) = decide (d ≤ now) :=
    decide_eq_decide.mpr (Time.roundUp_le_iff h)
  unfold heard ended Scope.alarm
  rw [Option.any_map]
  simp only [htimer]

end CacheBridge
