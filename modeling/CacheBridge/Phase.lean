import CacheBridge.Time

/-!
The shutdown of a cache as its callers see it: active, closing, closed, and never back. A close is
begun once, by the call that leaves `active`; completing goes to `closed` from anywhere. A wait for
`closed` looks at the phase first and only then at its timer, so a wait of length zero on a closed
cache succeeds.
-/

namespace CacheBridge

/-- What a call has come to: it waits for something, or it has its answer. -/
inductive Progress (φ : Type u) (α : Type v) where
  | waiting (call : φ)
  | answered (value : α)

inductive Phase where
  | active
  | closing
  | closed
  deriving DecidableEq, Inhabited

namespace Phase

def name : Phase → String
  | active => "Active"
  | closing => "Closing"
  | closed => "Closed"

/-- How far the shutdown has come. -/
def rank : Phase → Nat
  | active => 0
  | closing => 1
  | closed => 2

instance : LE Phase := ⟨fun p q => p.rank ≤ q.rank⟩

instance (p q : Phase) : Decidable (p ≤ q) := inferInstanceAs (Decidable (p.rank ≤ q.rank))

instance : Ord Phase := ⟨fun p q => compare p.rank q.rank⟩

/-- Asks for a close: whether this is the call that begins it, and the phase after. -/
def beginClose : Phase → Bool × Phase
  | active => (true, closing)
  | p => (false, p)

def complete (_ : Phase) : Phase := closed

theorem le_refl (p : Phase) : p ≤ p := Nat.le_refl _

theorem le_trans {p q r : Phase} (h : p ≤ q) (h' : q ≤ r) : p ≤ r := Nat.le_trans h h'

theorem le_beginClose (p : Phase) : p ≤ p.beginClose.2 := by cases p <;> decide

theorem le_complete (p : Phase) : p ≤ p.complete := by cases p <;> decide

end Phase

/-- A wait for `closed`: until an instant, or without an end. -/
inductive ClosedWait where
  | endless
  | till (ring : Nat)
  deriving DecidableEq, Inhabited

namespace ClosedWait

/-- Whether the wait has run out. -/
def expired (now : Nat) : ClosedWait → Bool
  | endless => false
  | till ring => ring ≤ now

/-- A wait that looks at the phase at `now`: `true` if it is closed, `false` if time is up. -/
def look (p : Phase) (now : Nat) (w : ClosedWait) : Progress ClosedWait Bool :=
  if p = .closed then .answered true
  else if w.expired now then .answered false
  else .waiting w

/-- Starts a wait of length `span` at `now`. -/
def start (p : Phase) (now span : Nat) : Progress ClosedWait Bool :=
  look p now (.till (Time.ring now span))

/-- Whether looking would give an answer. -/
def ready (p : Phase) (now : Nat) (w : ClosedWait) : Bool := p == .closed || w.expired now

def alarm : ClosedWait → Option Nat
  | endless => none
  | till ring => some ring

theorem look_closed (now : Nat) (w : ClosedWait) : look .closed now w = .answered true := rfl

theorem look_of_not_ready {p : Phase} {now : Nat} {w : ClosedWait} (h : w.ready p now = false) :
    look p now w = .waiting w := by
  simp only [ready, Bool.or_eq_false_iff, beq_eq_false_iff_ne] at h
  simp [look, h.1, h.2]

theorem look_of_ready {p : Phase} {now : Nat} {w : ClosedWait}
    (h : w.ready p now = true) : look p now w = .answered (decide (p = .closed)) := by
  unfold look
  split
  · next hphase => rw [decide_eq_true hphase]
  · next hphase =>
    obtain hclosed | hexpired := Bool.or_eq_true_iff.mp h
    · exact absurd (of_decide_eq_true hclosed) hphase
    · rw [if_pos hexpired, decide_eq_false hphase]

end ClosedWait

end CacheBridge
