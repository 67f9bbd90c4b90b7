import CacheBridge.Text.Shown

/-!
The two generations of the cache contract, and the failures of their calls. Callers of the modern
generation pass a scope with each call and close in one blocking call; callers of the legacy one
pass none, and close by a signal and a separate wait.

Each generation has its own type of failure, with the same four
conditions and, for everything else, a fault: the shared handle of an error that a backend raised.
A fault is known by its number, so two faults are equal when they are the same error, not when
they read the same. Passing a failure to the other generation (`Failure.as`) keeps its condition
and the identity of its fault, and wrapping adds no text of its own: what wraps a cause shows and
traces as that cause does.
-/

namespace CacheBridge

inductive Generation where
  | modern
  | legacy
  deriving DecidableEq, Inhabited

namespace Generation

def name : Generation → String
  | modern => "modern"
  | legacy => "legacy"

def other : Generation → Generation
  | modern => legacy
  | legacy => modern

end Generation

/-- What a call can run into at a cache of either generation. -/
inductive Condition where
  | keyNotFound
  | keyAlreadyExists
  | timeout
  | notImplemented
  deriving DecidableEq, Inhabited

namespace Condition

def name : Condition → String
  | keyNotFound => "KeyNotFound"
  | keyAlreadyExists => "KeyAlreadyExists"
  | timeout => "Timeout"
  | notImplemented => "NotImplemented"

def text : Condition → String
  | keyNotFound => "key does not exist"
  | keyAlreadyExists => "key already exists"
  | timeout => "action timed out"
  | notImplemented => "not implemented"

end Condition

/-- What stands behind a fault: a message, an error with the errors it was caused by, a failure
of either generation, or another fault. -/
inductive Cause where
  | message (text : String)
  | chain (text : String) (causes : List String)
  | condition (g : Generation) (c : Condition)
  | backend (g : Generation) (number : Nat) (cause : Cause)
  | fault (number : Nat) (cause : Cause)
  deriving DecidableEq, Inhabited

namespace Cause

/-- The text shown for a cause; whatever wraps another cause shows that one's. -/
def text : Cause → String
  | message t => t
  | chain t _ => t
  | condition _ c => c.text
  | backend _ _ c => c.text
  | fault _ c => c.text

/-- The error that a cause was caused by. What wraps another cause is not caused by it, but by
what caused it. -/
def source? : Cause → Option Cause
  | message _ => none
  | chain _ [] => none
  | chain _ (t :: ts) => some (chain t ts)
  | condition _ _ => none
  | backend _ _ c => c.source?
  | fault _ c => c.source?

/-- The texts met by following `source?` to its end. -/
def trace : Cause → List String
  | message _ => []
  | chain _ ts => ts
  | condition _ _ => []
  | backend _ _ c => c.trace
  | fault _ c => c.trace

/-- The text of an error with its causes, each nested in the one before. -/
def chainReport (t : String) : List String → String
  | [] => Text.record "Chain" [("msg", Text.quoted t), ("next", Text.optional none)]
  | u :: us =>
    Text.record "Chain" [("msg", Text.quoted t), ("next", Text.optional (some (chainReport u us)))]

/-- The detailed text of a cause. A fault is seen through; a failure that carries one is not. -/
def report : Cause → String
  | message t => "Message(" ++ Text.quoted t ++ ")"
  | chain t ts => chainReport t ts
  | condition _ c => c.name
  | backend _ _ c => "Backend(" ++ c.report ++ ")"
  | fault _ c => c.report

theorem trace_eq (c : Cause) :
    c.trace = match c.source? with
      | none => []
      | some d => d.text :: d.trace := by
  induction c with
  | message | condition => rfl
  | chain t ts => cases ts <;> rfl
  | backend _ _ c ih | fault _ c ih => simpa [trace, source?] using ih

end Cause

/-- A shared handle of an error raised by a backend. -/
structure Fault where
  /-- Tells this error from every other. -/
  number : Nat
  cause : Cause
  deriving Inhabited

namespace Fault

/-- Two faults are equal when they are the same error. -/
instance : BEq Fault := ⟨fun a b => a.number == b.number⟩

theorem beq_iff {a b : Fault} : (a == b) = true ↔ a.number = b.number := by
  change (a.number == b.number) = true ↔ _
  simp

/-- The fault itself as something that another fault may stand for. -/
def asCause (f : Fault) : Cause := .fault f.number f.cause

end Fault

/-- A failure at a cache of generation `g`. -/
inductive Failure (g : Generation) where
  | condition (c : Condition)
  | backend (f : Fault)
  deriving Inhabited

namespace Failure

variable {g h : Generation}

@[match_pattern] abbrev keyNotFound : Failure g := .condition .keyNotFound
@[match_pattern] abbrev keyAlreadyExists : Failure g := .condition .keyAlreadyExists
@[match_pattern] abbrev timeout : Failure g := .condition .timeout
@[match_pattern] abbrev notImplemented : Failure g := .condition .notImplemented

/-- Same condition, or the same fault. -/
def same : Failure g → Failure g → Bool
  | condition c, condition d => c == d
  | backend f, backend e => f == e
  | _, _ => false

instance : BEq (Failure g) := ⟨same⟩

/-- The failure as one of generation `h`. -/
def as (h : Generation) : Failure g → Failure h
  | condition c => .condition c
  | backend f => .backend f

/-- The kind of a failure: its condition, or none of them if a backend raised it. -/
def kind? : Failure g → Option Condition
  | condition c => some c
  | backend _ => none

def kindName (e : Failure g) : String := e.kind?.elim "Backend" Condition.name

def cause : Failure g → Cause
  | condition c => .condition g c
  | backend f => .backend g f.number f.cause

def text (e : Failure g) : String := e.cause.text

def report (e : Failure g) : String := e.cause.report

@[simp] theorem as_self (e : Failure g) : e.as g = e := by cases e <;> rfl

@[simp] theorem as_as {i : Generation} (e : Failure g) : (e.as h).as i = e.as i := by
  cases e <;> rfl

@[simp] theorem kind?_as (e : Failure g) : (e.as h).kind? = e.kind? := by cases e <;> rfl

theorem as_beq_as (a b : Failure g) : (a.as h == b.as h) = (a == b) := by
  cases a <;> cases b <;> rfl

end Failure

end CacheBridge
