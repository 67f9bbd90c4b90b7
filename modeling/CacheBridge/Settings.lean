import CacheBridge.Notice

/-!
Settings of the bridges and the stores. They are read from four variables; each is looked up once,
in a fixed order, and counts as unset when it holds no number. Reading never fails: what is unset
keeps its default, and a value that is no number leaves a notice that quotes it.
-/

namespace CacheBridge

structure Settings where
  /-- The interval at which a close is polled. -/
  closePoll : Nat
  /-- How long a caller waits for a shutdown. -/
  closeTimeout : Nat
  maxEntries : Option Nat
  defaultTtl : Option Nat
  deriving DecidableEq, Inhabited

namespace Settings

def milliseconds (n : Nat) : Nat := n * Time.millisecond

def default : Settings where
  closePoll := milliseconds 100
  closeTimeout := milliseconds 5000
  maxEntries := none
  defaultTtl := none

/-- The number a variable is set to, and what there is to say about its value. -/
def judge (v : Variable) : Option String → Option Nat × List Notice
  | none => (none, [])
  | some raw =>
    match number? raw with
    | some n => (some n, [])
    | none => (none, [.variableInvalid v raw])

/-- The settings given by the numbers that the variables are set to. -/
def ofNumbers (number : Variable → Option Nat) : Settings where
  closePoll := (number .closePoll).elim default.closePoll milliseconds
  closeTimeout := (number .closeTimeout).elim default.closeTimeout milliseconds
  maxEntries := number .maxEntries
  defaultTtl := (number .defaultTtl).map milliseconds

/-- Reads the settings, looking up one variable after the other. -/
def readM {m : Type → Type} [Monad m] (lookup : Variable → m (Option String)) :
    m (Settings × List Notice) := do
  let poll := judge .closePoll (← lookup .closePoll)
  let timeout := judge .closeTimeout (← lookup .closeTimeout)
  let entries := judge .maxEntries (← lookup .maxEntries)
  let ttl := judge .defaultTtl (← lookup .defaultTtl)
  let number : Variable → Option Nat
    | .closePoll => poll.1
    | .closeTimeout => timeout.1
    | .maxEntries => entries.1
    | .defaultTtl => ttl.1
  return (ofNumbers number, poll.2 ++ timeout.2 ++ entries.2 ++ ttl.2)

/-- Reads the settings from values that are all at hand. -/
def read (lookup : Variable → Option String) : Settings × List Notice :=
  Id.run (readM fun v => pure (lookup v))

/-- The variables that reading looks up, in order. -/
def asked (lookup : Variable → Option String) : List Variable :=
  ((readM fun v => (modify (· ++ [v]) *> pure (lookup v) : StateM (List Variable) _)).run []).2

def report (s : Settings) : String :=
  Text.record "Config"
    [("close_poll_interval", Text.span s.closePoll),
     ("close_timeout", Text.span s.closeTimeout),
     ("cache_max_entries", Text.optional (s.maxEntries.map toString)),
     ("default_ttl", Text.optional (s.defaultTtl.map Text.span))]

theorem read_eq (lookup : Variable → Option String) :
    read lookup =
      (ofNumbers fun v => (judge v (lookup v)).1,
        Variable.all.flatMap fun v => (judge v (lookup v)).2) := by
  have h : (fun v : Variable => (judge v (lookup v)).1) = fun v => match v with
      | .closePoll => (judge .closePoll (lookup .closePoll)).1
      | .closeTimeout => (judge .closeTimeout (lookup .closeTimeout)).1
      | .maxEntries => (judge .maxEntries (lookup .maxEntries)).1
      | .defaultTtl => (judge .defaultTtl (lookup .defaultTtl)).1 := by
    funext v; cases v <;> rfl
  rw [h]
  simp [read, readM, Variable.all]

end Settings

end CacheBridge
