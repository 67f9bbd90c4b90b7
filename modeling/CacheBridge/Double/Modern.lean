import CacheBridge.Level
import CacheBridge.Table

/-!
A recording double of a modern cache. It answers as it was told to and keeps what reached it:
the entries with their TTLs, the keys in the order in which they were set, whole batches, and how
often it was closed.
-/

namespace CacheBridge.ModernDouble

/-- How the double is to behave. -/
structure Script where
  /-- Answers every data call. -/
  error : Option (Failure .modern) := none
  /-- Answers a set of this one key. -/
  failOn : Option (Key × Failure .modern) := none
  closeError : Option (Failure .modern) := none
  multi : Bool := false
  deriving Inhabited

structure State where
  entries : Table Timed := {}
  batches : List (List Write) := []
  setOrder : List Key := []
  closed : Bool := false
  closeCalls : Nat := 0
  deriving Inhabited

def holding (entries : List Write) : State :=
  { entries := Table.ofList (entries.map fun w => (w.key, w.timed)) }

def State.put (w : Write) (s : State) : State := { s with entries := s.entries.put w.key w.timed }

def get (key : Key) (s : State) : Answer .modern :=
  match s.entries.get? key with
  | some entry => .ok (.found entry.value)
  | none => .error .keyNotFound

/-- A set counts as tried even if its key is the one that fails. -/
def set (script : Script) (w : Write) (s : State) : State × Answer .modern :=
  let s := { s with setOrder := s.setOrder ++ [w.key] }
  match script.failOn with
  | some (key, e) => if key = w.key then (s, .error e) else (s.put w, Answer.done)
  | none => (s.put w, Answer.done)

def add (w : Write) (s : State) : State × Answer .modern :=
  if s.entries.has w.key then (s, .error .keyAlreadyExists) else (s.put w, Answer.done)

def close (script : Script) (s : State) : State × Answer .modern :=
  let s := { s with closeCalls := s.closeCalls + 1 }
  match script.closeError with
  | some e => (s, .error e)
  | none => ({ s with closed := true }, Answer.done)

/-- What a data call does when it is not told to fail. -/
def perform (script : Script) (r : ModernRequest) (s : State) : State × Answer .modern :=
  match r with
  | .get _ key => (s, get key s)
  | .set _ w => set script w s
  | .add _ w => add w s
  | .delete _ key => ({ s with entries := s.entries.remove key }, Answer.done)
  | .setMulti _ items => ({ s with batches := s.batches ++ [items] }, Answer.done)
  | .close _ => close script s

def handle (script : Script) (r : ModernRequest) (s : State) : State × Answer .modern :=
  match r, script.error with
  | .close _, _ => close script s
  | _, some e => (s, .error e)
  | r, none => perform script r s

def level (script : Script) : Level .modern State NoCall :=
  .immediate (fun surface => surface == .multi && script.multi) fun r _ s =>
    let (s, a) := handle script r s; (s, a, [])

end CacheBridge.ModernDouble
