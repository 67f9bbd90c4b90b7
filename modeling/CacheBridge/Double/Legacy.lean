import CacheBridge.Level
import CacheBridge.Table

/-!
A recording double of a legacy cache. It has the TTL surface unless it is told otherwise, and the
batch surface only if it is told so. Its close completes after a given number of waits, or never;
a wait that does not complete takes all of its time, unless the double is told to answer at once.
-/

namespace CacheBridge.LegacyDouble

/-- How the double is to behave. -/
structure Script where
  /-- Answers every data call. -/
  error : Option (Failure .legacy) := none
  /-- Answers every wait for the close. -/
  closeError : Option (Failure .legacy) := none
  ttl : Bool := true
  multi : Bool := false
  /-- How many waits time out before the close completes; `none` if it never does. -/
  pendingWaits : Option Nat := some 0
  /-- Whether a wait that does not complete is answered at once. -/
  instantTimeout : Bool := false
  deriving Inhabited

structure State where
  entries : Table Timed := {}
  batches : List (List Write) := []
  ttlBatches : Nat := 0
  closed : Bool := false
  closeCalls : Nat := 0
  waitCalls : Nat := 0
  deriving Inhabited

def holding (entries : List Write) : State :=
  { entries := Table.ofList (entries.map fun w => (w.key, w.timed)) }

/-- A wait that takes all of its time: the instant at which it ends. -/
structure Call where
  ring : Nat

def State.put (w : Write) (s : State) : State := { s with entries := s.entries.put w.key w.timed }

def get (key : Key) (s : State) : Answer .legacy :=
  match s.entries.get? key with
  | some entry => .ok (.found entry.value)
  | none => .error .keyNotFound

def add (w : Write) (s : State) : State × Answer .legacy :=
  if s.entries.has w.key then (s, .error .keyAlreadyExists) else (s.put w, Answer.done)

def keepBatch (items : List Write) (s : State) : State :=
  { s with batches := s.batches ++ [items] }

/-- What a data call does when it is not told to fail. -/
def perform (r : LegacyRequest) (s : State) : State × Answer .legacy :=
  match r with
  | .get key => (s, get key s)
  | .set key value => (s.put (.plain key value), Answer.done)
  | .add key value => add (.plain key value) s
  | .delete key => ({ s with entries := s.entries.remove key }, Answer.done)
  | .setWithTtl w => (s.put w, Answer.done)
  | .addWithTtl w => add w s
  | .setMulti items => (keepBatch (items.map fun (key, value) => .plain key value) s, Answer.done)
  | .setMultiWithTtl items =>
    (keepBatch items { s with ttlBatches := s.ttlBatches + 1 }, Answer.done)
  | .closeAsync | .waitForClose _ => (s, Answer.done)

def closeAsync (s : State) : State := { s with closeCalls := s.closeCalls + 1, closed := true }

def waitForClose (script : Script) (timeout : Nat) (env : Env) (s : State) :
    Turn State Call (Answer .legacy) :=
  let earlier := s.waitCalls
  let s := { s with waitCalls := earlier + 1 }
  match script.closeError with
  | some e => .answer s (.error e)
  | none =>
    if script.pendingWaits.any (· ≤ earlier) then .answer s Answer.done
    else if script.instantTimeout || env.ring timeout ≤ env.now then .answer s (.error .timeout)
    else .wait s ⟨env.ring timeout⟩

def start (script : Script) (r : LegacyRequest) (env : Env) (s : State) :
    Turn State Call (Answer .legacy) :=
  match r, script.error with
  | .closeAsync, _ => .answer (closeAsync s) Answer.done
  | .waitForClose timeout, _ => waitForClose script timeout env s
  | _, some e => .answer s (.error e)
  | r, none => let (s, a) := perform r s; .answer s a

def level (script : Script) : Level .legacy State Call where
  offers
    | .ttl => script.ttl
    | .multi => script.multi
  asking _ _ := []
  start := start script
  resume call env s := if call.ring ≤ env.now then .answer s (.error .timeout) else .wait s call
  ready call env _ := call.ring ≤ env.now
  alarm call := some call.ring

end CacheBridge.LegacyDouble
