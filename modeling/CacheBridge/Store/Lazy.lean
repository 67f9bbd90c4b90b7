import CacheBridge.Level
import CacheBridge.Store.Slot

/-!
The lazy store: a legacy cache with both optional surfaces. An expired slot stays where it is until
somebody touches its key: a read that finds one takes it out, and a conditional write treats its
place as free. The first close empties the store and reports it closed at once; later
closes do nothing, and reads and writes go on as before.
-/

namespace CacheBridge.LazyStore

structure State where
  slots : Table Slot
  phase : Phase
  deriving Inhabited

def fresh : State := ⟨{}, .active⟩

variable (wall : Nat)

def get (key : Key) (s : State) : State × Answer .legacy :=
  match s.slots.get? key with
  | none => (s, .error .keyNotFound)
  | some slot =>
    if slot.expired wall then ({ s with slots := s.slots.remove key }, .error .keyNotFound)
    else (s, .ok (.found slot.value))

/-- Writes, whatever stands under the key. -/
def put (w : Write) (s : State) : State :=
  { s with slots := s.slots.put w.key (.written wall w.value w.ttl) }

/-- Writes where nothing stands that has not expired. -/
def putNew (w : Write) (s : State) : State × Answer .legacy :=
  match s.slots.live? wall w.key with
  | none => (put wall w s, Answer.done)
  | some _ => (s, .error .keyAlreadyExists)

def delete (key : Key) (s : State) : State := { s with slots := s.slots.remove key }

/-- Writes one item after the other. -/
def putAll (items : List Write) (s : State) : State := items.foldl (fun s w => put wall w s) s

def closeAsync (s : State) : State × List Event :=
  if s.phase.beginClose.1 then (⟨{}, .closed⟩, [.notice .lazyStoreClosed]) else (s, [])

/-- Tells a waiter what the look at the phase has given. -/
def tell (s : State) : Progress ClosedWait Bool → Turn State ClosedWait (Answer .legacy)
  | .waiting wait => .wait s wait
  | .answered true => .answer s Answer.done
  | .answered false => .answer s (.error .timeout)

def start (r : LegacyRequest) (env : Env) (s : State) : Turn State ClosedWait (Answer .legacy) :=
  let both (result : State × Answer .legacy) := Turn.answer result.1 result.2
  match r with
  | .get key => both (get env.wall key s)
  | .set key value => .answer (put env.wall (.plain key value) s) Answer.done
  | .add key value => both (putNew env.wall (.plain key value) s)
  | .delete key => .answer (delete key s) Answer.done
  | .setWithTtl w => .answer (put env.wall w s) Answer.done
  | .addWithTtl w => both (putNew env.wall w s)
  | .setMultiWithTtl items => .answer (putAll env.wall items s) Answer.done
  | .setMulti items =>
    .answer (putAll env.wall (items.map fun (key, value) => .plain key value) s) Answer.done
  | .closeAsync => let (s, events) := closeAsync s; (Turn.answer s Answer.done).after events
  | .waitForClose timeout => tell s (ClosedWait.start s.phase env.now timeout)

def level : Level .legacy State ClosedWait where
  offers _ := true
  asking _ _ := []
  start := start
  resume wait env s := tell s (wait.look s.phase env.now)
  ready wait env s := wait.ready s.phase env.now
  alarm := ClosedWait.alarm

def report (s : State) : String :=
  Text.record "MemoryCache"
    [("entry_count", toString s.slots.size), ("shutdown", s.phase.name)]

end CacheBridge.LazyStore
