import CacheBridge.Level
import CacheBridge.Settings
import CacheBridge.Store.Slot

/-!
The timed store: a modern cache with the batch surface. Every entry expires after its own TTL, or
after the default TTL of the store when it has none; each write starts the time anew. An expired
entry is absent, to reads and to conditional writes alike. A store with a capacity of zero keeps
nothing. A close drops what is stored and leaves the store in use.
-/

namespace CacheBridge.TimedStore

structure Policy where
  /-- The TTL of entries that have none of their own. -/
  defaultTtl : Option Nat
  capacity : Option Nat
  deriving DecidableEq, Inhabited

namespace Policy

/-- The TTL that an entry expires by. -/
def effective (p : Policy) (ttl : Option Nat) : Option Nat := ttl.or p.defaultTtl

/-- Whether the store keeps anything at all. -/
def keeps (p : Policy) : Bool := p.capacity != some 0

def ofSettings (s : Settings) : Policy := ⟨s.defaultTtl, s.maxEntries⟩

end Policy

abbrev State := Table Slot

variable (policy : Policy) (wall : Nat)

def get (key : Key) (s : State) : Answer .modern :=
  match s.live? wall key with
  | some slot => .ok (.found slot.value)
  | none => .error .keyNotFound

def put (w : Write) (s : State) : State :=
  if policy.keeps then s.put w.key (.written wall w.value (policy.effective w.ttl)) else s

def putNew (w : Write) (s : State) : State × Answer .modern :=
  match s.live? wall w.key with
  | none => (put policy wall w s, Answer.done)
  | some _ => (s, .error .keyAlreadyExists)

def putAll (items : List Write) (s : State) : State :=
  items.foldl (fun s w => put policy wall w s) s

def handle (r : ModernRequest) (env : Env) (s : State) : State × Answer .modern × List Event :=
  match r with
  | .get _ key => (s, get env.wall key s, [])
  | .set _ w => (put policy env.wall w s, Answer.done, [])
  | .add _ w => let (s, a) := putNew policy env.wall w s; (s, a, [])
  | .delete _ key => (s.remove key, Answer.done, [])
  | .setMulti _ items => (putAll policy env.wall items s, Answer.done, [])
  | .close _ => ({}, Answer.done, [.notice .timedStoreClosed])

def level : Level .modern State NoCall := .immediate (· == .multi) (handle policy)

def report (s : State) : String :=
  Text.record "MokaCache"
    [("entry_count", toString s.size), ("weighted_size", toString s.size)]

end CacheBridge.TimedStore
