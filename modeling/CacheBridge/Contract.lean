import CacheBridge.Failure
import CacheBridge.Scope

/-!
The two contracts. Requests of either generation are data, one constructor for each operation; an
answer is a failure of that generation or a reply. A TTL of `none` leaves expiry to the cache,
while `some 0` is a TTL like any other.
-/

namespace CacheBridge

abbrev Key := String

abbrev Bytes := List UInt8

/-- One key to write: its value and its TTL. -/
structure Write where
  key : Key
  value : Bytes
  ttl : Option Nat
  deriving DecidableEq, Inhabited

/-- A write under one key, without the key. -/
structure Timed where
  value : Bytes
  ttl : Option Nat
  deriving DecidableEq, Inhabited

/-- The TTL as it is shown. -/
def ttlReport (ttl : Option Nat) : String := Text.optional (ttl.map Text.span)

def Write.report (w : Write) : String :=
  Text.record "CacheItem"
    [("key", Text.quoted w.key), ("value", Text.quotedBytes w.value), ("ttl", ttlReport w.ttl)]

def Timed.report (w : Timed) : String :=
  Text.record "TtlItem" [("value", Text.quotedBytes w.value), ("ttl", ttlReport w.ttl)]

def Write.timed (w : Write) : Timed := ⟨w.value, w.ttl⟩

/-- A write without a TTL. -/
def Write.plain (key : Key) (value : Bytes) : Write := ⟨key, value, none⟩

/-- An optional surface of a cache. -/
inductive Surface where
  | ttl
  | multi
  deriving DecidableEq, Inhabited

/-- Requests of the modern contract; each comes with the caller's scope. -/
inductive ModernRequest where
  | get (scope : Scope) (key : Key)
  | set (scope : Scope) (w : Write)
  | add (scope : Scope) (w : Write)
  | delete (scope : Scope) (key : Key)
  | close (scope : Scope)
  | setMulti (scope : Scope) (items : List Write)
  deriving DecidableEq, Inhabited

/-- Requests of the legacy contract. The last three belong to the optional surfaces. -/
inductive LegacyRequest where
  | get (key : Key)
  | set (key : Key) (value : Bytes)
  | add (key : Key) (value : Bytes)
  | delete (key : Key)
  | closeAsync
  | waitForClose (timeout : Nat)
  | setWithTtl (w : Write)
  | addWithTtl (w : Write)
  | setMultiWithTtl (items : List Write)
  | setMulti (items : List (Key × Bytes))
  deriving DecidableEq, Inhabited

/-- The requests of a generation. -/
abbrev Request : Generation → Type
  | .modern => ModernRequest
  | .legacy => LegacyRequest

/-- What a call that succeeds brings back. -/
inductive Reply where
  | done
  | found (value : Bytes)
  deriving DecidableEq, Inhabited

/-- The answer to a call at a cache of generation `g`. -/
abbrev Answer (g : Generation) := Except (Failure g) Reply

namespace Answer

def done {g : Generation} : Answer g := .ok .done

/-- The answer as one of generation `h`. -/
def as {g : Generation} (h : Generation) : Answer g → Answer h
  | .ok r => .ok r
  | .error e => .error (e.as h)

@[simp] theorem as_self {g : Generation} (a : Answer g) : a.as g = a := by
  cases a <;> simp [as]

@[simp] theorem as_as {g h i : Generation} (a : Answer g) : (a.as h).as i = a.as i := by
  cases a <;> simp [as]

end Answer

end CacheBridge
