import CacheBridge.Failure
import CacheBridge.Phase
import CacheBridge.Settings.Variable

/-!
Notices: what the caches, the bridges and the settings have to say to an operator. A notice is
kept as what it is about; its severity, its origin and its text are read off it.
-/

namespace CacheBridge

inductive Severity where
  | debug
  | info
  | warn
  | error
  deriving DecidableEq, Inhabited

def Severity.name : Severity → String
  | debug => "DEBUG"
  | info => "INFO"
  | warn => "WARN"
  | error => "ERROR"

inductive Notice where
  /-- A modern cache was wrapped for legacy callers. -/
  | modernWrapped (multi : Bool)
  /-- A legacy cache was wrapped for modern callers. -/
  | legacyWrapped (ttl multi : Bool)
  /-- The TTL of a write was dropped. -/
  | ttlDropped (ttl : Nat) (key : String)
  /-- The TTLs of a batch were dropped. -/
  | batchTtlsDropped (size : Nat)
  /-- A close was asked for where no background work can be started. -/
  | closeWithoutRuntime
  /-- The close of a wrapped cache failed. -/
  | closeFailed (why : Failure .modern)
  /-- A wait for a close ran out. -/
  | closeOverdue (timeout : Nat) (phase : Phase)
  /-- A close gave up because its scope ended. -/
  | closeAbandoned
  | lazyStoreClosed
  | timedStoreClosed
  /-- A variable is set to something that is no number. -/
  | variableInvalid (v : Variable) (raw : String)

namespace Notice

def severity : Notice → Severity
  | modernWrapped _ | legacyWrapped _ _ | ttlDropped _ _ | batchTtlsDropped _ => .debug
  | lazyStoreClosed | timedStoreClosed => .info
  | closeOverdue _ _ | closeAbandoned | variableInvalid _ _ => .warn
  | closeWithoutRuntime | closeFailed _ => .error

/-- The part of the program that speaks, as filters name it. -/
def origin : Notice → String
  | modernWrapped _ | closeWithoutRuntime | closeFailed _ | closeOverdue _ _ =>
    "conduit::adapters::forward"
  | legacyWrapped _ _ | ttlDropped _ _ | batchTtlsDropped _ | closeAbandoned =>
    "conduit::adapters::reverse"
  | lazyStoreClosed => "storage_engine::memory_cache"
  | timedStoreClosed => "storage_engine::moka_cache"
  | variableInvalid _ _ => "shared::config"

/-- The surfaces found on a modern cache. -/
def modernSurfaces (multi : Bool) : String :=
  Text.record "ModernCapabilities" [("multi", Text.truth multi)]

/-- The surfaces found on a legacy cache. -/
def legacySurfaces (ttl multi : Bool) : String :=
  Text.record "LegacyCapabilities" [("ttl", Text.truth ttl), ("multi", Text.truth multi)]

def text : Notice → String
  | modernWrapped multi => "wrapping modern cache for legacy callers: " ++ modernSurfaces multi
  | legacyWrapped ttl multi =>
    "wrapping legacy cache for modern callers: " ++ legacySurfaces ttl multi
  | ttlDropped ttl key =>
    "dropping ttl " ++ Text.span ttl ++ " for key '" ++ key ++ "': backend has no ttl support"
  | batchTtlsDropped size =>
    "dropping ttls from batch of " ++ toString size ++ ": backend has no ttl support"
  | closeWithoutRuntime => "close requested outside of a tokio runtime, cache left open"
  | closeFailed why => "failed to close wrapped cache: " ++ why.text
  | closeOverdue timeout phase =>
    "cache did not close within " ++ Text.span timeout ++ " (state: " ++ phase.name ++ ")"
  | closeAbandoned => "gave up waiting for legacy cache to close"
  | lazyStoreClosed => "memory cache closed"
  | timedStoreClosed => "moka cache closed"
  | variableInvalid v raw => v.name ++ " has invalid value '" ++ raw ++ "', using default"

end Notice

end CacheBridge
