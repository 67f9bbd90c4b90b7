import CacheBridge.Contract
import CacheBridge.Table

/-!
What a store keeps under a key: a value, and the instant from which it counts as gone. A write
whose TTL ends beyond the clock's horizon never expires, and a TTL of zero has expired by the time
of the next look.
-/

namespace CacheBridge

structure Slot where
  value : Bytes
  expires : Option Nat
  deriving DecidableEq, Inhabited

namespace Slot

/-- A value written at `wall` with a TTL. -/
def written (wall : Nat) (value : Bytes) (ttl : Option Nat) : Slot :=
  ⟨value, ttl.bind (Time.after? wall)⟩

def expired (wall : Nat) (s : Slot) : Bool := s.expires.any (· ≤ wall)

theorem expired_mono {s : Slot} {wall later : Nat} (h : wall ≤ later)
    (he : s.expired wall = true) : s.expired later = true := by
  simp only [expired, Option.any_eq_true, decide_eq_true_eq] at he ⊢
  obtain ⟨t, ht, hle⟩ := he
  exact ⟨t, ht, Nat.le_trans hle h⟩

@[simp] theorem expired_written_none (wall later : Nat) (value : Bytes) :
    (written wall value none).expired later = false := rfl

end Slot

/-- The slot under a key, unless it has expired. -/
def Table.live? (slots : Table Slot) (wall : Nat) (key : Key) : Option Slot :=
  (slots.get? key).filter fun s => !s.expired wall

namespace Table

theorem live?_eq_some_iff {slots : Table Slot} {wall : Nat} {key : Key} {s : Slot} :
    slots.live? wall key = some s ↔ slots.get? key = some s ∧ s.expired wall = false := by
  simp [live?, Option.filter_eq_some_iff]

theorem live?_put (slots : Table Slot) (wall : Nat) (j k : Key) (s : Slot) :
    (slots.put k s).live? wall j =
      if j = k then (some s).filter (fun s => !s.expired wall) else slots.live? wall j := by
  simp only [live?, get?_put]
  split <;> rfl

theorem live?_remove (slots : Table Slot) (wall : Nat) (j k : Key) :
    (slots.remove k).live? wall j = if j = k then none else slots.live? wall j := by
  simp only [live?, get?_remove]
  split <;> rfl

/-- Taking out a slot that has expired changes nothing that can be seen. -/
theorem live?_remove_expired {slots : Table Slot} {wall : Nat} {k : Key} {s : Slot}
    (h : slots.get? k = some s) (he : s.expired wall = true) (j : Key) :
    (slots.remove k).live? wall j = slots.live? wall j := by
  rw [live?_remove]
  split
  · next hjk => simp [live?, hjk, h, Option.filter, he]
  · rfl

end Table

end CacheBridge
