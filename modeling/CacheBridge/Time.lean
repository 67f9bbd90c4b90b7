/-!
Time in whole nanoseconds, as natural numbers: an instant counts from the start of its clock, a
span is a length of time. The clock has a horizon beyond which no instant can be written, and
timers ring on whole milliseconds only: `ring now span` is the instant at which a timer of length
`span`, set at `now`, goes off. A timer of length zero rings at once on a clock that stands at a
whole millisecond. A timer whose end lies beyond the horizon is one that no clock sees ring.
-/

namespace CacheBridge.Time

def millisecond : Nat := 1000000

def second : Nat := 1000000000

/-- The longest span that can be asked for: the last nanosecond before `2 ^ 64` seconds. -/
def longest : Nat := 0x10000000000000000 * second - 1

/-- The first instant that cannot be written. -/
def horizon : Nat := 0x7fffffffffffffff * second

/-- The instant `span` after `now`, if it can be written. -/
def after? (now span : Nat) : Option Nat :=
  if now + span < horizon then some (now + span) else none

/-- The first whole millisecond that is not before `t`. -/
def roundUp (t : Nat) : Nat := (t + (millisecond - 1)) / millisecond * millisecond

/-- When a timer of length `span`, set at `now`, rings. -/
def ring (now span : Nat) : Nat := roundUp (now + span)

theorem le_roundUp (t : Nat) : t ≤ roundUp t := by
  unfold roundUp millisecond; omega

theorem dvd_roundUp (t : Nat) : millisecond ∣ roundUp t := ⟨_, Nat.mul_comm _ _⟩

theorem roundUp_of_dvd {t : Nat} (h : millisecond ∣ t) : roundUp t = t := by
  obtain ⟨k, rfl⟩ := h
  unfold roundUp millisecond; omega

theorem roundUp_mono {s t : Nat} (h : s ≤ t) : roundUp s ≤ roundUp t := by
  unfold roundUp millisecond; omega

/-- On a clock that stands at whole milliseconds an instant is past exactly when its rounded
form is. -/
theorem roundUp_le_iff {now t : Nat} (h : millisecond ∣ now) : roundUp t ≤ now ↔ t ≤ now := by
  obtain ⟨k, rfl⟩ := h
  unfold roundUp millisecond; omega

theorem le_ring (now span : Nat) : now ≤ ring now span :=
  Nat.le_trans (Nat.le_add_right now span) (le_roundUp _)

theorem lt_ring {now span : Nat} (h : 0 < span) : now < ring now span :=
  Nat.lt_of_lt_of_le (Nat.lt_add_of_pos_right h) (le_roundUp _)

end CacheBridge.Time
