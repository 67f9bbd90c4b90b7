import CacheBridge.EventLoop

/-!
What the event loop does once its tasks are known well enough. Rounds that bring some measure down
as long as a task is ready leave none ready. A loop with an idle background does nothing but look at
the foreground, and if that waits for a timer, the clock goes there, or to the limit.
-/

namespace CacheBridge.EventLoop

variable {m : Machine}

/-! ## Rounds -/

section Rounds

variable {inv : EventLoop m → Prop} (left : EventLoop m → Nat) {tasks : List (Running m)}

theorem settleWithin_of_quiet (n : Nat) {l : EventLoop m} (h : l.readyTasks = []) :
    settleWithin n l = l := by
  cases n with
  | zero => rfl
  | succ n => simp [settleWithin, h]

theorem settle_of_quiet {l : EventLoop m} (h : l.readyTasks = []) : l.settle = l :=
  settleWithin_of_quiet _ h

theorem runTasks_lowers
    (hrun : ∀ l, inv l → ∀ r ∈ tasks, inv (l.runTask r) ∧
      left (l.runTask r) + (if m.ready l.world r.task then 1 else 0) ≤ left l)
    (rs : List (Running m)) (hrs : ∀ r ∈ rs, r ∈ tasks) {l : EventLoop m} (h : inv l) :
    inv (rs.foldl runTask l) ∧ left (rs.foldl runTask l) ≤ left l := by
  induction rs generalizing l with
  | nil => exact ⟨h, Nat.le_refl _⟩
  | cons r rs ih =>
    obtain ⟨hinv, hleft⟩ := hrun l h r (hrs r List.mem_cons_self)
    obtain ⟨hinv', hleft'⟩ := ih (fun r' hr' => hrs r' (List.mem_cons_of_mem _ hr')) hinv
    exact ⟨hinv', Nat.le_trans hleft' (Nat.le_of_add_right_le hleft)⟩

/-- A round in which some task is ready brings the measure down, if no task takes it up and the
ready ones take it down. -/
theorem round_lowers (hmem : ∀ l, inv l → ∀ r ∈ l.queue, r ∈ tasks)
    (hrun : ∀ l, inv l → ∀ r ∈ tasks, inv (l.runTask r) ∧
      left (l.runTask r) + (if m.ready l.world r.task then 1 else 0) ≤ left l)
    {l : EventLoop m} (h : inv l) (hready : l.readyTasks ≠ []) :
    inv l.round ∧ left l.round < left l := by
  have htasks : ∀ r ∈ l.readyTasks, r ∈ tasks :=
    fun r hr => hmem l h r (List.mem_filter.mp hr).1
  have hall : ∀ r ∈ l.readyTasks, m.ready l.world r.task = true :=
    fun r hr => (List.mem_filter.mp hr).2
  unfold round
  cases hrs : l.readyTasks with
  | nil => exact absurd hrs hready
  | cons r rs =>
    rw [hrs] at htasks hall
    obtain ⟨hinv, hleft⟩ := hrun l h r (htasks r List.mem_cons_self)
    rw [if_pos (hall r List.mem_cons_self)] at hleft
    obtain ⟨hinv', hleft'⟩ :=
      runTasks_lowers left hrun rs (fun r' hr' => htasks r' (List.mem_cons_of_mem _ hr')) hinv
    exact ⟨hinv', Nat.lt_of_le_of_lt hleft' hleft⟩

/-- With a round for each unit of the measure, and one more, no task is left ready. -/
theorem settleWithin_quiet
    (hround : ∀ l, inv l → l.readyTasks ≠ [] → inv l.round ∧ left l.round < left l)
    (n : Nat) {l : EventLoop m} (h : inv l) (hn : left l < n) :
    inv (settleWithin n l) ∧ (settleWithin n l).readyTasks = [] := by
  induction n generalizing l with
  | zero => cases hn
  | succ n ih =>
    unfold settleWithin
    cases hready : l.readyTasks with
    | nil => exact ⟨h, hready⟩
    | cons r rs =>
      obtain ⟨hinv, hleft⟩ := hround l h (by simp [hready])
      exact ih hinv (Nat.lt_of_lt_of_le hleft (Nat.le_of_lt_succ hn))

end Rounds

/-- Sleeping is waiting for nothing. The equation is one of functions: applied to a loop, its two
sides would be compared by computing the ring. -/
theorem sleep_eq : @sleep m = fun span l => (l.await (Time.ring l.now span) .clock).1 := by
  delta sleep
  rfl

/-! ## Waiting in an idle loop -/

/-- Setting the clock of the machine to the instant it shows changes nothing. -/
structure Timekeeping (m : Machine) : Prop where
  setNow_now : ∀ w, m.setNow (m.now w) w = w

/-- The loop at another instant. -/
def moved (t : Nat) (l : EventLoop m) : EventLoop m := { l with world := m.setNow t l.world }

/-- Whatever time it gets, no task has anything to do, or to wait for. -/
def Idle (l : EventLoop m) : Prop :=
  ∀ r ∈ l.queue, ∀ t, m.ready (m.setNow t l.world) r.task = false ∧
    m.alarm (m.setNow t l.world) r.task = none

section Waiting

variable {l : EventLoop m} {f : Foreground m} {limit : Nat}

theorem await_answered (limit : Nat) {l' : EventLoop m} {heard : Heard m}
    (h : attend f l = (l', .answered heard)) : l.await limit f = (l', some heard) := by
  simp [await, h]

theorem quiesceWithin_quiet (n : Nat) (hf : l.foregroundReady f = false)
    (h : l.readyTasks = []) : quiesceWithin n f l = (l, .waiting f) := by
  cases n with
  | zero => rfl
  | succ n => simp [quiesceWithin, hf, h]

theorem quiesceWithin_answered {n : Nat} (hn : 0 < n) {l' : EventLoop m} {heard : Heard m}
    (hf : l.foregroundReady f = true) (h : attend f l = (l', .answered heard)) :
    quiesceWithin n f l = (l', .answered heard) := by
  cases n with
  | zero => cases hn
  | succ n => simp [quiesceWithin, hf, h]

variable (hm : Timekeeping m)
include hm

theorem moved_now (l : EventLoop m) : l.moved l.now = l := by
  simp [moved, now, hm.setNow_now]

theorem Idle.quiet (h : l.Idle) : l.readyTasks = [] := by
  refine List.filter_eq_nil_iff.mpr fun r hr => ?_
  have hready := (h r hr (m.now l.world)).1
  rw [hm.setNow_now] at hready
  simp [hready]

theorem Idle.no_alarms (h : l.Idle) :
    l.queue.filterMap (fun r => m.alarm l.world r.task) = [] := by
  refine List.filterMap_eq_nil_iff.mpr fun r hr => ?_
  have halarm := (h r hr (m.now l.world)).2
  rwa [hm.setNow_now] at halarm

theorem Idle.nextInstant_clock (h : l.Idle) (limit : Nat) : l.nextInstant limit .clock = limit := by
  simp [nextInstant, alarms, h.no_alarms hm]

theorem Idle.nextInstant_call (h : l.Idle) (limit : Nat) (task : m.Task) {ring : Nat}
    (halarm : m.alarm l.world task = some ring) (hring : l.now < ring) :
    l.nextInstant limit (.call task) = min limit ring := by
  simp [nextInstant, alarms, h.no_alarms hm, halarm, hring]

/-- A foreground that has nothing to wait for before the limit is given up there. -/
theorem Idle.awaitWithin_lapses (h : l.Idle) {n : Nat} (hn : 0 < n)
    (hf : l.foregroundReady f = false) (hlate : (l.moved limit).foregroundReady f = false)
    (hnext : l.nextInstant limit f = limit) :
    awaitWithin n limit f l = (l.moved limit, none) := by
  cases n with
  | zero => cases hn
  | succ n =>
    have hquiet := quiesceWithin_quiet patience hf (h.quiet hm)
    unfold moved at hlate
    simp [awaitWithin, hquiet, hnext, hlate, moved]

/-- A call that waits for its timer alone hears of it, if that rings before the limit or at it. -/
theorem Idle.awaitWithin_rings (h : l.Idle) {n : Nat} {task : m.Task} {ring : Nat}
    (hring : l.now < ring) (hlimit : ring ≤ limit)
    (halarm : m.alarm l.world task = some ring)
    (hready : ∀ t, m.ready (m.setNow t l.world) task = decide (ring ≤ t))
    {world : m.World} {result : m.Result}
    (hrun : m.run (m.setNow ring l.world) task = (world, .answered result)) :
    awaitWithin (n + 2) limit (.call task) l =
      ({ l with world := world }, some (.result result)) := by
  have hnot : l.foregroundReady (.call task) = false := by
    have hnow := hready l.now
    rw [decide_eq_false (Nat.not_le.mpr hring), now, hm.setNow_now] at hnow
    exact hnow
  have hrings : (l.moved ring).foregroundReady (.call task) = true := by
    simp [foregroundReady, moved, hready]
  have hattend : attend (.call task) (l.moved ring) =
      ({ l with world := world }, .answered (.result result)) := by
    simp [attend, moved, hrun]
  have hquiet := quiesceWithin_quiet patience hnot (h.quiet hm)
  have hnext : l.nextInstant limit (.call task) = ring := by
    rw [h.nextInstant_call hm limit task halarm hring, Nat.min_eq_right hlimit]
  have hanswer : quiesceWithin patience (.call task) (l.moved ring) = _ :=
    quiesceWithin_answered (by decide) hrings hattend
  unfold moved at hrings hattend hanswer
  unfold awaitWithin
  simp only [hquiet, hnext]
  split
  · rw [hattend]
  · simp [awaitWithin, hanswer]

/-- The first look at the foreground has left it waiting, and it waits beyond the limit. -/
theorem Idle.await_lapses (h : l.Idle) {f₀ : Foreground m} {l₀ : EventLoop m}
    (hattend : attend f₀ l₀ = (l, .waiting f)) (hf : l.foregroundReady f = false)
    (hlate : (l.moved limit).foregroundReady f = false) (hnext : l.nextInstant limit f = limit)
    (hlimit : l.now ≤ limit) : l₀.await limit f₀ = (l.moved limit, none) := by
  unfold await
  simp only [hattend]
  split
  · next hle => rw [Nat.le_antisymm hle hlimit, l.moved_now hm]
  · exact h.awaitWithin_lapses hm (Nat.succ_pos _) hf hlate hnext

/-- An idle loop sleeps for as long as it is told to. -/
theorem Idle.sleep (h : l.Idle) (span : Nat) : l.sleep span = l.moved (Time.ring l.now span) := by
  have hattend : attend .clock l = (l, .waiting .clock) := rfl
  have hawait (limit : Nat) (hlimit : l.now ≤ limit) :
      l.await limit .clock = (l.moved limit, none) :=
    h.await_lapses hm hattend rfl rfl (h.nextInstant_clock hm limit) hlimit
  rw [sleep_eq]
  exact congrArg Prod.fst (hawait _ (Time.le_ring l.now span))

/-- The first look at the foreground has left it waiting for a timer that rings in time. -/
theorem Idle.await_rings (h : l.Idle) {f₀ : Foreground m} {l₀ : EventLoop m} {task : m.Task}
    (hattend : attend f₀ l₀ = (l, .waiting (.call task))) {ring : Nat} (hring : l.now < ring)
    (hlimit : ring ≤ limit) (halarm : m.alarm l.world task = some ring)
    (hready : ∀ t, m.ready (m.setNow t l.world) task = decide (ring ≤ t))
    {world : m.World} {result : m.Result}
    (hrun : m.run (m.setNow ring l.world) task = (world, .answered result)) :
    l₀.await limit f₀ = ({ l with world := world }, some (.result result)) := by
  unfold await
  simp only [hattend]
  rw [if_neg (Nat.not_le.mpr (Nat.lt_of_lt_of_le hring hlimit))]
  exact h.awaitWithin_rings hm hring hlimit halarm hready hrun

end Waiting

end CacheBridge.EventLoop
