import CacheBridge.Proofs.ScopeHistory
import CacheBridge.Session.Scopes

/-!
Those who wait for the end of a scope. Any number of them may wait, on handles that somebody holds,
while scopes are made, derived, let go and cancelled by whoever holds a handle. Time stands still as
long as one of those who wait is ready; else the clock goes on to the timer that rings next, whether
it is the deadline of one who waits or the timer of somebody who only sleeps. Timers ring on whole
milliseconds, so the clock never stands between two of them, and there the deadline and its timer
are past together.
-/

namespace CacheBridge

/-- A wait for the end of a scope: by which handle, and since when. -/
structure Vigil where
  handle : Handle
  since : Nat
  deriving DecidableEq

structure Vigils where
  scopes : ScopeHistory := {}
  /-- The lines of the scopes that were cancelled, and when. -/
  cancels : List (Nat × List Birth) := []
  /-- When it rings for those who only sleep. -/
  timers : List Nat := []
  begun : List Vigil := []
  waiting : List Vigil := []
  /-- The waits that are over, and when they were. -/
  told : List (Vigil × Nat) := []
  abandoned : List Vigil := []

namespace Vigils

inductive Act where
  /-- Does something with the scopes that takes no time. -/
  | scopes (act : ScopeHistory.Act)
  | sleep (span : Nat)
  /-- Waits by the handle at a place. -/
  | wait (place : Nat)
  | look (i : Nat)
  | abandon (i : Nat)
  /-- The clock goes on. -/
  | tick

def now (w : Vigils) : Nat := w.scopes.now

def world (w : Vigils) : ScopeSession.World := ⟨w.now, w.scopes.tree⟩

/-- The wait as one of a session, by somebody who borrows the handle. A task with a handle of its
own waits by a clone, and lets go of it afterwards. -/
def task (v : Vigil) : ScopeSession.Wait := ⟨v.handle.scope, false⟩

def ready (w : Vigils) (v : Vigil) : Bool := ScopeSession.machine.ready w.world (task v)

def alarms (w : Vigils) : List Nat :=
  w.waiting.filterMap (fun v => ScopeSession.machine.alarm w.world (task v)) ++ w.timers

/-- When the next of the alarms is that are still to come. -/
def next? (w : Vigils) : Option Nat := (w.alarms.filter (w.now < ·)).min?

/-- The line of the scope that an act cancels, if it cancels one. -/
def struck (h : ScopeHistory) : ScopeHistory.Act → List (List Birth)
  | .cancel place => (h.held[place]?.map (·.line)).toList
  | _ => []

theorem cancelled_take (h : ScopeHistory) (act : ScopeHistory.Act) :
    (h.take act).cancelled = h.cancelled ++ struck h act := by
  have hat (place : Nat) (f : Handle → ScopeHistory) (hf : ∀ c, (f c).cancelled = h.cancelled) :
      (ScopeHistory.take.withHandle h place f).cancelled = h.cancelled ++ [] := by
    rw [List.append_nil, ScopeHistory.take.withHandle]
    cases h.held[place]? with
    | none => rfl
    | some c => exact hf c
  cases act with
  | background | withTimeout | pass => exact (List.append_nil _).symm
  | timeout place | child place | clone place | drop place => exact hat place _ fun _ => rfl
  | cancel place =>
    rw [ScopeHistory.take, ScopeHistory.take.withHandle, struck]
    cases h.held[place]? with
    | none => exact (List.append_nil _).symm
    | some c => rfl

theorem take_pass (h : ScopeHistory) {t : Nat} (ht : h.now ≤ t) :
    h.take (.pass (t - h.now)) = { h with now := t } := by
  simp only [ScopeHistory.take, Nat.add_sub_of_le ht]

/-- Acts, if this can be done now. No handle is let go by which somebody waits. -/
def step? (w : Vigils) : Act → Option Vigils
  | .scopes act =>
    let after := w.scopes.take act
    if after.now = w.now ∧ ∀ v ∈ w.waiting, v.handle ∈ after.held then
      some { w with
        scopes := after
        cancels := w.cancels ++ (struck w.scopes act).map fun line => (w.now, line) }
    else none
  | .sleep span => some { w with timers := w.timers ++ [Time.ring w.now span] }
  | .wait place => (w.scopes.held[place]?).map fun c =>
    { w with begun := w.begun ++ [⟨c, w.now⟩], waiting := w.waiting ++ [⟨c, w.now⟩] }
  | .look i => (w.waiting[i]?).map fun v =>
    match (ScopeSession.machine.run w.world (task v)).2 with
    | .waiting _ => w
    | .answered _ => { w with waiting := w.waiting.eraseIdx i, told := w.told ++ [(v, w.now)] }
  | .abandon i => (w.waiting[i]?).map fun v =>
    { w with waiting := w.waiting.eraseIdx i, abandoned := w.abandoned ++ [v] }
  | .tick =>
    if w.waiting.any w.ready then none
    else w.next?.map fun t => { w with scopes := w.scopes.take (.pass (t - w.now)) }

/-- Acts from the beginning, if all of it can be done. -/
def run? (acts : List Act) : Option Vigils := acts.foldlM step? {}

theorem run?_concat {acts : List Act} {act : Act} {w' : Vigils} :
    run? (acts ++ [act]) = some w' ↔ ∃ w, run? acts = some w ∧ w.step? act = some w' := by
  simp [run?, List.foldlM_append, Option.bind_eq_some_iff]

/-- What an act comes to. -/
inductive Stepped (w : Vigils) : Act → Vigils → Prop where
  | scopes {act : ScopeHistory.Act} (hnow : (w.scopes.take act).now = w.now)
      (hheld : ∀ v ∈ w.waiting, v.handle ∈ (w.scopes.take act).held) :
      Stepped w (.scopes act)
        { w with
          scopes := w.scopes.take act
          cancels := w.cancels ++ (struck w.scopes act).map fun line => (w.now, line) }
  | sleep (span : Nat) :
      Stepped w (.sleep span) { w with timers := w.timers ++ [Time.ring w.now span] }
  | wait {place : Nat} {c : Handle} (hc : w.scopes.held[place]? = some c) :
      Stepped w (.wait place)
        { w with begun := w.begun ++ [⟨c, w.now⟩], waiting := w.waiting ++ [⟨c, w.now⟩] }
  | told {i : Nat} {v : Vigil} (hv : w.waiting[i]? = some v) (hready : w.ready v = true) :
      Stepped w (.look i)
        { w with waiting := w.waiting.eraseIdx i, told := w.told ++ [(v, w.now)] }
  | waits {i : Nat} {v : Vigil} (hv : w.waiting[i]? = some v) (hready : w.ready v = false) :
      Stepped w (.look i) w
  | abandon {i : Nat} {v : Vigil} (hv : w.waiting[i]? = some v) :
      Stepped w (.abandon i)
        { w with waiting := w.waiting.eraseIdx i, abandoned := w.abandoned ++ [v] }
  | tick {t : Nat} (hquiet : ∀ v ∈ w.waiting, w.ready v = false) (hnow : w.now < t)
      (halarm : t ∈ w.alarms) (hfirst : ∀ a ∈ w.alarms, w.now < a → t ≤ a) :
      Stepped w .tick { w with scopes := { w.scopes with now := t } }

theorem step?_look {w : Vigils} {i : Nat} {v : Vigil} (hv : w.waiting[i]? = some v) :
    w.step? (.look i) = some (if w.ready v then
      { w with waiting := w.waiting.eraseIdx i, told := w.told ++ [(v, w.now)] } else w) := by
  cases hready : w.ready v with
  | true =>
    have hheard : w.scopes.tree.heard w.now v.handle.scope = true := hready
    simp [step?, hv, ScopeSession.machine, task, world, hheard]
  | false =>
    have hheard : w.scopes.tree.heard w.now v.handle.scope = false := hready
    simp [step?, hv, ScopeSession.machine, task, world, hheard]

theorem stepped {w w' : Vigils} {act : Act} (h : w.step? act = some w') : w.Stepped act w' := by
  cases act with
  | scopes act =>
    simp only [step?] at h
    split at h
    · next hact =>
      cases h
      exact .scopes hact.1 hact.2
    · cases h
  | sleep span =>
    cases h
    exact .sleep span
  | wait place =>
    obtain ⟨c, hc, rfl⟩ := Option.map_eq_some_iff.mp h
    exact .wait hc
  | look i =>
    obtain ⟨v, hv, -⟩ := Option.map_eq_some_iff.mp h
    rw [step?_look hv] at h
    cases hready : w.ready v with
    | true =>
      rw [hready] at h
      cases h
      exact .told hv hready
    | false =>
      rw [hready] at h
      cases h
      exact .waits hv hready
  | abandon i =>
    obtain ⟨v, hv, rfl⟩ := Option.map_eq_some_iff.mp h
    exact .abandon hv
  | tick =>
    simp only [step?] at h
    split at h
    · cases h
    · next hquiet =>
      obtain ⟨t, ht, rfl⟩ := Option.map_eq_some_iff.mp h
      obtain ⟨hmem, hfirst⟩ := List.min?_eq_some_iff.mp ht
      obtain ⟨halarm, hnow⟩ := List.mem_filter.mp hmem
      have hnow : w.now < t := of_decide_eq_true hnow
      rw [now, take_pass w.scopes (Nat.le_of_lt hnow)]
      refine .tick ?_ hnow halarm fun a ha hlt => ?_
      · simpa [List.any_eq_true] using hquiet
      · exact hfirst a (List.mem_filter.mpr ⟨ha, decide_eq_true hlt⟩)

/-! ## When a scope has ended -/

/-- By an instant the timer of the deadline has rung, or something in the line was cancelled. -/
def EndsBy (cancels : List (Nat × List Birth)) (c : Handle) (t : Nat) : Prop :=
  (∃ d, c.scope.deadline = some d ∧ Time.roundUp d ≤ t) ∨
    ∃ k line, (k, line) ∈ cancels ∧ k ≤ t ∧ line <:+ c.line

/-- At some point of the course, at this instant, the scope was found to have ended. -/
def Found (acts : List Act) (c : Handle) (t : Nat) : Prop :=
  ∃ begun w, begun <+: acts ∧ run? begun = some w ∧ w.now = t ∧ c ∈ w.scopes.held ∧
    w.scopes.ended c = true

/-- What is cancelled at an instant changes nothing for the instants before it. -/
theorem endsBy_append_iff {cancels new : List (Nat × List Birth)} {now t : Nat} (c : Handle)
    (hnew : ∀ p ∈ new, p.1 = now) (ht : t < now) :
    EndsBy (cancels ++ new) c t ↔ EndsBy cancels c t := by
  refine or_congr_right ⟨?_, ?_⟩
  · rintro ⟨k, line, hmem, hk, hsuffix⟩
    obtain hmem | hmem := List.mem_append.mp hmem
    · exact ⟨k, line, hmem, hk, hsuffix⟩
    · have hnow : k = now := hnew _ hmem
      omega
  · rintro ⟨k, line, hmem, hk, hsuffix⟩
    exact ⟨k, line, List.mem_append_left _ hmem, hk, hsuffix⟩

theorem EndsBy.append {cancels : List (Nat × List Birth)} {c : Handle} {t : Nat}
    (h : EndsBy cancels c t) (new : List (Nat × List Birth)) : EndsBy (cancels ++ new) c t :=
  h.imp_right fun ⟨k, line, hmem, hrest⟩ => ⟨k, line, List.mem_append_left _ hmem, hrest⟩

/-! ## What every act keeps -/

/-- Nobody waits who should have been told at an earlier instant, and whoever was told was told at
the first instant at which there was something to tell. -/
structure Watch (w : Vigils) : Prop where
  history : ∃ acts, w.scopes = ScopeHistory.run acts
  whole : Time.millisecond ∣ w.now
  rings : ∀ t ∈ w.timers, Time.millisecond ∣ t
  struck : w.scopes.cancelled = w.cancels.map Prod.snd
  past : ∀ p ∈ w.cancels, p.1 ≤ w.now
  held : ∀ v ∈ w.waiting, v.handle ∈ w.scopes.held
  waiting : ∀ v ∈ w.waiting, v.since ≤ w.now ∧
    ∀ t, v.since ≤ t → t < w.now → ¬EndsBy w.cancels v.handle t
  ends : ∀ v t, (v, t) ∈ w.told → v.since ≤ t ∧ t ≤ w.now ∧ EndsBy w.cancels v.handle t ∧
    ∀ u, v.since ≤ u → u < t → ¬EndsBy w.cancels v.handle u
  begun : w.begun.Perm (w.abandoned ++ w.told.map Prod.fst ++ w.waiting)

namespace Watch

variable {w w' : Vigils}

/-- On whole milliseconds the deadline has come when its timer has rung. -/
theorem ended_iff (hw : w.Watch) {c : Handle} (hc : c ∈ w.scopes.held) :
    w.scopes.ended c = true ↔ EndsBy w.cancels c w.now := by
  obtain ⟨acts, hacts⟩ := hw.history
  have hstands : c.scope.deadline = earliest c.line := by
    obtain ⟨line, birth, cancels, hr⟩ := ScopeHistory.onRecord_run acts
    obtain ⟨n, hstands⟩ := hr.stands c (hacts ▸ hc)
    exact hstands.deadline
  rw [hacts, ScopeHistory.run_ended_iff (hacts ▸ hc), ← hacts, hw.struck, ← hstands]
  refine or_congr (exists_congr fun d => and_congr_right fun _ => ?_) ⟨?_, ?_⟩
  · exact (Time.roundUp_le_iff hw.whole).symm
  · rintro ⟨line, hmem, hsuffix⟩
    obtain ⟨⟨k, _⟩, hp, rfl⟩ := List.mem_map.mp hmem
    exact ⟨k, _, hp, hw.past _ hp, hsuffix⟩
  · rintro ⟨k, line, hmem, -, hsuffix⟩
    exact ⟨line, List.mem_map_of_mem hmem, hsuffix⟩

/-- Whoever waits hears of the end when it has come: of a cancellation or of the timer. -/
theorem ready_eq (hw : w.Watch) (v : Vigil) : w.ready v = w.scopes.ended v.handle :=
  w.scopes.tree.heard_eq_ended hw.whole v.handle.scope

theorem ready_iff (hw : w.Watch) {v : Vigil} (hv : v ∈ w.waiting) :
    w.ready v = true ↔ EndsBy w.cancels v.handle w.now := by
  rw [hw.ready_eq, hw.ended_iff (hw.held v hv)]

theorem scopes (hw : w.Watch) {act : ScopeHistory.Act} (hnow : (w.scopes.take act).now = w.now)
    (hheld : ∀ v ∈ w.waiting, v.handle ∈ (w.scopes.take act).held) :
    Watch { w with
      scopes := w.scopes.take act
      cancels := w.cancels ++ (Vigils.struck w.scopes act).map fun line => (w.now, line) } := by
  have hnew : ∀ p ∈ (Vigils.struck w.scopes act).map fun line => (w.now, line), p.1 = w.now := by
    intro p hp
    obtain ⟨line, -, rfl⟩ := List.mem_map.mp hp
    rfl
  obtain ⟨acts, hacts⟩ := hw.history
  refine ⟨⟨acts ++ [act], ?_⟩, ?_, hw.rings, ?_, ?_, hheld, ?_, ?_, hw.begun⟩
  · rw [ScopeHistory.run_concat, ← hacts]
  · exact hnow.symm ▸ hw.whole
  · rw [List.map_append, ← hw.struck, List.map_map, cancelled_take]
    exact congrArg _ (List.map_id _).symm
  · intro p hp
    refine Nat.le_trans ?_ (Nat.le_of_eq hnow.symm)
    obtain hp | hp := List.mem_append.mp hp
    · exact hw.past p hp
    · exact Nat.le_of_eq (hnew p hp)
  · intro v hv
    obtain ⟨hsince, hearly⟩ := hw.waiting v hv
    refine ⟨Nat.le_trans hsince (Nat.le_of_eq hnow.symm), fun t hle hlt => ?_⟩
    have hlt : t < w.now := Nat.lt_of_lt_of_eq hlt hnow
    rw [endsBy_append_iff v.handle hnew hlt]
    exact hearly t hle hlt
  · intro v t hv
    obtain ⟨hsince, hnow', hends, hfirst⟩ := hw.ends v t hv
    refine ⟨hsince, Nat.le_trans hnow' (Nat.le_of_eq hnow.symm), hends.append _,
      fun u hle hlt => ?_⟩
    rw [endsBy_append_iff v.handle hnew (Nat.lt_of_lt_of_le hlt hnow')]
    exact hfirst u hle hlt

theorem sleep (hw : w.Watch) (span : Nat) :
    Watch { w with timers := w.timers ++ [Time.ring w.now span] } := by
  refine { hw with rings := fun t ht => ?_ }
  obtain ht | ht := List.mem_append.mp ht
  · exact hw.rings t ht
  · cases List.mem_singleton.mp ht
    exact Time.dvd_roundUp _

theorem wait (hw : w.Watch) {c : Handle} (hc : c ∈ w.scopes.held) :
    Watch { w with begun := w.begun ++ [⟨c, w.now⟩], waiting := w.waiting ++ [⟨c, w.now⟩] } := by
  refine { hw with held := ?_, waiting := ?_, begun := ?_ }
  · exact List.forall_mem_append.mpr ⟨hw.held, List.forall_mem_singleton.mpr hc⟩
  · refine List.forall_mem_append.mpr ⟨hw.waiting, List.forall_mem_singleton.mpr ?_⟩
    exact ⟨Nat.le_refl _, fun t hle hlt => absurd hlt (Nat.not_lt.mpr hle)⟩
  · have hone := hw.begun.append_right [⟨c, w.now⟩]
    rwa [List.append_assoc] at hone

/-- Who waits, with one of them taken out. -/
theorem begun_pick (hw : w.Watch) {i : Nat} {v : Vigil} (hv : w.waiting[i]? = some v) :
    w.begun.Perm (w.abandoned ++ w.told.map Prod.fst ++ v :: w.waiting.eraseIdx i) := by
  obtain ⟨hi, rfl⟩ := List.getElem?_eq_some_iff.mp hv
  exact hw.begun.trans ((List.getElem_cons_eraseIdx_perm hi).symm.append_left _)

/-- Whoever is told is told that it has ended, and it had not at any earlier instant. -/
theorem told (hw : w.Watch) {i : Nat} {v : Vigil} (hv : w.waiting[i]? = some v)
    (hready : w.ready v = true) :
    Watch { w with waiting := w.waiting.eraseIdx i, told := w.told ++ [(v, w.now)] } := by
  have hmem := List.mem_of_getElem? hv
  refine { hw with held := ?_, waiting := ?_, ends := ?_, begun := ?_ }
  · exact fun u hu => hw.held u (List.mem_of_mem_eraseIdx hu)
  · exact fun u hu => hw.waiting u (List.mem_of_mem_eraseIdx hu)
  · intro u t hu
    obtain hu | hu := List.mem_append.mp hu
    · exact hw.ends u t hu
    · cases List.mem_singleton.mp hu
      obtain ⟨hsince, hearly⟩ := hw.waiting v hmem
      exact ⟨hsince, Nat.le_refl _, (hw.ready_iff hmem).mp hready, hearly⟩
  · simpa using hw.begun_pick hv

theorem abandon (hw : w.Watch) {i : Nat} {v : Vigil} (hv : w.waiting[i]? = some v) :
    Watch { w with waiting := w.waiting.eraseIdx i, abandoned := w.abandoned ++ [v] } := by
  refine { hw with held := ?_, waiting := ?_, begun := ?_ }
  · exact fun u hu => hw.held u (List.mem_of_mem_eraseIdx hu)
  · exact fun u hu => hw.waiting u (List.mem_of_mem_eraseIdx hu)
  · refine (hw.begun_pick hv).trans ?_
    simp only [List.append_assoc, List.singleton_append]
    exact List.perm_middle.append_left _

/-- The clock does not pass the instant at which a scope ends that somebody waits for. -/
theorem tick (hw : w.Watch) {t : Nat} (hquiet : ∀ v ∈ w.waiting, w.ready v = false)
    (hnow : w.now < t) (halarm : t ∈ w.alarms) (hfirst : ∀ a ∈ w.alarms, w.now < a → t ≤ a) :
    Watch { w with scopes := { w.scopes with now := t } } := by
  obtain ⟨acts, hacts⟩ := hw.history
  have hwhole : Time.millisecond ∣ t := by
    obtain ha | ha := List.mem_append.mp halarm
    · obtain ⟨v, -, hv⟩ := List.mem_filterMap.mp ha
      obtain ⟨d, -, hd⟩ := Option.map_eq_some_iff.mp hv
      rw [← hd]
      exact Time.dvd_roundUp d
    · exact hw.rings t ha
  refine { hw with
    history := ⟨acts ++ [.pass (t - w.now)], ?_⟩
    whole := hwhole
    past := ?_
    waiting := ?_
    ends := ?_ }
  · rw [ScopeHistory.run_concat, ← hacts]
    exact (take_pass w.scopes (Nat.le_of_lt hnow)).symm
  · exact fun p hp => Nat.le_trans (hw.past p hp) (Nat.le_of_lt hnow)
  · intro v hv
    obtain ⟨hsince, hearly⟩ := hw.waiting v hv
    have hnot : ¬EndsBy w.cancels v.handle w.now := by
      rw [← hw.ready_iff hv, hquiet v hv]
      exact Bool.false_ne_true
    refine ⟨Nat.le_trans hsince (Nat.le_of_lt hnow), fun u hle hlt hends => ?_⟩
    have hlt : u < t := hlt
    by_cases hu : u < w.now
    · exact hearly u hle hu hends
    · obtain ⟨d, hd, hrung⟩ | ⟨k, line, hmem, hk, hsuffix⟩ := hends
      · have hring : Time.roundUp d ∈ w.alarms :=
          List.mem_append_left _ (List.mem_filterMap.mpr ⟨v, hv, congrArg (Option.map _) hd⟩)
        by_cases hpast : w.now < Time.roundUp d
        · exact absurd (hfirst _ hring hpast) (by omega)
        · exact hnot (.inl ⟨d, hd, Nat.not_lt.mp hpast⟩)
      · exact hnot (.inr ⟨k, line, hmem, hw.past _ hmem, hsuffix⟩)
  · intro v u hv
    obtain ⟨hsince, hle, hrest⟩ := hw.ends v u hv
    exact ⟨hsince, Nat.le_trans hle (Nat.le_of_lt hnow), hrest⟩

theorem stepped (hw : w.Watch) {act : Act} (h : w.Stepped act w') : w'.Watch := by
  cases h with
  | scopes hnow hheld => exact hw.scopes hnow hheld
  | sleep span => exact hw.sleep span
  | wait hc => exact hw.wait (List.mem_of_getElem? hc)
  | told hv hready => exact hw.told hv hready
  | waits => exact hw
  | abandon hv => exact hw.abandon hv
  | tick hquiet hnow halarm hfirst => exact hw.tick hquiet hnow halarm hfirst

theorem empty : Watch {} where
  history := ⟨[], rfl⟩
  whole := Nat.dvd_zero _
  rings := nofun
  struck := rfl
  past := nofun
  held := nofun
  waiting := nofun
  ends := nofun
  begun := .nil

end Watch

/-! ## Whole courses -/

theorem Stepped.cancels {w w' : Vigils} {act : Act} (h : w.Stepped act w') :
    ∃ new, w'.cancels = w.cancels ++ new := by
  cases h with
  | scopes => exact ⟨_, rfl⟩
  | sleep | wait | told | waits | abandon | tick => exact ⟨[], (List.append_nil _).symm⟩

/-- Nobody is told but by a look that finds the scope ended. -/
theorem Stepped.news {w w' : Vigils} {act : Act} (h : w.Stepped act w') {v : Vigil} {t : Nat}
    (hv : (v, t) ∈ w'.told) :
    (v, t) ∈ w.told ∨ v ∈ w.waiting ∧ w.ready v = true ∧ t = w.now := by
  cases h with
  | told hw hready =>
    obtain hv | hv := List.mem_append.mp hv
    · exact .inl hv
    · cases List.mem_singleton.mp hv
      exact .inr ⟨List.mem_of_getElem? hw, hready, rfl⟩
  | scopes | sleep | wait | waits | abandon | tick => exact .inl hv

theorem Found.concat {acts : List Act} {c : Handle} {t : Nat} (h : Found acts c t) (act : Act) :
    Found (acts ++ [act]) c t := by
  obtain ⟨begun, w, hprefix, hrest⟩ := h
  exact ⟨begun, w, hprefix.trans (List.prefix_append ..), hrest⟩

/-- What a course has come to: who was told found the scope ended, and a scope is found to have
ended only when there is something on record that ended it. -/
structure Course (acts : List Act) (w : Vigils) : Prop where
  watch : w.Watch
  told : ∀ v t, (v, t) ∈ w.told → Found acts v.handle t
  found : ∀ c t, Found acts c t → EndsBy w.cancels c t

theorem course_run? {acts : List Act} {w : Vigils} (h : run? acts = some w) : Course acts w := by
  induction acts using List.reverseRecOn generalizing w with
  | nil =>
    cases h
    refine ⟨.empty, nofun, ?_⟩
    rintro c t ⟨begun, w, hprefix, hrun, -, hheld, -⟩
    cases List.prefix_nil.mp hprefix
    cases hrun
    cases hheld
  | append_singleton acts act ih =>
    obtain ⟨before, hbefore, hstep⟩ := run?_concat.mp h
    obtain ⟨hwatch, htold, hfound⟩ := ih hbefore
    have hstepped := stepped hstep
    have hwatch' := hwatch.stepped hstepped
    refine ⟨hwatch', fun v t hv => ?_, ?_⟩
    · obtain hbefore' | ⟨hwaits, hready, rfl⟩ := hstepped.news hv
      · exact (htold v t hbefore').concat act
      · rw [hwatch.ready_eq] at hready
        exact ⟨acts, before, List.prefix_append .., hbefore, rfl, hwatch.held v hwaits, hready⟩
    · rintro c t ⟨begun, w', hprefix, hrun, rfl, hheld, hended⟩
      obtain rfl | hprefix := List.prefix_concat_iff.mp hprefix
      · cases hrun.symm.trans h
        exact (hwatch'.ended_iff hheld).mp hended
      · obtain ⟨new, hnew⟩ := hstepped.cancels
        rw [hnew]
        exact (hfound c w'.now ⟨begun, w', hprefix, hrun, rfl, hheld, hended⟩).append new

/-- While nobody is ready the clock can go on, and it goes no further than a deadline that somebody
waits for. -/
theorem step?_tick {w : Vigils} (hquiet : w.waiting.any w.ready = false) {v : Vigil}
    (hv : v ∈ w.waiting) {d : Nat} (hd : v.handle.scope.deadline = some d)
    (hnow : w.now < Time.roundUp d) :
    ∃ w', w.step? .tick = some w' ∧ w.now < w'.now ∧ w'.now ≤ Time.roundUp d := by
  have halarm : Time.roundUp d ∈ w.alarms :=
    List.mem_append_left _ (List.mem_filterMap.mpr ⟨v, hv, congrArg (Option.map _) hd⟩)
  have hmem : Time.roundUp d ∈ w.alarms.filter (w.now < ·) :=
    List.mem_filter.mpr ⟨halarm, decide_eq_true hnow⟩
  cases hnext : w.next? with
  | none => rw [List.min?_eq_none_iff.mp hnext] at hmem; cases hmem
  | some t =>
    have hstep : w.step? .tick = some { w with scopes := w.scopes.take (.pass (t - w.now)) } := by
      simp [step?, hquiet, hnext]
    refine ⟨_, hstep, ?_⟩
    cases stepped hstep with
    | tick _ hlt _ hfirst => exact ⟨hlt, hfirst _ halarm hnow⟩

/-- In every course of acts. A scope that is held is found to have ended exactly if its node is
cancelled or the timer of its deadline has rung, and so exactly if by now that timer has rung or
something in its line was cancelled. A wait that is over was over at the first instant, from its
beginning on, at which the scope was found to have ended, and that is the first by which the timer
had rung or something in the line was cancelled. For a wait that is not over there was no such
instant before now; if there is something to find now the clock stands until it is looked at, and
then it is over now, while a look that comes too early changes nothing, and the clock goes no
further than the deadline. Nobody who began to wait is lost. -/
theorem told_when_ended (acts : List Act) {w : Vigils} (h : run? acts = some w) :
    (∀ c ∈ w.scopes.held,
      w.scopes.ended c =
        (c.scope.node.any w.scopes.tree.isCancelled || c.scope.alarm.any (· ≤ w.now)) ∧
      (w.scopes.ended c = true ↔ EndsBy w.cancels c w.now)) ∧
    (∀ v t, (v, t) ∈ w.told →
      v.since ≤ t ∧ Found acts v.handle t ∧ EndsBy w.cancels v.handle t ∧
      ∀ u, v.since ≤ u → u < t → ¬Found acts v.handle u ∧ ¬EndsBy w.cancels v.handle u) ∧
    (∀ i v, w.waiting[i]? = some v →
      (∀ u, v.since ≤ u → u < w.now → ¬Found acts v.handle u ∧ ¬EndsBy w.cancels v.handle u) ∧
      (w.scopes.ended v.handle = true → w.step? .tick = none ∧
        ∃ w', w.step? (.look i) = some w' ∧ (v, w.now) ∈ w'.told) ∧
      (w.scopes.ended v.handle = false → w.step? (.look i) = some w) ∧
      (w.waiting.any w.ready = false → ∀ d, v.handle.scope.deadline = some d →
        w.now < Time.roundUp d →
          ∃ w', w.step? .tick = some w' ∧ w.now < w'.now ∧ w'.now ≤ Time.roundUp d)) ∧
    w.begun.Perm (w.abandoned ++ w.told.map Prod.fst ++ w.waiting) := by
  obtain ⟨hwatch, htold, hfound⟩ := course_run? h
  have hneither {c : Handle} {u : Nat} (hnot : ¬EndsBy w.cancels c u) :
      ¬Found acts c u ∧ ¬EndsBy w.cancels c u := ⟨fun hc => hnot (hfound c u hc), hnot⟩
  have hheard (c : Handle) := (w.scopes.tree.heard_eq_ended hwatch.whole c.scope).symm
  refine ⟨fun c hc => ⟨hheard c, hwatch.ended_iff hc⟩, ?told, ?waiting, hwatch.begun⟩
  case told =>
    intro v t hv
    obtain ⟨hsince, -, hends, hfirst⟩ := hwatch.ends v t hv
    exact ⟨hsince, htold v t hv, hends, fun u hle hlt => hneither (hfirst u hle hlt)⟩
  case waiting =>
    intro i v hv
    have hmem := List.mem_of_getElem? hv
    refine ⟨fun u hle hlt => hneither ((hwatch.waiting v hmem).2 u hle hlt), ?_, ?_, ?_⟩
    · intro hended
      have hready : w.ready v = true := (hwatch.ready_eq v).trans hended
      have hany : w.waiting.any w.ready = true := List.any_eq_true.mpr ⟨v, hmem, hready⟩
      refine ⟨by simp [step?, hany], _, step?_look hv, ?_⟩
      rw [if_pos hready]
      exact List.mem_append_right _ List.mem_cons_self
    · intro hended
      have hready : w.ready v = false := (hwatch.ready_eq v).trans hended
      rw [step?_look hv, hready]
      rfl
    · exact fun hquiet d hd hnow => step?_tick hquiet hmem hd hnow

/-- A scope whose parent was let go is cancelled through its grandparent while somebody waits for
it, and when somebody else begins to; and a deadline of a millisecond and a half rings at the
second. -/
theorem told_when_ended_past_dropped :
    let acts : List Act :=
      [.scopes .background, .scopes (.child 0), .scopes (.child 1), .scopes (.drop 1),
        .scopes (.withTimeout 1500000), .wait 1, .wait 2, .sleep 1000000, .look 0, .tick,
        .scopes (.cancel 0), .look 0, .wait 1, .look 1, .tick, .look 0]
    let grandchild : Handle := ⟨[⟨2, 0, none⟩, ⟨1, 0, none⟩, ⟨0, 0, none⟩], ⟨some 2, none⟩⟩
    let dated : Handle := ⟨[⟨3, 0, some 1500000⟩], ⟨some 3, some 1500000⟩⟩
    ∃ w, run? acts = some w ∧
      w.told = [(⟨grandchild, 0⟩, 1000000), (⟨grandchild, 1000000⟩, 1000000),
        (⟨dated, 0⟩, 2000000)] ∧
      (Found acts grandchild 1000000 ∧ ¬Found acts grandchild 0) ∧
      Found acts dated 2000000 ∧ ¬Found acts dated 1000000 := by
  intro acts grandchild dated
  have hrun : (run? acts).map Vigils.told =
      some [(⟨grandchild, 0⟩, 1000000), (⟨grandchild, 1000000⟩, 1000000),
          (⟨dated, 0⟩, 2000000)] := by
    decide +kernel
  obtain ⟨w, hw, hover⟩ := Option.map_eq_some_iff.mp hrun
  obtain ⟨-, htold, -, -⟩ := told_when_ended acts hw
  obtain ⟨-, hfound, -, hnot⟩ := htold ⟨grandchild, 0⟩ 1000000 (by simp [hover])
  obtain ⟨-, hfound', -, hnot'⟩ := htold ⟨dated, 0⟩ 2000000 (by simp [hover])
  exact ⟨w, hw, hover, ⟨hfound, (hnot 0 (by decide) (by decide)).1⟩, hfound',
    (hnot' 1000000 (by decide) (by decide)).1⟩

end Vigils

end CacheBridge
