import CacheBridge.Session.Shutdowns

/-!
One shutdown and all who wait for it. The close is begun and completed by whoever likes, and any
number of waits may start, be looked at and be given up, in any order; a wait has an end or has
none. The clock goes on only while nobody who waits could be told anything, and then past nobody's
timer. So a wait is over at the instant of the close or at the end of its time, whichever comes
first, and what one waiter does makes no difference to another or to the shutdown.
-/

namespace CacheBridge

/-- What has become of a wait. -/
inductive Fate where
  | waiting
  | told (now : Nat) (closed : Bool)
  | abandoned
  deriving DecidableEq

/-- A wait for the close, with the instant and the phase in which it began. -/
structure Waiter where
  name : Nat
  /-- How long it may take, if there is an end to it. -/
  timeout : Option Nat
  since : Nat
  found : Phase
  fate : Fate := .waiting
  deriving DecidableEq

namespace Waiter

/-- When the time is up. -/
def ring? (v : Waiter) : Option Nat := v.timeout.map (Time.ring v.since)

/-- The wait as one of a session. -/
def wait (v : Waiter) : ClosedWait := v.ring?.elim .endless .till

def ready (world : ShutdownSession.World) (v : Waiter) : Bool :=
  ShutdownSession.machine.ready world v.wait

def look (world : ShutdownSession.World) (v : Waiter) : Waiter :=
  match v.fate with
  | .waiting =>
    match (ShutdownSession.machine.run world v.wait).2 with
    | .waiting _ => v
    | .answered closed => { v with fate := .told world.now closed }
  | _ => v

def abandon (v : Waiter) : Waiter := if v.fate = .waiting then { v with fate := .abandoned } else v

end Waiter

/-- A shutdown with all who have ever waited for it. -/
structure Signal where
  world : ShutdownSession.World := ⟨0, .active⟩
  /-- When a close was asked for, and whether that was what began it. -/
  begins : List (Nat × Bool) := []
  completes : List Nat := []
  waiters : List Waiter := []

namespace Signal

inductive Act where
  | beginClose
  | complete
  | wait (name : Nat) (timeout : Option Nat)
  | look (name : Nat)
  | abandon (name : Nat)
  | pass (t : Nat)

/-- The waiter whom an act is about. -/
def Act.waiter? : Act → Option Nat
  | wait name _ | look name | abandon name => some name
  | beginClose | complete | pass _ => none

/-- Something is done to the waiters of one name. -/
def each (w : Signal) (name : Nat) (f : Waiter → Waiter) : Signal :=
  { w with waiters := w.waiters.map fun v => if v.name = name then f v else v }

/-- Whether the clock may go on to an instant as far as a waiter is concerned. -/
def patient (world : ShutdownSession.World) (t : Nat) (v : Waiter) : Bool :=
  v.fate != .waiting || !v.ready world && (ShutdownSession.machine.alarm world v.wait).all (t ≤ ·)

/-- Acts, if this can be done now. -/
def step? (w : Signal) : Act → Option Signal
  | .beginClose =>
    let (begun, phase) := w.world.phase.beginClose
    some { w with
      world := { w.world with phase := phase }
      begins := w.begins ++ [(w.world.now, begun)] }
  | .complete =>
    some { w with
      world := { w.world with phase := w.world.phase.complete }
      completes := w.completes ++ [w.world.now] }
  | .wait name timeout =>
    some { w with waiters := w.waiters ++ [⟨name, timeout, w.world.now, w.world.phase, .waiting⟩] }
  | .look name => some (w.each name (Waiter.look w.world))
  | .abandon name => some (w.each name Waiter.abandon)
  | .pass t =>
    if w.world.now < t ∧ w.waiters.all (patient w.world t) then
      some { w with world := { w.world with now := t } }
    else none

/-- Acts as often as told, if all of it can be done. -/
def run? (w : Signal) (acts : List Act) : Option Signal := acts.foldlM step? w

theorem run?_cons {w w' : Signal} {act : Act} {acts : List Act} :
    w.run? (act :: acts) = some w' ↔ ∃ u, w.step? act = some u ∧ u.run? acts = some w' := by
  simp only [run?, List.foldlM_cons, Option.bind_eq_bind, Option.bind_eq_some_iff]

end Signal

namespace Waiter

/-! ## One waiter -/

theorem ready_eq (world : ShutdownSession.World) (v : Waiter) :
    v.ready world = (world.phase == .closed || v.ring?.any (· ≤ world.now)) := by
  unfold ready wait
  cases v.ring? <;> rfl

/-- A look at a waiter: the phase comes first, then the clock. -/
theorem look_eq (world : ShutdownSession.World) {v : Waiter} (h : v.fate = .waiting) :
    v.look world = if v.ready world then
      { v with fate := .told world.now (world.phase == .closed) } else v := by
  have hrun : (ShutdownSession.machine.run world v.wait).2 =
      if v.ready world then .answered (world.phase == .closed) else .waiting v.wait := by
    change v.wait.look world.phase world.now =
      if v.wait.ready world.phase world.now then _ else _
    unfold ClosedWait.look ClosedWait.ready
    cases world.phase <;> cases v.wait.expired world.now <;> rfl
  unfold look
  rw [h]
  simp only [hrun]
  cases v.ready world <;> rfl

theorem look_of_over (world : ShutdownSession.World) {v : Waiter} (h : v.fate ≠ .waiting) :
    v.look world = v := by
  unfold look
  split
  · next hwaiting => exact absurd hwaiting h
  · rfl

/-- What a wait was told, and why then. -/
inductive Verdict (closed? : Option Nat) (v : Waiter) (t : Nat) : Bool → Prop where
  | closed {c : Nat} (hclosed : closed? = some c) (hinstant : t = max c v.since)
      (htime : ∀ r, v.ring? = some r → t ≤ r) : Verdict closed? v t true
  | late (hring : v.ring? = some t) (hopen : v.found ≠ .closed)
      (hearly : ∀ c, closed? = some c → t ≤ c) : Verdict closed? v t false

/-- A waiter at any moment, where the close was completed first at `closed?`. -/
structure Fits (now : Nat) (closed? : Option Nat) (v : Waiter) : Prop where
  since : v.since ≤ now
  found : v.found = .closed → ∃ c, closed? = some c ∧ c ≤ v.since
  waiting : v.fate = .waiting →
    (∀ r, v.ring? = some r → now ≤ r) ∧ ∀ c, closed? = some c → now = max c v.since
  told : ∀ t b, v.fate = .told t b → v.since ≤ t ∧ t ≤ now ∧ v.Verdict closed? t b

namespace Fits

variable {now : Nat} {closed? : Option Nat} {v : Waiter}

/-- The close is completed for the first time. -/
theorem complete (h : v.Fits now none) : v.Fits now (some now) where
  since := h.since
  found hfound := by
    obtain ⟨c, hc, -⟩ := h.found hfound
    cases hc
  waiting hwaiting := by
    refine ⟨(h.waiting hwaiting).1, fun c hc => ?_⟩
    cases hc
    exact (Nat.max_eq_left h.since).symm
  told t b htold := by
    obtain ⟨hsince, hnow, hverdict⟩ := h.told t b htold
    refine ⟨hsince, hnow, ?_⟩
    cases hverdict with
    | closed hclosed => cases hclosed
    | late hring hopen hearly =>
      refine .late hring hopen fun c hc => ?_
      cases hc
      exact hnow

theorem start (name : Nat) (timeout : Option Nat) {phase : Phase}
    (hpast : ∀ c, closed? = some c → c ≤ now) (hphase : phase = .closed ↔ closed?.isSome) :
    Fits now closed? ⟨name, timeout, now, phase, .waiting⟩ where
  since := Nat.le_refl _
  found hfound := by
    obtain ⟨c, hc⟩ := Option.isSome_iff_exists.mp (hphase.mp hfound)
    exact ⟨c, hc, hpast c hc⟩
  waiting _ := by
    refine ⟨fun r hr => ?_, fun c hc => (Nat.max_eq_right (hpast c hc)).symm⟩
    obtain ⟨span, -, rfl⟩ := Option.map_eq_some_iff.mp hr
    exact Time.le_ring now span
  told _ _ htold := by cases htold

theorem look {phase : Phase} (h : v.Fits now closed?) (hphase : phase = .closed ↔ closed?.isSome) :
    (v.look ⟨now, phase⟩).Fits now closed? := by
  by_cases hwaiting : v.fate = .waiting
  · rw [look_eq _ hwaiting]
    split
    · next hready =>
      refine ⟨h.since, h.found, fun hfate => (by cases hfate), fun t b htold => ?_⟩
      cases htold
      refine ⟨h.since, Nat.le_refl _, ?_⟩
      obtain ⟨htime, hinstant⟩ := h.waiting hwaiting
      cases hclosed : phase == .closed with
      | true =>
        obtain ⟨c, hc⟩ := Option.isSome_iff_exists.mp (hphase.mp (eq_of_beq hclosed))
        exact .closed hc (hinstant c hc) htime
      | false =>
        have hopen : phase ≠ .closed := by simpa using hclosed
        have hnever (c : Nat) : closed? ≠ some c := fun hc =>
          hopen (hphase.mpr (Option.isSome_iff_exists.mpr ⟨c, hc⟩))
        rw [ready_eq] at hready
        obtain ⟨r, hr, hrung⟩ : ∃ r, v.ring? = some r ∧ r ≤ now := by
          simpa [hclosed, Option.any_eq_true] using hready
        refine .late (hr.trans (congrArg some ?_)) (fun hfound => ?_) fun c hc => absurd hc
          (hnever c)
        · exact Nat.le_antisymm hrung (htime r hr)
        · obtain ⟨c, hc, -⟩ := h.found hfound
          exact hnever c hc
    · exact h
  · rwa [look_of_over _ hwaiting]

theorem abandon (h : v.Fits now closed?) : v.abandon.Fits now closed? := by
  unfold Waiter.abandon
  split
  · exact ⟨h.since, h.found, fun hfate => (by cases hfate), fun t b hfate => by cases hfate⟩
  · exact h

theorem pass {phase : Phase} (h : v.Fits now closed?) (hphase : phase = .closed ↔ closed?.isSome)
    {t : Nat} (hnow : now < t) (hpatient : Signal.patient ⟨now, phase⟩ t v = true) :
    v.Fits t closed? := by
  refine ⟨Nat.le_trans h.since (Nat.le_of_lt hnow), h.found, fun hwaiting => ?_,
    fun t' b htold => ?_⟩
  · simp only [Signal.patient, hwaiting, bne_self_eq_false, Bool.false_or, Bool.and_eq_true,
      Bool.not_eq_true', ready_eq, Bool.or_eq_false_iff, beq_eq_false_iff_ne] at hpatient
    obtain ⟨⟨hopen, hring⟩, halarm⟩ := hpatient
    refine ⟨fun r hr => ?_, fun c hc => ?_⟩
    · have hwait : v.wait = .till r := by rw [wait, hr]; rfl
      rw [hwait] at halarm
      simpa [ShutdownSession.machine, ClosedWait.alarm] using halarm
    · exact absurd (hphase.mpr (Option.isSome_iff_exists.mpr ⟨c, hc⟩)) hopen
  · obtain ⟨hsince, hle, hverdict⟩ := h.told t' b htold
    exact ⟨hsince, Nat.le_trans hle (Nat.le_of_lt hnow), hverdict⟩

end Fits

/-- Whoever has been told, or has given up, stays so; nothing else about a waiter ever changes. -/
def Becomes (v v' : Waiter) : Prop :=
  ∃ fate, v' = { v with fate := fate } ∧ (v.fate ≠ .waiting → fate = v.fate)

theorem Becomes.refl (v : Waiter) : v.Becomes v := ⟨v.fate, rfl, fun _ => rfl⟩

theorem Becomes.trans {v v' v'' : Waiter} (h : v.Becomes v') (h' : v'.Becomes v'') :
    v.Becomes v'' := by
  obtain ⟨fate, rfl, hfate⟩ := h
  obtain ⟨fate', rfl, hfate'⟩ := h'
  refine ⟨fate', rfl, fun hover => ?_⟩
  have hsame := hfate hover
  exact (hfate' (hsame ▸ hover)).trans hsame

theorem becomes_look (world : ShutdownSession.World) (v : Waiter) : v.Becomes (v.look world) := by
  by_cases hwaiting : v.fate = .waiting
  · rw [look_eq _ hwaiting]
    split
    · exact ⟨_, rfl, fun hover => absurd hwaiting hover⟩
    · exact .refl v
  · rw [look_of_over _ hwaiting]
    exact .refl v

theorem becomes_abandon (v : Waiter) : v.Becomes v.abandon := by
  unfold abandon
  split
  · next hwaiting => exact ⟨_, rfl, fun hover => absurd hwaiting hover⟩
  · exact .refl v

end Waiter

namespace Signal

/-! ## What every act keeps -/

/-- A signal at any moment. -/
structure Steady (w : Signal) : Prop where
  closed : w.world.phase = .closed ↔ w.completes.head?.isSome
  active : w.world.phase = .active → w.begins = []
  once : (w.begins.filter Prod.snd).length ≤ 1
  past : ∀ c, w.completes.head? = some c → c ≤ w.world.now
  waiters : ∀ v ∈ w.waiters, v.Fits w.world.now w.completes.head?

namespace Steady

variable {w w' : Signal}

theorem empty : Steady {} where
  closed := by decide
  active _ := rfl
  once := Nat.zero_le _
  past := nofun
  waiters := nofun

theorem beginClose (h : w.Steady) (h' : w.step? .beginClose = some w') : w'.Steady := by
  cases h'
  obtain ⟨⟨now, phase⟩, begins, completes, waiters⟩ := w
  obtain ⟨hclosed, hactive, honce, hpast, hwaiters⟩ := h
  cases phase with
  | active =>
    cases (hactive rfl : begins = [])
    refine ⟨?_, fun h => (by cases h), by simp, hpast, hwaiters⟩
    simpa [Phase.beginClose] using hclosed
  | closing =>
    refine ⟨hclosed, fun h => (by cases h), ?_, hpast, hwaiters⟩
    simpa [Phase.beginClose] using honce
  | closed =>
    refine ⟨hclosed, fun h => (by cases h), ?_, hpast, hwaiters⟩
    simpa [Phase.beginClose] using honce

theorem complete (h : w.Steady) (h' : w.step? .complete = some w') : w'.Steady := by
  cases h'
  refine ⟨by simp [Phase.complete], nofun, h.once, fun c hc => ?_, fun v hv => ?_⟩
  · rw [List.head?_append] at hc
    cases hhead : w.completes.head? with
    | none =>
      rw [hhead] at hc
      cases hc
      exact Nat.le_refl _
    | some first =>
      rw [hhead] at hc
      exact h.past c (hhead.trans hc)
  · have hfits := h.waiters v hv
    change v.Fits w.world.now (w.completes ++ [w.world.now]).head?
    rw [List.head?_append]
    cases hhead : w.completes.head? with
    | none =>
      rw [hhead] at hfits
      exact hfits.complete
    | some first =>
      rw [hhead] at hfits
      exact hfits

theorem wait (h : w.Steady) (name : Nat) (timeout : Option Nat) :
    Steady { w with
      waiters := w.waiters ++ [⟨name, timeout, w.world.now, w.world.phase, .waiting⟩] } where
  closed := h.closed
  active := h.active
  once := h.once
  past := h.past
  waiters v hv := by
    rcases List.mem_append.mp hv with hv | hv
    · exact h.waiters v hv
    · cases List.mem_singleton.mp hv
      exact .start name timeout h.past h.closed

theorem each (h : w.Steady) (name : Nat) {f : Waiter → Waiter}
    (hf : ∀ v, v.Fits w.world.now w.completes.head? → (f v).Fits w.world.now w.completes.head?) :
    (w.each name f).Steady where
  closed := h.closed
  active := h.active
  once := h.once
  past := h.past
  waiters v hv := by
    obtain ⟨u, hu, rfl⟩ := List.mem_map.mp hv
    split
    · exact hf u (h.waiters u hu)
    · exact h.waiters u hu

theorem pass (h : w.Steady) {t : Nat} (hnow : w.world.now < t)
    (hpatient : w.waiters.all (patient w.world t) = true) :
    Steady { w with world := { w.world with now := t } } where
  closed := h.closed
  active := h.active
  once := h.once
  past c hc := Nat.le_trans (h.past c hc) (Nat.le_of_lt hnow)
  waiters v hv := (h.waiters v hv).pass h.closed hnow (List.all_eq_true.mp hpatient v hv)

theorem stepped (h : w.Steady) {act : Act} (h' : w.step? act = some w') : w'.Steady := by
  cases act with
  | beginClose => exact h.beginClose h'
  | complete => exact h.complete h'
  | wait name timeout =>
    cases h'
    exact h.wait name timeout
  | look name =>
    cases h'
    exact h.each name fun v hv => hv.look h.closed
  | abandon name =>
    cases h'
    exact h.each name fun v hv => hv.abandon
  | pass t =>
    simp only [step?] at h'
    split at h'
    · next hpass =>
      cases h'
      exact h.pass hpass.1 hpass.2
    · cases h'

theorem run? (h : w.Steady) {acts : List Act} (h' : w.run? acts = some w') : w'.Steady := by
  induction acts generalizing w with
  | nil =>
    cases h'
    exact h
  | cons act acts ih =>
    obtain ⟨u, hu, hrest⟩ := run?_cons.mp h'
    exact ih (h.stepped hu) hrest

end Steady

/-! ## What never goes back -/

/-- What is later than what. -/
structure Onward (w w' : Signal) : Prop where
  phase : w.world.phase ≤ w'.world.phase
  completes : w.completes <+: w'.completes
  begins : w.begins <+: w'.begins
  waiters : ∀ (i : Nat) (v : Waiter), w.waiters[i]? = some v →
    ∃ v', w'.waiters[i]? = some v' ∧ v.Becomes v'

namespace Onward

variable {w w' w'' : Signal}

theorem refl (w : Signal) : w.Onward w :=
  ⟨Phase.le_refl _, List.prefix_rfl, List.prefix_rfl, fun _ v hv => ⟨v, hv, .refl v⟩⟩

theorem trans (h : w.Onward w') (h' : w'.Onward w'') : w.Onward w'' where
  phase := Phase.le_trans h.phase h'.phase
  completes := h.completes.trans h'.completes
  begins := h.begins.trans h'.begins
  waiters i v hv := by
    obtain ⟨v', hv', hbecomes⟩ := h.waiters i v hv
    obtain ⟨v'', hv'', hbecomes'⟩ := h'.waiters i v' hv'
    exact ⟨v'', hv'', hbecomes.trans hbecomes'⟩

theorem each (w : Signal) (name : Nat) {f : Waiter → Waiter} (hf : ∀ v : Waiter, v.Becomes (f v)) :
    w.Onward (w.each name f) := by
  refine ⟨Phase.le_refl _, List.prefix_rfl, List.prefix_rfl, fun i v hv => ?_⟩
  refine ⟨if v.name = name then f v else v, ?_, ?_⟩
  · simp only [Signal.each, List.getElem?_map, hv, Option.map_some]
  split
  · exact hf v
  · exact .refl v

theorem stepped {act : Act} (h : w.step? act = some w') : w.Onward w' := by
  cases act with
  | beginClose =>
    cases h
    exact { refl w with phase := Phase.le_beginClose _, begins := List.prefix_append _ _ }
  | complete =>
    cases h
    exact { refl w with phase := Phase.le_complete _, completes := List.prefix_append _ _ }
  | wait name timeout =>
    cases h
    refine { refl w with waiters := fun i v hv => ⟨v, ?_, .refl v⟩ }
    exact List.getElem?_append_left (List.getElem?_eq_some_iff.mp hv).1 ▸ hv
  | look name =>
    cases h
    exact each w name (Waiter.becomes_look w.world)
  | abandon name =>
    cases h
    exact each w name Waiter.becomes_abandon
  | pass t =>
    simp only [step?] at h
    split at h
    · cases h
      exact { refl w with }
    · cases h

theorem run? {acts : List Act} (h : w.run? acts = some w') : w.Onward w' := by
  induction acts generalizing w with
  | nil =>
    cases h
    exact refl _
  | cons act acts ih =>
    obtain ⟨u, hu, hrest⟩ := run?_cons.mp h
    exact (stepped hu).trans (ih hrest)

end Onward

/-! ## Waiters apart -/

/-- The signal as if only some of the waiters had ever been there. -/
def only (keep : Nat → Bool) (w : Signal) : Signal :=
  { w with waiters := w.waiters.filter fun v => keep v.name }

section Only

variable (keep : Nat → Bool)

theorem only_each (w : Signal) (name : Nat) {f : Waiter → Waiter} (hf : ∀ v, (f v).name = v.name) :
    (w.each name f).only keep = if keep name then (w.only keep).each name f else w.only keep := by
  have hname (v : Waiter) : (if v.name = name then f v else v).name = v.name := by
    split
    · exact hf v
    · rfl
  have hfilter : (w.waiters.map fun v => if v.name = name then f v else v).filter
      (fun v => keep v.name) =
      (w.waiters.filter fun v => keep v.name).map fun v => if v.name = name then f v else v := by
    simp only [List.filter_map, Function.comp_def, hname]
  simp only [only, each, hfilter]
  split
  · rfl
  · next hdrop =>
    refine congrArg (fun waiters => { w with waiters := waiters })
      ((List.map_congr_left ?_).trans (List.map_id _))
    intro v hv
    have hkeep : keep v.name = true := (List.mem_filter.mp hv).2
    rw [if_neg (fun heq : v.name = name => hdrop (heq ▸ hkeep))]
    rfl

theorem name_look (world : ShutdownSession.World) (v : Waiter) : (v.look world).name = v.name := by
  obtain ⟨fate, hfate, -⟩ := v.becomes_look world
  rw [hfate]

theorem name_abandon (v : Waiter) : v.abandon.name = v.name := by
  obtain ⟨fate, hfate, -⟩ := v.becomes_abandon
  rw [hfate]

/-- Without some of the waiters an act does the same to the rest. -/
theorem step?_only {w w' : Signal} {act : Act} (h : w.step? act = some w') :
    if act.waiter?.all keep then (w.only keep).step? act = some (w'.only keep)
    else w.only keep = w'.only keep := by
  cases act with
  | beginClose | complete =>
    cases h
    rfl
  | wait name timeout =>
    cases h
    cases hkeep : keep name with
    | true => simp [Act.waiter?, only, step?, hkeep]
    | false => simp [Act.waiter?, only, hkeep]
  | look name =>
    cases h
    rw [only_each keep w name (name_look w.world)]
    cases hkeep : keep name with
    | true => simp [Act.waiter?, step?, hkeep, only]
    | false => simp [Act.waiter?, hkeep]
  | abandon name =>
    cases h
    rw [only_each keep w name name_abandon]
    cases hkeep : keep name with
    | true => simp [Act.waiter?, step?, hkeep]
    | false => simp [Act.waiter?, hkeep]
  | pass t =>
    simp only [step?] at h
    split at h
    · next hpass =>
      cases h
      have hpatient : (w.waiters.filter fun v => keep v.name).all (patient w.world t) = true :=
        List.all_eq_true.mpr fun v hv =>
          List.all_eq_true.mp hpass.2 v (List.mem_filter.mp hv).1
      simp [Act.waiter?, step?, only, hpass.1, hpatient]
    · cases h

theorem run?_only {w w' : Signal} {acts : List Act} (h : w.run? acts = some w') :
    (w.only keep).run? (acts.filter fun act => act.waiter?.all keep) = some (w'.only keep) := by
  induction acts generalizing w with
  | nil =>
    cases h
    rfl
  | cons act acts ih =>
    obtain ⟨u, hu, hrest⟩ := run?_cons.mp h
    have hstep := step?_only keep hu
    rw [List.filter_cons]
    split at hstep
    · next hkeep =>
      rw [if_pos hkeep]
      exact run?_cons.mpr ⟨_, hstep, ih hrest⟩
    · next hdrop =>
      rw [if_neg hdrop, hstep]
      exact ih hrest

end Only

/-! ## The whole course -/

/-- A shutdown and those who wait for it, as they are at one moment, `w`, and were at an earlier
one, `u`. -/
structure Observed (u w : Signal) : Prop where
  /-- The phase never goes back, nobody who waits is lost, and what one was told stays so. -/
  onward : u.Onward w
  closed : w.world.phase = .closed ↔ w.completes.head?.isSome
  /-- A close is begun by the call that leaves `active`, and so once at most, and not after the
  end. -/
  begins : ∃ w' begun, w.step? .beginClose = some w' ∧
    w'.begins = w.begins ++ [(w.world.now, begun)] ∧
    (begun = true ↔ w.world.phase = .active ∧ w'.world.phase ≠ .active) ∧
    (w.completes ≠ [] → begun = false)
  once : (w.begins.filter Prod.snd).length ≤ 1
  /-- Whoever began to wait when it was over was told at once; whoever waited when the close came,
  and had time left, was told then; whose time was up before, was told then that it was not
  closed. -/
  told : ∀ v ∈ w.waiters, ∀ t b, v.fate = .told t b →
    v.since ≤ t ∧ (v.found = .closed → b = true ∧ t = v.since) ∧
    (∀ c, w.completes.head? = some c → (∀ r, v.ring? = some r → c < r) →
      b = true ∧ t = max c v.since) ∧
    (∀ r, v.ring? = some r → (∀ c, w.completes.head? = some c → r < c) → b = false ∧ t = r) ∧
    (b = true → ∃ c, w.completes.head? = some c ∧ c ≤ t) ∧ (b = false → v.ring? = some t)
  /-- Nobody waits past the end of the time, or past the close. -/
  waiting : ∀ v ∈ w.waiters, v.fate = .waiting →
    (∀ r, v.ring? = some r → w.world.now ≤ r) ∧
    ∀ c, w.completes.head? = some c → w.world.now = max c v.since
  /-- A look gives the answer when there is one, and changes nothing before. -/
  looks : ∀ v ∈ w.waiters, v.fate = .waiting → ∃ w', w.step? (.look v.name) = some w' ∧
    (w.world.phase = .closed → { v with fate := .told w.world.now true } ∈ w'.waiters) ∧
    (w.world.phase ≠ .closed → v.ring? = some w.world.now →
      { v with fate := .told w.world.now false } ∈ w'.waiters) ∧
    (w.world.phase ≠ .closed → v.ring? ≠ some w.world.now → v ∈ w'.waiters)
  /-- The clock stands while there is anybody to tell, and otherwise goes on, past no timer. -/
  clock : ∀ t, w.world.now < t → ((∃ w', w.step? (.pass t) = some w') ↔
    ∀ v ∈ w.waiters, v.fate = .waiting →
      w.world.phase ≠ .closed ∧ v.ring? ≠ some w.world.now ∧ ∀ r, v.ring? = some r → t ≤ r)

namespace Steady

variable {w : Signal}

theorem begins (h : w.Steady) : ∃ w' begun, w.step? .beginClose = some w' ∧
    w'.begins = w.begins ++ [(w.world.now, begun)] ∧
    (begun = true ↔ w.world.phase = .active ∧ w'.world.phase ≠ .active) ∧
    (w.completes ≠ [] → begun = false) := by
  refine ⟨_, w.world.phase.beginClose.1, rfl, rfl, ?_, fun hsome => ?_⟩
  · cases w.world.phase <;> simp [Phase.beginClose]
  · obtain ⟨c, rest, hcons⟩ := List.exists_cons_of_ne_nil hsome
    rw [h.closed.mpr (by rw [hcons]; rfl)]
    rfl

theorem told (h : w.Steady) {v : Waiter} (hv : v ∈ w.waiters) {t : Nat} {b : Bool}
    (htold : v.fate = .told t b) :
    v.since ≤ t ∧ (v.found = .closed → b = true ∧ t = v.since) ∧
    (∀ c, w.completes.head? = some c → (∀ r, v.ring? = some r → c < r) →
      b = true ∧ t = max c v.since) ∧
    (∀ r, v.ring? = some r → (∀ c, w.completes.head? = some c → r < c) → b = false ∧ t = r) ∧
    (b = true → ∃ c, w.completes.head? = some c ∧ c ≤ t) ∧ (b = false → v.ring? = some t) := by
  have hfits := h.waiters v hv
  obtain ⟨hsince, -, hverdict⟩ := hfits.told t b htold
  refine ⟨hsince, ?_⟩
  cases hverdict with
  | @closed c hc hinstant htime =>
    refine ⟨fun hfound => ⟨rfl, ?_⟩, fun c' hc' _ => ⟨rfl, ?_⟩, fun r hr hlate => ?_,
      fun _ => ⟨c, hc, hinstant ▸ Nat.le_max_left _ _⟩, nofun⟩
    · obtain ⟨c', hc', hle⟩ := hfits.found hfound
      cases hc.symm.trans hc'
      exact hinstant.trans (Nat.max_eq_right hle)
    · cases hc.symm.trans hc'
      exact hinstant
    · have hrung := htime r hr
      have hafter := hlate c hc
      omega
  | late hring hopen hearly =>
    refine ⟨fun hfound => absurd hfound hopen, fun c hc hbefore => ?_,
      fun r hr _ => ⟨rfl, ?_⟩, nofun, fun _ => hring⟩
    · exact absurd (hbefore t hring) (Nat.not_lt.mpr (hearly c hc))
    · exact Option.some.inj (hring.symm.trans hr)

/-- A waiter can be told something exactly if it is closed or the time is up. -/
theorem ready_iff (h : w.Steady) {v : Waiter} (hv : v ∈ w.waiters) (hwaiting : v.fate = .waiting) :
    v.ready w.world = true ↔ w.world.phase = .closed ∨ v.ring? = some w.world.now := by
  obtain ⟨htime, -⟩ := (h.waiters v hv).waiting hwaiting
  rw [Waiter.ready_eq, Bool.or_eq_true, beq_iff_eq, Option.any_eq_true]
  refine or_congr_right ⟨?_, fun hr => ⟨_, hr, decide_eq_true (Nat.le_refl _)⟩⟩
  rintro ⟨r, hr, hrung⟩
  rw [hr, Nat.le_antisymm (of_decide_eq_true hrung) (htime r hr)]

theorem looks (h : w.Steady) {v : Waiter} (hv : v ∈ w.waiters) (hwaiting : v.fate = .waiting) :
    ∃ w', w.step? (.look v.name) = some w' ∧
      (w.world.phase = .closed → { v with fate := .told w.world.now true } ∈ w'.waiters) ∧
      (w.world.phase ≠ .closed → v.ring? = some w.world.now →
        { v with fate := .told w.world.now false } ∈ w'.waiters) ∧
      (w.world.phase ≠ .closed → v.ring? ≠ some w.world.now → v ∈ w'.waiters) := by
  have hmem : v.look w.world ∈ (w.each v.name (Waiter.look w.world)).waiters :=
    List.mem_map.mpr ⟨v, hv, if_pos rfl⟩
  have hiff := h.ready_iff hv hwaiting
  rw [Waiter.look_eq _ hwaiting] at hmem
  refine ⟨_, rfl, fun hclosed => ?_, fun hopen hring => ?_, fun hopen hring => ?_⟩
  · rw [if_pos (hiff.mpr (.inl hclosed)), beq_iff_eq.mpr hclosed] at hmem
    exact hmem
  · rw [if_pos (hiff.mpr (.inr hring)), beq_eq_false_iff_ne.mpr hopen] at hmem
    exact hmem
  · rwa [if_neg (fun hready => (hiff.mp hready).elim hopen hring)] at hmem

theorem clock (h : w.Steady) {t : Nat} (hnow : w.world.now < t) :
    (∃ w', w.step? (.pass t) = some w') ↔
      ∀ v ∈ w.waiters, v.fate = .waiting →
        w.world.phase ≠ .closed ∧ v.ring? ≠ some w.world.now ∧ ∀ r, v.ring? = some r → t ≤ r := by
  have hpatient (v : Waiter) (hv : v ∈ w.waiters) : patient w.world t v = true ↔
      (v.fate = .waiting → w.world.phase ≠ .closed ∧ v.ring? ≠ some w.world.now ∧
        ∀ r, v.ring? = some r → t ≤ r) := by
    by_cases hwaiting : v.fate = .waiting
    · have halarm : ShutdownSession.machine.alarm w.world v.wait = v.ring? := by
        unfold Waiter.wait
        cases v.ring? <;> rfl
      have hready : v.ready w.world = false ↔
          w.world.phase ≠ .closed ∧ v.ring? ≠ some w.world.now := by
        rw [← Bool.not_eq_true, h.ready_iff hv hwaiting, not_or]
      simp only [patient, hwaiting, bne_self_eq_false, Bool.false_or, Bool.and_eq_true,
        Bool.not_eq_true', hready, halarm, Option.all_eq_true, decide_eq_true_eq, forall_const,
        and_assoc]
    · simp [patient, hwaiting]
  rw [← forall₂_congr hpatient, ← List.all_eq_true]
  simp only [step?]
  constructor
  · rintro ⟨w', hw'⟩
    split at hw'
    · next hpass => exact hpass.2
    · cases hw'
  · intro hall
    exact ⟨_, if_pos ⟨hnow, hall⟩⟩

end Steady

/-- In every course of acts. The phase never goes back; the close is begun by the one call that
leaves `active`. A wait is over at once if the cache was closed before; it succeeds at the instant
of the close if that comes before its timer, and fails at the instant of its timer if the close has
not come by then; a wait without an end is over when the cache is closed. Whoever waits is told at
the first instant at which there is something to tell, since the clock does not go on before.
Without some of the waiters, and all that they did, everything else would be as it is. -/
theorem waiters_told {acts more : List Act} {u w : Signal} (hacts : run? {} acts = some u)
    (hmore : u.run? more = some w) :
    Observed u w ∧
      (∀ keep : Nat → Bool, run? {} ((acts ++ more).filter fun act => act.waiter?.all keep) =
        some (w.only keep)) ∧
      ∀ v ∈ w.waiters, ∀ span, v.timeout = some span →
        v.ring? = some (Time.roundUp (v.since + span)) := by
  have hu := Steady.empty.run? hacts
  have hw := hu.run? hmore
  refine ⟨?_, fun keep => ?_, fun v _ span hspan => ?_⟩
  · exact
      { onward := .run? hmore
        closed := hw.closed
        begins := hw.begins
        once := hw.once
        told := fun v hv t b htold => hw.told hv htold
        waiting := fun v hv => (hw.waiters v hv).waiting
        looks := fun v hv => hw.looks hv
        clock := fun t => hw.clock }
  · refine run?_only keep (w := {}) ?_
    rw [run?, List.foldlM_append]
    exact Option.bind_eq_some_iff.mpr ⟨u, hacts, hmore⟩
  · rw [Waiter.ring?, hspan, Option.map_some, Time.ring]

/-- Five waiters: one whose time is up at once, one whose timer rings in the instant of the close
but is looked at before it, two who are told of the close, and one who comes later, for no time at
all. -/
theorem waiters_told_closing :
    let acts : List Act :=
      [.wait 0 (some 5000000), .wait 1 none, .wait 2 (some 0), .look 2, .beginClose]
    let more : List Act :=
      [.beginClose, .pass 1500000, .wait 3 (some 1000000), .pass 3000000, .look 3,
      .complete, .look 0, .look 1, .wait 4 (some 0), .look 4, .beginClose]
    ∃ u w, run? {} acts = some u ∧ u.run? more = some w ∧ Observed u w ∧
      w.begins = [(0, true), (0, false), (3000000, false)] ∧
      w.waiters.map Waiter.fate = [.told 3000000 true, .told 3000000 true, .told 0 false,
        .told 3000000 false, .told 3000000 true] := by
  have hcourse := @waiters_told
    [.wait 0 (some 5000000), .wait 1 none, .wait 2 (some 0), .look 2, .beginClose]
    [.beginClose, .pass 1500000, .wait 3 (some 1000000), .pass 3000000, .look 3, .complete, .look 0,
      .look 1, .wait 4 (some 0), .look 4, .beginClose] _ _ rfl rfl
  exact ⟨_, _, rfl, rfl, hcourse.1, rfl, rfl⟩

end Signal

end CacheBridge
