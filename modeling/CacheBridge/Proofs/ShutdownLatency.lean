import CacheBridge.Proofs.Callers
import CacheBridge.Double.Modern
import CacheBridge.Watch.Spy

/-!
Bridges add no latency to a shutdown. Whatever else a tower is used for, and in whatever order it is
run, the bottom is asked to close at the instant at which the top is; when it has closed, every
bridge has closed and everybody who waits has been told before the clock moves on; and when it
fails, no bridge closes and whoever waits runs out of time.
-/

namespace CacheBridge

namespace Tower

variable {g : Generation} {σ φ : Type}

/-- The tower with a bottom that nobody has asked anything, before anybody calls. -/
def opened (t : Tower .modern g) (env : Env) (y : σ) : t.Callers σ φ :=
  ⟨env, t.fresh ({}, y), [], [], []⟩

theorem calm_fresh (t : Tower .modern g) (y : σ) :
    t.Calm (t.fresh (({} : CloseLog), y) : t.Logged σ φ) := by
  induction t with
  | ground => exact ⟨rfl, rfl⟩
  | toLegacy counts t ih => exact ⟨rfl, ih⟩
  | toModern poll t ih => exact ⟨rfl, ih⟩

theorem orderly_opened (s : Nat) (t : Tower .modern g) {env : Env} (hr : env.runtime = true)
    (y : σ) : t.Orderly s (t.opened env y : t.Callers σ φ) := by
  have hcalm := calm_fresh (φ := φ) t y
  refine ⟨hr, .inl ⟨rfl, hcalm⟩, fun _ => nofun, nofun, nofun, fun f a hmem => ?_,
    fun f reply htold => ?_⟩
  · exact absurd (hcalm.log.2 ▸ hmem) nofun
  · exact absurd (hcalm.log.2.symm.trans htold) nofun

section Runs

variable (below : Level .modern σ φ) (base : List (Job σ)) {t : Tower .modern g} {s : Nat}
  {w w' : t.Callers σ φ} {acts : List (Clockwork.Act g)}

theorem Orderly.run? (h : t.Orderly s w) (hdepth : 0 < t.depth) (hp : t.Prompt)
    (hrun : Clockwork.run? (t.logging below) (t.works below base) w acts = some w')
    (hasked : w'.asked = [] ∨ w'.asked.head? = some (s, true)) : t.Orderly s w' :=
  Clockwork.run?_invariant (P := t.Orderly s) hrun
    (fun _ hstep hrest h => h.stepped below base hdepth hp hstep
        (Clockwork.asked_before hrest hasked)) h

/-- Where nothing is ready, everybody who waits has time left. -/
theorem Orderly.open_of_quiet (h : t.Orderly s w)
    (hquiet : w.quiet (t.logging below) (t.works below base) = true) :
    ∀ p ∈ w.pending, tellsClosed p.request = true → lapsed p.since w.env p.request = false :=
  fun p hp htells => (((h.pending p hp).stays htells).unready below
    ((Clockwork.ready_of_quiet hquiet).1 p hp)).1

theorem Orderly.watched (h : t.Orderly s w) (hdepth : 0 < t.depth) (hp : t.Prompt) {v : Env}
    (hwatched : w.Watched v)
    (hrun : Clockwork.run? (t.logging below) (t.works below base) w acts = some w')
    (hasked : w'.asked = [] ∨ w'.asked.head? = some (s, true)) : w'.Watched v := by
  refine (Clockwork.run?_invariant (P := fun u => t.Orderly s u ∧ u.Watched v) hrun
    (fun _ hstep hrest h => ?_) ⟨h, hwatched⟩).2
  obtain ⟨h, hwatched⟩ := h
  exact ⟨h.stepped below base hdepth hp hstep (Clockwork.asked_before hrest hasked),
    hwatched.stepped hstep (h.open_of_quiet below base)⟩

/-! ## How long an instant lasts -/

/-- The looks that a call which waits for the close has still to come. -/
def duty (now : Nat) (t : Tower .modern g) (r : Request g) (call : t.LoggedCall φ) : Nat :=
  if tellsClosed r then 1 + t.overdue now call else 0

/-- The looks that these calls have still to come. -/
def duties (now : Nat) (t : Tower .modern g) : List (Pending g (t.LoggedCall φ)) → Nat
  | [] => 0
  | p :: calls => t.duty now p.request p.call + t.duties now calls

/-- The looks that are still to come within the instant, not counting those at the bottom. -/
def load (t : Tower .modern g) (w : t.Callers σ φ) : Nat :=
  t.rest w.env.now w.state + t.duties w.env.now w.pending

theorem duties_append (t : Tower .modern g) (now : Nat) (calls : List (Pending g (t.LoggedCall φ)))
    (p : Pending g (t.LoggedCall φ)) :
    t.duties now (calls ++ [p]) = t.duties now calls + t.duty now p.request p.call := by
  induction calls with
  | nil => simp [duties]
  | cons q calls ih => simp only [List.cons_append, duties, ih, Nat.add_assoc]

theorem duties_pick (t : Tower .modern g) (now : Nat) {calls : List (Pending g (t.LoggedCall φ))}
    {i : Nat} {p : Pending g (t.LoggedCall φ)} (hi : calls[i]? = some p) :
    t.duties now calls = t.duty now p.request p.call + t.duties now (calls.eraseIdx i) := by
  induction calls generalizing i with
  | nil => cases hi
  | cons q calls ih =>
    cases i with
    | zero =>
      cases hi
      rfl
    | succ i =>
      have hrest := ih (i := i) hi
      simp only [duties, List.eraseIdx_cons_succ]
      omega

theorem load_take (t : Tower .modern g) (w : t.Callers σ φ) (r : Request g) (since : Nat)
    (others : List (Pending g (t.LoggedCall φ)))
    (turn : Turn (t.Logged σ φ) (t.LoggedCall φ) (Answer g)) :
    t.load (w.take r since others turn) = t.rest w.env.now turn.state +
      (t.duties w.env.now others +
        match turn.progress with
        | .waiting call => t.duty w.env.now r call
        | .answered _ => 0) := by
  obtain ⟨x, p, es⟩ := turn
  cases p with
  | waiting call => simp only [load, Clockwork.take, duties_append]
  | answered a => simp only [load, Clockwork.take, Nat.add_zero]

/-- A look at a call brings the shutdown on, or has reached the bottom. -/
theorem Orderly.look_brings (h : t.Orderly s w) (hp : t.Prompt) {i : Nat}
    {p : Pending g (t.LoggedCall φ)} (hi : w.pending[i]? = some p)
    (hready : (t.logging below).ready p.call w.env w.state = true) :
    let turn := (t.logging below).resume p.call w.env w.state
    t.load (w.take p.request p.since (w.pending.eraseIdx i) turn) + 1 + (t.log w.state).looks ≤
      t.load w + (t.log turn.state).looks := by
  have hmem := List.mem_of_getElem? hi
  have hkept := h.pending p hmem
  simp only [load_take]
  simp only [load, t.duties_pick w.env.now hi]
  cases htells : tellsClosed p.request with
  | true =>
    obtain ⟨hlearned, hover⟩ := resume_waiter below hp
      (h.stage.course_or_calm fun hnone => h.first hnone p hmem) (hkept.stays htells)
    have hover := hover hready
    generalize (t.logging below).resume p.call w.env w.state = turn at *
    cases hlearned with
    | done _ hlog hrest =>
      simp only [hlog, hrest, duty, htells, if_true]
      omega
    | late =>
      simp only [duty, htells, if_true]
      omega
    | @stays _ call _ hfresh =>
      simp only [duty, htells, if_true, hfresh, hover call rfl]
      omega
  | false =>
    have haside := (spares below t).resume p.call w.env w.state (hkept.data htells)
    have hlooks := haside.looks
    rw [haside.like.rest]
    generalize (t.logging below).resume p.call w.env w.state = turn at *
    cases turn.progress with
    | waiting call =>
      simp only [duty, htells, Bool.false_eq_true, if_false]
      omega
    | answered a =>
      simp only [duty, htells, Bool.false_eq_true, if_false]
      omega

/-- So does background work. -/
theorem Orderly.work_brings (h : t.Orderly s w) (hp : t.Prompt) {job : Job (t.Logged σ φ)}
    (hjob : job ∈ t.works below base) (hready : job.ready w.env w.state = true) :
    t.load { w with state := (job.run w.env w.state).1 } + 1 + (t.log w.state).looks ≤
      t.load w + (t.log (job.run w.env w.state).1).looks := by
  have hadvances : t.Advances w.env.now 1 w.state (job.run w.env w.state).1 := by
    obtain ⟨-, hcalm⟩ | ⟨-, hs, hcourse⟩ := h.stage
    · have hadvances := (hcalm.resting.work below base w.env.now w.env hjob).2
      rwa [hready] at hadvances
    · have hadvances := (hcourse.work below base hp h.runtime hs hjob).2
      rwa [hready] at hadvances
  have hrest := hadvances.rest
  simp only [load]
  omega

/-- Looks at calls, and pieces of background work. -/
def Busy (acts : List (Clockwork.Act g)) : Prop :=
  ∀ act ∈ acts, (∃ i, act = .look i) ∨ ∃ i, act = .work i

/-- Within an instant, of all looks only so many do not reach the bottom. -/
theorem Orderly.busy (h : t.Orderly s w) (hdepth : 0 < t.depth) (hp : t.Prompt) (hbusy : Busy acts)
    (hrun : Clockwork.run? (t.logging below) (t.works below base) w acts = some w') :
    t.load w' + acts.length + (t.log w.state).looks ≤ t.load w + (t.log w'.state).looks := by
  induction acts generalizing w with
  | nil =>
    cases hrun
    simp
  | cons act acts ih =>
    obtain ⟨v, hv, hrest⟩ := Clockwork.run?_cons.mp hrun
    have hstep := Clockwork.stepped hv
    have hbusy' : Busy acts := fun a ha => hbusy a (List.mem_cons_of_mem _ ha)
    have hfirst : v.asked = w.asked ∧
        t.load v + 1 + (t.log w.state).looks ≤ t.load w + (t.log v.state).looks := by
      obtain ⟨i, rfl⟩ | ⟨i, rfl⟩ := hbusy act List.mem_cons_self
      · cases hstep with
        | look i hi hready =>
          have hbrings := h.look_brings below hp hi hready
          generalize (t.logging below).resume _ w.env w.state = turn at *
          obtain ⟨x, p, es⟩ := turn
          cases p <;> exact ⟨rfl, hbrings⟩
      · cases hstep with
        | work i hjob hready => exact ⟨rfl, h.work_brings below base hp hjob hready⟩
    have hasked : v.asked = [] ∨ v.asked.head? = some (s, true) :=
      hfirst.1 ▸ h.stage.imp And.left And.left
    have hrest := ih (h.stepped below base hdepth hp hstep hasked) hbusy' hrest
    have hfirst := hfirst.2
    rw [List.length_cons]
    omega

/-! ## What a shutdown looks like from outside -/

/-- A shutdown that was first asked for at `s`, seen at one state of a tower with its callers and at
a later one. -/
structure Undelayed (s : Nat) (t : Tower .modern g) (v w : t.Callers σ φ) : Prop where
  /-- The bottom is asked once, before the clock moves on, and heard as soon as it has an answer. -/
  asked : w.quiet (t.logging below) (t.works below base) = true →
    (t.log w.state).asked = [(s, .background)] ∧ ((t.log w.state).told = [] →
      ∃ call, t.Sent call w.state ∧ below.ready call w.env (t.bottom w.state).2 = false)
  /-- When the bottom has closed, whoever has time left is told at that very instant, or at once if
  he comes later, and nothing is left to do. -/
  closed : ∀ f reply, (t.log w.state).told = [(f, .ok reply)] → s ≤ f ∧
    (∀ c ∈ w.told, tellsClosed c.request = true → lapsed c.since w.env c.request = false →
      c.answer = Answer.done ∧ c.till = max f c.since) ∧
    (∀ c ∈ w.told, tellsClosed c.request = true → c.answer = .error .timeout → c.till ≤ f) ∧
    (w.quiet (t.logging below) (t.works below base) = true →
      (∀ p ∈ w.pending, tellsClosed p.request = false) ∧
      (g = .legacy ∨ (∃ c ∈ w.told, tellsClosed c.request = true ∧ c.answer = Answer.done) →
        ∀ p ∈ t.phases w.state, p = .closed))
  /-- When the bottom has failed, nothing is closed, and nobody is told otherwise. -/
  failed : ∀ f e, (t.log w.state).told = [(f, .error e)] →
    (∀ p ∈ t.phases w.state, p ≠ .closed) ∧
    ∀ c ∈ w.told, tellsClosed c.request = true → c.answer = .error .timeout
  /-- A timeout comes when the time is up, and not before. -/
  late : ∀ c ∈ w.told, tellsClosed c.request = true → c.answer = .error .timeout →
    c.late = true ∧ (∀ a, bell c.since c.request = some a → c.till ≤ max c.since a) ∧
    (c.since ≤ v.env.now → v.env.now < c.till → lapsed c.since v.env c.request = false)
  /-- Nor is anybody kept waiting whose time is up. -/
  waiting : w.quiet (t.logging below) (t.works below base) = true →
    ∀ p ∈ w.pending, tellsClosed p.request = true → lapsed p.since w.env p.request = false
  /-- An instant is not for ever: so many looks, and those at the bottom. -/
  busy : ∀ acts w', Busy acts →
    Clockwork.run? (t.logging below) (t.works below base) w acts = some w' →
    acts.length + (t.log w.state).looks ≤ t.load w + (t.log w'.state).looks

theorem Orderly.undelayed (h : t.Orderly s w) (hdepth : 0 < t.depth) (hp : t.Prompt)
    (hlasting : w.Lasting) {v : t.Callers σ φ} (hwatched : w.Watched v.env)
    (hasked : w.asked.head? = some (s, true)) : t.Undelayed below base s v w := by
  have hcourse : t.Course w.env.now s w.state := by
    obtain ⟨hnone, -⟩ | ⟨-, -, hcourse⟩ := h.stage
    · rw [hnone] at hasked
      cases hasked
    · exact hcourse
  have hanswer (c : Told g) (hc : c ∈ w.told) (htells : tellsClosed c.request = true) :=
    (h.told c hc htells).answer
  refine ⟨fun hquiet => ?asked, fun f reply htold => ⟨?_, ?intime, ?tooLate, ?settled⟩,
    fun f e htold => ?failed, fun c hc htells htimeout => ?late, fun hquiet => ?waiting,
    fun acts w' hbusy hrun => ?busy⟩
  case asked =>
    have hidle := (Clockwork.ready_of_quiet hquiet).2
    exact ⟨hcourse.asked_of_quiet below base hidle, hcourse.heard_of_quiet below base hdepth hidle⟩
  · exact (h.heard f (.ok reply) (htold ▸ List.mem_cons_self)).1
  case intime =>
    intro c hc htells hopen
    obtain hheard | hmissed := hanswer c hc htells
    · exact ⟨hheard.answer, hheard.till f reply htold⟩
    · exact absurd (hopen.symm.trans (hlasting c hc hmissed.late)) nofun
  case tooLate =>
    intro c hc htells htimeout
    obtain hheard | hmissed := hanswer c hc htells
    · exact absurd (htimeout.symm.trans hheard.answer) nofun
    · exact hmissed.till f reply htold
  case settled =>
    intro hquiet
    obtain ⟨harrived, hpending⟩ := h.settled below base hquiet f reply htold
    refine ⟨hpending, fun htop => ?_⟩
    obtain rfl | ⟨c, hc, htells, hdone⟩ := htop
    · cases t with
      | toLegacy counts t => exact Shut.phases_closed harrived
    · obtain hheard | hmissed := hanswer c hc htells
      · exact hheard.shut.phases_closed
      · exact absurd (hdone.symm.trans hmissed.answer) nofun
  case failed =>
    have hnever (f' : Nat) (reply : Reply) : (t.log w.state).told ≠ [(f', .ok reply)] := by
      simp [htold]
    refine ⟨hcourse.phases_open hnever, fun c hc htells => ?_⟩
    obtain hheard | hmissed := hanswer c hc htells
    · obtain ⟨-, f', reply, hok⟩ := hheard.shut.log
      exact absurd hok (hnever f' reply)
    · exact hmissed.answer
  case late =>
    obtain hheard | hmissed := hanswer c hc htells
    · exact absurd (htimeout.symm.trans hheard.answer) nofun
    · exact ⟨hmissed.late, hmissed.bell, hwatched.told c hc htells⟩
  case waiting => exact h.open_of_quiet below base hquiet
  case busy =>
    have hbound := h.busy below base hdepth hp hbusy hrun
    omega

end Runs

/-- However a tower is used and run, from before anybody asks for a close, by whom it is first asked
for inside a runtime: bridges add no delay to the shutdown of the bottom. Every call is under way or
answered unless it is given up. -/
theorem shutdown_undelayed (below : Level .modern σ φ) (base : List (Job σ)) {t : Tower .modern g}
    (hdepth : 0 < t.depth) (hp : t.Prompt) {env : Env} (hr : env.runtime = true)
    (y : σ) {acts more : List (Clockwork.Act g)} {v w : t.Callers σ φ} {s : Nat}
    (hacts : Clockwork.run? (t.logging below) (t.works below base) (t.opened env y) acts = some v)
    (hmore : Clockwork.run? (t.logging below) (t.works below base) v more = some w)
    (hasked : w.asked.head? = some (s, true)) :
    t.Undelayed below base s v w ∧
      (∀ r inside u, v.step? (t.logging below) (t.works below base) (.call r inside) = some u →
        u.Served r v.env.now) ∧
      ∀ r since, v.Served r since → (∀ i, .abandon i ∉ more) → w.Served r since := by
  have hearlier := Clockwork.asked_before hmore (.inr hasked)
  have hv := (orderly_opened s t hr y).run? below base hdepth hp hacts hearlier
  have hw := hv.run? below base hdepth hp hmore (.inr hasked)
  have hlasting : (t.opened env y : t.Callers σ φ).Lasting := nofun
  have hwatched : v.Watched v.env := by
    refine ⟨.refl _, fun _ _ _ _ hlt => absurd hlt (Nat.lt_irrefl _), fun c hc htells _ hlt => ?_⟩
    exact absurd (hv.told c hc htells).till (Nat.not_le.mpr hlt)
  refine ⟨?_, fun r inside u hu => ?_, fun r since hserved => hserved.run? hmore⟩
  · exact hw.undelayed below base hdepth hp ((hlasting.run? hacts).run? hmore)
      (hv.watched below base hdepth hp hwatched hmore (.inr hasked)) hasked
  · cases hu
    exact .take_new _ _ _ _

/-- A cache whose close takes some time. -/
def unhurried (span : Nat) :
    Level .modern (Spy.State .modern ModernDouble.State) (Spy.Call .modern NoCall) :=
  Spy.level { level := 0, delays := [(.close, span)] } (ModernDouble.level {})

/-- Three bridges over a cache whose close takes 7 ms, polled every 5 ms: a wait for 7 ms is too
short, one for 8 ms is not. -/
theorem shutdown_undelayed_polled :
    let ms := Time.millisecond
    let t : Tower .modern .legacy := .toLegacy true (.toModern (5 * ms) (.toLegacy true .ground))
    let below := unhurried (7 * ms)
    let acts : List (Clockwork.Act .legacy) :=
      [.call .closeAsync true, .call (.waitForClose (7 * ms)) true,
        .call (.waitForClose (8 * ms)) true, .work 1, .work 0, .pass (5 * ms), .work 1]
    let more : List (Clockwork.Act .legacy) :=
      [.pass (7 * ms), .look 0, .work 0, .work 1, .look 0, .call (.waitForClose 0) true]
    ∃ v w : t.Callers _ _,
      Clockwork.run? (t.logging below) (t.works below [])
        (t.opened ⟨0, 0, {}, true⟩ ([], {})) acts = some v ∧
      Clockwork.run? (t.logging below) (t.works below []) v more = some w ∧
      t.Undelayed below [] 0 v w ∧ (t.log w.state).told = [(7 * ms, Answer.done)] ∧
      t.phases w.state = [.closed, .closed, .closed] ∧
      (w.told.map fun c => (c.request, c.answer, c.till)) =
        [(.closeAsync, Answer.done, 0), (.waitForClose (7 * ms), .error .timeout, 7 * ms),
          (.waitForClose (8 * ms), Answer.done, 7 * ms),
          (.waitForClose 0, Answer.done, 7 * ms)] := by
  have hpolled := @shutdown_undelayed .legacy _ _ (unhurried (7 * Time.millisecond)) []
    (.toLegacy true (.toModern (5 * Time.millisecond) (.toLegacy true .ground))) (by decide)
    (by simp [Prompt, Time.millisecond]) ⟨0, 0, {}, true⟩ rfl ([], {})
    [.call .closeAsync true, .call (.waitForClose (7 * Time.millisecond)) true,
      .call (.waitForClose (8 * Time.millisecond)) true, .work 1, .work 0,
      .pass (5 * Time.millisecond), .work 1]
    [.pass (7 * Time.millisecond), .look 0, .work 0, .work 1, .look 0, .call (.waitForClose 0) true]
    _ _ 0 rfl rfl rfl
  exact ⟨_, _, rfl, rfl, hpolled.1, rfl, rfl, rfl⟩

end Tower

end CacheBridge
