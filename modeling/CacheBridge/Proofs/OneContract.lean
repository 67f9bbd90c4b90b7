import CacheBridge.Proofs.Assembly
import CacheBridge.Proofs.Facade
import CacheBridge.Proofs.Quiescence

/-!
One legacy contract. A session with a tower on a store, whose callers use the legacy contract at the
top, goes as the facade says: between two steps the tower stands, open or shut, its entries look
like those of the facade, and its background is idle. So sessions with different towers, or with
none at all, cannot be told apart by what each call gives or by how long it takes.
-/

namespace CacheBridge

open StackSession EventLoop

/-! ## Background tasks -/

section Crew

variable {σ : Type} {jobs : List (Job σ)} {queue : List (Running (machine σ))}

theorem timekeeping (σ : Type) : Timekeeping (machine σ) :=
  ⟨fun _ => rfl⟩

/-- The tasks of the queue are the jobs. -/
structure Crew (jobs : List (Job σ)) (queue : List (Running (machine σ))) : Prop where
  numbers : (queue.map (·.number)).Nodup
  tasks : (queue.map (·.task)).Perm (jobs.map .job)

theorem Crew.perm (h : Crew jobs queue) {queue' : List (Running (machine σ))}
    (hq : queue'.Perm queue) : Crew jobs queue' :=
  ⟨(hq.map _).nodup_iff.mpr h.numbers, (hq.map _).trans h.tasks⟩

theorem Crew.job (h : Crew jobs queue) {r : Running (machine σ)} (hr : r ∈ queue) :
    ∃ job ∈ jobs, r.task = .job job := by
  obtain ⟨job, hjob, htask⟩ := List.mem_map.mp (h.tasks.mem_iff.mp (List.mem_map_of_mem hr))
  exact ⟨job, hjob, htask.symm⟩

theorem Crew.task (h : Crew jobs queue) {job : Job σ} (hjob : job ∈ jobs) :
    ∃ r ∈ queue, r.task = .job job :=
  List.mem_map.mp (h.tasks.mem_iff.mpr (List.mem_map_of_mem hjob))

theorem Crew.length (h : Crew jobs queue) : queue.length = jobs.length :=
  (List.length_map _).symm.trans (h.tasks.length_eq.trans (List.length_map _))

/-- A task that has run goes to the end of the queue. -/
theorem perm_to_end {m : Machine} {queue : List (Running m)}
    (h : (queue.map (·.number)).Nodup) {r : Running m} (hr : r ∈ queue) :
    (queue.filter (·.number != r.number) ++ [r]).Perm queue := by
  induction queue with
  | nil => cases hr
  | cons q queue ih =>
    obtain ⟨hq, hqueue⟩ := List.nodup_cons.mp h
    rcases List.mem_cons.mp hr with rfl | hr
    · have hothers : queue.filter (·.number != r.number) = queue := by
        refine List.filter_eq_self.mpr fun q' hq' => ?_
        have hne : q'.number ≠ r.number := fun he => hq (List.mem_map.mpr ⟨q', hq', he⟩)
        simpa using hne
      rw [List.filter_cons_of_neg (by simp), hothers]
      exact List.perm_append_singleton r queue
    · have hne : q.number ≠ r.number := fun he => hq (List.mem_map.mpr ⟨r, hr, he.symm⟩)
      rw [List.filter_cons_of_pos (by simpa using hne)]
      exact (ih hqueue hr).cons q

theorem runTask_job {l : EventLoop (machine σ)} {r : Running (machine σ)} {job : Job σ}
    (hr : r.task = .job job) :
    (l.runTask r).world.env = l.world.env ∧
      (l.runTask r).world.state = (job.run l.world.env l.world.state).1 ∧
      (l.runTask r).queue = l.queue.filter (·.number != r.number) ++ [r] := by
  obtain ⟨number, task, born⟩ := r
  cases (hr : task = _)
  exact ⟨rfl, rfl, rfl⟩

/-- The queue of a session that has just begun. -/
theorem crew_spawn (jobs : List (Job σ)) (l : EventLoop (machine σ))
    (hnumbers : (l.queue.map (·.number)).Nodup) (hnext : ∀ r ∈ l.queue, r.number < l.next) :
    let begun := jobs.foldl (fun l j => (l.spawn (Task.job j)).1) l
    (begun.queue.map (·.number)).Nodup ∧ begun.world = l.world ∧
      begun.queue.map (·.task) = l.queue.map (·.task) ++ jobs.map .job := by
  induction jobs generalizing l with
  | nil => exact ⟨hnumbers, rfl, (List.append_nil _).symm⟩
  | cons job jobs ih =>
    have hold (n : Nat) (hn : n ∈ l.queue.map (·.number)) : n < l.next := by
      obtain ⟨r, hr, rfl⟩ := List.mem_map.mp hn
      exact hnext r hr
    have hnumbers' : (((l.spawn (Task.job job)).1.queue).map (·.number)).Nodup := by
      simp only [spawn, List.map_append]
      refine List.nodup_append.mpr ⟨hnumbers, by simp, ?_⟩
      rintro n hn _ hlast rfl
      exact absurd (hold n hn) (List.mem_singleton.mp hlast ▸ Nat.lt_irrefl _)
    have hnext' : ∀ r ∈ (l.spawn (Task.job job)).1.queue,
        r.number < (l.spawn (Task.job job)).1.next := by
      intro r hr
      rcases List.mem_append.mp hr with hr | hr
      · exact Nat.lt_succ_of_lt (hnext r hr)
      · cases List.mem_singleton.mp hr
        exact Nat.lt_succ_self _
    obtain ⟨h, hworld, htasks⟩ := ih (l.spawn (Task.job job)).1 hnumbers' hnext'
    refine ⟨h, hworld, ?_⟩
    rw [List.foldl_cons, htasks]
    simp only [spawn, List.map_append, List.append_assoc]
    rfl

end Crew

/-! ## A loop with a tower -/

section Loop

variable {v : Vault} {b : Generation} {t : Tower b .legacy} {c : Facade}
  {l : EventLoop (machine (t.Built v))}

/-- Between two steps: the tower stands, and the loop is as the facade says. -/
structure Follows (t : Tower b .legacy) (c : Facade) (l : EventLoop (machine (t.Built v))) :
    Prop where
  now : l.now = c.now
  wall : l.world.env.wall = c.wall
  runtime : l.world.env.runtime = true
  stands : t.Stands c.shut l.world.state
  shows : Engine.Shows v c.wall b (t.bottom l.world.state) c.slots
  crew : Crew (t.closers v) l.queue

theorem Follows.idle (h : Follows t c l) : l.Idle := by
  intro r hr u
  obtain ⟨job, hjob, htask⟩ := h.crew.job hr
  obtain ⟨hready, halarm, -⟩ := h.stands.job hjob { l.world.env with now := u }
  rw [htask]
  exact ⟨hready, halarm⟩

theorem Follows.of_fresh (hv : v.Honours (.perEntry none))
    (hworld : l.world = ⟨freshEnv, t.fresh (Engine.fresh v b), []⟩)
    (hcrew : Crew (t.closers v) l.queue) : Follows t {} l := by
  obtain ⟨world, queue, finished, names, next⟩ := l
  cases hworld
  exact ⟨rfl, rfl, rfl, t.stands_fresh v, t.shows_fresh hv 0, hcrew⟩

/-- The events that are waiting to be reported are nobody's concern. -/
theorem Follows.noting (h : Follows t c l) (es : List Event) :
    Follows t c { l with world := { l.world with events := es } } :=
  ⟨h.now, h.wall, h.runtime, h.stands, h.shows, h.crew⟩

theorem Follows.settle (h : Follows t c l) : Follows t c l.settle := by
  rw [settle_of_quiet (h.idle.quiet (timekeeping _))]
  exact h

theorem Follows.moved (h : Follows t c l) (u : Nat) : Follows t { c with now := u } (l.moved u) :=
  ⟨rfl, h.wall, h.runtime, h.stands, h.shows, h.crew⟩

theorem Follows.sleep (h : Follows t c l) (span : Nat) :
    Follows t { c with now := Time.ring c.now span } (l.sleep span) := by
  rw [h.idle.sleep (timekeeping _), h.now]
  exact h.moved (Time.ring c.now span)

/-- The loop `l'` is `l` after some work in the background, and a wave is under way in it. -/
structure Surges (l l' : EventLoop (machine (t.Built v))) : Prop where
  env : l'.world.env = l.world.env
  queue : l'.queue.Perm l.queue
  wave : t.Wave l'.world.env.now l'.world.env.wall l'.world.state

section Surges

variable {l' : EventLoop (machine (t.Built v))} (hcrew : Crew (t.closers v) l.queue)

include hcrew

/-- Whichever task runs, the wave goes on, and it comes on if the task was ready. -/
theorem Surges.runTask (hv : v.Honours (.perEntry none)) (hp : t.Prompt)
    (hr : l.world.env.runtime = true) (h : Surges l l') {r : Running (machine (t.Built v))}
    (hmem : r ∈ l.queue) :
    Surges l (l'.runTask r) ∧ t.left (l'.runTask r).world.state +
      (if (machine (t.Built v)).ready l'.world r.task then 1 else 0) ≤ t.left l'.world.state := by
  obtain ⟨job, hjob, htask⟩ := hcrew.job hmem
  obtain ⟨henv, hstate, hqueue⟩ := runTask_job (l := l') htask
  obtain ⟨hwave, hleft⟩ := h.wave.job hv hp (h.env ▸ hr) hjob
  refine ⟨⟨henv.trans h.env, ?_, ?_⟩, ?_⟩
  · rw [hqueue]
    have hnumbers := (hcrew.perm h.queue).numbers
    exact (perm_to_end hnumbers (h.queue.mem_iff.mpr hmem)).trans h.queue
  · rw [henv, hstate]
    exact hwave
  · rw [htask, hstate]
    exact hleft

/-- Where no task is ready the wave has gone all of its way. -/
theorem Surges.gone (h : Surges l l') (hquiet : l'.readyTasks = []) :
    t.Gone l'.world.env.wall l'.world.state := by
  refine (h.wave.over fun job hjob => ?_).gone
  obtain ⟨r, hr, htask⟩ := (hcrew.perm h.queue).task hjob
  have hready := List.filter_eq_nil_iff.mp hquiet r hr
  rw [htask] at hready
  exact Bool.eq_false_iff.mpr hready

/-- A wave goes all of its way before the loop has settled. -/
theorem settle_wave (hv : v.Honours (.perEntry none)) (hp : t.Prompt)
    (hr : l.world.env.runtime = true) (h : t.Wave l.now l.world.env.wall l.world.state) :
    Surges l l.settle ∧ t.Gone l.settle.world.env.wall l.settle.world.state := by
  let left (l' : EventLoop (machine (t.Built v))) : Nat := t.left l'.world.state
  have hround : ∀ l', Surges l l' → l'.readyTasks ≠ [] →
      Surges l l'.round ∧ left l'.round < left l' :=
    fun l' => round_lowers left (fun l' h r hr => h.queue.mem_iff.mp hr)
      fun l' h r hmem => h.runTask hcrew hv hp hr hmem
  have hfuel : left l < patience * (l.queue.length + 1) := by
    have hleft := t.left_le l.world.state
    rw [← hcrew.length] at hleft
    change t.left l.world.state < 100000 * (l.queue.length + 1)
    omega
  obtain ⟨hsurges, hquiet⟩ := settleWithin_quiet left hround _ ⟨rfl, .refl _, h⟩ hfuel
  exact ⟨hsurges, hsurges.gone hcrew hquiet⟩

end Surges

/-- Where the wave has gone all of its way the facade is shut. The loop is any, since an equation
about one that has settled would be checked by settling it. -/
theorem Surges.follows {l' : EventLoop (machine (t.Built v))} (h : Surges l l')
    (hnow : l.now = c.now) (hwall : l.world.env.wall = c.wall) (hr : l.world.env.runtime = true)
    (hcrew : Crew (t.closers v) l.queue) (hgone : t.Gone l'.world.env.wall l'.world.state) :
    Follows t { c with slots := {}, shut := true } l' := by
  have hwall' : l'.world.env.wall = c.wall := (congrArg Env.wall h.env).trans hwall
  exact ⟨(congrArg Env.now h.env).trans hnow, hwall', (congrArg Env.runtime h.env).trans hr,
    hgone.1, hwall' ▸ hgone.2, hcrew.perm h.queue⟩

/-- Once a wave has been started, the loop settles with the tower shut. -/
theorem follows_settle_wave (hv : v.Honours (.perEntry none)) (hp : t.Prompt)
    (hnow : l.now = c.now) (hwall : l.world.env.wall = c.wall) (hr : l.world.env.runtime = true)
    (hcrew : Crew (t.closers v) l.queue) (h : t.Wave l.now l.world.env.wall l.world.state) :
    Follows t { c with slots := {}, shut := true } l.settle := by
  obtain ⟨hsurges, hgone⟩ := settle_wave hcrew hv hp hr h
  exact hsurges.follows hnow hwall hr hcrew hgone

/-! ## Calls at the top -/

/-- What a session makes of what it has heard. -/
def outcome {σ : Type} : Option (Heard (machine σ)) → Outcome
  | none => .hung
  | some (.result r) => .result r
  | some (.joined f) => .joined f.result f.took

variable {phase? : t.Built v → Option Phase} {inspect? : t.Built v → Option Inspection}

/-- The top of a tower, as a tier of a stack. -/
abbrev topTier (t : Tower b .legacy) (phase? : t.Built v → Option Phase)
    (inspect? : t.Built v → Option Inspection) : Tier (t.Built v) :=
  ⟨.legacy, t.Call (Engine.Call b), t.cache v, phase?, inspect?⟩

variable (phase? inspect?)

/-- All surfaces are there, so a call is made wherever it is asked for. -/
theorem run_fresh (w : World (t.Built v)) (r : LegacyRequest) (surface : Option Surface)
    (runtime : Bool) :
    ∃ es, (machine (t.Built v)).run w (Task.fresh (topTier t phase? inspect?) r surface runtime) =
      World.apply { w with events := es } (topTier t phase? inspect?)
        ((t.cache v).start r { w.env with runtime := runtime } w.state) := by
  cases surface with
  | none => exact ⟨w.events, rfl⟩
  | some surface => exact ⟨_, if_pos (t.offers_engine _ (.inl rfl))⟩

theorem attend_answered {r : LegacyRequest} (surface : Option Surface) {runtime : Bool}
    {s : t.Built v} {a : Answer .legacy} {es : List Event}
    (h : (t.cache v).start r { l.world.env with runtime := runtime } l.world.state =
      ⟨s, .answered a, es⟩) :
    ∃ es, attend (.call (Task.fresh (topTier t phase? inspect?) r surface runtime)) l =
      ({ l with world := { l.world with state := s, events := es } },
        .answered (.result (.answer .legacy a))) := by
  obtain ⟨fs, hrun⟩ := run_fresh phase? inspect? l.world r surface runtime
  refine ⟨fs ++ es, ?_⟩
  simp only [attend]
  rw [hrun, h]
  rfl

theorem attend_waiting {r : LegacyRequest} (surface : Option Surface) {runtime : Bool}
    {s : t.Built v} {call : t.Call (Engine.Call b)}
    (h : (t.cache v).start r { l.world.env with runtime := runtime } l.world.state = .wait s call) :
    ∃ es, attend (.call (Task.fresh (topTier t phase? inspect?) r surface runtime)) l =
      ({ l with world := { l.world with state := s, events := es } },
        .waiting (.call (Task.running (topTier t phase? inspect?) call))) := by
  obtain ⟨fs, hrun⟩ := run_fresh phase? inspect? l.world r surface runtime
  refine ⟨fs ++ [], ?_⟩
  simp only [attend]
  rw [hrun, h]
  rfl

/-- What a call at the top of the tower has come to is what the facade says, and once the background
has settled so is the loop. -/
def Agrees (t : Tower b .legacy) (next : Facade × Outcome)
    (awaited : EventLoop (machine (t.Built v)) × Option (Heard (machine (t.Built v)))) : Prop :=
  outcome awaited.2 = next.2 ∧ awaited.1.now = next.1.now ∧ Follows t next.1 awaited.1.settle

theorem Agrees.of_eq {next : Facade × Outcome}
    {awaited : EventLoop (machine (t.Built v)) × Option (Heard (machine (t.Built v)))}
    (h : Agrees t next awaited) {o : Outcome} (hl : l = awaited.1) (ho : o = outcome awaited.2) :
    o = next.2 ∧ l.now = next.1.now ∧ Follows t next.1 l.settle := by
  subst hl ho
  exact h

theorem Follows.data (hv : v.Honours (.perEntry none)) (h : Follows t c l) {r : LegacyRequest}
    {d : ModernRequest}
    (hd : deed? (g := .legacy) r = some d) (surface : Option Surface) (runtime : Bool)
    (limit : Nat) :
    Agrees t (c.ask r limit)
      (l.await limit (.call (Task.fresh (topTier t phase? inspect?) r surface runtime))) := by
  let env : Env := { l.world.env with runtime := runtime }
  have hwall : env.wall = c.env.wall := h.wall
  have hshows : Engine.Shows v env.wall b (t.bottom l.world.state) c.slots := hwall ▸ h.shows
  obtain ⟨x, es, hstart, hdid⟩ := t.start_deed hv hd hshows
  have hdone : Engine.done (Engine.ruling none b) d env c.slots =
      Engine.done .unbounded d c.env c.slots := by
    rw [Engine.ruling_none, Engine.done, Engine.done, TimedStore.handle_wall hwall]
  rw [hdone] at hstart hdid
  obtain ⟨fs, hattend⟩ := attend_answered phase? inspect? surface hstart
  rw [await_answered limit hattend]
  have hask : c.ask r limit = ({ c with slots := (Engine.done .unbounded d c.env c.slots).1 },
      Facade.told ((Engine.done .unbounded d c.env c.slots).2.as .legacy)) := by
    simp only [Facade.ask, hd]
  rw [hask]
  refine ⟨rfl, h.now, Follows.settle ⟨h.now, h.wall, h.runtime, ?_, ?_, h.crew⟩⟩
  · exact h.stands.replace (hdid.2 _ h.stands.bottom)
  · have hnext := hdid.1
    rw [hwall] at hnext
    change Engine.Shows v c.wall b (t.bottom (t.replace l.world.state x)) _
    rw [Tower.bottom_replace]
    exact hnext

/-- A call that is answered at once leaves the loop as it was, if it leaves the tower as it was. -/
theorem Follows.answered (h : Follows t c l) {r : LegacyRequest} (surface : Option Surface)
    {runtime : Bool} (limit : Nat) {a : Answer .legacy} {es : List Event}
    (hstart : (t.cache v).start r { l.world.env with runtime := runtime } l.world.state =
      ⟨l.world.state, .answered a, es⟩) :
    Agrees t (c, Facade.told a)
      (l.await limit (.call (Task.fresh (topTier t phase? inspect?) r surface runtime))) := by
  obtain ⟨fs, hattend⟩ := attend_answered phase? inspect? surface hstart
  rw [await_answered limit hattend]
  exact ⟨rfl, h.now, Follows.settle ⟨h.now, h.wall, h.runtime, h.stands, h.shows, h.crew⟩⟩

theorem Follows.close (hv : v.Honours (.perEntry none)) (h : Follows t c l) (hp : t.Prompt)
    (surface : Option Surface) (limit : Nat) :
    Agrees t (c.ask .closeAsync limit)
      (l.await limit
        (.call (Task.fresh (topTier t phase? inspect?) .closeAsync surface true))) := by
  have hask : c.ask .closeAsync limit = (c.close, Facade.told Answer.done) := rfl
  rw [hask]
  cases hshut : c.shut with
  | true =>
    have hclose : c.close = c := by simp [Facade.close, hshut]
    have hshuts : t.Stands true l.world.state := hshut ▸ h.stands
    rw [hclose]
    exact h.answered phase? inspect? surface limit (hshuts.closeAsync_shut _)
  | false =>
    have hclose : c.close = { c with slots := {}, shut := true } := by simp [Facade.close, hshut]
    have hopen : t.Stands false l.world.state := hshut ▸ h.stands
    obtain ⟨s, es, hstart, hwave⟩ :=
      hopen.closeAsync_open { l.world.env with runtime := true } rfl
    obtain ⟨fs, hattend⟩ := attend_answered phase? inspect? surface hstart
    rw [await_answered limit hattend, hclose]
    refine ⟨rfl, h.now, ?_⟩
    exact follows_settle_wave hv hp h.now h.wall h.runtime h.crew hwave

/-- A wait that has to wait is over when it rings, or is given up before. -/
theorem Follows.wait_later (h : Follows t c l) (hopen : t.Stands false l.world.state)
    {timeout ring : Nat} (hring : Time.ring l.now timeout = ring) (hlate : l.now < ring)
    (surface : Option Surface) (runtime : Bool) {limit : Nat} (hlimit : l.now ≤ limit) :
    Agrees t (if ring ≤ limit then ({ c with now := ring }, Facade.told (.error .timeout))
        else ({ c with now := limit }, .hung))
      (l.await limit (.call
        (Task.fresh (topTier t phase? inspect?) (.waitForClose timeout) surface runtime))) := by
  obtain ⟨call, hstart, halarm, hready, hresume⟩ :=
    hopen.wait_later { l.world.env with runtime := runtime } hring hlate
  obtain ⟨fs, hattend⟩ := attend_waiting phase? inspect? surface hstart
  have hwaiting : Follows t c { l with world := { l.world with events := fs } } :=
    ⟨h.now, h.wall, h.runtime, h.stands, h.shows, h.crew⟩
  split
  · next hintime =>
    obtain ⟨es, hrings⟩ := hresume { l.world.env with now := ring } (Nat.le_refl _)
    have hawait := hwaiting.idle.await_rings (timekeeping _) hattend hlate hintime halarm
      (fun u => hready { l.world.env with now := u })
      (congrArg (World.apply _ (topTier t phase? inspect?)) hrings)
    rw [hawait]
    exact ⟨rfl, rfl, Follows.settle ⟨rfl, h.wall, h.runtime, h.stands, h.shows, h.crew⟩⟩
  · next hintime =>
    have hnext := hwaiting.idle.nextInstant_call (timekeeping _) limit
      (Task.running (topTier t phase? inspect?) call) halarm hlate
    rw [Nat.min_eq_left (Nat.le_of_not_le hintime)] at hnext
    have hawait := hwaiting.idle.await_lapses (timekeeping _) hattend
      ((hready _).trans (decide_eq_false (Nat.not_le.mpr hlate)))
      ((hready _).trans (decide_eq_false hintime)) hnext hlimit
    rw [hawait]
    exact ⟨rfl, rfl, (hwaiting.moved limit).settle⟩

theorem Follows.wait (h : Follows t c l) (timeout : Nat) (surface : Option Surface)
    (runtime : Bool) {limit : Nat} (hlimit : c.now ≤ limit) :
    Agrees t (c.ask (.waitForClose timeout) limit) (l.await limit
      (.call (Task.fresh (topTier t phase? inspect?) (.waitForClose timeout) surface
        runtime))) := by
  obtain ⟨ring, hring⟩ : ∃ ring, Time.ring l.now timeout = ring := ⟨_, rfl⟩
  have hask : c.ask (.waitForClose timeout) limit =
      if c.shut then (c, Facade.told Answer.done)
      else if ring ≤ limit then ({ c with now := ring }, Facade.told (.error .timeout))
      else ({ c with now := limit }, .hung) := by
    rw [← hring, h.now]
    rfl
  rw [hask]
  by_cases hshut : c.shut = true
  · have hshuts : t.Stands true l.world.state := hshut ▸ h.stands
    rw [if_pos hshut]
    exact h.answered phase? inspect? surface limit (hshuts.wait_shut _ timeout)
  · have hopen : t.Stands false l.world.state := Bool.eq_false_iff.mpr hshut ▸ h.stands
    have hle : l.now ≤ ring := hring ▸ Time.le_ring _ _
    rw [if_neg hshut]
    rcases Nat.lt_or_eq_of_le hle with hlate | hnow
    · exact h.wait_later phase? inspect? hopen hring hlate surface runtime (h.now ▸ hlimit)
    · subst hnow
      obtain ⟨es, hstart⟩ :=
        hopen.wait_now { l.world.env with runtime := runtime } (Nat.le_of_eq hring)
      rw [if_pos (h.now ▸ hlimit), h.now]
      exact h.answered phase? inspect? surface limit hstart

/-- Every call at the top goes as the facade says. -/
theorem Follows.ask (hv : v.Honours (.perEntry none)) (h : Follows t c l) (hp : t.Prompt)
    (r : LegacyRequest) (surface : Option Surface) {runtime : Bool}
    (hr : r = .closeAsync → runtime = true) {limit : Nat} (hlimit : c.now ≤ limit) :
    Agrees t (c.ask r limit)
      (l.await limit (.call (Task.fresh (topTier t phase? inspect?) r surface runtime))) := by
  cases hd : deed? (g := .legacy) r with
  | some d => exact h.data phase? inspect? hv hd surface runtime limit
  | none =>
    cases r with
    | closeAsync =>
      cases hr rfl
      exact h.close phase? inspect? hv hp surface limit
    | waitForClose timeout => exact h.wait phase? inspect? timeout surface runtime hlimit
    | get | set | add | delete | setWithTtl | addWithTtl | setMulti | setMultiWithTtl => cases hd

end Loop

/-! ## Sessions -/

/-- A step of those who know nothing but the legacy contract, made at the top; a close is asked for
where background work can be started. -/
def StackSession.Step.Plain : Step → Prop
  | .call c _ => c.level = none ∧ c.scope = none ∧ c.body ≠ .closeAsync false
  | .sleep _ | .age _ => True
  | _ => False

/-- What a caller is told by a report. -/
def StackSession.Report.told (r : Report) : Outcome × Nat := (r.outcome, r.took)

/-- A request to close is one that can start background work. -/
theorem runtime_of_plain {body : Body} (h : body ≠ .closeAsync false) {r : LegacyRequest}
    {surface : Option Surface} (hr : body.request? .background .legacy = some (r, surface)) :
    r = .closeAsync → body.runtime = true := by
  rintro rfl
  cases body with
  | closeAsync runtime =>
    cases runtime with
    | true => rfl
    | false => exact absurd rfl h
  | _ => simp [Body.request?] at hr

section Session

variable {v : Vault} {b : Generation} {t : Tower b .legacy} {inner : List (Tier (t.Built v))}
  {phase? : t.Built v → Option Phase} {inspect? : t.Built v → Option Inspection}

/-- A tower as a stack, in a fresh state. -/
abbrev towerStack (t : Tower b .legacy) (inner : List (Tier (t.Built v)))
    (phase? : t.Built v → Option Phase) (inspect? : t.Built v → Option Inspection) : Stack :=
  ⟨t.Built v, t.fresh (Engine.fresh v b), inner, topTier t phase? inspect?, t.closers v⟩

variable {c : Facade} {s : Session (towerStack t inner phase? inspect?)}

theorem session_await (bound : Nat) (f : Foreground (machine (t.Built v))) :
    (s.await bound f).1.loop = (s.loop.await (Time.ring s.loop.now bound) f).1 ∧
      (s.await bound f).2 = outcome (s.loop.await (Time.ring s.loop.now bound) f).2 := by
  unfold Session.await
  split <;> rename_i hawait <;> rw [hawait] <;> exact ⟨rfl, rfl⟩

/-- What a step does, up to its outcome, is what the facade does. -/
theorem Follows.perform (hv : v.Honours (.perEntry none)) (h : Follows t c s.loop)
    (hp : t.Prompt) {step : Step} (hstep : step.Plain) :
    (s.perform step).2 = (c.perform step).2 ∧
      (s.perform step).1.loop.now = (c.perform step).1.now ∧
      Follows t (c.perform step).1 (s.perform step).1.loop.settle := by
  cases step with
  | call call bound =>
    obtain ⟨level, scope, body⟩ := call
    obtain ⟨rfl, rfl, hbody⟩ := hstep
    have htask : s.task? ⟨none, none, body⟩ =
        (body.request? .background .legacy).map fun (r, surface) =>
          Task.fresh (topTier t phase? inspect?) r surface body.runtime := by
      simp only [Session.task?, Stack.tier?, Option.elim]
      cases body.request? .background .legacy <;> rfl
    cases hrequest : body.request? .background .legacy with
    | none =>
      rw [hrequest] at htask
      simp only [Session.perform, htask, Facade.perform, hrequest]
      exact ⟨rfl, h.now, h.settle⟩
    | some request =>
      obtain ⟨r, surface⟩ := request
      rw [hrequest] at htask
      have hagrees : Agrees t (c.ask r (Time.ring c.now bound))
          (s.loop.await (Time.ring s.loop.now bound)
            (.call (Task.fresh (topTier t phase? inspect?) r surface body.runtime))) := by
        rw [h.now]
        exact h.ask phase? inspect? hv hp r surface (runtime_of_plain hbody hrequest)
          (Time.le_ring c.now bound)
      obtain ⟨hloop, houtcome⟩ := session_await (s := s) bound
        (.call (Task.fresh (topTier t phase? inspect?) r surface body.runtime))
      simp only [Session.perform, htask, Facade.perform, hrequest]
      exact hagrees.of_eq hloop houtcome
  | sleep span =>
    have hslept := h.sleep span
    exact ⟨rfl, hslept.now, hslept.settle⟩
  | age span =>
    refine ⟨rfl, h.now, Follows.settle ?_⟩
    have hwall : s.loop.world.env.wall + span = c.wall + span := congrArg (· + span) h.wall
    exact ⟨h.now, hwall, h.runtime, h.stands, h.shows.mono (Nat.le_add_right _ _), h.crew⟩
  | _ => exact hstep.elim

/-- What a step reports is what the facade says of it. -/
theorem Follows.step (hv : v.Honours (.perEntry none)) (h : Follows t c s.loop) (hp : t.Prompt)
    {step : Step} (hstep : step.Plain) :
    (s.step (some step)).2.told = ((c.perform step).2, (c.perform step).1.now - c.now) ∧
      Follows t (c.perform step).1 (s.step (some step)).1.loop := by
  obtain ⟨houtcome, hnow, hnext⟩ := h.perform hv hp hstep
  rcases hperformed : s.perform step with ⟨s', outcome⟩
  rw [hperformed] at houtcome hnow hnext
  obtain rfl : outcome = (c.perform step).2 := houtcome
  simp only [Session.step, Option.elim, hperformed]
  refine ⟨?_, hnext.noting []⟩
  simp only [Report.told, hnow, h.now]

theorem Follows.run (hv : v.Honours (.perEntry none)) (h : Follows t c s.loop) (hp : t.Prompt)
    {steps : List Step} (hsteps : ∀ step ∈ steps, step.Plain) :
    (s.run (steps.map some)).map Report.told = c.run steps := by
  induction steps generalizing c s with
  | nil => rfl
  | cons step steps ih =>
    obtain ⟨htold, hnext⟩ := h.step hv hp (hsteps step List.mem_cons_self)
    have hrest := ih hnext fun step' hmem => hsteps step' (List.mem_cons_of_mem _ hmem)
    simp only [List.map_cons, Session.run, Facade.run, htold, hrest]

/-- A session begins with the tower open and empty. -/
theorem follows_begin (hv : v.Honours (.perEntry none)) (t : Tower b .legacy)
    (inner : List (Tier (t.Built v)))
    (phase? : t.Built v → Option Phase) (inspect? : t.Built v → Option Inspection) :
    Follows t {} (Session.begin freshEnv (towerStack t inner phase? inspect?)).loop := by
  obtain ⟨hnumbers, hworld, htasks⟩ := crew_spawn (t.closers v)
    { world := ⟨freshEnv, t.fresh (Engine.fresh v b), []⟩ } List.nodup_nil
    fun _ hr => absurd hr List.not_mem_nil
  exact .of_fresh hv hworld ⟨hnumbers, .of_eq htasks⟩

end Session

/-- A stack with a legacy cache on top: bridges whose polls take some time, or none at all, on a
fresh cache that keeps everything for as long as it is told to. -/
def Stack.ServesLegacy (st : Stack) : Prop :=
  ∃ ground layers es, ground.Grounded ∧ (∀ layer ∈ layers, Stack.Layer.Bridges layer) ∧
    wrapAll? freshEnv layers ground = some (st, es) ∧ st.top.generation = .legacy

theorem Stack.ServesLegacy.run {st : Stack} (h : st.ServesLegacy) {steps : List Step}
    (hsteps : ∀ step ∈ steps, step.Plain) :
    ((Session.begin freshEnv st).run (steps.map some)).map Report.told = Facade.run {} steps := by
  obtain ⟨ground, layers, es, hground, hlayers, hwrap, htop⟩ := h
  obtain ⟨v, hv, b, hcarries⟩ := hground.carries
  obtain ⟨g, t, hprompt, inner, phase?, inspect?, rfl⟩ :=
    Stack.wrapAll?_carries hlayers hcarries trivial hwrap
  cases (htop : g = .legacy)
  exact (follows_begin hv t inner phase? inspect?).run hv hprompt hsteps

/-- All stacks with a legacy cache on top give the same account of any session: each step has the
outcome that the facade gives it, and takes as long. -/
theorem legacy_sessions_agree {st st' : Stack} (h : st.ServesLegacy) (h' : st'.ServesLegacy)
    {steps : List Step} (hsteps : ∀ step ∈ steps, step.Plain) :
    ((Session.begin freshEnv st).run (steps.map some)).map Report.told =
        ((Session.begin freshEnv st').run (steps.map some)).map Report.told ∧
      ((Session.begin freshEnv st).run (steps.map some)).map Report.told = Facade.run {} steps :=
  ⟨(h.run hsteps).trans (h'.run hsteps).symm, h.run hsteps⟩

/-- A lazy store alone and three bridges on a timed store. An entry outlives its TTL, the close
empties the cache, a second one does nothing, and waits before and after it differ. -/
theorem legacy_sessions_agree_closing :
    let call (body : Body) : Step := .call ⟨none, none, body⟩ Time.second
    let steps : List Step :=
      [call (.waitForClose 1500000),
        call (.setMultiWithTtl [⟨"k", [1], some 0⟩, ⟨"k", [2], some 5⟩]), call (.get "k"), .age 5,
        call (.addWithTtl ⟨"k", [3], none⟩), call (.closeAsync true), call (.get "k"),
        call (.set ⟨"k", [4], none⟩), call (.closeAsync true), call (.get "k"),
        call (.waitForClose 0)]
    ∃ st st' : Stack, st.ServesLegacy ∧ st'.ServesLegacy ∧ (∀ step ∈ steps, step.Plain) ∧
      ((Session.begin freshEnv st).run (steps.map some)).map Report.told =
          ((Session.begin freshEnv st').run (steps.map some)).map Report.told ∧
      ((Session.begin freshEnv st).run (steps.map some)).map Report.told =
        [(Facade.told (.error .timeout), 2000000), (Facade.told Answer.done, 0),
          (Facade.told (.ok (.found [2])), 0), (.done, 0), (Facade.told Answer.done, 0),
          (Facade.told Answer.done, 0), (Facade.told (.error .keyNotFound), 0),
          (Facade.told Answer.done, 0), (Facade.told Answer.done, 0),
          (Facade.told (.ok (.found [4])), 0), (Facade.told Answer.done, 0)] := by
  intro call steps
  let layers : List Stack.Layer := [.toLegacy true true, .toModern false 1, .toLegacy false true]
  have hst : (Stack.ofBottom .lazyStore).ServesLegacy :=
    ⟨_, [], [], Stack.grounded_lazyStore, nofun, rfl, rfl⟩
  have hlayers : ∀ layer ∈ layers, layer.Bridges := by
    simp [layers, Stack.Layer.Bridges]
  have hst' : ∃ st' : Stack, st'.ServesLegacy :=
    ⟨_, _, layers, _, Stack.grounded_timedStore, hlayers, rfl, rfl⟩
  obtain ⟨st', hst'⟩ := hst'
  have hsteps : ∀ step ∈ steps, step.Plain := by
    simp [steps, call, Step.Plain]
  obtain ⟨hsame, hfacade⟩ := legacy_sessions_agree hst hst' hsteps
  exact ⟨_, st', hst, hst', hsteps, hsame, hfacade.trans rfl⟩

end CacheBridge
