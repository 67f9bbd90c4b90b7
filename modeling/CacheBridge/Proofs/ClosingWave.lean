import CacheBridge.Proofs.Engines

/-!
How a close goes through a tower on one of the stores. It is asked for at the top and travels down,
one background close starting the next; the bottom is emptied, and the bridges learn of it on the
way back up. All of this happens at one instant: no poll below runs out meanwhile, since a poll
takes some time, and each piece of background work either brings the wave on or does nothing.
-/

namespace CacheBridge

/-- How many steps a background close has still before it, counting the request. -/
def ToLegacy.Closer.left {φ : Type} : Closer φ → Nat
  | .idle => 3
  | .requested => 2
  | .running _ => 1
  | .finished => 0

namespace Tower

variable {b g : Generation}

/-- The states of a tower on a store, whose entries the vault keeps if it is a modern one. -/
abbrev Built (t : Tower b g) (v : Vault) : Type := t.State (Engine.State v b) (Engine.Call b)

/-- The tower as a cache on the store of its bottom's generation. -/
abbrev cache (t : Tower b g) (v : Vault) : Level g (t.Built v) (t.Call (Engine.Call b)) :=
  t.level (Engine.level v b)

abbrev closers (t : Tower b g) (v : Vault) : List (Job (t.Built v)) :=
  t.jobs (Engine.level v b) []

/-- Every poll takes some time. -/
def Prompt : {g : Generation} → Tower b g → Prop
  | _, .ground => True
  | _, .toLegacy _ t => t.Prompt
  | _, .toModern poll t => 0 < poll ∧ t.Prompt

variable {v : Vault}

/-- All of the tower is open, with nothing under way, or all of it is shut. -/
def Stands (shut : Bool) : {g : Generation} → (t : Tower b g) → t.Built v → Prop
  | _, .ground, x => Engine.Stands v shut b x
  | _, .toLegacy _ t, s =>
    s.1 = (if shut then ⟨.closed, .finished⟩ else .fresh) ∧ t.Stands shut s.2
  | _, .toModern _ t, s => s.1 = (if shut then .closed else .active) ∧ t.Stands shut s.2

/-- Shut, and from `wall` on there is nothing to see at the bottom. -/
def Gone (wall : Nat) (t : Tower b g) (s : t.Built v) : Prop :=
  t.Stands true s ∧ Engine.Shows v wall b (t.bottom s) {}

/-- The call is that of a background close which polls further down, with time left. -/
def Waits (now : Nat) : {g : Generation} → (t : Tower b g) → t.Call (Engine.Call b) → Prop
  | _, .ground, _ => False
  | _, .toLegacy _ _, call => ∃ timeout ring, call = .waiting timeout (.till ring) ∧ now < ring
  | _, .toModern _ t, call => ∃ started inner, call = .polling .background started inner ∧
    t.Waits now inner

/-- A close has been asked for at the top of the tower, and has come some of the way. -/
def Wave (now wall : Nat) : {g : Generation} → (t : Tower b g) → t.Built v → Prop
  | _, .ground, x => Gone (v := v) wall ground x
  | _, .toLegacy _ t, s =>
    (s.1 = ⟨.closing, .requested⟩ ∧ t.Stands false s.2) ∨
    (∃ call, s.1 = ⟨.closing, .running call⟩ ∧ t.Waits now call ∧ Wave now wall t s.2) ∨
    (s.1 = ⟨.closed, .finished⟩ ∧ t.Gone wall s.2)
  | _, .toModern _ t, s => s.1 = .closing ∧ Wave now wall t s.2

/-- The wave has come back up to the tower, but whoever polls it has not looked yet. -/
def Over (wall : Nat) : {g : Generation} → (t : Tower b g) → t.Built v → Prop
  | _, .ground, x => Gone (v := v) wall ground x
  | _, .toLegacy counts t, s => (toLegacy counts t).Gone wall s
  | _, .toModern _ t, s => s.1 = .closing ∧ t.Gone wall s.2

/-- How many steps all background closes together have still before them. -/
def left : {g : Generation} → (t : Tower b g) → t.Built v → Nat
  | _, .ground, _ => 0
  | _, .toLegacy _ t, s => t.left s.2 + s.1.closer.left
  | _, .toModern _ t, s => t.left s.2

/-! ## Towers that stand -/

section Stands

variable {t : Tower b g} {shut : Bool} {s : t.Built v}

theorem stands_fresh (t : Tower b g) (v : Vault) :
    Stands (v := v) false t (t.fresh (Engine.fresh v b)) := by
  induction t with
  | ground => cases b <;> trivial
  | toLegacy counts t ih => exact ⟨rfl, ih⟩
  | toModern poll t ih => exact ⟨rfl, ih⟩

theorem Stands.bottom (h : t.Stands shut s) : Engine.Stands v shut b (t.bottom s) := by
  induction t with
  | ground => exact h
  | toLegacy counts t ih => exact ih h.2
  | toModern poll t ih => exact ih h.2

theorem Stands.replace (h : t.Stands shut s) {x : Engine.State v b}
    (hx : Engine.Stands v shut b x) : Stands (v := v) shut t (t.replace s x) := by
  induction t with
  | ground => exact hx
  | toLegacy counts t ih => exact ⟨h.1, ih h.2⟩
  | toModern poll t ih => exact ⟨h.1, ih h.2⟩

/-- There is nothing to do in the background of a tower that stands. -/
theorem Stands.job (h : t.Stands shut s) {job : Job (t.Built v)} (hjob : job ∈ t.closers v)
    (env : Env) :
    job.ready env s = false ∧ job.alarm s = none ∧ job.run env s = (s, []) := by
  induction t with
  | ground => cases hjob
  | toLegacy counts t ih =>
    obtain ⟨own, s⟩ := s
    obtain ⟨rfl, h⟩ := h
    rcases List.mem_append.mp hjob with hjob | hjob
    · obtain ⟨inner, hinner, rfl⟩ := List.mem_map.mp hjob
      obtain ⟨hready, halarm, hrun⟩ := ih h hinner
      exact ⟨hready, halarm, by simp only [Job.beneath, hrun]⟩
    · cases List.mem_singleton.mp hjob
      cases shut <;> exact ⟨rfl, rfl, rfl⟩
  | toModern poll t ih =>
    obtain ⟨inner, hinner, rfl⟩ := List.mem_map.mp hjob
    obtain ⟨hready, halarm, hrun⟩ := ih h.2 hinner
    exact ⟨hready, halarm, by simp only [Job.beneath, hrun]⟩

end Stands

/-! ## The way down -/

section Down

variable {env : Env}

/-- The first signal to a bridge starts a wave there. -/
theorem closeAsync_wave {t : Tower b .modern} (counts : Bool) {s : (toLegacy counts t).Built v}
    (hs : (toLegacy counts t).Stands false s) (hr : env.runtime = true) :
    ((toLegacy counts t).cache v).start .closeAsync env s =
        .answer (⟨.closing, .requested⟩, s.2) Answer.done ∧
      Wave (v := v) env.now env.wall (toLegacy counts t) (⟨.closing, .requested⟩, s.2) := by
  obtain ⟨own, s⟩ := s
  obtain ⟨rfl, hs⟩ := hs
  refine ⟨?_, .inl ⟨rfl, hs⟩⟩
  simp [cache, level, ToLegacy.level, ToLegacy.start, ToLegacy.closeAsync, ToLegacy.Own.fresh,
    Phase.beginClose, hr]

/-- A poll of a bridge that is closing has to wait. -/
theorem waitForClose_waits {t : Tower b .modern} {counts : Bool} {poll : Nat} (hpoll : 0 < poll)
    {s : (toLegacy counts t).Built v} (hs : s.1.phase = .closing) :
    ((toLegacy counts t).cache v).start (.waitForClose poll) env s =
      .wait s (.waiting poll (.till (Time.ring env.now poll))) := by
  have hring : env.now < Time.ring env.now poll := Time.lt_ring hpoll
  have hlook : ClosedWait.start s.1.phase env.now poll =
      .waiting (.till (Time.ring env.now poll)) :=
    ClosedWait.look_of_not_ready (by simp [ClosedWait.ready, ClosedWait.expired, hs, hring])
  change ToLegacy.tell counts poll s.1 s.2 (ClosedWait.start s.1.phase env.now poll) = _
  rw [hlook]
  rfl

/-- The first close of a bridge to modern signals the cache below and begins to poll it. -/
theorem close_active {σ φ : Type} (below : Level .legacy σ φ) (poll : Nat) (scope : Scope)
    (s : σ) :
    ToModern.close below poll scope env .active s =
      (ToModern.beginPoll below poll scope env .closing
        (below.start .closeAsync env s).state).after (below.start .closeAsync env s).events := rfl

/-- The background close of an open cache is over at once, or has begun to poll. -/
theorem start_close (hv : v.Honours (.perEntry none)) {t : Tower b .modern} (hp : t.Prompt)
    (hr : env.runtime = true) {s : t.Built v} (hs : t.Stands false s) :
    let turn := (t.cache v).start (.close .background) env s
    t.left turn.state ≤ t.left s ∧
      ((turn.progress = .answered Answer.done ∧ t.Gone env.wall turn.state) ∨
        ∃ call, turn.progress = .waiting call ∧ t.Waits env.now call ∧
          t.Wave env.now env.wall turn.state) := by
  cases t with
  | ground => exact ⟨Nat.le_refl _, .inl ⟨rfl, trivial, hv.invalidateAll env.wall s⟩⟩
  | toModern poll t =>
    obtain ⟨phase, s⟩ := s
    obtain ⟨hphase, hs⟩ := hs
    cases (hphase : phase = .active)
    have hclose : ((toModern poll t).cache v).start (.close .background) env (.active, s) =
        (ToModern.beginPoll (t.cache v) poll .background env .closing
          ((t.cache v).start .closeAsync env s).state).after
          ((t.cache v).start .closeAsync env s).events :=
      close_active (t.cache v) poll .background s
    rw [hclose]
    cases t with
    | ground =>
      obtain ⟨slots, phase⟩ := s
      cases (hs : phase = .active)
      exact ⟨Nat.le_refl _, .inl ⟨rfl, ⟨rfl, rfl⟩, .refl _⟩⟩
    | toLegacy counts t =>
      obtain ⟨hsignal, hwave⟩ := closeAsync_wave counts hs hr
      rw [hsignal]
      simp only [Turn.answer, ToModern.beginPoll]
      rw [waitForClose_waits hp.1 rfl]
      refine ⟨?_, .inr ⟨_, rfl, ⟨env.now, _, rfl, poll, _, rfl, Time.lt_ring hp.1⟩, rfl, hwave⟩⟩
      have hown : s.1 = .fresh := hs.1
      change t.left s.2 + 2 ≤ t.left s.2 + s.1.closer.left
      rw [hown]
      exact Nat.le_succ _

end Down

/-! ## The way up -/

section Up

variable {env : Env} {t : Tower b .modern} {s : t.Built v} {call : t.Call (Engine.Call b)}

/-- A background close that polls learns that the wave has come back. -/
theorem resume_over (hw : t.Waits env.now call) (hs : t.Over env.wall s) :
    let turn := (t.cache v).resume call env s
    (t.cache v).ready call env s = true ∧ turn.progress = .answered Answer.done ∧
      t.Gone env.wall turn.state ∧ t.left turn.state = t.left s := by
  cases t with
  | ground => exact hw.elim
  | toModern poll t =>
    obtain ⟨phase, s⟩ := s
    obtain ⟨hphase, hstands, hslots⟩ := hs
    cases (hphase : phase = .closing)
    obtain ⟨started, inner, rfl, hw⟩ := hw
    cases t with
    | ground => exact hw.elim
    | toLegacy counts t =>
      obtain ⟨timeout, ring, rfl, hring⟩ := hw
      obtain ⟨own, s⟩ := s
      obtain ⟨rfl, hstands⟩ := hstands
      exact ⟨rfl, rfl, ⟨⟨rfl, rfl, hstands⟩, hslots⟩, rfl⟩

theorem Wave.phase_toLegacy {t : Tower b .modern} {counts : Bool}
    {s : (toLegacy counts t).Built v} (h : (toLegacy counts t).Wave env.now env.wall s) :
    s.1.phase = .closing ∨ (toLegacy counts t).Gone env.wall s := by
  obtain ⟨hown, -⟩ | ⟨call, hown, -⟩ | ⟨hown, hgone⟩ := h
  · exact .inl (congrArg ToLegacy.Own.phase hown)
  · exact .inl (congrArg ToLegacy.Own.phase hown)
  · exact .inr ⟨⟨hown, hgone.1⟩, hgone.2⟩

/-- Until then it does nothing. -/
theorem resume_wave (hw : t.Waits env.now call) (hs : t.Wave env.now env.wall s) :
    t.Over env.wall s ∨
      (t.cache v).ready call env s = false ∧ (t.cache v).resume call env s = .wait s call := by
  cases t with
  | ground => exact hw.elim
  | toModern poll t =>
    obtain ⟨phase, s⟩ := s
    obtain ⟨hphase, hs⟩ := hs
    cases (hphase : phase = .closing)
    obtain ⟨started, inner, rfl, hw⟩ := hw
    cases t with
    | ground => exact hw.elim
    | toLegacy counts t =>
      obtain ⟨timeout, ring, rfl, hring⟩ := hw
      obtain ⟨own, s⟩ := s
      obtain (hphase : own.phase = .closing) | hgone := Wave.phase_toLegacy hs
      · have hquiet : (ClosedWait.till ring).ready own.phase env.now = false := by
          simp [ClosedWait.ready, ClosedWait.expired, hphase, hring]
        have hlook := ClosedWait.look_of_not_ready hquiet
        refine .inr ⟨?_, ?_⟩
        · simp [cache, level, ToModern.level, ToModern.ready, ToLegacy.level, ToLegacy.ready,
            hquiet, Env.ended]
        · simp [cache, level, ToModern.level, ToModern.resume, ToLegacy.level, ToLegacy.resume,
            hlook, ToLegacy.tell, ToModern.judge, Turn.wait, Env.ended]
      · exact .inl ⟨rfl, hgone⟩

variable (counts : Bool) (own : ToLegacy.Own (t.Call (Engine.Call b)))
  {turn : Turn (t.Built v) (t.Call (Engine.Call b)) (Answer .modern)}

theorem conclude_gone
    (hp : turn.progress = .answered Answer.done) (hgone : t.Gone env.wall turn.state) :
    Wave (v := v) env.now env.wall (toLegacy counts t) (ToLegacy.conclude own turn).1 ∧
      left (v := v) (toLegacy counts t) (ToLegacy.conclude own turn).1 = t.left turn.state := by
  obtain ⟨x, p, es⟩ := turn
  cases (hp : p = _)
  exact ⟨.inr (.inr ⟨rfl, hgone⟩), rfl⟩

theorem conclude_waits
    (hphase : own.phase = .closing) (hp : turn.progress = .waiting call)
    (hwaits : t.Waits env.now call) (hwave : t.Wave env.now env.wall turn.state) :
    Wave (v := v) env.now env.wall (toLegacy counts t) (ToLegacy.conclude own turn).1 ∧
      left (v := v) (toLegacy counts t) (ToLegacy.conclude own turn).1 = t.left turn.state + 1 := by
  obtain ⟨x, p, es⟩ := turn
  obtain ⟨phase, closer⟩ := own
  cases (hphase : phase = .closing)
  cases (hp : p = _)
  exact ⟨.inr (.inl ⟨call, rfl, hwaits, hwave⟩), rfl⟩

end Up

/-! ## All the way -/

section Jobs

variable (hv : v.Honours (.perEntry none)) {env : Env}

include hv in
/-- The background close of a bridge keeps the wave going, and brings it on if it is ready. -/
theorem Wave.runCloser {t : Tower b .modern} {counts : Bool} {s : (toLegacy counts t).Built v}
    (hp : t.Prompt) (hr : env.runtime = true) (h : (toLegacy counts t).Wave env.now env.wall s) :
    Wave (v := v) env.now env.wall (toLegacy counts t) (ToLegacy.runCloser (t.cache v) env s).1 ∧
      left (v := v) (toLegacy counts t) (ToLegacy.runCloser (t.cache v) env s).1 +
        (if (ToLegacy.closing (t.cache v)).ready env s then 1 else 0) ≤
          (toLegacy counts t).left s := by
  obtain ⟨own, s⟩ := s
  obtain ⟨hown, hs⟩ | ⟨call, hown, hwaits, hwave⟩ | ⟨hown, hgone⟩ := id h
  · cases (hown : own = _)
    have hs : t.Stands false s := hs
    obtain ⟨hleft, hturn⟩ := start_close hv hp hr hs
    change Wave (v := v) env.now env.wall (toLegacy counts t)
        (ToLegacy.conclude ⟨.closing, .requested⟩
            ((t.cache v).start (.close .background) env s)).1 ∧
      left (v := v) (toLegacy counts t) (ToLegacy.conclude ⟨.closing, .requested⟩
        ((t.cache v).start (.close .background) env s)).1 + 1 ≤ t.left s + 2
    obtain ⟨hprogress, hgone⟩ | ⟨call, hprogress, hwaits, hwave⟩ := hturn
    · obtain ⟨hwave, hleft'⟩ := conclude_gone counts ⟨.closing, .requested⟩ hprogress hgone
      exact ⟨hwave, by omega⟩
    · obtain ⟨hwave, hleft'⟩ :=
        conclude_waits counts ⟨.closing, .requested⟩ rfl hprogress hwaits hwave
      exact ⟨hwave, by omega⟩
  · cases (hown : own = _)
    change Wave (v := v) env.now env.wall (toLegacy counts t)
        (ToLegacy.conclude ⟨.closing, .running call⟩ ((t.cache v).resume call env s)).1 ∧
      left (v := v) (toLegacy counts t)
          (ToLegacy.conclude ⟨.closing, .running call⟩ ((t.cache v).resume call env s)).1 +
        (if (t.cache v).ready call env s then 1 else 0) ≤ t.left s + 1
    have hwave : t.Wave env.now env.wall s := hwave
    rcases resume_wave hwaits hwave with hover | ⟨hready, hturn⟩
    · obtain ⟨hready, hprogress, hgone, hleft⟩ := resume_over hwaits hover
      obtain ⟨hwave, hleft'⟩ := conclude_gone counts ⟨.closing, .running call⟩ hprogress hgone
      rw [if_pos hready]
      exact ⟨hwave, by omega⟩
    · rw [hturn, hready]
      exact ⟨h, Nat.le_refl _⟩
  · cases (hown : own = _)
    exact ⟨h, Nat.le_refl _⟩

variable {t : Tower b g} {s : t.Built v}

include hv in
/-- All background work keeps the wave going, and what is ready brings it on. -/
theorem Wave.job (hp : t.Prompt) (hr : env.runtime = true) (h : t.Wave env.now env.wall s)
    {job : Job (t.Built v)} (hjob : job ∈ t.closers v) :
    Wave (v := v) env.now env.wall t (job.run env s).1 ∧
      t.left (job.run env s).1 + (if job.ready env s then 1 else 0) ≤ t.left s := by
  induction t with
  | ground => cases hjob
  | toModern poll t ih =>
    obtain ⟨inner, hinner, rfl⟩ := List.mem_map.mp hjob
    obtain ⟨hwave, hleft⟩ := ih hp.2 h.2 hinner
    exact ⟨⟨h.1, hwave⟩, hleft⟩
  | toLegacy counts t ih =>
    rcases List.mem_append.mp hjob with hjob | hjob
    · obtain ⟨inner, hinner, rfl⟩ := List.mem_map.mp hjob
      have hidle {shut : Bool} (hs : t.Stands shut s.2) :
          (inner.beneath _).run env s = (s, []) ∧ (inner.beneath _).ready env s = false := by
        obtain ⟨hready, -, hrun⟩ := hs.job hinner env
        exact ⟨by simp only [Job.beneath, hrun], hready⟩
      obtain ⟨-, hs⟩ | ⟨call, hown, hwaits, hwave⟩ | ⟨-, hgone⟩ := id h
      · obtain ⟨hrun, hready⟩ := hidle hs
        rw [hrun, hready]
        exact ⟨h, Nat.le_refl _⟩
      · obtain ⟨hwave, hleft⟩ := ih hp hwave hinner
        refine ⟨.inr (.inl ⟨call, hown, hwaits, hwave⟩), ?_⟩
        change t.left (inner.run env s.2).1 + s.1.closer.left +
          (if inner.ready env s.2 then 1 else 0) ≤ t.left s.2 + s.1.closer.left
        omega
      · obtain ⟨hrun, hready⟩ := hidle hgone.1
        rw [hrun, hready]
        exact ⟨h, Nat.le_refl _⟩
    · cases List.mem_singleton.mp hjob
      exact Wave.runCloser hv hp hr h

/-- Where nothing is ready the wave is over. -/
theorem Wave.over (h : t.Wave env.now env.wall s)
    (hidle : ∀ job ∈ t.closers v, job.ready env s = false) : t.Over env.wall s := by
  induction t with
  | ground => exact h
  | toModern poll t ih =>
    have hover : t.Over env.wall s.2 :=
      ih h.2 fun job hjob => hidle (job.beneath Phase) (List.mem_map_of_mem hjob)
    refine ⟨h.1, ?_⟩
    cases t <;> exact hover
  | toLegacy counts t ih =>
    have hready := hidle _ (List.mem_append_right _ List.mem_cons_self)
    obtain ⟨hown, -⟩ | ⟨call, hown, hwaits, hwave⟩ | ⟨hown, hgone⟩ := h
    · simp [ToLegacy.closing, hown] at hready
    · have hover : t.Over env.wall s.2 := ih hwave fun job hjob =>
        hidle (job.beneath _) (List.mem_append_left _ (List.mem_map_of_mem hjob))
      have hlook := (resume_over hwaits hover).1
      simp only [ToLegacy.closing, hown] at hready
      exact absurd (hlook.symm.trans hready) nofun
    · exact ⟨⟨hown, hgone.1⟩, hgone.2⟩

theorem Over.gone {t : Tower b .legacy} {s : t.Built v} {wall : Nat} (h : t.Over wall s) :
    t.Gone wall s := by
  cases t <;> exact h

theorem left_le (t : Tower b g) (s : t.Built v) : t.left s ≤ 3 * (t.closers v).length := by
  induction t with
  | ground => exact Nat.le_refl 0
  | toModern poll t ih => simpa [closers, jobs, left] using ih s.2
  | toLegacy counts t ih =>
    have hown : s.1.closer.left ≤ 3 := by cases s.1.closer <;> simp [ToLegacy.Closer.left]
    have hbelow := ih s.2
    simp only [closers, jobs, left, List.length_append, List.length_map, List.length_singleton]
      at hbelow ⊢
    omega

end Jobs

end Tower

end CacheBridge
