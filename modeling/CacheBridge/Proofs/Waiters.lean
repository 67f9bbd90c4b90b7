import CacheBridge.Proofs.Bystanders
import CacheBridge.Proofs.Clockwork

/-!
Those who wait for a close at the top of a tower: the closes of a modern cache, and the waits for a
close of a legacy one. A look at such a call learns that the bottom has closed, or that its own time
is up, or it goes on waiting; it takes no part in the close itself, unless it is the first to ask.
-/

namespace CacheBridge.Tower

variable {g : Generation} {σ φ : Type}

/-- How far a close has come that was first asked for at `s`, or that it is over. -/
def Course (now s : Nat) (t : Tower .modern g) (x : t.Logged σ φ) : Prop :=
  t.Closing now s x ∨ t.Shut s x

/-- The call waits for the close at the top. -/
def Stays (now s since : Nat) : {g : Generation} → (t : Tower .modern g) → Request g →
    t.LoggedCall φ → Prop
  | _, .toLegacy _ _, .waitForClose timeout, call =>
    call = .waiting timeout (.till (Time.ring since timeout)) ∧ now ≤ Time.ring since timeout
  | _, .toModern poll (.toLegacy _ _), .close scope, call => ToModern.Polls now s poll scope call
  | _, _, _, _ => False

/-- What a look at such a call comes to. -/
inductive Learned (t : Tower .modern g) (env : Env) (s since : Nat) (r : Request g)
    (x : t.Logged σ φ) : Turn (t.Logged σ φ) (t.LoggedCall φ) (Answer g) → Prop where
  | done {x' : t.Logged σ φ} (h : t.Shut s x') (hlog : t.log x' = t.log x)
      (hrest : t.rest env.now x' = t.rest env.now x) (es : List Event) :
      Learned t env s since r x ⟨x', .answered Answer.done, es⟩
  | late (h : lapsed since env r = true) (es : List Event) :
      Learned t env s since r x ⟨x, .answered (.error .timeout), es⟩
  | stays (h : lapsed since env r = false) {call : t.LoggedCall φ}
      (hcall : t.Stays env.now s since r call) (hover : t.overdue env.now call = 0)
      (es : List Event) : Learned t env s since r x ⟨x, .waiting call, es⟩

/-! ## A tower that has been asked to close -/

section Course

variable {t : Tower .modern g} {x x' : t.Logged σ φ} {now s : Nat}

theorem Like.course (h : t.Like x x') (hx : t.Course now s x) : t.Course now s x' :=
  hx.imp h.closing h.shut

theorem Like.arrived (h : t.Like x x') (hx : t.Arrived s x) : t.Arrived s x' := by
  cases t with
  | ground | toLegacy => exact h.shut hx
  | toModern poll t => exact h.2.shut hx

theorem Shut.arrived (h : t.Shut s x) : t.Arrived s x := by
  cases t with
  | ground | toLegacy => exact h
  | toModern poll t => exact h.2

theorem Shut.phases_closed (h : t.Shut s x) : ∀ p ∈ t.phases x, p = .closed := by
  induction t with
  | ground => exact nofun
  | toLegacy counts t ih =>
    refine List.forall_mem_append.mpr ⟨ih h.2, fun p hp => ?_⟩
    rw [List.mem_singleton.mp hp, h.1]
  | toModern poll t ih =>
    refine List.forall_mem_append.mpr ⟨ih h.2, fun p hp => ?_⟩
    rw [List.mem_singleton.mp hp, h.1]

theorem Calm.phases_open (h : t.Calm x) : ∀ p ∈ t.phases x, p ≠ .closed := by
  induction t with
  | ground => exact nofun
  | toLegacy counts t ih =>
    refine List.forall_mem_append.mpr ⟨ih h.2, fun p hp => ?_⟩
    rw [List.mem_singleton.mp hp, h.1]
    exact nofun
  | toModern poll t ih =>
    refine List.forall_mem_append.mpr ⟨ih h.2, fun p hp => ?_⟩
    rw [List.mem_singleton.mp hp, h.1]
    exact nofun

/-- Until the bottom has closed, no bridge is closed. -/
theorem Closing.phases_open (h : t.Closing now s x)
    (htold : ∀ f reply, (t.log x).told ≠ [(f, .ok reply)]) : ∀ p ∈ t.phases x, p ≠ .closed := by
  induction t with
  | ground => exact nofun
  | toModern poll t ih =>
    refine List.forall_mem_append.mpr ⟨ih h.2 htold, fun p hp => ?_⟩
    rw [List.mem_singleton.mp hp, h.1]
    exact nofun
  | toLegacy counts t ih =>
    obtain ⟨hown, hcalm, -⟩ | ⟨call, hown, -, hx⟩ | ⟨hown, hfailed⟩ | ⟨-, hshut⟩ := h
    · refine List.forall_mem_append.mpr ⟨hcalm.phases_open, fun p hp => ?_⟩
      rw [List.mem_singleton.mp hp, hown]
      exact nofun
    · refine List.forall_mem_append.mpr ⟨ih hx htold, fun p hp => ?_⟩
      rw [List.mem_singleton.mp hp, hown]
      exact nofun
    · cases t with
      | ground =>
        refine fun p hp => ?_
        rw [List.mem_singleton.mp hp, hown]
        exact nofun
      | toModern => exact hfailed.elim
    · obtain ⟨-, f, reply, hok⟩ := hshut.log
      exact absurd hok (htold f reply)

theorem Course.phases_open (h : t.Course now s x)
    (htold : ∀ f reply, (t.log x).told ≠ [(f, .ok reply)]) : ∀ p ∈ t.phases x, p ≠ .closed := by
  obtain hclosing | hshut := h
  · exact hclosing.phases_open htold
  · obtain ⟨-, f, reply, hok⟩ := hshut.log
    exact absurd hok (htold f reply)

variable (below : Level .modern σ φ) (base : List (Job σ)) {env : Env} {job : Job (t.Logged σ φ)}

theorem Course.work (hp : t.Prompt) (hr : env.runtime = true) (hs : s ≤ env.now)
    (h : t.Course env.now s x) (hjob : job ∈ t.works below base) :
    t.Course env.now s (job.run env x).1 ∧
      t.Advances env.now (if job.ready env x then 1 else 0) x (job.run env x).1 := by
  obtain hclosing | hshut := h
  · obtain ⟨hclosing, hadvances⟩ := Closing.work below base hp hr hs hclosing hjob
    exact ⟨.inl hclosing, hadvances⟩
  · obtain ⟨hlike, hadvances⟩ := hshut.resting.work below base env.now env hjob
    exact ⟨.inr (hlike.shut hshut), hadvances⟩

/-- Background work leaves a tower alone that has closed. -/
theorem Shut.work (h : t.Shut s x) (env : Env) (hjob : job ∈ t.works below base) :
    t.Shut s (job.run env x).1 :=
  (h.resting.work below base env.now env hjob).1.shut h

theorem Arrived.work (h : t.Arrived s x) (env : Env) (hjob : job ∈ t.works below base) :
    t.Arrived s (job.run env x).1 := by
  cases t with
  | ground | toLegacy => exact Shut.work below base h env hjob
  | toModern poll t =>
    obtain ⟨inner, hinner, rfl⟩ := List.mem_map.mp hjob
    exact Shut.work below base h env hinner

theorem Course.arrived_of_quiet (h : t.Course env.now s x)
    (hquiet : ∀ job ∈ t.works below base, job.ready env x = false) {f : Nat} {reply : Reply}
    (htold : (t.log x).told = [(f, .ok reply)]) : t.Arrived s x :=
  h.elim (fun hclosing => hclosing.arrived_of_quiet below base hquiet htold) Shut.arrived

theorem Course.asked_of_quiet (h : t.Course now s x)
    (hquiet : ∀ job ∈ t.works below base, job.ready env x = false) :
    (t.log x).asked = [(s, .background)] :=
  h.elim (fun hclosing => hclosing.asked_of_quiet below base hquiet) fun hshut => hshut.log.1

theorem Course.heard_of_quiet (h : t.Course now s x) (hdepth : 0 < t.depth)
    (hquiet : ∀ job ∈ t.works below base, job.ready env x = false) (hnone : (t.log x).told = []) :
    ∃ call, t.Sent call x ∧ below.ready call env (t.bottom x).2 = false := by
  obtain hclosing | hshut := h
  · exact hclosing.heard_of_quiet below base hdepth hquiet hnone
  · obtain ⟨-, f, reply, htold⟩ := hshut.log
    exact absurd (hnone.symm.trans htold) (List.cons_ne_nil _ _).symm

theorem Course.pass {later : Nat} (h : t.Course env.now s x)
    (hquiet : ∀ job ∈ t.works below base, job.ready env x = false)
    (halarms : ∀ job ∈ t.works below base, ∀ a, job.alarm x = some a → env.now < a → later ≤ a)
    (hle : env.now ≤ later) : t.Course later s x :=
  h.imp (fun hclosing => hclosing.pass below base hquiet halarms hle) id

end Course

/-! ## Calls that wait -/

section Calls

variable (below : Level .modern σ φ) {env : Env} {s since : Nat}

/-- What a look at a wait for the close of a bridge to legacy comes to. -/
theorem learned_tell {counts : Bool} {t : Tower .modern .modern} {timeout : Nat}
    (own : ToLegacy.Own (t.LoggedCall φ)) (x : t.Logged σ φ)
    (hclosed : own.phase = .closed → (toLegacy counts t).Shut s (own, x))
    (hring : env.now ≤ Time.ring since timeout) :
    (toLegacy counts t).Learned env s since (.waitForClose timeout) (own, x)
      (ToLegacy.tell counts timeout own x
        ((ClosedWait.till (Time.ring since timeout)).look own.phase env.now)) := by
  unfold ClosedWait.look
  split
  · next hphase => exact .done (hclosed hphase) rfl rfl []
  · split
    · next hexpired =>
      have hlate : lapsed since env (g := .legacy) (.waitForClose timeout) = true := hexpired
      exact .late hlate _
    · next hexpired =>
      have hlate : lapsed since env (g := .legacy) (.waitForClose timeout) = false :=
        eq_false_of_ne_true hexpired
      have hstays : (toLegacy counts t).Stays (φ := φ) env.now s since (.waitForClose timeout)
          (.waiting timeout (.till (Time.ring since timeout))) := ⟨rfl, hring⟩
      exact .stays hlate hstays rfl []

/-- What a look at a close of a bridge to modern comes to. -/
theorem learned_polled {poll : Nat} {scope : Scope} {counts : Bool} {t : Tower .modern .modern}
    {phase : Phase} {x : (toLegacy counts t).Logged σ φ}
    (hclosed : x.1.phase = .closed → (toLegacy counts t).Shut s x)
    {turn : Turn ((toModern poll (toLegacy counts t)).Logged σ φ) _ (Answer .modern)}
    (h : ToModern.Polled env s poll scope (x.1.phase = .closed) phase x turn) :
    (toModern poll (toLegacy counts t)).Learned env s since (.close scope) (phase, x) turn := by
  cases h with
  | done h es =>
    have hshut : (toModern poll (toLegacy counts t)).Shut s (.closed, x) := ⟨rfl, hclosed h⟩
    refine .done hshut ?_ ?_ es
    · rfl
    · rfl
  | gaveUp h es =>
    have hlate : lapsed since env (g := .modern) (.close scope) = true := h
    exact .late hlate es
  | waits h hcall hover es =>
    have hlate : lapsed since env (g := .modern) (.close scope) = false := h
    have hstays : (toModern poll (toLegacy counts t)).Stays env.now s since (.close scope) _ :=
      hcall
    exact .stays hlate hstays hover es

/-- A bridge to legacy that is closed knows of it, and before it was asked it is not closed. -/
theorem shut_of_closed {counts : Bool} {t : Tower .modern .modern} {now : Nat}
    {x : (toLegacy counts t).Logged σ φ}
    (hx : (toLegacy counts t).Course now s x ∨ (toLegacy counts t).Calm x)
    (hclosed : x.1.phase = .closed) : (toLegacy counts t).Shut s x := by
  obtain (hclosing | hshut) | hcalm := hx
  · exact hclosing.shut_of_closed hclosed
  · exact hshut
  · rw [hcalm.1] at hclosed
    cases hclosed

/-- What the bridge to modern polls. -/
theorem Course.beneath {poll now : Nat} {t : Tower .modern .legacy}
    {x : (toModern poll t).Logged σ φ} (h : (toModern poll t).Course now s x) :
    t.Course now s x.2 :=
  h.imp And.right And.right

variable {t : Tower .modern g} {x : t.Logged σ φ} {r : Request g}

/-- A call that waits for the close is made. -/
theorem start_waiter (hdepth : 0 < t.depth) (hp : t.Prompt)
    (hx : s ≤ env.now ∧ t.Course env.now s x ∨ t.Calm x ∧ asksClose r = false)
    (htells : tellsClosed r = true) :
    t.Learned env s env.now r x ((t.logging below).start r env x) := by
  cases t with
  | ground => cases hdepth
  | toLegacy counts t =>
    cases r with
    | waitForClose timeout =>
      exact learned_tell x.1 x.2 (shut_of_closed (hx.imp And.right And.left))
        (Time.le_ring env.now timeout)
    | get | set | add | delete | closeAsync | setWithTtl | addWithTtl | setMulti
    | setMultiWithTtl =>
      cases htells
  | toModern poll t =>
    cases t with
    | toLegacy counts t =>
      cases r with
      | get | set | add | delete | setMulti => cases htells
      | close scope =>
        obtain ⟨hs, hx⟩ | ⟨-, hasks⟩ := hx
        · obtain ⟨phase, x⟩ := x
          have hbeneath := shut_of_closed (.inl hx.beneath)
          obtain ⟨hphase, -⟩ | hshut := id hx
          · cases (hphase : phase = .closing)
            exact learned_polled hbeneath
              (ToModern.close_polled (t.logging below) counts hp.1 hs)
          · obtain ⟨hphase, -⟩ := id hshut
            cases (hphase : phase = .closed)
            exact .done hshut rfl rfl []
        · cases hasks

/-- A call that waits for the close is looked at. -/
theorem resume_waiter (hp : t.Prompt)
    (hx : s ≤ env.now ∧ t.Course env.now s x ∨ t.Calm x ∧ asksClose r = false)
    {call : t.LoggedCall φ} (hcall : t.Stays env.now s since r call) :
    t.Learned env s since r x ((t.logging below).resume call env x) ∧
      ((t.logging below).ready call env x = true →
        ∀ next, ((t.logging below).resume call env x).progress = .waiting next →
          t.overdue env.now call = 1) := by
  cases t with
  | ground => exact hcall.elim
  | toLegacy counts t =>
    cases r with
    | waitForClose timeout =>
      obtain ⟨rfl, hring⟩ := hcall
      obtain ⟨own, x⟩ := x
      refine ⟨learned_tell own x (shut_of_closed (hx.imp And.right And.left)) hring, ?_⟩
      intro hready next hnext
      change (own.phase == .closed || decide (Time.ring since timeout ≤ env.now)) = true at hready
      change (ToLegacy.tell counts timeout own x
        ((ClosedWait.till (Time.ring since timeout)).look own.phase env.now)).progress = _ at hnext
      unfold ClosedWait.look at hnext
      split at hnext
      · cases hnext
      · next hopen =>
        have hlate : ClosedWait.expired env.now (.till (Time.ring since timeout)) = true := by
          simpa [hopen, ClosedWait.expired] using hready
        rw [if_pos hlate] at hnext
        cases hnext
    | get | set | add | delete | closeAsync | setWithTtl | addWithTtl | setMulti
    | setMultiWithTtl =>
      exact hcall.elim
  | toModern poll t =>
    cases t with
    | toLegacy counts t =>
      cases r with
      | get | set | add | delete | setMulti => exact hcall.elim
      | close scope =>
        obtain ⟨hs, hx⟩ | ⟨-, hasks⟩ := hx
        · obtain ⟨phase, x⟩ := x
          have hcall : ToModern.Polls env.now s poll scope call := hcall
          refine ⟨learned_polled (shut_of_closed (.inl hx.beneath)) (ToModern.resume_polled
            (t.logging below) counts phase (x := x) hp.1 hcall), ?_⟩
          exact fun hready next => ToModern.resume_ready (t.logging below) counts hcall hready
        · cases hasks

/-- The first call to ask for the close. -/
theorem start_asker (hdepth : 0 < t.depth) (hp : t.Prompt) (hr : env.runtime = true)
    (hx : t.Calm x) (hasks : asksClose r = true) :
    ∃ x', t.Course env.now env.now x' ∧ t.log x' = t.log x ∧
      (tellsClosed r = true →
          t.Learned env env.now env.now r x' ((t.logging below).start r env x)) ∧
      (tellsClosed r = false → (t.logging below).start r env x = .answer x' Answer.done) := by
  cases t with
  | ground => cases hdepth
  | toLegacy counts t =>
    obtain ⟨own, x⟩ := x
    obtain ⟨hown, hx⟩ := hx
    cases (hown : own = _)
    refine ⟨(⟨.closing, .requested⟩, x), .inl (.inl ⟨rfl, hx, rfl⟩), rfl, ?_⟩
    cases r with
    | closeAsync =>
      refine ⟨fun htells => (by cases htells), fun _ => ?_⟩
      simp [logging, level, ToLegacy.level, ToLegacy.start, ToLegacy.closeAsync,
        Phase.beginClose, hr]
    | get | set | add | delete | waitForClose | setWithTtl | addWithTtl | setMulti
    | setMultiWithTtl => cases hasks
  | toModern poll t =>
    cases t with
    | toLegacy counts t =>
      obtain ⟨phase, own, x⟩ := x
      obtain ⟨hphase, hown, hx⟩ := hx
      cases (hphase : phase = _)
      cases (hown : own = _)
      have hclosing : (toLegacy counts t).Closing env.now env.now (⟨.closing, .requested⟩, x) :=
        .inl ⟨rfl, hx, rfl⟩
      refine ⟨(.closing, ⟨.closing, .requested⟩, x), .inl ⟨rfl, hclosing⟩, rfl, ?_⟩
      cases r with
      | close scope =>
        refine ⟨fun _ => learned_polled ?_ ?_, fun htells => by cases htells⟩
        · exact fun hclosed => hclosing.shut_of_closed hclosed
        · exact ToModern.close_active_polled (t.logging below) counts scope hp.1 hr x
      | get | set | add | delete | setMulti => cases hasks

/-- A close signal to a bridge that has had one changes nothing. -/
theorem start_signal {now : Nat} (hx : t.Course now s x) (hasks : asksClose r = true)
    (htells : tellsClosed r = false) (hdepth : 0 < t.depth) (env : Env) :
    (t.logging below).start r env x = .answer x Answer.done := by
  cases t with
  | ground => cases hdepth
  | toLegacy counts t =>
    cases r with
    | closeAsync =>
      obtain ⟨⟨phase, closer⟩, x⟩ := x
      have hphase : phase = .closing ∨ phase = .closed := by
        obtain (⟨hown, -⟩ | ⟨call, hown, -⟩ | ⟨hown, -⟩ | ⟨hown, -⟩) | ⟨hown, -⟩ := hx
        · exact .inl (congrArg ToLegacy.Own.phase hown)
        · exact .inl (congrArg ToLegacy.Own.phase hown)
        · exact .inl (congrArg ToLegacy.Own.phase hown)
        · exact .inr (congrArg ToLegacy.Own.phase hown)
        · exact .inr (congrArg ToLegacy.Own.phase hown)
      rcases hphase with rfl | rfl <;> rfl
    | get | set | add | delete | waitForClose | setWithTtl | addWithTtl | setMulti
    | setMultiWithTtl => cases hasks
  | toModern poll t =>
    cases r with
    | close scope => cases htells
    | get | set | add | delete | setMulti => cases hasks

/-- Once the news has come up, whoever asks is told at once. -/
theorem start_arrived (hdepth : 0 < t.depth) (hx : t.Course env.now s x) (h : t.Arrived s x)
    (htells : tellsClosed r = true) :
    ((t.logging below).start r env x).progress = .answered Answer.done := by
  cases t with
  | ground => cases hdepth
  | toLegacy counts t =>
    cases r with
    | waitForClose timeout =>
      obtain ⟨own, x⟩ := x
      cases (h.1 : own = _)
      rfl
    | get | set | add | delete | closeAsync | setWithTtl | addWithTtl | setMulti
    | setMultiWithTtl =>
      cases htells
  | toModern poll t =>
    cases t with
    | toLegacy counts t =>
      cases r with
      | get | set | add | delete | setMulti => cases htells
      | close scope =>
        obtain ⟨phase, own, x⟩ := x
        cases (h.1 : own = _)
        have hphase : phase = .closing ∨ phase = .closed := hx.imp And.left And.left
        rcases hphase with rfl | rfl <;> rfl

/-! ## Where nothing is ready -/

/-- A call that waits and is not ready has time left, there is no close that it could know of, and
it is woken before its time is up. -/
theorem Stays.unready {call : t.LoggedCall φ} (h : t.Stays env.now s since r call)
    (hready : (t.logging below).ready call env x = false) :
    lapsed since env r = false ∧ ¬t.Arrived s x ∧
      ∃ a, (t.logging below).alarm call = some a ∧ env.now < a ∧
        (∀ b, bell since r = some b → a ≤ b) ∧
        ∀ later, env.now ≤ later → later ≤ a → t.Stays later s since r call := by
  cases t with
  | ground => exact h.elim
  | toLegacy counts t =>
    cases r with
    | waitForClose timeout =>
      obtain ⟨rfl, hring⟩ := h
      obtain ⟨own, x⟩ := x
      change (own.phase == .closed || decide (Time.ring since timeout ≤ env.now)) = false at hready
      simp only [Bool.or_eq_false_iff, beq_eq_false_iff_ne, decide_eq_false_iff_not,
        Nat.not_le] at hready
      obtain ⟨hopen, hlate⟩ := hready
      refine ⟨decide_eq_false (Nat.not_le.mpr hlate), fun harrived => ?_,
        Time.ring since timeout, rfl, hlate, ?_, fun later _ hle => ⟨rfl, hle⟩⟩
      · exact hopen (congrArg ToLegacy.Own.phase harrived.1)
      · exact fun b hb => Nat.le_of_eq (Option.some.inj hb)
    | get | set | add | delete | closeAsync | setWithTtl | addWithTtl | setMulti
    | setMultiWithTtl =>
      exact h.elim
  | toModern poll t =>
    cases t with
    | toLegacy counts t =>
      cases r with
      | get | set | add | delete | setMulti => exact h.elim
      | close scope =>
        obtain ⟨phase, x⟩ := x
        have h : ToModern.Polls env.now s poll scope call := h
        obtain ⟨hended, hopen, halarm⟩ := h.unready (t.logging below) counts hready
        refine ⟨hended, fun harrived => ?_, halarm⟩
        exact hopen (congrArg ToLegacy.Own.phase harrived.1)

end Calls

end CacheBridge.Tower
