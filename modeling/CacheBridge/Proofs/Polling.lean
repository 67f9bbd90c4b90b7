import CacheBridge.Proofs.ClosingWave

/-!
A bridge to modern that polls a bridge to legacy, look by look. A poll that runs out is followed by
the next one at once, since all of its interval is over by then; so nobody is asleep when the cache
below has closed.
-/

namespace CacheBridge

/-- When a timer has rung there is nothing left of its time. -/
theorem Time.ring_rest {started span now : Nat} (hring : now = ring started span) :
    ring now (span - (now - started)) = now := by
  have hover : started + span ≤ now := hring ▸ le_roundUp _
  have hrest : now + (span - (now - started)) = now := by omega
  rw [ring, hrest]
  exact roundUp_of_dvd (hring ▸ dvd_roundUp _)

namespace ToModern

variable {σ ψ : Type}

/-- A close that polls the bridge to legacy below since `s` or later, and no poll has gone by. -/
inductive Polls (now s poll : Nat) (scope : Scope) : Call (ToLegacy.Call ψ) → Prop where
  | polling {started : Nat} (hs : s ≤ started) (hstarted : started ≤ now)
      (hring : now ≤ Time.ring started poll) :
      Polls now s poll scope
        (.polling scope started (.waiting poll (.till (Time.ring started poll))))

/-- A poll that is over counts as one look to come. -/
def Call.overdue (now : Nat) : Call (ToLegacy.Call ψ) → Nat
  | .polling _ _ (.waiting _ (.till ring)) => if ring ≤ now then 1 else 0
  | _ => 0

/-- What a look at a close comes to, when the cache below is `closed` or not. -/
inductive Polled (env : Env) (s poll : Nat) (scope : Scope) (closed : Prop) (phase : Phase)
    (x : σ) :
    Turn (Phase × σ) (Call (ToLegacy.Call ψ)) (Answer .modern) → Prop where
  | done (h : closed) (es : List Event) :
      Polled env s poll scope closed phase x ⟨(.closed, x), .answered Answer.done, es⟩
  | gaveUp (h : env.ended scope = true) (es : List Event) :
      Polled env s poll scope closed phase x ⟨(phase, x), .answered (.error .timeout), es⟩
  | waits (h : env.ended scope = false) {call : Call (ToLegacy.Call ψ)}
      (hcall : Polls env.now s poll scope call) (hover : call.overdue env.now = 0)
      (es : List Event) :
      Polled env s poll scope closed phase x ⟨(phase, x), .waiting call, es⟩

theorem Polled.after {env : Env} {s poll : Nat} {scope : Scope} {closed : Prop}
    {phase : Phase} {x : σ} {turn : Turn (Phase × σ) (Call (ToLegacy.Call ψ)) (Answer .modern)}
    (h : Polled env s poll scope closed phase x turn) (es : List Event) :
    Polled env s poll scope closed phase x (turn.after es) := by
  cases h with
  | done h fs => exact .done h _
  | gaveUp h fs => exact .gaveUp h _
  | waits h hcall hover fs => exact .waits h hcall hover _

variable {φ : Type} (below : Level .modern σ φ) (counts : Bool) {env : Env} {s poll : Nat}
  {scope : Scope} {phase : Phase} {x : ToLegacy.State σ φ}

theorem polls_fresh (scope : Scope) (hpoll : 0 < poll) (hs : s ≤ env.now) :
    Polls env.now s poll scope (.polling scope env.now (.waiting poll
      (.till (Time.ring env.now poll))) : Call (ToLegacy.Call φ)) ∧
    Call.overdue env.now (.polling scope env.now (.waiting poll
      (.till (Time.ring env.now poll))) : Call (ToLegacy.Call φ)) = 0 := by
  have hring : env.now < Time.ring env.now poll := Time.lt_ring hpoll
  exact ⟨.polling hs (Nat.le_refl _) (Nat.le_of_lt hring), if_neg (Nat.not_le.mpr hring)⟩

theorem beginPoll_polled (hpoll : 0 < poll) (hs : s ≤ env.now) :
    Polled env s poll scope (x.1.phase = .closed) phase x
      (beginPoll (ToLegacy.level below counts) poll scope env phase x) := by
  have hring : env.now < Time.ring env.now poll := Time.lt_ring hpoll
  obtain ⟨own, y⟩ := x
  change Polled env s poll scope (own.phase = .closed) phase (own, y)
    (judge scope env.now env phase _
      (ToLegacy.tell counts poll own y (ClosedWait.start own.phase env.now poll)))
  by_cases hclosed : own.phase = .closed
  · rw [hclosed]
    exact .done rfl []
  · have hlook : ClosedWait.start own.phase env.now poll =
        .waiting (.till (Time.ring env.now poll)) :=
      ClosedWait.look_of_not_ready (by simp [ClosedWait.ready, ClosedWait.expired, hclosed, hring])
    rw [hlook]
    simp only [ToLegacy.tell, Turn.wait, judge]
    split
    · next hended => exact .gaveUp hended _
    · next hended =>
      obtain ⟨hpolls, hover⟩ := polls_fresh (φ := φ) scope hpoll hs
      exact .waits (eq_false_of_ne_true hended) hpolls hover _

/-- A poll that has run out is followed by the next one at once. -/
theorem pollAgain_polled (hpoll : 0 < poll) {started : Nat} (hs : s ≤ started)
    (hring : env.now = Time.ring started poll) :
    Polled env s poll scope (x.1.phase = .closed) phase x
      (pollAgain (ToLegacy.level below counts) poll scope started env phase x) := by
  have hstarted : started ≤ env.now := hring ▸ Time.le_ring started poll
  have hrest : env.ring (poll - (env.now - started)) = env.now := Time.ring_rest hring
  unfold pollAgain
  split
  · next hended => exact .gaveUp hended _
  · rw [if_pos (Nat.le_of_eq hrest)]
    exact beginPoll_polled below counts hpoll (Nat.le_trans hs hstarted)

theorem resume_polled (phase : Phase) (hpoll : 0 < poll)
    {call : Call (ToLegacy.Call φ)} (hcall : Polls env.now s poll scope call) :
    Polled env s poll scope (x.1.phase = .closed) phase x
      (resume (ToLegacy.level below counts) poll call env (phase, x)) := by
  obtain ⟨own, y⟩ := x
  cases hcall with
  | @polling started hstart hstarted hring =>
    change Polled env s poll scope (own.phase = .closed) phase (own, y)
      (judge scope started env phase _ (ToLegacy.tell counts poll own y
        ((ClosedWait.till (Time.ring started poll)).look own.phase env.now)))
    by_cases hclosed : own.phase = .closed
    · rw [hclosed]
      exact .done rfl []
    · unfold ClosedWait.look
      rw [if_neg hclosed]
      simp only [ClosedWait.expired, decide_eq_true_eq]
      split
      · next hover =>
        have hnow' : env.now = Time.ring started poll := Nat.le_antisymm hring hover
        exact (pollAgain_polled below counts (x := (own, y)) hpoll hstart hnow').after _
      · next hover =>
        simp only [ToLegacy.tell, Turn.wait, judge]
        split
        · next hended => exact .gaveUp hended _
        · next hended =>
          exact .waits (eq_false_of_ne_true hended) (.polling hstart hstarted hring)
            (if_neg hover) _

/-- A close of a bridge that is closing already is one more poll. -/
theorem close_polled (hpoll : 0 < poll) (hs : s ≤ env.now) :
    Polled env s poll scope (x.1.phase = .closed) .closing x
      (close (ToLegacy.level below counts) poll scope env .closing x) :=
  beginPoll_polled below counts hpoll hs

/-- The first close signals the cache below and begins to poll it. -/
theorem close_active_polled (scope : Scope) (hpoll : 0 < poll) (hr : env.runtime = true) (y : σ) :
    Polled env env.now poll scope (Phase.closing = .closed) .closing
      ((⟨.closing, .requested⟩, y) : ToLegacy.State σ φ)
      (close (ToLegacy.level below counts) poll scope env .active (.fresh, y)) := by
  have hsignal : (ToLegacy.level below counts).start .closeAsync env (.fresh, y) =
      .answer (⟨.closing, .requested⟩, y) Answer.done := by
    simp [ToLegacy.level, ToLegacy.start, ToLegacy.closeAsync, ToLegacy.Own.fresh,
      Phase.beginClose, hr]
  rw [Tower.close_active, hsignal]
  exact (beginPoll_polled below counts (x := (⟨.closing, .requested⟩, y)) hpoll
    (Nat.le_refl env.now)).after []

/-- A look at a close that is ready answers it, unless its poll is over. -/
theorem resume_ready {call : Call (ToLegacy.Call φ)} (hcall : Polls env.now s poll scope call)
    (hready : ready (ToLegacy.level below counts) call env (phase, x) = true)
    {next : Call (ToLegacy.Call φ)}
    (hwaits : (resume (ToLegacy.level below counts) poll call env (phase, x)).progress =
      .waiting next) : call.overdue env.now = 1 := by
  obtain ⟨own, y⟩ := x
  cases hcall with
  | @polling started hstart hstarted hring =>
    refine if_pos (Nat.not_lt.mp fun hlate => ?_)
    change (judge scope started env phase _ (ToLegacy.tell counts poll own y
        ((ClosedWait.till (Time.ring started poll)).look own.phase env.now))).progress = _ at hwaits
    change ((own.phase == .closed || decide (Time.ring started poll ≤ env.now)) ||
      env.ended scope) = true at hready
    by_cases hclosed : own.phase = .closed
    · rw [hclosed] at hwaits
      cases hwaits
    · have hended : env.ended scope = true := by
        simpa [hclosed, Nat.not_le.mpr hlate] using hready
      have hlook : (ClosedWait.till (Time.ring started poll)).look own.phase env.now =
          .waiting (.till (Time.ring started poll)) :=
        ClosedWait.look_of_not_ready (by
          simp [ClosedWait.ready, ClosedWait.expired, hclosed, Nat.not_le.mpr hlate])
      rw [hlook] at hwaits
      simp only [ToLegacy.tell, Turn.wait, judge, if_pos hended] at hwaits
      cases hwaits

/-- An alarm with a deadline at its side. -/
theorem earlier_alarm {now ring : Nat} (hring : now < ring) {s : Scope}
    (hopen : s.deadline.any (· ≤ now) = false) :
    ∃ a, ScopeTree.earlier (some ring) s.alarm = some a ∧ now < a ∧ a ≤ ring ∧
      ∀ b, s.alarm = some b → a ≤ b := by
  unfold Scope.alarm
  cases hd : s.deadline with
  | none => exact ⟨ring, rfl, hring, Nat.le_refl _, nofun⟩
  | some d =>
    have hlate : now < d := by simpa [hd] using hopen
    refine ⟨min ring (Time.roundUp d), rfl,
      Nat.lt_min.mpr ⟨hring, Nat.lt_of_lt_of_le hlate (Time.le_roundUp d)⟩, Nat.min_le_left _ _, ?_⟩
    exact fun b hb => Option.some.inj hb ▸ Nat.min_le_right _ _

/-- A close that is not ready waits for something that is still to come, and for nothing that is
there already. -/
theorem Polls.unready {call : Call (ToLegacy.Call φ)} (h : Polls env.now s poll scope call)
    (hready : ready (ToLegacy.level below counts) call env (phase, x) = false) :
    env.ended scope = false ∧ x.1.phase ≠ .closed ∧
      ∃ a, alarm (ToLegacy.level below counts) call = some a ∧ env.now < a ∧
        (∀ b, scope.alarm = some b → a ≤ b) ∧
        ∀ t, env.now ≤ t → t ≤ a → Polls t s poll scope call := by
  obtain ⟨own, y⟩ := x
  cases h with
  | @polling started hstart hstarted hring =>
    change ((own.phase == .closed || decide (Time.ring started poll ≤ env.now)) ||
      env.ended scope) = false at hready
    simp only [Bool.or_eq_false_iff, beq_eq_false_iff_ne, decide_eq_false_iff_not,
      Nat.not_le] at hready
    obtain ⟨⟨hclosed, hlate⟩, hended⟩ := hready
    have hopen := (Bool.or_eq_false_iff.mp hended).2
    obtain ⟨a, ha, hnow, hle, hscope⟩ := earlier_alarm hlate hopen
    exact ⟨hended, hclosed, a, ha, hnow, hscope, fun t ht hta =>
      .polling hstart (Nat.le_trans hstarted ht) (Nat.le_trans hta hle)⟩

end ToModern

end CacheBridge
