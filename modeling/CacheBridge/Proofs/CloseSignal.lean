import CacheBridge.Proofs.ShutdownLatency

/-!
The shutdown of one bridge to legacy: signals from inside a runtime and from outside, waits of any
length, data calls, and the close in the background, in any order. Only the first signal counts. If
no background work could be started from where it came, the cache below is never closed; otherwise
it is asked once, and the bridge is closed exactly when it has said yes. A wait that is under way
then succeeds at that instant, one that comes later succeeds at once, and any other runs out at the
end of its time.
-/

namespace CacheBridge.ToLegacy

variable {σ φ : Type} {now : Nat}

/-- How far the close of a bridge has come that was signalled like this, and what has reached the
cache below and has come back. -/
inductive Stage (now : Nat) : List (Nat × Bool) → Own (Bool × φ) → List (Nat × Scope) →
    List (Nat × Answer .modern) → Prop where
  | active : Stage now [] .fresh [] []
  | stranded (s : Nat) (rest : List (Nat × Bool)) :
      Stage now ((s, false) :: rest) ⟨.closing, .idle⟩ [] []
  | requested (rest : List (Nat × Bool)) :
    Stage now ((now, true) :: rest) ⟨.closing, .requested⟩ [] []
  | running {s : Nat} (hs : s ≤ now) (call : φ) (rest : List (Nat × Bool)) :
      Stage now ((s, true) :: rest) ⟨.closing, .running (true, call)⟩ [(s, .background)] []
  | failed {s f : Nat} (hs : s ≤ f) (hf : f ≤ now) (e : Failure .modern)
    (rest : List (Nat × Bool)) :
      Stage now ((s, true) :: rest) ⟨.closing, .finished⟩ [(s, .background)] [(f, .error e)]
  | closed {s f : Nat} (hs : s ≤ f) (hf : f ≤ now) (reply : Reply) (rest : List (Nat × Bool)) :
      Stage now ((s, true) :: rest) ⟨.closed, .finished⟩ [(s, .background)] [(f, .ok reply)]

/-- The stage of a state of the bridge, over a cache with a log of its closes. -/
abbrev Stands (now : Nat) (asked : List (Nat × Bool)) (x : State (CloseLog × σ) (Bool × φ)) :
    Prop :=
  Stage now asked x.1 x.2.1.asked x.2.1.told

variable {asked : List (Nat × Bool)} {x : State (CloseLog × σ) (Bool × φ)} {env : Env}

theorem Stage.later {own : Own (Bool × φ)} {below : List (Nat × Scope)}
    {told : List (Nat × Answer .modern)}
    (h : Stage now asked own below told) {later : Nat} (hle : now ≤ later)
    (hidle : own.closer ≠ .requested) :
    Stage later asked own below told := by
  cases h with
  | active => exact .active
  | stranded s rest => exact .stranded s rest
  | requested rest => exact absurd rfl hidle
  | running hs call rest => exact .running (Nat.le_trans hs hle) call rest
  | failed hs hf e rest => exact .failed hs (Nat.le_trans hf hle) e rest
  | closed hs hf reply rest => exact .closed hs (Nat.le_trans hf hle) reply rest

section Stages

variable {own : Own (Bool × φ)} {sent : List (Nat × Scope)} {told : List (Nat × Answer .modern)}

theorem Stage.active_iff (h : Stage now asked own sent told) :
    own.phase = .active ↔ asked = [] := by
  cases h <;> simp [Own.fresh]

/-- The bridge is closed exactly when the cache below has said that it is. -/
theorem Stage.closed_iff (h : Stage now asked own sent told) :
    own.phase = .closed ↔ ∃ f reply, told = [(f, .ok reply)] := by
  cases h <;> simp [Own.fresh]

theorem Stage.told_le (h : Stage now asked own sent told) {f : Nat} {a : Answer .modern}
    (htold : told = [(f, a)]) : f ≤ now := by
  subst htold
  cases h <;> assumption

/-- Only the first signal reaches the cache below, and only if it came from inside a runtime. -/
theorem Stage.reached (h : Stage now asked own sent told) :
    sent = [] ∧ told = [] ∨ ∃ s, asked.head? = some (s, true) ∧ sent = [(s, .background)] ∧
      (told = [] ∨ ∃ f a, told = [(f, a)] ∧ s ≤ f ∧ f ≤ now) := by
  cases h with
  | active | stranded | requested => exact .inl ⟨rfl, rfl⟩
  | running hs call rest => exact .inr ⟨_, rfl, rfl, .inl rfl⟩
  | failed hs hf e rest => exact .inr ⟨_, rfl, rfl, .inr ⟨_, _, rfl, hs, hf⟩⟩
  | closed hs hf reply rest => exact .inr ⟨_, rfl, rfl, .inr ⟨_, _, rfl, hs, hf⟩⟩

theorem Stage.reached_of_idle (h : Stage now asked own sent told) (hidle : own.closer ≠ .requested)
    {s : Nat} (hs : asked.head? = some (s, true)) :
    sent = [(s, .background)] ∧ (told = [] → ∃ call, own.closer = .running (true, call)) := by
  cases h with
  | active => cases hs
  | stranded => cases hs
  | requested => exact absurd rfl hidle
  | running hle call rest =>
    cases hs
    exact ⟨rfl, fun _ => ⟨call, rfl⟩⟩
  | failed | closed =>
    cases hs
    exact ⟨rfl, fun hnone => absurd hnone (List.cons_ne_nil _ _)⟩

theorem Stage.stranded_of_head (h : Stage now asked own sent told) {s : Nat}
    (hs : asked.head? = some (s, false)) : sent = [] ∧ own.phase = .closing := by
  cases h with
  | active => cases hs
  | stranded => exact ⟨rfl, rfl⟩
  | requested | running | failed | closed => cases hs

theorem Stage.closing_of_failed (h : Stage now asked own sent told) {f : Nat} {e : Failure .modern}
    (htold : told = [(f, .error e)]) : own.phase = .closing := by
  subst htold
  cases h
  rfl

end Stages

/-- Another signal. -/
theorem closeAsync_stands (env : Env) (h : Stands env.now asked x) :
    ∃ own, Stage env.now (asked ++ [(env.now, env.runtime)]) own x.2.1.asked x.2.1.told ∧
      ∃ es, closeAsync env x.1 x.2 = ⟨(own, x.2), .answered Answer.done, es⟩ := by
  obtain ⟨own, log, y⟩ := x
  have h : Stage env.now asked own log.asked log.told := h
  generalize log.asked = below at h ⊢
  generalize log.told = told at h ⊢
  cases h with
  | active =>
    cases hr : env.runtime with
    | true =>
      exact ⟨_, .requested [], [],
        by simp [closeAsync, Own.fresh, Phase.beginClose, hr, Turn.answer]⟩
    | false =>
      exact ⟨_, .stranded env.now [], [.notice .closeWithoutRuntime],
        by simp [closeAsync, Own.fresh, Phase.beginClose, hr]⟩
  | stranded s rest => exact ⟨_, .stranded s _, [], rfl⟩
  | requested rest => exact ⟨_, .requested _, [], rfl⟩
  | running hs call rest => exact ⟨_, .running hs call _, [], rfl⟩
  | failed hs hf e rest => exact ⟨_, .failed hs hf e _, [], rfl⟩
  | closed hs hf reply rest => exact ⟨_, .closed hs hf reply _, [], rfl⟩

/-- A step of the background close, while it is under way. -/
theorem conclude_stands {s : Nat} (hs : s ≤ env.now) (rest : List (Nat × Bool))
    {own : Own (Bool × φ)}
    (hphase : own.phase = .closing) {log : CloseLog} (hasked : log.asked = [(s, .background)])
    (htold : log.told = []) (turn : Turn σ φ (Answer .modern)) :
    Stands env.now ((s, true) :: rest) (conclude own (log.note env.now true turn)).1 := by
  obtain ⟨phase, closer⟩ := own
  cases (hphase : phase = .closing)
  obtain ⟨y, progress, es⟩ := turn
  obtain ⟨below, told, looks⟩ := log
  cases (hasked : below = _)
  cases (htold : told = _)
  cases progress with
  | waiting call => exact .running hs call rest
  | answered a =>
    cases a with
    | ok reply => exact .closed hs (Nat.le_refl _) reply rest
    | error e => exact .failed hs (Nat.le_refl _) e rest

/-- What the bridge hears of the close is the first that it hears. -/
structure News (now : Nat) (told told' : List (Nat × Answer .modern)) : Prop where
  news : told' = told ∨ told = [] ∧ ∃ a, told' = [(now, a)]

theorem conclude_told (own : Own (Bool × φ)) {log : CloseLog} (htold : log.told = [])
    (turn : Turn σ φ (Answer .modern)) :
    News env.now [] (conclude own (log.note env.now true turn)).1.2.1.told := by
  obtain ⟨y, progress, es⟩ := turn
  obtain ⟨below, told, looks⟩ := log
  cases (htold : told = _)
  cases progress with
  | waiting call => exact ⟨.inl rfl⟩
  | answered a => cases a <;> exact ⟨.inr ⟨rfl, _, rfl⟩⟩

/-- The background close is run. -/
theorem closing_stands (below : Level .modern σ φ) (h : Stands env.now asked x) :
    Stands env.now asked ((closing below.logged).run env x).1 ∧
      News env.now x.2.1.told ((closing below.logged).run env x).1.2.1.told := by
  obtain ⟨own, ⟨reached, told, looks⟩, y⟩ := x
  have h : Stage env.now asked own reached told := h
  cases h with
  | active => exact ⟨.active, ⟨.inl rfl⟩⟩
  | stranded s rest => exact ⟨.stranded s rest, ⟨.inl rfl⟩⟩
  | requested rest =>
    exact ⟨
      conclude_stands (Nat.le_refl _) rest rfl rfl rfl (below.start (.close .background) env y),
      conclude_told _ rfl (below.start (.close .background) env y)⟩
  | running hs call rest =>
    exact ⟨conclude_stands hs rest rfl rfl rfl (below.resume call env y),
      conclude_told _ rfl (below.resume call env y)⟩
  | failed hs hf e rest => exact ⟨.failed hs hf e rest, ⟨.inl rfl⟩⟩
  | closed hs hf reply rest => exact ⟨.closed hs hf reply rest, ⟨.inl rfl⟩⟩

/-! ## Waits -/

/-- One answer has come from `w` to `u`: that to a wait which has found the bridge in this phase. -/
def AnsweredAtOnce {g : Generation} {τ ψ : Type} (w : Clockwork g τ ψ) (r : Request g) (since : Nat)
    (found : Phase) (u : Clockwork g τ ψ) : Prop :=
  ∃ c, u.told = w.told ++ [c] ∧ c.request = r ∧ c.since = since ∧ c.till = w.env.now ∧
    c.answer = if found = .closed then Answer.done else .error .timeout

/-- A bridge to legacy over a cache with a log of its closes, with its callers, on a clock. -/
abbrev Lone (counts : Bool) (σ φ : Type) : Type :=
  (Tower.toLegacy counts .ground : Tower .modern .legacy).Callers σ φ

/-- A wait that has time left, or had until now. -/
structure Waits (now : Nat) (told : List (Nat × Answer .modern)) (timeout : Nat)
    (p : Pending .legacy (Call (Bool × φ))) : Prop where
  request : p.request = .waitForClose timeout
  call : p.call = .waiting timeout (.till (Time.ring p.since timeout))
  since : p.since ≤ now
  ring : now ≤ Time.ring p.since timeout
  fresh : ∀ f reply, told = [(f, .ok reply)] → f = now

/-- What a wait was told, when the close was over in time, and when it was not. -/
inductive Fair (told : List (Nat × Answer .modern)) (timeout : Nat) (c : Told .legacy) : Prop where
  | heard {f : Nat} {reply : Reply} (hover : told = [(f, .ok reply)])
    (hanswer : c.answer = Answer.done)
      (htill : c.till = max f c.since) (htime : f ≤ Time.ring c.since timeout) : Fair told timeout c
  | missed (hanswer : c.answer = .error .timeout) (htill : c.till = Time.ring c.since timeout)
      (hearly : ∀ f reply, told = [(f, .ok reply)] → c.till ≤ f) : Fair told timeout c

theorem Fair.news {told told' : List (Nat × Answer .modern)} {timeout : Nat} {c : Told .legacy}
    (h : Fair told timeout c) (hnews : News now told told') (hnow : c.till ≤ now) :
    Fair told' timeout c := by
  obtain rfl | ⟨rfl, a, rfl⟩ := hnews.news
  · exact h
  · cases h with
    | heard hover => cases hover
    | missed hanswer htill hearly =>
      refine .missed hanswer htill fun f reply hover => ?_
      cases hover
      exact hnow

variable {counts : Bool}

/-- What a call that is under way waits for. -/
def Fits (now : Nat) (told : List (Nat × Answer .modern)) (counts : Bool)
    (p : Pending .legacy (Call (Bool × φ))) : Prop :=
  Tower.isData p.request ∧ (Tower.toLegacy counts .ground : Tower .modern .legacy).Data p.call ∨
    ∃ timeout, Waits now told timeout p

theorem Fits.waits {told : List (Nat × Answer .modern)} {p : Pending .legacy (Call (Bool × φ))}
    (h : Fits now told counts p) {timeout : Nat} (hrequest : p.request = .waitForClose timeout) :
    Waits now told timeout p := by
  obtain ⟨hdata, -⟩ | ⟨T, hwaits⟩ := h
  · rw [hrequest] at hdata
    cases hdata.2
  · cases hwaits.request.symm.trans hrequest
    exact hwaits

theorem Fits.news {told told' : List (Nat × Answer .modern)} {p : Pending .legacy (Call (Bool × φ))}
    (h : Fits now told counts p) (hnews : News now told told') : Fits now told' counts p := by
  refine h.imp_right fun ⟨timeout, hwaits⟩ => ⟨timeout, ?_⟩
  refine ⟨hwaits.request, hwaits.call, hwaits.since, hwaits.ring, fun f reply hover => ?_⟩
  obtain rfl | ⟨rfl, a, rfl⟩ := hnews.news
  · exact hwaits.fresh f reply hover
  · cases hover
    rfl

/-- What a call was told. -/
structure Answered (now : Nat) (told : List (Nat × Answer .modern)) (c : Told .legacy) : Prop where
  till : c.till ≤ now
  fair : ∀ timeout, c.request = .waitForClose timeout → Fair told timeout c
  signal : c.request = .closeAsync → c.answer = Answer.done ∧ c.till = c.since

theorem Answered.news {told told' : List (Nat × Answer .modern)} {c : Told .legacy}
    (h : Answered now told c) (hnews : News now told told') : Answered now told' c :=
  ⟨h.till, fun timeout hwait => (h.fair timeout hwait).news hnews h.till, h.signal⟩

/-- The bridge at any moment. -/
structure Steady (w : Lone counts σ φ) : Prop where
  stage : Stands w.env.now w.asked w.state
  pending : ∀ p ∈ w.pending, Fits w.env.now w.state.2.1.told counts p
  told : ∀ c ∈ w.told, Answered w.env.now w.state.2.1.told c

/-- What an act comes to. -/
structure Onward (w w' : Lone counts σ φ) : Prop where
  steady : Steady w'
  news : News w.env.now w.state.2.1.told w'.state.2.1.told

section Steps

variable {w w' : Lone counts σ φ}

theorem Steady.take (h : Steady w) {r : Request .legacy} {since : Nat}
    {others : List (Pending .legacy (Call (Bool × φ)))} (hothers : ∀ p ∈ others, p ∈ w.pending)
    {asked : List (Nat × Bool)} {turn : Step (CloseLog × σ) (Bool × φ)}
    (hstage : Stands w.env.now asked turn.state) (hlog : turn.state.2.1.told = w.state.2.1.told)
    (hfits : ∀ call, turn.progress = .waiting call →
      Fits w.env.now w.state.2.1.told counts ⟨r, since, call⟩)
    (hanswer : ∀ a late, turn.progress = .answered a →
      Answered w.env.now w.state.2.1.told ⟨r, since, a, w.env.now, late⟩) :
    Onward w (Clockwork.take { w with asked := asked } r since others turn) := by
  obtain ⟨⟨own, log, y⟩, progress, es⟩ := turn
  have hlog : log.told = w.state.2.1.told := hlog
  refine ⟨?_, ⟨.inl (by cases progress <;> exact hlog)⟩⟩
  rw [← hlog] at hfits hanswer
  have hpending := h.pending
  have htold := h.told
  rw [← hlog] at hpending htold
  cases progress with
  | waiting call =>
    refine ⟨hstage, fun p hp => ?_, htold⟩
    rcases List.mem_append.mp hp with hp | hp
    · exact hpending p (hothers p hp)
    · cases List.mem_singleton.mp hp
      exact hfits call rfl
  | answered a =>
    refine ⟨hstage, fun p hp => hpending p (hothers p hp), fun c hc => ?_⟩
    rcases List.mem_append.mp hc with hc | hc
    · exact htold c hc
    · cases List.mem_singleton.mp hc
      exact hanswer a _ rfl

/-- A look at a wait. -/
theorem Steady.take_wait (h : Steady w) {timeout since : Nat}
    {others : List (Pending .legacy (Call (Bool × φ)))} (hothers : ∀ p ∈ others, p ∈ w.pending)
    (hsince : since ≤ w.env.now) (hring : w.env.now ≤ Time.ring since timeout)
    (hfresh : ∀ f reply, w.state.2.1.told = [(f, .ok reply)] → max f since = w.env.now) :
    Onward w (Clockwork.take w (.waitForClose timeout) since others
      (tell counts timeout w.state.1 w.state.2
        ((ClosedWait.till (Time.ring since timeout)).look w.state.1.phase w.env.now))) := by
  have hclosed := h.stage.closed_iff
  unfold ClosedWait.look
  split
  · next hphase =>
    obtain ⟨f, reply, hover⟩ := hclosed.mp hphase
    have hnow := hfresh f reply hover
    refine h.take hothers h.stage rfl (fun call hcall => by cases hcall) fun a late ha => ?_
    cases ha
    refine ⟨Nat.le_refl _, fun T hT => ?_, fun hsignal => by cases hsignal⟩
    cases hT
    exact .heard hover rfl hnow.symm (Nat.le_trans (hnow ▸ Nat.le_max_left f since) hring)
  · next hphase =>
    have hnever (f : Nat) (reply : Reply) : w.state.2.1.told ≠ [(f, .ok reply)] := fun hover =>
      hphase (hclosed.mpr ⟨f, reply, hover⟩)
    split
    · next hexpired =>
      have hnow : w.env.now = Time.ring since timeout :=
        Nat.le_antisymm hring (of_decide_eq_true hexpired)
      refine h.take hothers h.stage rfl (fun call hcall => by cases hcall) fun a late ha => ?_
      cases ha
      refine ⟨Nat.le_refl _, fun T hT => ?_, fun hsignal => by cases hsignal⟩
      cases hT
      exact .missed rfl hnow fun f reply hover => absurd hover (hnever f reply)
    · refine h.take hothers h.stage rfl (fun call hcall => ?_) (fun a late ha => by cases ha)
      cases hcall
      exact .inr ⟨timeout, rfl, rfl, hsince, hring,
        fun f reply hover => absurd hover (hnever f reply)⟩

/-- A step of a data call. -/
theorem Steady.take_data (h : Steady w) {r : Request .legacy} (hr : Tower.isData r) (since : Nat)
    {others : List (Pending .legacy (Call (Bool × φ)))} (hothers : ∀ p ∈ others, p ∈ w.pending)
    {looks : Nat} {turn : Step (CloseLog × σ) (Bool × φ)}
    (haside : (Tower.toLegacy counts .ground : Tower .modern .legacy).Aside looks w.state turn) :
    Onward w (Clockwork.take w r since others turn) := by
  obtain ⟨hown, hasked, htold⟩ := haside.like
  refine h.take hothers ?_ htold (fun call hcall => .inl ⟨hr, haside.data call hcall⟩)
    fun a late ha => ?_
  · have hstage := h.stage
    unfold Stands at hstage ⊢
    rwa [hown, hasked, htold]
  · refine ⟨Nat.le_refl _, fun timeout hwait => ?_, fun hsignal => ?_⟩
    · cases hwait
      cases hr.2
    · cases hsignal
      cases hr.1

variable (below : Level .modern σ φ) (base : List (Job σ))

/-- Where nothing is ready, the background close has been taken on. -/
theorem closer_of_quiet (hquiet : w.quiet ((Tower.toLegacy counts .ground).logging below)
      ((Tower.toLegacy counts .ground).works below base) = true) :
    (closing below.logged).ready w.env w.state = false ∧ w.state.1.closer ≠ .requested := by
  have hidle : (closing below.logged).ready w.env w.state = false :=
    (Clockwork.ready_of_quiet hquiet).2 _ (List.mem_append_right _ List.mem_cons_self)
  refine ⟨hidle, fun hrequested => ?_⟩
  simp [closing, hrequested] at hidle

/-- And whoever waits has time left and something to wait for. -/
theorem Steady.open_of_quiet (h : Steady w)
    (hquiet : w.quiet ((Tower.toLegacy counts .ground).logging below)
      ((Tower.toLegacy counts .ground).works below base) = true)
    {p : Pending .legacy (Call (Bool × φ))} (hp : p ∈ w.pending) {timeout : Nat}
    (hrequest : p.request = .waitForClose timeout) :
    w.env.now < Time.ring p.since timeout ∧ w.state.1.phase ≠ .closed := by
  have hready := (Clockwork.ready_of_quiet hquiet).1 p hp
  rw [((h.pending p hp).waits hrequest).call] at hready
  obtain ⟨hphase, hring⟩ :=
    Bool.or_eq_false_iff.mp (show ClosedWait.ready _ _ _ = false from hready)
  exact ⟨Nat.not_le.mp (of_decide_eq_false hring), by simpa using hphase⟩

theorem Steady.call (h : Steady w) (r : Request .legacy) (inside : Bool) :
    Onward w ((w.ask r inside).take r w.env.now w.pending
      (((Tower.toLegacy counts .ground).logging below).start r { w.env with runtime := inside }
        w.state)) := by
  cases r with
  | closeAsync =>
    obtain ⟨own, hstage, es, hturn⟩ := closeAsync_stands { w.env with runtime := inside } h.stage
    change Onward w (Clockwork.take { w with asked := w.asked ++ [(w.env.now, inside)] } .closeAsync
      w.env.now w.pending (closeAsync { w.env with runtime := inside } w.state.1 w.state.2))
    rw [hturn]
    refine h.take (fun _ => id) hstage rfl (fun call hcall => by cases hcall) fun a late ha => ?_
    cases ha
    exact ⟨Nat.le_refl _, fun timeout hwait => (by cases hwait), fun _ => ⟨rfl, rfl⟩⟩
  | waitForClose timeout =>
    refine h.take_wait (fun _ => id) (Nat.le_refl _) (Time.le_ring _ _) fun f reply hover => ?_
    exact Nat.max_eq_right (h.stage.told_le hover)
  | get | set | add | delete | setWithTtl | addWithTtl | setMulti | setMultiWithTtl =>
    exact h.take_data ⟨rfl, rfl⟩ _ (fun _ => id)
      ((Tower.spares below (.toLegacy counts .ground)).start _ _ _ ⟨rfl, rfl⟩)

/-- The clock moves on, past no alarm. -/
theorem Steady.pass (h : Steady w)
    (hquiet : w.quiet ((Tower.toLegacy counts .ground).logging below)
      ((Tower.toLegacy counts .ground).works below base) = true) {t : Nat} (hlater : w.env.now < t)
    (halarms : ∀ a ∈ w.alarms ((Tower.toLegacy counts .ground).logging below)
      ((Tower.toLegacy counts .ground).works below base), w.env.now < a → t ≤ a) :
    Steady { w with env := { w.env with now := t } } := by
  have hle := Nat.le_of_lt hlater
  refine ⟨h.stage.later hle (closer_of_quiet below base hquiet).2, fun p hp => ?_, fun c hc => ?_⟩
  · obtain hdata | ⟨timeout, hwaits⟩ := h.pending p hp
    · exact .inl hdata
    · obtain ⟨hring, hphase⟩ := h.open_of_quiet below base hquiet hp hwaits.request
      refine .inr ⟨timeout, hwaits.request, hwaits.call, Nat.le_trans hwaits.since hle,
        halarms _ (Clockwork.alarm_of_call hp ?_) hring, fun f reply hover => ?_⟩
      · rw [hwaits.call]
        rfl
      · exact absurd (h.stage.closed_iff.mpr ⟨f, reply, hover⟩) hphase
  · obtain ⟨htill, hfair, hsignal⟩ := h.told c hc
    exact ⟨Nat.le_trans htill hle, hfair, hsignal⟩

theorem Steady.stepped (h : Steady w) {act : Clockwork.Act .legacy}
    (hstep : w.Stepped ((Tower.toLegacy counts .ground).logging below)
      ((Tower.toLegacy counts .ground).works below base) act w') : Onward w w' := by
  cases hstep with
  | call r inside => exact h.call below r inside
  | @look i p hi hready =>
    have hothers (q) (hq : q ∈ w.pending.eraseIdx i) : q ∈ w.pending := List.mem_of_mem_eraseIdx hq
    obtain ⟨hdata, hcall⟩ | ⟨timeout, hwaits⟩ := h.pending p (List.mem_of_getElem? hi)
    · exact h.take_data hdata _ hothers
        ((Tower.spares below (.toLegacy counts .ground)).resume _ _ _ hcall)
    · rw [hwaits.request, hwaits.call]
      refine h.take_wait hothers hwaits.since hwaits.ring fun f reply hover => ?_
      rw [hwaits.fresh f reply hover]
      exact Nat.max_eq_left hwaits.since
  | abandon i =>
    exact ⟨⟨h.stage, fun p hp => h.pending p (List.mem_of_mem_eraseIdx hp), h.told⟩, ⟨.inl rfl⟩⟩
  | work i hj hready =>
    rcases List.mem_append.mp hj with hj | hj
    · obtain ⟨inner, hinner, rfl⟩ := List.mem_map.mp hj
      obtain ⟨job, -, rfl⟩ := List.mem_map.mp hinner
      exact ⟨⟨h.stage, h.pending, h.told⟩, ⟨.inl rfl⟩⟩
    · cases List.mem_singleton.mp hj
      obtain ⟨hstage, hnews⟩ := closing_stands below h.stage
      exact ⟨⟨hstage, fun p hp => (h.pending p hp).news hnews,
        fun c hc => (h.told c hc).news hnews⟩, hnews⟩
  | derive | cancel | age => exact ⟨⟨h.stage, h.pending, h.told⟩, ⟨.inl rfl⟩⟩
  | pass hlater ht hquiet halarms =>
    exact ⟨h.pass below base hquiet hlater halarms, ⟨.inl rfl⟩⟩

variable {acts : List (Clockwork.Act .legacy)}

theorem Steady.run? (h : Steady w)
    (hrun : Clockwork.run? ((Tower.toLegacy counts .ground).logging below)
      ((Tower.toLegacy counts .ground).works below base) w acts = some w') :
    Steady w' ∧ ∀ q, w.state.2.1.told = [q] → w'.state.2.1.told = [q] := by
  refine Clockwork.run?_invariant
    (P := fun v : Lone counts σ φ =>
      Steady v ∧ ∀ q, w.state.2.1.told = [q] → v.state.2.1.told = [q])
    hrun (fun _ hstep _ h => ?_) ⟨h, fun _ => id⟩
  obtain ⟨h, hkept⟩ := h
  obtain ⟨hsteady, hnews⟩ := h.stepped below base hstep
  refine ⟨hsteady, fun q hq => ?_⟩
  obtain hsame | ⟨hnone, -⟩ := hnews.news
  · exact hsame.trans (hkept q hq)
  · exact absurd (hnone.symm.trans (hkept q hq)) nofun

/-- Where nothing is ready, the cache below has been asked if it ever will be, and has answered or
is not ready to; and whoever waits has time left and something to wait for. -/
theorem Steady.quiet (h : Steady w)
    (hquiet : w.quiet ((Tower.toLegacy counts .ground).logging below)
      ((Tower.toLegacy counts .ground).works below base) = true) :
    (∀ s, w.asked.head? = some (s, true) → w.state.2.1.asked = [(s, .background)] ∧
      (w.state.2.1.told = [] → ∃ call, w.state.1.closer = .running (true, call) ∧
        below.ready call w.env w.state.2.2 = false)) ∧
      ∀ p ∈ w.pending, ∀ timeout, p.request = .waitForClose timeout →
        w.env.now < Time.ring p.since timeout ∧ w.state.1.phase ≠ .closed := by
  refine ⟨fun s hs => ?_,
    fun p hp timeout hrequest => h.open_of_quiet below base hquiet hp hrequest⟩
  obtain ⟨hidle, hasked⟩ := closer_of_quiet below base hquiet
  obtain ⟨hreached, hgoes⟩ := h.stage.reached_of_idle hasked hs
  refine ⟨hreached, fun hnone => ?_⟩
  obtain ⟨call, hcall⟩ := hgoes hnone
  simp only [closing, hcall] at hidle
  exact ⟨call, hcall, hidle⟩

/-- A wait that is over now, when it finds the bridge as it is, is told so. -/
theorem tell_of_due (w : Lone counts σ φ) {since timeout : Nat} (asked : List (Nat × Bool))
    (others : List (Pending .legacy (Call (Bool × φ))))
    (hdue : (ClosedWait.till (Time.ring since timeout)).ready w.state.1.phase w.env.now = true) :
    AnsweredAtOnce w (.waitForClose timeout) since w.state.1.phase
      (Clockwork.take { w with asked := asked } (.waitForClose timeout) since others
        (tell counts timeout w.state.1 w.state.2
          ((ClosedWait.till (Time.ring since timeout)).look w.state.1.phase w.env.now))) := by
  rw [ClosedWait.look_of_ready hdue]
  by_cases hclosed : w.state.1.phase = .closed
  · rw [decide_eq_true hclosed]
    exact ⟨_, rfl, rfl, rfl, rfl, (if_pos hclosed).symm⟩
  · rw [decide_eq_false hclosed]
    exact ⟨_, rfl, rfl, rfl, rfl, (if_neg hclosed).symm⟩

/-- A wait that finds the bridge closed, or has no time, is answered as soon as it is called. -/
theorem found_at_once (w : Lone counts σ φ) (timeout : Nat) (inside : Bool)
    (hdue : Time.ring w.env.now timeout ≤ w.env.now ∨ w.state.1.phase = .closed) :
    ∃ u, w.step? ((Tower.toLegacy counts .ground).logging below)
        ((Tower.toLegacy counts .ground).works below base)
        (.call (.waitForClose timeout) inside) = some u ∧
      AnsweredAtOnce w (.waitForClose timeout) w.env.now w.state.1.phase u := by
  refine ⟨_, rfl, tell_of_due w w.asked w.pending ?_⟩
  exact Bool.or_eq_true_iff.mpr (hdue.symm.imp beq_iff_eq.mpr decide_eq_true)

/-- A wait whose time is up, or whose close has come, is answered when it is looked at. -/
theorem Steady.answers (h : Steady w) {i timeout : Nat} {p : Pending .legacy (Call (Bool × φ))}
    (hi : w.pending[i]? = some p) (hrequest : p.request = .waitForClose timeout)
    (hdue : Time.ring p.since timeout ≤ w.env.now ∨ w.state.1.phase = .closed) :
    ∃ u, w.step? ((Tower.toLegacy counts .ground).logging below)
        ((Tower.toLegacy counts .ground).works below base) (.look i) = some u ∧
      AnsweredAtOnce w p.request p.since w.state.1.phase u := by
  have hwaits := (h.pending p (List.mem_of_getElem? hi)).waits hrequest
  have hcall :
      ((Tower.toLegacy counts .ground).logging below).ready p.call w.env w.state = true := by
    rw [hwaits.call]
    refine Bool.or_eq_true_iff.mpr (hdue.symm.imp (fun hphase => ?_) decide_eq_true)
    rw [hphase]
    rfl
  refine ⟨_, Clockwork.step?_look hi hcall, ?_⟩
  rw [hwaits.call] at hcall ⊢
  rw [hrequest]
  exact tell_of_due w w.asked (w.pending.eraseIdx i) hcall

end Steps

/-! ## The whole shutdown -/

/-- The shutdown of the bridge with its callers, as it looks at one moment, `w`, and at an earlier
one, `v`. -/
structure Shutdown (below : Level .modern σ φ) (base : List (Job σ)) (v w : Lone counts σ φ) :
    Prop where
  active : w.state.1.phase = .active ↔ w.asked = []
  onward : v.state.1.phase ≤ w.state.1.phase
  /-- The cache below is asked at most once, at the instant of the first signal and without an end,
  and only if that came from inside a runtime. -/
  reached : w.state.2.1.asked = [] ∧ w.state.2.1.told = [] ∨
    ∃ s, w.asked.head? = some (s, true) ∧ w.state.2.1.asked = [(s, .background)] ∧
      (w.state.2.1.told = [] ∨ ∃ f a, w.state.2.1.told = [(f, a)] ∧ s ≤ f ∧ f ≤ w.env.now)
  /-- If the first signal came from outside, it never is, whatever signals follow. -/
  stranded : ∀ s, v.asked.head? = some (s, false) →
    w.state.2.1.asked = [] ∧ w.state.1.phase = .closing
  closed : w.state.1.phase = .closed ↔ ∃ f reply, w.state.2.1.told = [(f, .ok reply)]
  failed : ∀ f e, w.state.2.1.told = [(f, .error e)] → w.state.1.phase = .closing
  /-- The cache below answers once. -/
  kept : ∀ q, v.state.2.1.told = [q] → w.state.2.1.told = [q]
  /-- A signal is taken at once. -/
  signal : ∀ c ∈ w.told, c.request = .closeAsync → c.answer = Answer.done ∧ c.till = c.since
  /-- Every wait that was answered was told of the close at once or at the end of its time. -/
  fair : ∀ c ∈ w.told, ∀ timeout, c.request = .waitForClose timeout →
    Fair w.state.2.1.told timeout c
  /-- No wait goes on past the end of its time, or past the instant of the close. -/
  waiting : ∀ p ∈ w.pending, ∀ timeout, p.request = .waitForClose timeout →
    w.env.now ≤ Time.ring p.since timeout ∧
      ∀ f reply, w.state.2.1.told = [(f, .ok reply)] → f = w.env.now
  /-- When either has come, a look at the wait gives the answer. -/
  answers : ∀ i p timeout, w.pending[i]? = some p → p.request = .waitForClose timeout →
    Time.ring p.since timeout ≤ w.env.now ∨ w.state.1.phase = .closed →
    ∃ u, w.step? ((Tower.toLegacy counts .ground).logging below)
        ((Tower.toLegacy counts .ground).works below base) (.look i) = some u ∧
      AnsweredAtOnce w p.request p.since w.state.1.phase u
  /-- A wait that finds the bridge closed when it is called succeeds at once, even if it has no
  time; and one that has no time and does not find it closed runs out at once. -/
  found : ∀ timeout inside,
    Time.ring w.env.now timeout ≤ w.env.now ∨ w.state.1.phase = .closed →
    ∃ u, w.step? ((Tower.toLegacy counts .ground).logging below)
        ((Tower.toLegacy counts .ground).works below base)
        (.call (.waitForClose timeout) inside) = some u ∧
      AnsweredAtOnce w (.waitForClose timeout) w.env.now w.state.1.phase u
  /-- What was told stays told. -/
  told : v.told <+: w.told
  /-- Before the clock moves on, the cache below is asked, and heard if it has an answer; and
  whoever waits has time left and something to wait for. -/
  quiet : w.quiet ((Tower.toLegacy counts .ground).logging below)
      ((Tower.toLegacy counts .ground).works below base) = true →
    (∀ s, w.asked.head? = some (s, true) → w.state.2.1.asked = [(s, .background)] ∧
      (w.state.2.1.told = [] → ∃ call, w.state.1.closer = .running (true, call) ∧
        below.ready call w.env w.state.2.2 = false)) ∧
      ∀ p ∈ w.pending, ∀ timeout, p.request = .waitForClose timeout →
        w.env.now < Time.ring p.since timeout ∧ w.state.1.phase ≠ .closed

theorem Steady.phase_le {v w : Lone counts σ φ} (hv : Steady v) (hw : Steady w)
    (hasked : v.asked <+: w.asked)
    (hkept : ∀ q, v.state.2.1.told = [q] → w.state.2.1.told = [q]) :
    v.state.1.phase ≤ w.state.1.phase := by
  cases hphase : v.state.1.phase with
  | active => exact Nat.zero_le _
  | closing =>
    have hsome : w.state.1.phase ≠ .active := fun hactive => by
      rw [hw.stage.active_iff.mp hactive] at hasked
      have hnone := hv.stage.active_iff.mpr (List.prefix_nil.mp hasked)
      rw [hphase] at hnone
      cases hnone
    cases hlater : w.state.1.phase with
    | active => exact absurd hlater hsome
    | closing | closed => decide
  | closed =>
    obtain ⟨f, reply, hover⟩ := hv.stage.closed_iff.mp hphase
    rw [hw.stage.closed_iff.mpr ⟨f, reply, hkept _ hover⟩]
    exact Nat.le_refl _

theorem Steady.shutdown (below : Level .modern σ φ) (base : List (Job σ)) {v w : Lone counts σ φ}
    (hv : Steady v) (hw : Steady w) (hasked : v.asked <+: w.asked)
    (hkept : ∀ q, v.state.2.1.told = [q] → w.state.2.1.told = [q]) (htold : v.told <+: w.told) :
    Shutdown below base v w where
  active := hw.stage.active_iff
  onward := hv.phase_le hw hasked hkept
  reached := hw.stage.reached
  stranded s hs := by
    obtain ⟨more, hmore⟩ := hasked
    refine hw.stage.stranded_of_head (s := s) ?_
    rw [← hmore, List.head?_append, hs]
    rfl
  closed := hw.stage.closed_iff
  failed _ _ := hw.stage.closing_of_failed
  kept := hkept
  signal c hc := (hw.told c hc).signal
  fair c hc := (hw.told c hc).fair
  waiting p hp _ hrequest := by
    have hwaits := (hw.pending p hp).waits hrequest
    exact ⟨hwaits.ring, hwaits.fresh⟩
  answers _ _ _ := hw.answers below base
  found := found_at_once below base w
  told := htold
  quiet := hw.quiet below base

theorem steady_opened (counts : Bool) (env : Env) (y : σ) :
    Steady ((Tower.toLegacy counts .ground : Tower .modern .legacy).opened env y : Lone counts σ φ)
      where
  stage := .active
  pending := by simp [Tower.opened]
  told := by simp [Tower.opened]

/-- Whatever is asked of the bridge, in whatever order, and however long the close below takes, if
it ends at all: the shutdown is as it should be. Every call is under way or answered unless it is
given up. -/
theorem shutdown_signal (below : Level .modern σ φ) (base : List (Job σ)) (counts : Bool)
    (env : Env) (y : σ) {acts more : List (Clockwork.Act .legacy)} {v w : Lone counts σ φ}
    (hacts : Clockwork.run? ((Tower.toLegacy counts .ground).logging below)
      ((Tower.toLegacy counts .ground).works below base)
      ((Tower.toLegacy counts .ground).opened env y) acts = some v)
    (hmore : Clockwork.run? ((Tower.toLegacy counts .ground).logging below)
      ((Tower.toLegacy counts .ground).works below base) v more = some w) :
    Shutdown below base v w ∧
      (∀ r inside u, v.step? ((Tower.toLegacy counts .ground).logging below)
        ((Tower.toLegacy counts .ground).works below base) (.call r inside) = some u →
        u.Served r v.env.now) ∧
      ∀ r since, v.Served r since → (∀ i, .abandon i ∉ more) → w.Served r since := by
  obtain ⟨hv, -⟩ := (steady_opened counts env y).run? below base hacts
  obtain ⟨hw, hkept⟩ := hv.run? below base hmore
  refine ⟨hv.shutdown below base hw (Clockwork.asked_of_run? hmore) hkept
    (Clockwork.told_of_run? hmore), fun r inside u hu => ?_,
    fun r since hserved => hserved.run? hmore⟩
  cases hu
  exact .take_new _ _ _ _

/-- Over a cache whose close takes 7 ms, signalled twice: a wait for 7 ms is too short, one for 8 ms
is not, and one for no time at all succeeds once the cache has closed. -/
theorem shutdown_signal_unhurried :
    let ms := Time.millisecond
    let t : Tower .modern .legacy := .toLegacy true .ground
    let below := Tower.unhurried (7 * ms)
    let acts : List (Clockwork.Act .legacy) :=
      [.call .closeAsync true, .call (.waitForClose 0) true, .call (.waitForClose (7 * ms)) true,
        .call (.waitForClose (8 * ms)) true, .work 0, .call .closeAsync false]
    let more : List (Clockwork.Act .legacy) :=
      [.pass (7 * ms), .look 0, .work 0, .look 0, .call (.waitForClose 0) true]
    ∃ v w : Lone true _ _,
      Clockwork.run? (t.logging below) (t.works below [])
        (t.opened ⟨0, 0, {}, true⟩ ([], {})) acts = some v ∧
      Clockwork.run? (t.logging below) (t.works below []) v more = some w ∧
      Shutdown below [] v w ∧ v.state.1.phase = .closing ∧ w.state.1.phase = .closed ∧
      w.state.2.1.asked = [(0, .background)] ∧ w.state.2.1.told = [(7 * ms, Answer.done)] ∧
      (w.told.map fun c => (c.request, c.answer, c.till)) =
        [(.closeAsync, Answer.done, 0), (.waitForClose 0, .error .timeout, 0),
          (.closeAsync, Answer.done, 0), (.waitForClose (7 * ms), .error .timeout, 7 * ms),
          (.waitForClose (8 * ms), Answer.done, 7 * ms),
          (.waitForClose 0, Answer.done, 7 * ms)] := by
  have hclosed := @shutdown_signal _ _ (Tower.unhurried (7 * Time.millisecond)) [] true
    ⟨0, 0, {}, true⟩ ([], {})
    [.call .closeAsync true, .call (.waitForClose 0) true,
      .call (.waitForClose (7 * Time.millisecond)) true,
      .call (.waitForClose (8 * Time.millisecond)) true, .work 0, .call .closeAsync false]
    [.pass (7 * Time.millisecond), .look 0, .work 0, .look 0, .call (.waitForClose 0) true]
    _ _ rfl rfl
  exact ⟨_, _, rfl, rfl, hclosed.1, rfl, rfl, rfl, rfl, rfl⟩

/-- Over the same cache, first signalled from outside a runtime and then from inside: nothing ever
closes. -/
example :
    let ms := Time.millisecond
    let t : Tower .modern .legacy := .toLegacy true .ground
    let below := Tower.unhurried (7 * ms)
    let acts : List (Clockwork.Act .legacy) :=
      [.call .closeAsync false, .call .closeAsync true, .call (.waitForClose (8 * ms)) true,
        .pass (8 * ms), .look 0]
    (Clockwork.run? (t.logging below) (t.works below [])
        (t.opened ⟨0, 0, {}, true⟩ ([], {}) : Lone true _ _) acts).map
      (fun w => (w.state.1.phase, w.state.2.1.asked,
          w.told.map fun c => (c.request, c.answer, c.till))) =
      some (.closing, [], [(.closeAsync, Answer.done, 0), (.closeAsync, Answer.done, 0),
        (.waitForClose (8 * ms), .error .timeout, 8 * ms)]) := by
  rfl

end CacheBridge.ToLegacy
