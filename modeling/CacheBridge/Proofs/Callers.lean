import CacheBridge.Proofs.Waiters

/-!
A tower with its callers on a clock, from before anybody asks for a close. `Orderly` is what every
act keeps: how far the close has come, what each waiting call is about, and what each answer to one
was worth. The clock moves only when nothing is ready, and where nothing is ready a close that is
over at the bottom is over everywhere; so nobody who waits is kept waiting past that instant.
-/

namespace CacheBridge.Tower

variable {g : Generation} {σ φ : Type}

/-- A tower with its callers on a clock. -/
abbrev Callers (σ φ : Type) (t : Tower .modern g) : Type :=
  Clockwork g (t.Logged σ φ) (t.LoggedCall φ)

/-- A call that can still be answered in time. -/
structure Kept (now s : Nat) (t : Tower .modern g) (p : Pending g (t.LoggedCall φ)) : Prop where
  since : p.since ≤ now
  bell : ∀ a, bell p.since p.request = some a → now ≤ max p.since a
  stays : tellsClosed p.request = true → t.Stays now s p.since p.request p.call
  data : tellsClosed p.request = false → t.Data p.call

/-- A success that came when the bottom had closed. -/
structure Heard (s : Nat) (t : Tower .modern g) (x : t.Logged σ φ) (c : Told g) : Prop where
  answer : c.answer = Answer.done
  shut : t.Shut s x
  till : ∀ f reply, (t.log x).told = [(f, .ok reply)] → c.till = max f c.since

/-- A timeout that came when the time was up, and before the bottom had closed. -/
structure Missed (t : Tower .modern g) (x : t.Logged σ φ) (c : Told g) : Prop where
  answer : c.answer = .error .timeout
  late : c.late = true
  bell : ∀ a, bell c.since c.request = some a → c.till ≤ max c.since a
  till : ∀ f reply, (t.log x).told = [(f, .ok reply)] → c.till ≤ f

/-- A fair answer to a call that waited for the close. -/
structure Fair (now s : Nat) (t : Tower .modern g) (x : t.Logged σ φ) (c : Told g) : Prop where
  since : c.since ≤ c.till
  till : c.till ≤ now
  answer : t.Heard s x c ∨ t.Missed x c

/-- What a step takes nothing back of. -/
structure Goes (now s : Nat) (t : Tower .modern g) (x x' : t.Logged σ φ) : Prop where
  hears : (t.log x).Hears now (t.log x')
  shut : t.Shut s x → t.Shut s x'
  arrived : t.Arrived s x → t.Arrived s x'

/-- Nobody has asked for a close, or the first did at `s`, where that was possible. -/
def Stage (now s : Nat) (asked : List (Nat × Bool)) (t : Tower .modern g) (x : t.Logged σ φ) :
    Prop :=
  asked = [] ∧ t.Calm x ∨ asked.head? = some (s, true) ∧ s ≤ now ∧ t.Course now s x

/-! ## Steps -/

section Steps

variable {t : Tower .modern g} {x x' : t.Logged σ φ} {now s since : Nat}

theorem Arrived.log (h : t.Arrived s x) :
    (t.log x).asked = [(s, .background)] ∧ ∃ f reply, (t.log x).told = [(f, .ok reply)] := by
  cases t with
  | ground | toLegacy => exact Shut.log h
  | toModern poll t => exact Shut.log (t := t) h

theorem Calm.not_arrived (h : t.Calm x) : ¬t.Arrived s x := fun ha =>
  absurd (h.log.1.symm.trans ha.log.1) nofun

theorem Goes.refl (now s : Nat) (t : Tower .modern g) (x : t.Logged σ φ) : t.Goes now s x x :=
  ⟨.refl _, id, id⟩

theorem Goes.of_calm (h : t.Calm x) (hears : (t.log x).Hears now (t.log x')) : t.Goes now s x x' :=
  ⟨hears, fun hshut => absurd hshut.arrived h.not_arrived, fun ha => absurd ha h.not_arrived⟩

theorem Like.goes (h : t.Like x x') : t.Goes now s x x' :=
  ⟨.of_eq h.log.2, h.shut, h.arrived⟩

theorem Like.stage (h : t.Like x x') {asked : List (Nat × Bool)} (hx : t.Stage now s asked x) :
    t.Stage now s asked x' :=
  hx.imp (fun ⟨hasked, hcalm⟩ => ⟨hasked, h.calm hcalm⟩)
    fun ⟨hasked, hs, hcourse⟩ => ⟨hasked, hs, h.course hcourse⟩

variable {env : Env} {r : Request g}
  {turn : Turn (t.Logged σ φ) (t.LoggedCall φ) (Answer g)}

theorem Learned.goes (h : t.Learned env s since r x turn) : t.Goes env.now s x turn.state := by
  cases h with
  | done h hlog _ es =>
    exact ⟨.of_eq (congrArg CloseLog.told hlog), fun _ => h, fun _ => h.arrived⟩
  | late | stays => exact .refl _ _ _ _

theorem Learned.stage (h : t.Learned env s since r x turn) {asked : List (Nat × Bool)}
    (hx : t.Stage env.now s asked x) : t.Stage env.now s asked turn.state := by
  cases h with
  | done h hlog _ es =>
    refine hx.imp (fun ⟨_, hcalm⟩ => ?_) fun ⟨hasked, hs, _⟩ => ⟨hasked, hs, .inr h⟩
    have hasked := hcalm.log.1.symm.trans ((congrArg CloseLog.asked hlog).symm.trans h.log.1)
    exact absurd hasked nofun
  | late | stays => exact hx

/-- An answer stays fair. -/
theorem Fair.goes {c : Told g} (h : t.Fair now s x c) (hgoes : t.Goes now s x x') :
    t.Fair now s x' c := by
  refine ⟨h.since, h.till, h.answer.imp (fun hheard => ?_) fun hmissed => ?_⟩
  · refine ⟨hheard.answer, hgoes.shut hheard.shut, fun f reply htold => ?_⟩
    obtain hold | ⟨hold, -⟩ := hgoes.hears.before htold
    · exact hheard.till f reply hold
    · obtain ⟨-, f', reply', hok⟩ := hheard.shut.log
      exact absurd (hold.symm.trans hok) nofun
  · refine ⟨hmissed.answer, hmissed.late, hmissed.bell, fun f reply htold => ?_⟩
    obtain hold | ⟨-, rfl⟩ := hgoes.hears.before htold
    · exact hmissed.till f reply hold
    · exact h.till

/-- What a step of a call leaves: a call that can still be answered in time, or a fair answer. -/
structure Serves (env : Env) (s since : Nat) (r : Request g) (t : Tower .modern g)
    (turn : Turn (t.Logged σ φ) (t.LoggedCall φ) (Answer g)) : Prop where
  kept : ∀ call, turn.progress = .waiting call → t.Kept env.now s ⟨r, since, call⟩
  fair : tellsClosed r = true → ∀ a, turn.progress = .answered a →
    t.Fair env.now s turn.state ⟨r, since, a, env.now, lapsed since env r⟩
  swift : tellsClosed r = true → ∀ call, turn.progress = .waiting call → ∀ f reply,
    (t.log turn.state).told = [(f, .ok reply)] → env.now = f

theorem bell_of_data (h : tellsClosed r = false) (since : Nat) : bell since r = none := by
  cases g with
  | modern =>
    cases r with
    | close => cases h
    | get | set | add | delete | setMulti => rfl
  | legacy =>
    cases r with
    | waitForClose => cases h
    | get | set | add | delete | closeAsync | setWithTtl | addWithTtl | setMulti
    | setMultiWithTtl => rfl

theorem Aside.serves {looks : Nat} (h : t.Aside looks x turn) (hdata : tellsClosed r = false)
    (hsince : since ≤ env.now) : t.Serves env s since r turn where
  kept call hcall :=
    { since := hsince
      bell := fun _ ha => absurd ((bell_of_data hdata since).symm.trans ha) nofun
      stays := fun htells => absurd (hdata.symm.trans htells) nofun
      data := fun _ => h.data call hcall }
  fair htells := absurd (hdata.symm.trans htells) nofun
  swift htells := absurd (hdata.symm.trans htells) nofun

/-- A call is answered in time if it is looked at when the bottom has just closed, or is made later
and answered at once. -/
theorem Learned.serves (h : t.Learned env s since r x turn) (htells : tellsClosed r = true)
    (hsince : since ≤ env.now) (hbell : ∀ a, bell since r = some a → env.now ≤ max since a)
    (hswift : ∀ f reply, (t.log x).told = [(f, .ok reply)] → f ≤ env.now ∧
      (env.now = f ∨ since = env.now ∧ turn.progress = .answered Answer.done)) :
    t.Serves env s since r turn := by
  cases h with
  | @done x' hshut hlog hrest es =>
    refine ⟨nofun, fun _ a ha => ?_, nofun⟩
    cases ha
    refine ⟨hsince, Nat.le_refl _, .inl ⟨rfl, hshut, fun f reply htold => ?_⟩⟩
    have htold : (t.log x').told = [(f, .ok reply)] := htold
    rw [hlog] at htold
    obtain ⟨hf, htimely⟩ := hswift f reply htold
    change env.now = max f since
    obtain hnow | ⟨hnow, -⟩ := htimely <;> omega
  | late hlate es =>
    refine ⟨nofun, fun _ a ha => ?_, nofun⟩
    cases ha
    refine ⟨hsince, Nat.le_refl _, .inr ⟨rfl, hlate, hbell, fun f reply htold => ?_⟩⟩
    obtain hnow | ⟨-, hdone⟩ := (hswift f reply htold).2
    · exact Nat.le_of_eq hnow
    · cases hdone
  | stays hopen hcall hover es =>
    refine ⟨fun c hc => ?_, nofun, fun _ c _ f reply htold => ?_⟩
    · cases hc
      exact ⟨hsince, hbell, fun _ => hcall, fun hdata => absurd (hdata.symm.trans htells) nofun⟩
    · obtain hnow | ⟨-, hdone⟩ := (hswift f reply htold).2
      · exact hnow
      · cases hdone

end Steps

/-! ## Calls of a tower -/

section Calls

variable (below : Level .modern σ φ) {t : Tower .modern g} {x : t.Logged σ φ} {env : Env} {s : Nat}
  {asked : List (Nat × Bool)}

/-- What waiting calls have to go by. -/
theorem Stage.course_or_calm {now : Nat} {r : Request g} (h : t.Stage now s asked x)
    (hasks : asked = [] → asksClose r = false) :
    s ≤ now ∧ t.Course now s x ∨ t.Calm x ∧ asksClose r = false :=
  h.symm.imp And.right fun ⟨hasked, hcalm⟩ => ⟨hcalm, hasks hasked⟩

/-- A call is made that is not the first to ask for the close. -/
theorem start_serves (env : Env) (hdepth : 0 < t.depth) (hp : t.Prompt)
    (hstage : t.Stage env.now s asked x) {r : Request g} (hasks : asked = [] → asksClose r = false)
    (hswift : ∀ f reply, (t.log x).told = [(f, .ok reply)] → f ≤ env.now ∧
      (env.now = f ∨ t.Arrived s x)) :
    let turn := (t.logging below).start r env x
    t.Stage env.now s asked turn.state ∧ t.Goes env.now s x turn.state ∧
      t.Serves env s env.now r turn := by
  have hbell : ∀ a, bell env.now r = some a → env.now ≤ max env.now a := fun _ _ =>
    Nat.le_max_left _ _
  cases htells : tellsClosed r with
  | true =>
    have hx := hstage.course_or_calm hasks
    have hlearned := start_waiter below hdepth hp hx htells
    refine ⟨hlearned.stage hstage, hlearned.goes, hlearned.serves htells (Nat.le_refl _) hbell ?_⟩
    intro f reply htold
    obtain ⟨hf, harrived⟩ := hswift f reply htold
    refine ⟨hf, harrived.imp_right fun ha => ⟨rfl, ?_⟩⟩
    obtain ⟨-, hx⟩ | ⟨hcalm, -⟩ := hx
    · exact start_arrived below hdepth hx ha htells
    · exact absurd ha hcalm.not_arrived
  | false =>
    by_cases hask : asksClose r = true
    · obtain ⟨hasked, -⟩ | ⟨-, hs, hx⟩ := id hstage
      · exact absurd ((hasks hasked).symm.trans hask) nofun
      · rw [start_signal below hx hask htells hdepth env]
        refine ⟨hstage, .refl _ _ _ _, nofun, fun h => absurd (htells.symm.trans h) nofun, nofun⟩
    · have haside := (spares below t).start r env x ⟨eq_false_of_ne_true hask, htells⟩
      exact ⟨haside.like.stage hstage, haside.like.goes, haside.serves htells (Nat.le_refl _)⟩

theorem Serves.outside {since : Nat} {r : Request g} {inside : Bool}
    {turn : Turn (t.Logged σ φ) (t.LoggedCall φ) (Answer g)}
    (h : t.Serves { env with runtime := inside } s since r turn) : t.Serves env s since r turn := by
  refine ⟨h.kept, fun htells a ha => ?_, h.swift⟩
  have hlapsed : lapsed since { env with runtime := inside } r = lapsed since env r := by
    cases g with
    | modern => cases r <;> rfl
    | legacy => cases r <;> rfl
  exact hlapsed ▸ h.fair htells a ha

/-- The first call to ask for the close. -/
theorem start_first_serves (env : Env) (hdepth : 0 < t.depth) (hp : t.Prompt)
    (hr : env.runtime = true) (hx : t.Calm x) {r : Request g} (hasks : asksClose r = true) :
    let turn := (t.logging below).start r env x
    t.Course env.now env.now turn.state ∧ t.Goes env.now env.now x turn.state ∧
      t.Serves env env.now env.now r turn := by
  obtain ⟨x', hcourse, hlog, htelling, hsignal⟩ := start_asker below hdepth hp hr hx hasks
  cases htells : tellsClosed r with
  | true =>
    have hlearned := htelling htells
    have hcalm : (t.log x').told = [] := (congrArg CloseLog.told hlog).trans hx.log.2
    have hbegun : t.Stage env.now env.now [(env.now, true)] x' :=
      .inr ⟨rfl, Nat.le_refl _, hcourse⟩
    obtain ⟨hasked, -⟩ | ⟨-, -, hstage⟩ := hlearned.stage hbegun
    · cases hasked
    · refine ⟨hstage, .of_calm hx (hlog ▸ hlearned.goes.hears), ?_⟩
      refine hlearned.serves htells (Nat.le_refl _) (fun _ _ => Nat.le_max_left _ _) ?_
      exact fun f reply htold => absurd (hcalm.symm.trans htold) nofun
  | false =>
    rw [hsignal htells]
    exact ⟨hcourse, .of_calm hx (.of_eq (congrArg CloseLog.told hlog)), nofun,
      fun h => absurd (htells.symm.trans h) nofun, nofun⟩

/-- A call is looked at. -/
theorem resume_serves (hp : t.Prompt) (hstage : t.Stage env.now s asked x)
    {p : Pending g (t.LoggedCall φ)}
    (hkept : t.Kept env.now s p) (hasks : asked = [] → asksClose p.request = false)
    (hswift : tellsClosed p.request = true → ∀ f reply, (t.log x).told = [(f, .ok reply)] →
      env.now = f) :
    let turn := (t.logging below).resume p.call env x
    t.Stage env.now s asked turn.state ∧ t.Goes env.now s x turn.state ∧
      t.Serves env s p.since p.request turn := by
  cases htells : tellsClosed p.request with
  | true =>
    have hlearned := (resume_waiter below hp (hstage.course_or_calm hasks)
      (hkept.stays htells)).1
    refine ⟨hlearned.stage hstage, hlearned.goes,
      hlearned.serves htells hkept.since hkept.bell fun f reply htold => ?_⟩
    have hnow := hswift htells f reply htold
    exact ⟨Nat.le_of_eq hnow.symm, .inl hnow⟩
  | false =>
    have haside := (spares below t).resume p.call env x (hkept.data htells)
    exact ⟨haside.like.stage hstage, haside.like.goes, haside.serves htells hkept.since⟩

end Calls

/-! ## What every act keeps -/

/-- A tower with its callers, whose first close is asked for at `s`. -/
structure Orderly (s : Nat) (t : Tower .modern g) (w : t.Callers σ φ) : Prop where
  runtime : w.env.runtime = true
  stage : t.Stage w.env.now s w.asked w.state
  first : w.asked = [] → ∀ p ∈ w.pending, asksClose p.request = false
  pending : ∀ p ∈ w.pending, t.Kept w.env.now s p
  told : ∀ c ∈ w.told, tellsClosed c.request = true → t.Fair w.env.now s w.state c
  heard : ∀ f a, (f, a) ∈ (t.log w.state).told → s ≤ f ∧ f ≤ w.env.now
  swift : ∀ f reply, (t.log w.state).told = [(f, .ok reply)] →
    w.env.now = f ∨ t.Arrived s w.state ∧ ∀ p ∈ w.pending, tellsClosed p.request = false

namespace Orderly

variable {s : Nat} {t : Tower .modern g} {w : t.Callers σ φ}

/-- What is heard of a close that was asked for. -/
theorem heard_goes (h : t.Orderly s w) {asked : List (Nat × Bool)} {x : t.Logged σ φ}
    (hstage : t.Stage w.env.now s asked x) (hgoes : t.Goes w.env.now s w.state x) :
    ∀ f a, (f, a) ∈ (t.log x).told → s ≤ f ∧ f ≤ w.env.now := by
  intro f a hmem
  obtain ⟨-, hcalm⟩ | ⟨-, hs, -⟩ := hstage
  · rw [hcalm.log.2] at hmem
    cases hmem
  · obtain ⟨news, hnews, hnow⟩ := hgoes.hears
    rw [hnews] at hmem
    rcases List.mem_append.mp hmem with hold | hnew
    · exact h.heard f a hold
    · rw [show f = w.env.now from hnow (f, a) hnew]
      exact ⟨hs, Nat.le_refl _⟩

theorem swift_goes (h : t.Orderly s w) {x : t.Logged σ φ}
    (hgoes : t.Goes w.env.now s w.state x) :
    ∀ f reply, (t.log x).told = [(f, .ok reply)] →
      w.env.now = f ∨ t.Arrived s x ∧ ∀ p ∈ w.pending, tellsClosed p.request = false := by
  intro f reply htold
  obtain hold | ⟨-, rfl⟩ := hgoes.hears.before htold
  · exact (h.swift f reply hold).imp_right fun ⟨ha, hpending⟩ => ⟨hgoes.arrived ha, hpending⟩
  · exact .inl rfl

/-- A step of a call, next to others. -/
theorem take (h : t.Orderly s w) (asked : List (Nat × Bool)) {r : Request g} {since : Nat}
    {others : List (Pending g (t.LoggedCall φ))} (hothers : ∀ p ∈ others, p ∈ w.pending)
    (hfirst : asked = [] → asksClose r = false ∧ w.asked = [])
    {turn : Turn (t.Logged σ φ) (t.LoggedCall φ) (Answer g)}
    (hstage : t.Stage w.env.now s asked turn.state)
    (hgoes : t.Goes w.env.now s w.state turn.state) (hserves : t.Serves w.env s since r turn) :
    t.Orderly s (Clockwork.take { w with asked := asked } r since others turn) := by
  have hheard := h.heard_goes hstage hgoes
  have hswift := h.swift_goes hgoes
  obtain ⟨x, p, es⟩ := turn
  cases p with
  | waiting call =>
    have hmem {q : Pending g (t.LoggedCall φ)} (hq : q ∈ others ++ [⟨r, since, call⟩]) :
        q ∈ w.pending ∨ q = ⟨r, since, call⟩ :=
      (List.mem_append.mp hq).imp (hothers q) List.mem_singleton.mp
    refine ⟨h.runtime, hstage, fun hasked q hq => ?_, fun q hq => ?_,
      fun c hc htells => (h.told c hc htells).goes hgoes, hheard, fun f reply htold => ?_⟩
    · rcases hmem hq with hq | rfl
      · exact h.first (hfirst hasked).2 q hq
      · exact (hfirst hasked).1
    · rcases hmem hq with hq | rfl
      · exact h.pending q hq
      · exact hserves.kept call rfl
    · refine (hswift f reply htold).elim .inl fun ⟨ha, hpending⟩ => ?_
      by_cases htells : tellsClosed r = true
      · exact .inl (hserves.swift htells call rfl f reply htold)
      · refine .inr ⟨ha, fun q hq => ?_⟩
        rcases hmem hq with hq | rfl
        · exact hpending q hq
        · exact eq_false_of_ne_true htells
  | answered a =>
    refine ⟨h.runtime, hstage, fun hasked q hq => ?_, fun q hq => h.pending q (hothers q hq),
      fun c hc htells => ?_, hheard, fun f reply htold => ?_⟩
    · exact h.first (hfirst hasked).2 q (hothers q hq)
    · rcases List.mem_append.mp hc with hc | hc
      · exact (h.told c hc htells).goes hgoes
      · cases List.mem_singleton.mp hc
        exact hserves.fair htells a rfl
    · exact (hswift f reply htold).imp_right fun ⟨ha, hpending⟩ =>
        ⟨ha, fun q hq => hpending q (hothers q hq)⟩

/-- A step of background work. -/
theorem goes (h : t.Orderly s w) {x : t.Logged σ φ} (hstage : t.Stage w.env.now s w.asked x)
    (hgoes : t.Goes w.env.now s w.state x) : t.Orderly s { w with state := x } where
  runtime := h.runtime
  stage := hstage
  first := h.first
  pending := h.pending
  told c hc htells := (h.told c hc htells).goes hgoes
  heard := h.heard_goes hstage hgoes
  swift := h.swift_goes hgoes

/-- Another world at the same instant. -/
theorem elsewhere (h : t.Orderly s w) (scopes : ScopeTree) (wall : Nat) :
    t.Orderly s { w with env := { w.env with scopes := scopes, wall := wall } } :=
  ⟨h.runtime, h.stage, h.first, h.pending, h.told, h.heard, h.swift⟩

theorem abandon (h : t.Orderly s w) (i : Nat) :
    t.Orderly s { w with pending := w.pending.eraseIdx i } where
  runtime := h.runtime
  stage := h.stage
  first hasked p hp := h.first hasked p (List.mem_of_mem_eraseIdx hp)
  pending p hp := h.pending p (List.mem_of_mem_eraseIdx hp)
  told := h.told
  heard := h.heard
  swift f reply htold := (h.swift f reply htold).imp_right fun ⟨ha, hpending⟩ =>
    ⟨ha, fun p hp => hpending p (List.mem_of_mem_eraseIdx hp)⟩

variable (below : Level .modern σ φ) (base : List (Job σ))

theorem call (h : t.Orderly s w) (hdepth : 0 < t.depth) (hp : t.Prompt) (r : Request g)
    (inside : Bool)
    (hasked : (w.ask r inside).asked = [] ∨ (w.ask r inside).asked.head? = some (s, true)) :
    t.Orderly s ((w.ask r inside).take r w.env.now w.pending
      ((t.logging below).start r { w.env with runtime := inside } w.state)) := by
  unfold Clockwork.ask at hasked ⊢
  by_cases hfirst : w.asked = [] ∧ asksClose r = true
  · obtain ⟨hnone, hasks⟩ := hfirst
    simp only [hnone, hasks, if_true, List.nil_append] at hasked ⊢
    obtain hasked | hasked := hasked
    · cases hasked
    · cases hasked
      obtain ⟨-, hcalm⟩ | ⟨hhead, -⟩ := h.stage
      · obtain ⟨hcourse, hgoes, hserves⟩ := start_first_serves below
          { w.env with runtime := true } hdepth hp rfl hcalm hasks
        exact h.take [(w.env.now, true)] (fun _ => id) nofun
          (.inr ⟨rfl, Nat.le_refl _, hcourse⟩) hgoes hserves.outside
      · rw [hnone] at hhead
        cases hhead
  · have hasks (hnone : w.asked = []) : asksClose r = false :=
      eq_false_of_ne_true fun hasks => hfirst ⟨hnone, hasks⟩
    obtain ⟨hstage, hgoes, hserves⟩ := start_serves below
      { w.env with runtime := inside } hdepth hp h.stage hasks fun f reply htold =>
        ⟨(h.heard f (.ok reply) (htold ▸ List.mem_cons_self)).2,
          (h.swift f reply htold).imp_right And.left⟩
    refine h.take _ (fun _ => id) (fun hnone => ?_) ?_ hgoes hserves.outside
    · split at hnone
      · simp at hnone
      · exact ⟨hasks hnone, hnone⟩
    · split
      · next hask =>
        refine hstage.imp (fun ⟨hnone, _⟩ => ?_) fun ⟨hhead, hcourse⟩ => ⟨?_, hcourse⟩
        · exact absurd ((hasks hnone).symm.trans hask) nofun
        · rw [List.head?_append, hhead]
          rfl
      · exact hstage

theorem look (h : t.Orderly s w) (hp : t.Prompt) {i : Nat} {p : Pending g (t.LoggedCall φ)}
    (hi : w.pending[i]? = some p) :
    t.Orderly s (w.take p.request p.since (w.pending.eraseIdx i)
      ((t.logging below).resume p.call w.env w.state)) := by
  have hmem := List.mem_of_getElem? hi
  have hasks (hnone : w.asked = []) : asksClose p.request = false := h.first hnone p hmem
  obtain ⟨hstage, hgoes, hserves⟩ := resume_serves below hp h.stage (h.pending p hmem) hasks
    fun htells f reply htold => by
      obtain hnow | ⟨-, hpending⟩ := h.swift f reply htold
      · exact hnow
      · exact absurd ((hpending p hmem).symm.trans htells) nofun
  exact h.take w.asked (fun q hq => List.mem_of_mem_eraseIdx hq)
    (fun hnone => ⟨hasks hnone, hnone⟩) hstage hgoes hserves

theorem work (h : t.Orderly s w) (hp : t.Prompt) {job : Job (t.Logged σ φ)}
    (hjob : job ∈ t.works below base) :
    t.Orderly s { w with state := (job.run w.env w.state).1 } := by
  obtain ⟨hnone, hcalm⟩ | ⟨hhead, hs, hcourse⟩ := id h.stage
  · have hlike := (hcalm.resting.work below base w.env.now w.env hjob).1
    exact h.goes (hlike.stage h.stage) hlike.goes
  · obtain ⟨hcourse, hadvances⟩ := hcourse.work below base hp h.runtime hs hjob
    exact h.goes (.inr ⟨hhead, hs, hcourse⟩) ⟨hadvances.hears,
      fun hshut => hshut.work below base w.env hjob, fun ha => ha.work below base w.env hjob⟩

section Quiet

variable (hquiet : w.quiet (t.logging below) (t.works below base) = true)
include hquiet

/-- Where nothing is ready and the bottom has closed, nobody waits for the close. -/
theorem settled (h : t.Orderly s w) :
    ∀ f reply, (t.log w.state).told = [(f, .ok reply)] →
      t.Arrived s w.state ∧ ∀ p ∈ w.pending, tellsClosed p.request = false := by
  intro f reply htold
  obtain hnow | hdone := h.swift f reply htold
  · obtain ⟨hcalls, hjobs⟩ := Clockwork.ready_of_quiet hquiet
    subst hnow
    obtain ⟨-, hcalm⟩ | ⟨-, -, hcourse⟩ := h.stage
    · exact absurd (hcalm.log.2.symm.trans htold) nofun
    · have harrived := hcourse.arrived_of_quiet below base hjobs htold
      refine ⟨harrived, fun p hp => eq_false_of_ne_true fun htells => ?_⟩
      have hstays := (h.pending p hp).stays htells
      exact (hstays.unready below (hcalls p hp)).2.1 harrived
  · exact hdone

/-- Time goes by. -/
theorem pass (h : t.Orderly s w) {later : Nat} (hnow : w.env.now < later)
    (halarms : ∀ a ∈ w.alarms (t.logging below) (t.works below base), w.env.now < a → later ≤ a) :
    t.Orderly s { w with env := { w.env with now := later } } := by
  obtain ⟨hcalls, hjobs⟩ := Clockwork.ready_of_quiet hquiet
  have hsettled := h.settled below base hquiet
  have hle := Nat.le_of_lt hnow
  refine ⟨h.runtime, ?_, h.first, fun p hp => ?_, fun c hc htells => ?_, fun f a hmem => ?_,
    fun f reply htold => .inr (hsettled f reply htold)⟩
  · refine h.stage.imp id fun ⟨hhead, hs, hcourse⟩ => ⟨hhead, Nat.le_trans hs hle, ?_⟩
    exact hcourse.pass below base hjobs
      (fun job hjob a ha => halarms a (Clockwork.alarm_of_job hjob ha)) hle
  · have hkept := h.pending p hp
    have hsince := Nat.le_trans hkept.since hle
    cases htells : tellsClosed p.request with
    | false =>
      refine ⟨hsince, fun a ha => ?_, fun h => absurd (htells.symm.trans h) nofun,
        fun _ => hkept.data htells⟩
      exact absurd ((bell_of_data htells p.since).symm.trans ha) nofun
    | true =>
      obtain ⟨-, -, a, ha, hlate, hbell, hstays⟩ := (hkept.stays htells).unready below (hcalls p hp)
      have hlater := halarms a (Clockwork.alarm_of_call hp ha) hlate
      refine ⟨hsince, fun b hb => ?_, fun _ => hstays later hle hlater,
        fun h => absurd (htells.symm.trans h) nofun⟩
      exact Nat.le_trans (Nat.le_trans hlater (hbell b hb)) (Nat.le_max_right _ _)
  · have hfair := h.told c hc htells
    exact ⟨hfair.since, Nat.le_trans hfair.till hle, hfair.answer⟩
  · exact ⟨(h.heard f a hmem).1, Nat.le_trans (h.heard f a hmem).2 hle⟩

end Quiet

/-- Every act keeps a tower and its callers orderly. -/
theorem stepped (h : t.Orderly s w) (hdepth : 0 < t.depth) (hp : t.Prompt) {act : Clockwork.Act g}
    {w' : t.Callers σ φ} (hstep : w.Stepped (t.logging below) (t.works below base) act w')
    (hasked : w'.asked = [] ∨ w'.asked.head? = some (s, true)) : t.Orderly s w' := by
  cases hstep with
  | call r inside =>
    rw [Clockwork.take_asked] at hasked
    exact h.call below hdepth hp r inside hasked
  | look i hi => exact h.look below hp hi
  | abandon i => exact h.abandon i
  | work i hjob => exact h.work below base hp hjob
  | derive | cancel | age => exact h.elsewhere _ _
  | pass hnow _ hquiet halarms => exact h.pass below base hquiet hnow halarms

end Orderly

end CacheBridge.Tower
