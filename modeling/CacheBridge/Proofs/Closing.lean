import Mathlib.Data.List.Forall2
import CacheBridge.Proofs.Passage

/-!
What every step keeps of a tower that closes. What a bridge keeps for itself agrees with the tower
below it: as long as nothing has been asked of it, nothing has been asked below, and it is closed
only once the tower below has said that it is. The steps of a bridge keep this if the steps of the
tower below do, so by induction every step of a tower does, and its background work with it.
-/

namespace CacheBridge

/-- Whether a request asks for a close. -/
def asksClose : {g : Generation} → Request g → Bool
  | .modern, .close _ => true
  | .legacy, .closeAsync => true
  | _, _ => false

/-- Whether a success tells that the cache is closed. -/
def tellsClosed : {g : Generation} → Request g → Bool
  | .modern, .close _ => true
  | .legacy, .waitForClose _ => true
  | _, _ => false

namespace Ledger

variable {g : Generation} {φ : Type}

/-- How often a close was asked for. -/
def closes (led : Ledger g) : Nat := led.received.countP asksClose

/-- A close, or a wait for it, was answered with a success. -/
def Confirmed (led : Ledger g) : Prop :=
  ∃ r reply, tellsClosed r = true ∧ (r, .ok reply) ∈ led.answered

theorem closes_receive (led : Ledger g) (r : Request g) :
    (led.receive r).closes = led.closes + if asksClose r then 1 else 0 := by
  simp [closes, receive, List.countP_append, List.countP_singleton]

@[simp] theorem closes_settle (led : Ledger g) (r : Request g) (p : Progress φ (Answer g)) :
    (led.settle r p).closes = led.closes := by
  simp [closes]

theorem Confirmed.settle {led : Ledger g} (h : led.Confirmed) (r : Request g)
    (p : Progress φ (Answer g)) : (led.settle r p).Confirmed := by
  obtain ⟨q, reply, hq, hmem⟩ := h
  cases p with
  | waiting => exact ⟨q, reply, hq, hmem⟩
  | answered a => exact ⟨q, reply, hq, List.mem_append_left _ hmem⟩

/-- A ledger that has become a confirmed one has just noted a success. -/
theorem confirmed_settle {led : Ledger g} {r : Request g} {p : Progress φ (Answer g)}
    (h : (led.settle r p).Confirmed) :
    led.Confirmed ∨ tellsClosed r = true ∧ ∃ reply, p = .answered (.ok reply) := by
  obtain ⟨q, reply, hq, hmem⟩ := h
  cases p with
  | waiting => exact .inl ⟨q, reply, hq, hmem⟩
  | answered a =>
    rcases List.mem_append.mp hmem with hmem | hmem
    · exact .inl ⟨q, reply, hq, hmem⟩
    · cases List.mem_singleton.mp hmem
      exact .inr ⟨hq, reply, rfl⟩

theorem confirmed_of_success {led : Ledger g} {r : Request g} {reply : Reply}
    (h : tellsClosed r = true) :
    (led.settle r (.answered (.ok reply) : Progress φ (Answer g))).Confirmed :=
  ⟨r, reply, h, List.mem_append_right _ (List.mem_singleton.mpr rfl)⟩

end Ledger

/-- What the bridge to legacy keeps for itself agrees with the cache below it. -/
structure ToLegacy.Agrees {φ : Type} (own : Own φ) (untouched confirmed : Prop)
    (fits : φ → Prop) : Prop where
  idle : own.phase = .active → own.closer = .idle
  untouched : own.closer = .idle ∨ own.closer = .requested → untouched
  running : ∀ call, own.closer = .running call → fits call
  closed : own.phase = .closed → confirmed

/-- What the bridge to modern keeps for itself agrees with the cache below it. -/
structure ToModern.Agrees (phase : Phase) (untouched confirmed : Prop) : Prop where
  untouched : phase = .active → untouched
  closed : phase = .closed → confirmed

namespace Tower

variable {b g : Generation} {σ φ : Type}

/-! ## What holds of a tower that closes -/

/-- Nobody has asked any part of the tower to close. -/
def Untouched : {g : Generation} → (t : Tower b g) → t.State (Ledger b × σ) (Request b × φ) → Prop
  | _, .ground, s => s.1.closes = 0
  | _, .toLegacy _ t, s => s.1.phase = .active ∧ s.1.closer = .idle ∧ t.Untouched s.2
  | _, .toModern _ t, s => s.1 = .active ∧ t.Untouched s.2

/-- The tower is closed, as far as it can tell. -/
def Confirmed : {g : Generation} → (t : Tower b g) → t.State (Ledger b × σ) (Request b × φ) → Prop
  | _, .ground, s => s.1.Confirmed
  | _, .toLegacy _ _, s => s.1.phase = .closed
  | _, .toModern _ _, s => s.1 = .closed

/-- The call is one whose success tells that the tower is closed, or is not such a call. -/
def Fits (tells : Bool) : {g : Generation} → (t : Tower b g) → t.Call (Request b × φ) → Prop
  | _, .ground, call => tellsClosed call.1 = tells
  | _, .toLegacy _ t, call => match call with
    | .relayed call | .replaying call _ => tells = false ∧ t.Fits false call
    | .waiting _ _ => tells = true
  | _, .toModern _ t, call => match call with
    | .relayed call => tells = false ∧ t.Fits false call
    | .polling _ _ call => tells = true ∧ t.Fits true call
    | .pausing _ _ => tells = true

/-- Every bridge agrees with the tower below it, and the bottom was asked to close at most once. -/
def Sound : {g : Generation} → (t : Tower b g) → t.State (Ledger b × σ) (Request b × φ) → Prop
  | _, .ground, s => s.1.closes ≤ 1
  | _, .toLegacy _ t, s =>
    t.Sound s.2 ∧ ToLegacy.Agrees s.1 (t.Untouched s.2) (t.Confirmed s.2) (t.Fits true)
  | _, .toModern _ t, s =>
    t.Sound s.2 ∧ ToModern.Agrees s.1 (t.Untouched s.2) (t.Confirmed s.2)

/-- What every step does to a sound tower. A step that is `quiet` asks nothing of an untouched
tower. -/
structure Evolves (t : Tower b g) (quiet : Prop)
    (s s' : t.State (Ledger b × σ) (Request b × φ)) : Prop where
  sound : t.Sound s'
  phases : List.Forall₂ (· ≤ ·) (t.phases s) (t.phases s')
  confirmed : t.Confirmed s → t.Confirmed s'
  untouched : quiet → t.Untouched s → t.Untouched s'

/-- A step of a call, whose success tells that the tower is closed if it `tells` anything. -/
structure Steps (t : Tower b g) (tells : Bool) (quiet : Prop)
    (s : t.State (Ledger b × σ) (Request b × φ))
    (turn : Turn (t.State (Ledger b × σ) (Request b × φ)) (t.Call (Request b × φ)) (Answer g)) :
    Prop where
  evolves : t.Evolves quiet s turn.state
  fits : ∀ call, turn.progress = .waiting call → t.Fits tells call
  success : ∀ reply, tells = true → turn.progress = .answered (.ok reply) →
    t.Confirmed turn.state

theorem le_phases (ps : List Phase) : List.Forall₂ (· ≤ ·) ps ps := by
  induction ps with
  | nil => exact .nil
  | cons p ps ih => exact .cons p.le_refl ih

theorem le_phases_trans {ps qs rs : List Phase} (h : List.Forall₂ (· ≤ ·) ps qs)
    (h' : List.Forall₂ (· ≤ ·) qs rs) : List.Forall₂ (· ≤ ·) ps rs := by
  induction h generalizing rs with
  | nil =>
    cases h'
    exact .nil
  | cons hpq _ ih =>
    cases h' with
    | cons hqr h' => exact .cons (Phase.le_trans hpq hqr) (ih h')

theorem le_phases_append {ps qs : List Phase} {p q : Phase} (h : List.Forall₂ (· ≤ ·) ps qs)
    (hpq : p ≤ q) : List.Forall₂ (· ≤ ·) (ps ++ [p]) (qs ++ [q]) :=
  List.rel_append h (.cons hpq .nil)

section Steps

variable {t : Tower b g} {quiet : Prop} {s s' s'' : t.State (Ledger b × σ) (Request b × φ)}
  {tells : Bool}
  {turn : Turn (t.State (Ledger b × σ) (Request b × φ)) (t.Call (Request b × φ)) (Answer g)}

theorem Evolves.refl (h : t.Sound s) : t.Evolves quiet s s :=
  ⟨h, le_phases _, id, fun _ hu => hu⟩

theorem Evolves.trans (h : t.Evolves quiet s s') (h' : t.Evolves quiet s' s'') :
    t.Evolves quiet s s'' where
  sound := h'.sound
  phases := le_phases_trans h.phases h'.phases
  confirmed hc := h'.confirmed (h.confirmed hc)
  untouched hq hu := h'.untouched hq (h.untouched hq hu)

theorem Steps.trans (h : t.Evolves quiet s s') (h' : t.Steps tells quiet s' turn) :
    t.Steps tells quiet s turn :=
  ⟨h.trans h'.evolves, h'.fits, h'.success⟩

/-- A step need not be quiet to be one that is not. -/
theorem Steps.loud (h : t.Steps tells False s turn) (hq : ¬quiet) : t.Steps tells quiet s turn :=
  ⟨⟨h.evolves.sound, h.evolves.phases, h.evolves.confirmed, fun q => absurd q hq⟩, h.fits,
    h.success⟩

theorem Steps.after (h : t.Steps tells quiet s turn) (es : List Event) :
    t.Steps tells quiet s (turn.after es) :=
  ⟨h.evolves, h.fits, h.success⟩

theorem Steps.of_failure (h : t.Evolves quiet s turn.state) {e : Failure g}
    (he : turn.progress = .answered (.error e)) : t.Steps tells quiet s turn := by
  refine ⟨h, ?_, ?_⟩ <;> simp [he]

theorem Steps.of_waiting (h : t.Evolves quiet s turn.state) {call : t.Call (Request b × φ)}
    (hcall : turn.progress = .waiting call) (hfits : t.Fits tells call) :
    t.Steps tells quiet s turn := by
  refine ⟨h, ?_, ?_⟩
  · intro c hc
    rw [hcall] at hc
    cases hc
    exact hfits
  · simp [hcall]

theorem Steps.of_success (h : t.Evolves quiet s turn.state) {reply : Reply}
    (ha : turn.progress = .answered (.ok reply)) (hc : tells = true → t.Confirmed turn.state) :
    t.Steps tells quiet s turn := by
  refine ⟨h, ?_, fun _ ht _ => hc ht⟩
  simp [ha]

end Steps

/-! ## The bottom -/

/-- The calls of a tower take it from sound states to sound states. Asking for a close is safe
where nobody has, and at a bridge anywhere. -/
structure Obeys (below : Level b σ φ) (t : Tower b g) : Prop where
  start : ∀ r env s, t.Sound s → (asksClose r = true → t.Untouched s ∨ 0 < t.depth) →
    t.Steps (tellsClosed r) (asksClose r = false) s ((t.level below.recorded).start r env s)
  resume : ∀ tells call env s, t.Fits tells call → t.Sound s →
    t.Steps tells (g = .legacy ∨ tells = false) s ((t.level below.recorded).resume call env s)

theorem steps_note {quiet : Prop} {s : Ledger b × σ} {led : Ledger b} {r : Request b}
    (turn : Turn σ φ (Answer b)) (hsound : led.closes ≤ 1)
    (hconfirmed : s.1.Confirmed → led.Confirmed)
    (huntouched : quiet → s.1.closes = 0 → led.closes = 0) :
    (ground : Tower b b).Steps (tellsClosed r) quiet s (led.note r turn) := by
  have hevolves : (ground : Tower b b).Evolves (φ := φ) quiet s (led.settle r turn.progress,
      turn.state) := by
    refine ⟨?_, .nil, fun hc => (hconfirmed hc).settle r _, fun hq hu => ?_⟩
    · exact Nat.le_trans (Nat.le_of_eq (Ledger.closes_settle led r turn.progress)) hsound
    · exact (Ledger.closes_settle led r turn.progress).trans (huntouched hq hu)
  obtain ⟨x, p, es⟩ := turn
  cases p with
  | waiting call => exact .of_waiting hevolves rfl rfl
  | answered a =>
    cases a with
    | ok reply => exact .of_success hevolves rfl (Ledger.confirmed_of_success (φ := φ))
    | error e => exact .of_failure hevolves rfl

theorem obeys_ground (below : Level b σ φ) : (ground : Tower b b).Obeys below where
  start r env s hs hasks := by
    have hcloses := s.1.closes_receive r
    refine steps_note (below.start r env s.2) ?_ id ?_
    · rw [hcloses]
      split
      · next h =>
        obtain h | h := hasks h
        · have h : s.1.closes = 0 := h
          omega
        · cases h
      · exact hs
    · intro hquiet hu
      rw [hcloses, hquiet, hu]
      rfl
  resume tells call env s hfits hs := by
    cases (hfits : tellsClosed call.1 = tells)
    exact steps_note (below.resume call.2 env s.2) hs id fun _ hu => hu

/-! ## The bridge to legacy -/

section ToLegacy

variable {t : Tower b .modern} {counts : Bool}
  {own own' : ToLegacy.Own (t.Call (Request b × φ))}
  {s s' : t.State (Ledger b × σ) (Request b × φ)}

theorem evolves_toLegacy {quiet quiet' : Prop} (hs : (toLegacy counts t).Sound (own, s))
    (h : t.Evolves quiet' s s') (hle : own.phase ≤ own'.phase)
    (hagrees : ToLegacy.Agrees own' (t.Untouched s') (t.Confirmed s') (t.Fits true))
    (hquiet : quiet → own.closer = .idle → own' = own ∧ quiet') :
    (toLegacy counts t).Evolves quiet (own, s) (own', s') where
  sound := ⟨h.sound, hagrees⟩
  phases := le_phases_append h.phases hle
  confirmed hc := by
    have hc : own.phase = .closed := hc
    have hle : Phase.closed ≤ own'.phase := hc ▸ hle
    change own'.phase = .closed
    revert hle
    cases own'.phase <;> decide
  untouched hq hu := by
    obtain ⟨hphase, hcloser, hu⟩ := hu
    obtain ⟨rfl, hq⟩ := hquiet hq hcloser
    exact ⟨hphase, hcloser, h.untouched hq hu⟩

/-- A quiet step below leaves the bridge as it is. -/
theorem Evolves.beneath_toLegacy {quiet quiet' : Prop} (hs : (toLegacy counts t).Sound (own, s))
    (h : t.Evolves quiet' s s') (hq : quiet') :
    (toLegacy counts t).Evolves quiet (own, s) (own, s') := by
  have hagrees := hs.2
  refine evolves_toLegacy hs h own.phase.le_refl ⟨hagrees.idle, ?_, hagrees.running, ?_⟩ ?_
  · exact fun hc => h.untouched hq (hagrees.untouched hc)
  · exact fun hc => h.confirmed (hagrees.closed hc)
  · exact fun _ _ => ⟨rfl, hq⟩

variable {turn : Turn (t.State (Ledger b × σ) (Request b × φ)) (t.Call (Request b × φ))
  (Answer .modern)}

theorem Steps.relay_toLegacy {quiet quiet' : Prop} (hs : (toLegacy counts t).Sound (own, s))
    (h : t.Steps false quiet' s turn) (hq : quiet') :
    (toLegacy counts t).Steps false quiet (own, s) (ToLegacy.relay own turn) := by
  have hevolves : (toLegacy counts t).Evolves quiet (own, s) (own, turn.state) :=
    h.evolves.beneath_toLegacy hs hq
  obtain ⟨x, p, es⟩ := turn
  cases p with
  | waiting call => exact .of_waiting hevolves rfl ⟨rfl, h.fits call rfl⟩
  | answered a =>
    cases a with
    | ok reply => exact .of_success hevolves rfl nofun
    | error e => exact .of_failure hevolves rfl

theorem steps_settle {quiet quiet' : Prop} {rest : List Write}
    {next : t.State (Ledger b × σ) (Request b × φ) → ToLegacy.Step _ _}
    (hs : (toLegacy counts t).Sound (own, s)) (h : t.Steps false quiet' s turn) (hq : quiet')
    (hnext : ∀ s', (toLegacy counts t).Sound (own, s') →
      (toLegacy counts t).Steps false quiet (own, s') (next s')) :
    (toLegacy counts t).Steps false quiet (own, s) (ToLegacy.settle own rest next turn) := by
  have hevolves : (toLegacy counts t).Evolves quiet (own, s) (own, turn.state) :=
    h.evolves.beneath_toLegacy hs hq
  obtain ⟨x, p, es⟩ := turn
  cases p with
  | waiting call => exact .of_waiting hevolves rfl ⟨rfl, h.fits call rfl⟩
  | answered a =>
    cases a with
    | ok reply => exact .after (.trans hevolves (hnext x hevolves.sound)) es
    | error e => exact .of_failure hevolves rfl

variable {below : Level b σ φ}

theorem Obeys.replay (ih : t.Obeys below) {quiet : Prop} (items : List Write) (env : Env)
    (hs : (toLegacy counts t).Sound (own, s)) :
    (toLegacy counts t).Steps false quiet (own, s)
      (ToLegacy.replay (t.level below.recorded) own items env s) := by
  induction items generalizing s with
  | nil => exact .of_success (.refl hs) rfl nofun
  | cons w rest ihrest =>
    have h := ih.start (.set .background w) env s hs.1 nofun
    exact steps_settle hs h rfl fun s' hs' => ihrest hs'

/-- What is handed on neither asks for a close nor tells of one. -/
theorem ToLegacy.passed?_quiet {σ φ : Type} {below : Level .modern σ φ} {r : LegacyRequest}
    {r' : ModernRequest} (h : ToLegacy.passed? below r = some r') :
    tellsClosed (g := .legacy) r = false ∧ asksClose (g := .modern) r' = false ∧
      tellsClosed (g := .modern) r' = false := by
  cases r with
  | get | set | add | delete | setWithTtl | addWithTtl =>
    cases h
    exact ⟨rfl, rfl, rfl⟩
  | setMulti | setMultiWithTtl =>
    simp only [ToLegacy.passed?, ToLegacy.passedBatch?] at h
    split at h <;> cases h
    exact ⟨rfl, rfl, rfl⟩
  | closeAsync | waitForClose => cases h

theorem Obeys.writeBatch (ih : t.Obeys below) (items : List Write) (env : Env)
    (hs : (toLegacy counts t).Sound (own, s)) {quiet : Prop} :
    (toLegacy counts t).Steps false quiet (own, s)
      (ToLegacy.writeBatch (t.level below.recorded) counts items env own s) := by
  unfold ToLegacy.writeBatch
  split
  · exact (ih.start (.setMulti .background items) env s hs.1 nofun).relay_toLegacy hs rfl
  · exact (ih.replay items env hs).after _

/-- Only the first signal changes anything. From then on the tower below may be closed. -/
theorem steps_closeAsync (env : Env) (hs : (toLegacy counts t).Sound (own, s)) :
    (toLegacy counts t).Steps false False (own, s) (ToLegacy.closeAsync env own s) := by
  unfold ToLegacy.closeAsync
  cases hphase : own.phase with
  | closing | closed => exact .of_success (.refl hs) rfl (by simp)
  | active =>
    have hidle : own.closer = .idle := hs.2.idle hphase
    have hbelow : t.Untouched s := hs.2.untouched (.inl hidle)
    have hrefl : t.Evolves True s s := .refl hs.1
    have hle : own.phase ≤ .closing := hphase ▸ by decide
    simp only [Phase.beginClose]
    split
    · refine .of_success ?_ rfl (by simp)
      exact evolves_toLegacy hs hrefl hle ⟨by simp, fun _ => hbelow, by simp, by simp⟩ (by simp)
    · refine .of_success ?_ rfl (by simp)
      exact evolves_toLegacy hs hrefl hle ⟨by simp, fun _ => hbelow, hs.2.running, by simp⟩
        (by simp)

theorem ClosedWait.closed_of_look {p : Phase} {now : Nat} {w : ClosedWait}
    (h : w.look p now = .answered true) : p = .closed := by
  unfold ClosedWait.look at h
  split at h
  · assumption
  · split at h <;> cases h

theorem steps_tell {quiet : Prop} {p : Progress ClosedWait Bool} (timeout : Nat)
    (hs : (toLegacy counts t).Sound (own, s)) (hp : p = .answered true → own.phase = .closed) :
    (toLegacy counts t).Steps true quiet (own, s) (ToLegacy.tell counts timeout own s p) := by
  rcases p with wait | answer
  · exact .of_waiting (.refl hs) rfl rfl
  · cases answer with
    | true => exact .of_success (.refl hs) rfl fun _ => hp rfl
    | false => exact .of_failure (.refl hs) rfl

theorem obeys_toLegacy (ih : t.Obeys below) : (toLegacy counts t).Obeys below where
  start r env s hs _ := by
    cases hpass : ToLegacy.passed? (t.level below.recorded) r with
    | some r' =>
      obtain ⟨hquiet, hasks, htells⟩ := ToLegacy.passed?_quiet hpass
      have h := ih.start r' env s.2 hs.1 (by simp [hasks])
      rw [htells] at h
      rw [hquiet]
      have hstart : ((toLegacy counts t).level below.recorded).start r env s = _ :=
        ToLegacy.start_passed (t.level below.recorded) counts hpass
      rw [hstart]
      exact h.relay_toLegacy hs hasks
    | none =>
      cases r with
      | get | set | add | delete | setWithTtl | addWithTtl => cases hpass
      | setMulti | setMultiWithTtl => exact ih.writeBatch _ env hs
      | closeAsync => exact (steps_closeAsync env hs).loud (by simp [asksClose])
      | waitForClose timeout => exact steps_tell timeout hs ClosedWait.closed_of_look
  resume tells call env s hfits hs := by
    cases call with
    | relayed call =>
      obtain ⟨rfl, hfits⟩ := hfits
      exact (ih.resume false call env s.2 hfits hs.1).relay_toLegacy hs (.inr rfl)
    | replaying call rest =>
      obtain ⟨rfl, hfits⟩ := hfits
      exact steps_settle hs (ih.resume false call env s.2 hfits hs.1) (.inr rfl)
        fun s' hs' => ih.replay rest env hs'
    | waiting timeout wait =>
      cases (hfits : tells = true)
      exact steps_tell timeout hs ClosedWait.closed_of_look

end ToLegacy

/-! ## The bridge to modern -/

section ToModern

variable {t : Tower b .legacy} {poll : Nat} {phase phase' : Phase}
  {s s' : t.State (Ledger b × σ) (Request b × φ)}

theorem evolves_toModern {quiet quiet' : Prop} (h : t.Evolves quiet' s s') (hle : phase ≤ phase')
    (hagrees : ToModern.Agrees phase' (t.Untouched s') (t.Confirmed s'))
    (hquiet : quiet → phase = .active → phase' = .active ∧ quiet') :
    (toModern poll t).Evolves quiet (phase, s) (phase', s') where
  sound := ⟨h.sound, hagrees⟩
  phases := le_phases_append h.phases hle
  confirmed hc := by
    have hc : phase = .closed := hc
    change phase' = .closed
    revert hle
    cases hc
    cases phase' <;> decide
  untouched hq hu := by
    obtain ⟨hphase, hu⟩ := hu
    obtain ⟨hphase', hq⟩ := hquiet hq hphase
    exact ⟨hphase', h.untouched hq hu⟩

/-- A quiet step below leaves the bridge as it is. -/
theorem Evolves.beneath_toModern {quiet quiet' : Prop} (hs : (toModern poll t).Sound (phase, s))
    (h : t.Evolves quiet' s s') (hq : quiet') :
    (toModern poll t).Evolves quiet (phase, s) (phase, s') := by
  refine evolves_toModern h phase.le_refl ⟨?_, ?_⟩ fun _ hactive => ⟨hactive, hq⟩
  · exact fun hactive => h.untouched hq (hs.2.untouched hactive)
  · exact fun hclosed => h.confirmed (hs.2.closed hclosed)

variable {turn : Turn (t.State (Ledger b × σ) (Request b × φ)) (t.Call (Request b × φ))
  (Answer .legacy)}

theorem Steps.relay_toModern {quiet quiet' : Prop} (hs : (toModern poll t).Sound (phase, s))
    (h : t.Steps false quiet' s turn) (hq : quiet') :
    (toModern poll t).Steps false quiet (phase, s) (ToModern.relay phase turn) := by
  have hevolves : (toModern poll t).Evolves quiet (phase, s) (phase, turn.state) :=
    h.evolves.beneath_toModern hs hq
  obtain ⟨x, p, es⟩ := turn
  cases p with
  | waiting call => exact .of_waiting hevolves rfl ⟨rfl, h.fits call rfl⟩
  | answered a =>
    cases a with
    | ok reply => exact .of_success hevolves rfl nofun
    | error e => exact .of_failure hevolves rfl

/-- What is handed on neither asks for a close nor tells of one. -/
theorem ToModern.passed?_quiet {σ φ : Type} {below : Level .legacy σ φ} {r : ModernRequest}
    {r' : LegacyRequest} {es : List Event} (h : ToModern.passed? below r = some (r', es)) :
    asksClose (g := .modern) r = false ∧ tellsClosed (g := .modern) r = false ∧
      asksClose (g := .legacy) r' = false ∧ tellsClosed (g := .legacy) r' = false := by
  cases r with
  | get | delete =>
    cases h
    exact ⟨rfl, rfl, rfl, rfl⟩
  | set _ w | add _ w =>
    simp only [ToModern.passed?, Option.some.injEq, ToModern.route] at h
    split at h
    · cases h
      exact ⟨rfl, rfl, rfl, rfl⟩
    · split at h <;> cases h <;> exact ⟨rfl, rfl, rfl, rfl⟩
  | setMulti _ items =>
    simp only [ToModern.passed?, ToModern.routeBatch] at h
    split at h
    · cases h
    · split at h
      · cases h
        exact ⟨rfl, rfl, rfl, rfl⟩
      · split at h <;> cases h <;> exact ⟨rfl, rfl, rfl, rfl⟩
  | close => cases h

theorem steps_giveUp (hs : (toModern poll t).Sound (phase, s)) :
    (toModern poll t).Steps true False (phase, s) (ToModern.giveUp phase s) :=
  .of_failure (.refl hs) rfl

theorem steps_pause (scope : Scope) (started : Nat) (env : Env)
    (hs : (toModern poll t).Sound (phase, s)) :
    (toModern poll t).Steps true False (phase, s)
      (ToModern.pause poll scope started env phase s) := by
  unfold ToModern.pause
  split
  · exact steps_giveUp hs
  · exact .of_waiting (.refl hs) rfl rfl

/-- A success from below is a close that the tower below has confirmed. -/
theorem steps_judge {quiet : Prop} {scope : Scope} {started : Nat} {env : Env}
    {again : t.State (Ledger b × σ) (Request b × φ) → ToModern.Step _ _}
    (hs : (toModern poll t).Sound (phase, s)) (h : t.Steps true quiet s turn) (hq : quiet)
    (hagain : ∀ s', (toModern poll t).Sound (phase, s') →
      (toModern poll t).Steps true False (phase, s') (again s')) :
    (toModern poll t).Steps true False (phase, s)
      (ToModern.judge scope started env phase again turn) := by
  have hevolves : (toModern poll t).Evolves False (phase, s) (phase, turn.state) :=
    h.evolves.beneath_toModern hs hq
  obtain ⟨x, p, es⟩ := turn
  cases p with
  | waiting call =>
    simp only [ToModern.judge]
    split
    · exact .after (.trans hevolves (steps_giveUp hevolves.sound)) es
    · exact .of_waiting hevolves rfl ⟨rfl, h.fits call rfl⟩
  | answered a =>
    cases a with
    | ok reply =>
      have hclosed : t.Confirmed x := h.success reply rfl rfl
      refine .of_success ?_ rfl fun _ => rfl
      exact evolves_toModern h.evolves phase.le_complete ⟨nofun, fun _ => hclosed⟩ nofun
    | error e =>
      cases e with
      | backend => exact .of_failure hevolves rfl
      | condition c =>
        cases c with
        | timeout => exact .after (.trans hevolves (hagain x hevolves.sound)) es
        | keyNotFound | keyAlreadyExists | notImplemented => exact .of_failure hevolves rfl

variable {below : Level b σ φ}

theorem Obeys.beginPoll (ih : t.Obeys below) (scope : Scope) (env : Env)
    (hs : (toModern poll t).Sound (phase, s)) :
    (toModern poll t).Steps true False (phase, s)
      (ToModern.beginPoll (t.level below.recorded) poll scope env phase s) :=
  steps_judge hs (ih.start (.waitForClose poll) env s hs.1 nofun) rfl
    fun _ hs' => steps_pause scope env.now env hs'

theorem Obeys.pollAgain (ih : t.Obeys below) (scope : Scope) (started : Nat) (env : Env)
    (hs : (toModern poll t).Sound (phase, s)) :
    (toModern poll t).Steps true False (phase, s)
      (ToModern.pollAgain (t.level below.recorded) poll scope started env phase s) := by
  unfold ToModern.pollAgain
  split
  · exact steps_giveUp hs
  · split
    · exact ih.beginPoll scope env hs
    · exact steps_pause scope started env hs

/-- The first close signals the tower below, which nobody has asked to close until then. -/
theorem Obeys.close (ih : t.Obeys below) (scope : Scope) (env : Env)
    (hs : (toModern poll t).Sound (phase, s)) :
    (toModern poll t).Steps true False (phase, s)
      (ToModern.close (t.level below.recorded) poll scope env phase s) := by
  unfold ToModern.close
  cases hphase : phase with
  | closed =>
    subst hphase
    exact .of_success (.refl hs) rfl fun _ => rfl
  | closing =>
    subst hphase
    exact ih.beginPoll scope env hs
  | active =>
    subst hphase
    have hsignal := ih.start .closeAsync env s hs.1 fun _ => .inl (hs.2.untouched rfl)
    have hevolves : (toModern poll t).Evolves False (.active, s) (.closing, _) :=
      evolves_toModern hsignal.evolves (by decide) ⟨nofun, nofun⟩ nofun
    exact .after (.trans hevolves (ih.beginPoll scope env hevolves.sound)) _

theorem obeys_toModern (ih : t.Obeys below) : (toModern poll t).Obeys below where
  start r env s hs _ := by
    cases hpass : ToModern.passed? (t.level below.recorded) r with
    | some passed =>
      obtain ⟨r', es⟩ := passed
      obtain ⟨-, hquiet, hasks, htells⟩ := ToModern.passed?_quiet hpass
      have h := ih.start r' env s.2 hs.1 (by simp [hasks])
      rw [htells] at h
      rw [hquiet]
      have hstart : ((toModern poll t).level below.recorded).start r env s = _ :=
        ToModern.start_passed (t.level below.recorded) poll hpass
      rw [hstart]
      exact (h.relay_toModern hs hasks).after es
    | none =>
      cases r with
      | get | set | add | delete => cases hpass
      | setMulti scope items =>
        have hroute : ToModern.routeBatch (t.level below.recorded) items = none := hpass
        have hstart : ((toModern poll t).level below.recorded).start (.setMulti scope items) env s =
            .answer s (.error .notImplemented) := by
          simp only [level, ToModern.level, ToModern.start, hroute]
        rw [hstart]
        exact .of_failure (.refl hs) rfl
      | close scope => exact (ih.close scope env hs).loud (by simp [asksClose])
  resume tells call env s hfits hs := by
    cases call with
    | relayed call =>
      obtain ⟨rfl, hfits⟩ := hfits
      exact (ih.resume false call env s.2 hfits hs.1).relay_toModern hs (.inl rfl)
    | polling scope started call =>
      obtain ⟨rfl, hfits⟩ := hfits
      refine Steps.loud ?_ (by simp)
      exact steps_judge hs (ih.resume true call env s.2 hfits hs.1) (.inl rfl)
        fun _ hs' => ih.pollAgain scope started env hs'
    | pausing scope ring =>
      cases (hfits : tells = true)
      refine Steps.loud ?_ (by simp)
      simp only [level, ToModern.level, ToModern.resume]
      split
      · exact steps_giveUp hs
      · split
        · exact ih.beginPoll scope env hs
        · exact .of_waiting (.refl hs) rfl rfl

end ToModern

/-- The calls of every tower are safe. -/
theorem obeys (below : Level b σ φ) (t : Tower b g) : t.Obeys below := by
  induction t with
  | ground => exact obeys_ground below
  | toLegacy counts t ih => exact obeys_toLegacy ih
  | toModern poll t ih => exact obeys_toModern ih

/-! ## The background -/

theorem evolves_conclude {t : Tower b .modern} {counts : Bool} {quiet : Prop}
    {own : ToLegacy.Own (t.Call (Request b × φ))} {s : t.State (Ledger b × σ) (Request b × φ)}
    {turn : Turn (t.State (Ledger b × σ) (Request b × φ)) (t.Call (Request b × φ))
      (Answer .modern)}
    (hs : (toLegacy counts t).Sound (own, s)) (h : t.Steps true quiet s turn)
    (hbusy : own.closer ≠ .idle) :
    (toLegacy counts t).Evolves True (own, s) (ToLegacy.conclude own turn).1 := by
  have hpast : own.phase ≠ .active := fun hactive => hbusy (hs.2.idle hactive)
  have hquiet {own'} : True → own.closer = .idle → own' = own ∧ quiet :=
    fun _ hidle => absurd hidle hbusy
  have hclosed : own.phase = .closed → t.Confirmed turn.state :=
    fun hc => h.evolves.confirmed (hs.2.closed hc)
  obtain ⟨x, p, es⟩ := turn
  cases p with
  | waiting call =>
    refine evolves_toLegacy hs h.evolves own.phase.le_refl ⟨?_, ?_, ?_, hclosed⟩ hquiet
    · exact fun hactive => absurd hactive hpast
    · rintro (hc | hc) <;> cases hc
    · intro c hc
      cases hc
      exact h.fits call rfl
  | answered a =>
    cases a with
    | ok reply =>
      refine evolves_toLegacy hs h.evolves own.phase.le_complete ⟨nofun, ?_, nofun, ?_⟩ hquiet
      · rintro (hc | hc) <;> cases hc
      · exact fun _ => h.success reply rfl rfl
    | error e =>
      refine evolves_toLegacy hs h.evolves own.phase.le_refl ⟨?_, ?_, nofun, hclosed⟩ hquiet
      · exact fun hactive => absurd hactive hpast
      · rintro (hc | hc) <;> cases hc

theorem evolves_runCloser (below : Level b σ φ) {t : Tower b .modern} {counts : Bool} (env : Env)
    {s : (toLegacy counts t).State (Ledger b × σ) (Request b × φ)}
    (hs : (toLegacy counts t).Sound s) :
    (toLegacy counts t).Evolves True s
      (ToLegacy.runCloser (t.level below.recorded) env s).1 := by
  obtain ⟨own, s⟩ := s
  have hobeys := t.obeys below
  simp only [ToLegacy.runCloser]
  cases hcloser : own.closer with
  | idle | finished => exact .refl hs
  | requested =>
    have hbelow : t.Untouched s := hs.2.untouched (.inr hcloser)
    exact evolves_conclude hs (hobeys.start (.close .background) env s hs.1 fun _ => .inl hbelow)
      (by simp [hcloser])
  | running call =>
    exact evolves_conclude hs (hobeys.resume true call env s (hs.2.running call hcloser) hs.1)
      (by simp [hcloser])

/-- Background work is as safe as a quiet call. -/
theorem evolves_job (below : Level b σ φ) (base : List (Job σ)) (t : Tower b g)
    {job : Job (t.State (Ledger b × σ) (Request b × φ))}
    (hjob : job ∈ t.jobs below.recorded (base.map (·.beneath (Ledger b)))) (env : Env)
    {s : t.State (Ledger b × σ) (Request b × φ)} (hs : t.Sound s) :
    t.Evolves True s (job.run env s).1 := by
  induction t with
  | ground =>
    obtain ⟨job, -, rfl⟩ := List.mem_map.mp hjob
    exact ⟨hs, .nil, id, fun _ hu => hu⟩
  | toLegacy counts t ih =>
    rcases List.mem_append.mp hjob with hjob | hjob
    · obtain ⟨inner, hinner, rfl⟩ := List.mem_map.mp hjob
      exact (ih hinner hs.1).beneath_toLegacy hs trivial
    · cases List.mem_singleton.mp hjob
      exact evolves_runCloser below env hs
  | toModern poll t ih =>
    obtain ⟨inner, hinner, rfl⟩ := List.mem_map.mp hjob
    exact (ih hinner hs.1).beneath_toModern hs trivial

end Tower

end CacheBridge
