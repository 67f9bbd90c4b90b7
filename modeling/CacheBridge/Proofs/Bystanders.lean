import CacheBridge.Proofs.LongClose

/-!
Data calls next to a close. A call that neither asks for a close nor waits for one goes down to the
bottom and comes back, and may be asleep there for any time; whatever it does, it leaves the close
of the tower as it is.
-/

namespace CacheBridge.Tower

variable {g : Generation} {σ φ : Type}

/-- The call has nothing to do with a close. -/
def Data : {g : Generation} → (t : Tower .modern g) → t.LoggedCall φ → Prop
  | _, .ground, call => call.1 = false
  | _, .toLegacy _ t, call => match call with
    | .relayed call | .replaying call _ => t.Data call
    | .waiting _ _ => False
  | _, .toModern _ t, call => match call with
    | .relayed call => t.Data call
    | .polling _ _ _ | .pausing _ _ => False

/-- A step of a data call, which has looked at the bottom at least `looks` times. -/
structure Aside (looks : Nat) (t : Tower .modern g) (x : t.Logged σ φ)
    (turn : Turn (t.Logged σ φ) (t.LoggedCall φ) (Answer g)) : Prop where
  like : t.Like x turn.state
  looks : (t.log x).looks + looks ≤ (t.log turn.state).looks
  data : ∀ call, turn.progress = .waiting call → t.Data call

namespace Aside

variable {looks : Nat}

theorem after {t : Tower .modern g} {x : t.Logged σ φ}
    {turn : Turn (t.Logged σ φ) (t.LoggedCall φ) (Answer g)} (h : t.Aside looks x turn)
    (es : List Event) : t.Aside looks x (turn.after es) :=
  ⟨h.like, h.looks, h.data⟩

theorem answer (t : Tower .modern g) (x : t.Logged σ φ) (a : Answer g) (es : List Event) :
    t.Aside 0 x ⟨x, .answered a, es⟩ :=
  ⟨.refl t x, Nat.le_refl _, nofun⟩

theorem relay_toLegacy {t : Tower .modern .modern} {counts : Bool}
    {own : ToLegacy.Own (t.LoggedCall φ)} {x : t.Logged σ φ}
    {turn : Turn (t.Logged σ φ) (t.LoggedCall φ) (Answer .modern)} (h : t.Aside looks x turn) :
    (toLegacy counts t).Aside looks (own, x) (ToLegacy.relay own turn) := by
  obtain ⟨y, p, es⟩ := turn
  refine ⟨⟨rfl, h.like⟩, h.looks, fun call hcall => ?_⟩
  cases p with
  | waiting c =>
    cases hcall
    exact h.data c rfl
  | answered a => cases hcall

theorem relay_toModern {t : Tower .modern .legacy} {poll : Nat} {phase : Phase}
    {x : t.Logged σ φ}
    {turn : Turn (t.Logged σ φ) (t.LoggedCall φ) (Answer .legacy)} (h : t.Aside looks x turn) :
    (toModern poll t).Aside looks (phase, x) (ToModern.relay phase turn) := by
  obtain ⟨y, p, es⟩ := turn
  refine ⟨⟨rfl, h.like⟩, h.looks, fun call hcall => ?_⟩
  cases p with
  | waiting c =>
    cases hcall
    exact h.data c rfl
  | answered a => cases hcall

/-- A write of a batch, and what comes after it. -/
theorem settle {t : Tower .modern .modern} {counts : Bool}
    {own : ToLegacy.Own (t.LoggedCall φ)} {x : t.Logged σ φ} {rest : List Write}
    {next : t.Logged σ φ → Turn ((toLegacy counts t).Logged σ φ) _ (Answer .legacy)}
    {turn : Turn (t.Logged σ φ) (t.LoggedCall φ) (Answer .modern)} (h : t.Aside looks x turn)
    (hnext : ∀ y, (toLegacy counts t).Aside 0 (own, y) (next y)) :
    (toLegacy counts t).Aside looks (own, x) (ToLegacy.settle own rest next turn) := by
  obtain ⟨y, p, es⟩ := turn
  cases p with
  | waiting c =>
    refine ⟨⟨rfl, h.like⟩, h.looks, fun call hcall => ?_⟩
    cases hcall
    exact h.data c rfl
  | answered a =>
    cases a with
    | ok reply =>
      have hrest := hnext y
      have hwrite : (toLegacy counts t).Like (own, x) (own, y) := ⟨rfl, h.like⟩
      exact ⟨hwrite.trans hrest.like, Nat.le_trans h.looks hrest.looks, hrest.data⟩
    | error e => exact ⟨⟨rfl, h.like⟩, h.looks, nofun⟩

end Aside

/-! ## Steps of data calls -/

/-- A request that has nothing to do with a close. -/
def isData (r : Request g) : Prop := asksClose r = false ∧ tellsClosed r = false

variable (below : Level .modern σ φ)

/-- What the data calls of a tower do. -/
structure Spares (t : Tower .modern g) : Prop where
  start : ∀ r env x, isData r → t.Aside 0 x ((t.logging below).start r env x)
  resume : ∀ call env x, t.Data call → t.Aside 1 x ((t.logging below).resume call env x)

theorem aside_note {log log' : CloseLog} (y : σ) {looks : Nat} (hasked : log'.asked = log.asked)
    (htold : log'.told = log.told) (hlooks : log.looks + looks ≤ log'.looks + 1) (now : Nat)
    (turn : Turn σ φ (Answer .modern)) :
    (ground : Tower .modern .modern).Aside looks (log, y) (log'.note now false turn) := by
  obtain ⟨y', p, es⟩ := turn
  cases p with
  | waiting call =>
    refine ⟨⟨hasked, htold⟩, hlooks, fun c hc => ?_⟩
    cases hc
    rfl
  | answered a => exact ⟨⟨hasked, htold⟩, hlooks, nofun⟩

theorem spares_ground : (ground : Tower .modern .modern).Spares below where
  start r env x hr := by
    have hask : x.1.ask env.now r = x.1 := by
      cases r with
      | close => exact absurd hr.1 (by simp [asksClose])
      | get | set | add | delete | setMulti => rfl
    have hnote := aside_note x.2 (congrArg CloseLog.asked hask) (congrArg CloseLog.told hask)
      (show x.1.looks + 0 ≤ _ from by rw [hask]; exact Nat.le_succ _) env.now
      (below.start r env x.2)
    rw [← hr.1] at hnote
    exact hnote
  resume call env x hcall := by
    obtain ⟨closes, call⟩ := call
    cases (hcall : closes = false)
    exact aside_note x.2 rfl rfl (Nat.le_refl _) env.now (below.resume call env x.2)

section ToLegacy

variable {t : Tower .modern .modern} {counts : Bool} {below}

theorem Spares.replay (ih : t.Spares below) (own : ToLegacy.Own (t.LoggedCall φ))
    (items : List Write) (env : Env) (x : t.Logged σ φ) :
    (toLegacy counts t).Aside 0 (own, x) (ToLegacy.replay (t.logging below) own items env x) := by
  induction items generalizing x with
  | nil => exact .answer _ _ _ _
  | cons w rest ihrest =>
    exact Aside.settle (ih.start (.set .background w) env x ⟨rfl, rfl⟩) ihrest

theorem Spares.writeBatch (ih : t.Spares below) (own : ToLegacy.Own (t.LoggedCall φ))
    (items : List Write) (env : Env) (x : t.Logged σ φ) :
    (toLegacy counts t).Aside 0 (own, x)
      (ToLegacy.writeBatch (t.logging below) counts items env own x) := by
  unfold ToLegacy.writeBatch
  split
  · have hbatch := ih.start (.setMulti .background items) env x ⟨rfl, rfl⟩
    exact hbatch.relay_toLegacy
  · exact (ih.replay own items env x).after _

theorem spares_toLegacy (ih : t.Spares below) : (toLegacy counts t).Spares below where
  start r env x hr := by
    obtain ⟨own, x⟩ := x
    cases hpass : ToLegacy.passed? (t.logging below) r with
    | some r' =>
      obtain ⟨-, hasks, htells⟩ := ToLegacy.passed?_quiet hpass
      change (toLegacy counts t).Aside 0 (own, x)
        (ToLegacy.start (t.logging below) counts r env (own, x))
      rw [ToLegacy.start_passed (t.logging below) counts hpass]
      exact Aside.relay_toLegacy (ih.start r' env x ⟨hasks, htells⟩)
    | none =>
      cases r with
      | get | set | add | delete | setWithTtl | addWithTtl => cases hpass
      | setMulti | setMultiWithTtl => exact ih.writeBatch own _ env x
      | closeAsync => exact absurd hr.1 (by simp [asksClose])
      | waitForClose => exact absurd hr.2 (by simp [tellsClosed])
  resume call env x hcall := by
    obtain ⟨own, x⟩ := x
    cases call with
    | relayed call => exact Aside.relay_toLegacy (ih.resume call env x hcall)
    | replaying call rest =>
      exact Aside.settle (ih.resume call env x hcall) (ih.replay own rest env)
    | waiting => exact hcall.elim

end ToLegacy

theorem spares_toModern {t : Tower .modern .legacy} {poll : Nat} (ih : t.Spares below) :
    (toModern poll t).Spares below where
  start r env x hr := by
    obtain ⟨phase, x⟩ := x
    cases hpass : ToModern.passed? (t.logging below) r with
    | some passed =>
      obtain ⟨r', es⟩ := passed
      obtain ⟨-, -, hasks, htells⟩ := ToModern.passed?_quiet hpass
      change (toModern poll t).Aside 0 (phase, x)
        (ToModern.start (t.logging below) poll r env (phase, x))
      rw [ToModern.start_passed (t.logging below) poll hpass]
      exact (Aside.relay_toModern (ih.start r' env x ⟨hasks, htells⟩)).after es
    | none =>
      cases r with
      | get | set | add | delete => cases hpass
      | setMulti scope items =>
        have hroute : ToModern.routeBatch (t.logging below) items = none := hpass
        have hstart :
            ((toModern poll t).logging below).start (.setMulti scope items) env (phase, x) =
              .answer (phase, x) (.error .notImplemented) := by
          simp only [logging, level, ToModern.level, ToModern.start, hroute]
        rw [hstart]
        exact .answer _ _ _ _
      | close => exact absurd hr.1 (by simp [asksClose])
  resume call env x hcall := by
    obtain ⟨phase, x⟩ := x
    cases call with
    | relayed call => exact Aside.relay_toModern (ih.resume call env x hcall)
    | polling => exact hcall.elim
    | pausing => exact hcall.elim

/-- Data calls leave the close of every tower alone. -/
theorem spares (t : Tower .modern g) : t.Spares below := by
  induction t with
  | ground => exact spares_ground below
  | toLegacy counts t ih => exact spares_toLegacy ih
  | toModern poll t ih => exact spares_toModern below ih

end CacheBridge.Tower
