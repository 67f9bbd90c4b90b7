import Mathlib.Data.List.Perm.Basic
import CacheBridge.Proofs.Closing

/-!
A level with its callers on a clock. Calls are made, looked at, given up, and answered, and
background work is taken on, in any order; a call or a piece of work is looked at only when it is
ready. The clock moves only when nothing is ready, and past no alarm. Scopes may be derived and
cancelled at any moment. Every event loop that is driven by what is ready and by the alarms acts
like this, whatever order it prefers.
-/

namespace CacheBridge

/-- Whether the time is up for a wait for a close that began at `since`. -/
def lapsed (since : Nat) (env : Env) : {g : Generation} → Request g → Bool
  | .modern, .close scope => env.ended scope
  | .legacy, .waitForClose timeout => Time.ring since timeout ≤ env.now
  | _, _ => false

/-- When the clock tells such a wait that its time is up. -/
def bell (since : Nat) : {g : Generation} → Request g → Option Nat
  | .modern, .close scope => scope.alarm
  | .legacy, .waitForClose timeout => some (Time.ring since timeout)
  | _, _ => none

namespace ScopeTree

theorem isCancelled_derive {t : ScopeTree} {n : Nat} (h : t.isCancelled n = true)
    (parent : Option Nat) : (t.derive parent).1.isCancelled n = true := by
  obtain ⟨node, hnode, hcancelled⟩ := Option.any_eq_true _ _ |>.mp h
  have hnode : t.nodes.find? (·.number == n) = some node := hnode
  simp [isCancelled, node?, derive, List.find?_append, hnode, hcancelled]

theorem isCancelled_cancel {t : ScopeTree} {n : Nat} (h : t.isCancelled n = true) (m : Nat) :
    (t.cancel m).isCancelled n = true := by
  obtain ⟨node, hnode, hcancelled⟩ := Option.any_eq_true _ _ |>.mp h
  have hnode : t.nodes.find? (·.number == n) = some node := hnode
  have hnumber (other : ScopeNode) : (if (below t.nodes m).contains other.number then
      { other with cancelled := true } else other).number = other.number := by
    split <;> rfl
  simp only [isCancelled, node?, cancel, List.find?_map, Function.comp_def, hnumber, hnode,
    Option.map_some, Option.any_some]
  split
  · rfl
  · exact hcancelled

theorem isCancelled_cancelScope {t : ScopeTree} {n : Nat} (h : t.isCancelled n = true) (s : Scope) :
    (t.cancelScope s).isCancelled n = true := by
  unfold cancelScope
  cases s.node with
  | none => exact h
  | some m => exact isCancelled_cancel h m

end ScopeTree

/-- What has ended stays so. -/
structure Env.Before (env later : Env) : Prop where
  now : env.now ≤ later.now
  ended : ∀ s, env.ended s = true → later.ended s = true

namespace Env.Before

variable {env later : Env}

theorem refl (env : Env) : env.Before env := ⟨Nat.le_refl _, fun _ => id⟩

theorem trans {last : Env} (h : env.Before later) (h' : later.Before last) : env.Before last :=
  ⟨Nat.le_trans h.now h'.now, fun s hs => h'.ended s (h.ended s hs)⟩

theorem of_cancelled {scopes : ScopeTree} {wall : Nat}
    (h : ∀ n, env.scopes.isCancelled n = true → scopes.isCancelled n = true) :
    env.Before { env with scopes := scopes, wall := wall } := by
  refine ⟨Nat.le_refl _, fun s hs => ?_⟩
  simp only [Env.ended, ScopeTree.ended, Bool.or_eq_true, Option.any_eq_true] at hs ⊢
  refine hs.imp_left fun hcancelled => ?_
  obtain ⟨n, hn, hc⟩ := hcancelled
  exact ⟨n, hn, h n hc⟩

theorem of_le {t : Nat} (h : env.now ≤ t) : env.Before { env with now := t } :=
  ⟨h, fun _ => ScopeTree.ended_mono h⟩

theorem lapsed (h : env.Before later) {g : Generation} {r : Request g} {since : Nat}
    (hr : lapsed since env r = true) : lapsed since later r = true := by
  cases g with
  | modern =>
    cases r with
    | close s => exact h.ended s hr
    | get | set | add | delete | setMulti => cases hr
  | legacy =>
    cases r with
    | waitForClose timeout =>
      exact decide_eq_true (Nat.le_trans (of_decide_eq_true hr) h.now)
    | get | set | add | delete | closeAsync | setWithTtl | addWithTtl | setMulti
    | setMultiWithTtl => cases hr

end Env.Before

/-- A call that has not been answered, and when it was made. -/
structure Pending (g : Generation) (φ : Type) where
  request : Request g
  since : Nat
  call : φ

/-- An answer that a caller has had: when the call was made, when it was answered, and whether its
time was up by then. -/
structure Told (g : Generation) where
  request : Request g
  since : Nat
  answer : Answer g
  till : Nat
  late : Bool

structure Clockwork (g : Generation) (σ φ : Type) where
  env : Env
  state : σ
  pending : List (Pending g φ) := []
  told : List (Told g) := []
  /-- When a close was asked for, and whether background work could be started from there. -/
  asked : List (Nat × Bool) := []

namespace Clockwork

inductive Act (g : Generation) where
  /-- Makes a call, inside a runtime or outside. -/
  | call (r : Request g) (inside : Bool)
  | look (i : Nat)
  | abandon (i : Nat)
  | work (i : Nat)
  | derive (parent : Option Nat)
  | cancel (s : Scope)
  /-- Moves the clock that entries expire by. -/
  | age (span : Nat)
  | pass (t : Nat)

variable {g : Generation} {σ φ : Type} (l : Level g σ φ) (jobs : List (Job σ))

/-- Nothing is ready. -/
def quiet (w : Clockwork g σ φ) : Bool :=
  w.pending.all (fun p => !l.ready p.call w.env w.state) && jobs.all fun j => !j.ready w.env w.state

def alarms (w : Clockwork g σ φ) : List Nat :=
  w.pending.filterMap (fun p => l.alarm p.call) ++ jobs.filterMap fun j => j.alarm w.state

/-- What a step of a call comes to, next to the other calls. -/
def take (w : Clockwork g σ φ) (r : Request g) (since : Nat) (others : List (Pending g φ))
    (turn : Turn σ φ (Answer g)) : Clockwork g σ φ :=
  match turn.progress with
  | .waiting call => { w with state := turn.state, pending := others ++ [⟨r, since, call⟩] }
  | .answered a =>
    { w with
      state := turn.state
      pending := others
      told := w.told ++ [⟨r, since, a, w.env.now, lapsed since w.env r⟩] }

def ask (w : Clockwork g σ φ) (r : Request g) (inside : Bool) : Clockwork g σ φ :=
  { w with asked := if asksClose r then w.asked ++ [(w.env.now, inside)] else w.asked }

/-- Acts, if this can be done now. -/
def step? (w : Clockwork g σ φ) : Act g → Option (Clockwork g σ φ)
  | .call r inside =>
    some ((w.ask r inside).take r w.env.now w.pending
      (l.start r { w.env with runtime := inside } w.state))
  | .look i =>
    (w.pending[i]?).bind fun p =>
      if l.ready p.call w.env w.state then
        some (w.take p.request p.since (w.pending.eraseIdx i) (l.resume p.call w.env w.state))
      else none
  | .abandon i => some { w with pending := w.pending.eraseIdx i }
  | .work i =>
    (jobs[i]?).bind fun j =>
      if j.ready w.env w.state then some { w with state := (j.run w.env w.state).1 } else none
  | .derive parent => some { w with env := { w.env with scopes := (w.env.scopes.derive parent).1 } }
  | .cancel s => some { w with env := { w.env with scopes := w.env.scopes.cancelScope s } }
  | .age span => some { w with env := { w.env with wall := w.env.wall + span } }
  | .pass t =>
    if w.env.now < t ∧ t < Time.horizon ∧ w.quiet l jobs ∧
        ∀ a ∈ w.alarms l jobs, w.env.now < a → t ≤ a then
      some { w with env := { w.env with now := t } }
    else none

/-- What an act comes to. -/
inductive Stepped (w : Clockwork g σ φ) : Act g → Clockwork g σ φ → Prop where
  | call (r : Request g) (inside : Bool) :
      Stepped w (.call r inside) ((w.ask r inside).take r w.env.now w.pending
        (l.start r { w.env with runtime := inside } w.state))
  | look (i : Nat) {p : Pending g φ} (hp : w.pending[i]? = some p)
      (hready : l.ready p.call w.env w.state = true) :
      Stepped w (.look i)
        (w.take p.request p.since (w.pending.eraseIdx i) (l.resume p.call w.env w.state))
  | abandon (i : Nat) : Stepped w (.abandon i) { w with pending := w.pending.eraseIdx i }
  | work (i : Nat) {j : Job σ} (hj : j ∈ jobs) (hready : j.ready w.env w.state = true) :
      Stepped w (.work i) { w with state := (j.run w.env w.state).1 }
  | derive (parent : Option Nat) :
      Stepped w (.derive parent)
        { w with env := { w.env with scopes := (w.env.scopes.derive parent).1 } }
  | cancel (s : Scope) :
      Stepped w (.cancel s) { w with env := { w.env with scopes := w.env.scopes.cancelScope s } }
  | age (span : Nat) :
      Stepped w (.age span) { w with env := { w.env with wall := w.env.wall + span } }
  | pass {t : Nat} (hnow : w.env.now < t) (ht : t < Time.horizon) (hquiet : w.quiet l jobs = true)
      (halarms : ∀ a ∈ w.alarms l jobs, w.env.now < a → t ≤ a) :
      Stepped w (.pass t) { w with env := { w.env with now := t } }

variable {l jobs}

theorem stepped {w w' : Clockwork g σ φ} {act : Act g} (h : w.step? l jobs act = some w') :
    w.Stepped l jobs act w' := by
  cases act with
  | call r inside =>
    cases h
    exact .call r inside
  | look i =>
    obtain ⟨p, hp, h⟩ := Option.bind_eq_some_iff.mp h
    split at h
    · next hready =>
      cases h
      exact .look i hp hready
    · cases h
  | abandon i =>
    cases h
    exact .abandon i
  | work i =>
    obtain ⟨j, hj, h⟩ := Option.bind_eq_some_iff.mp h
    split at h
    · next hready =>
      cases h
      exact .work i (List.mem_of_getElem? hj) hready
    · cases h
  | derive parent =>
    cases h
    exact .derive parent
  | cancel s =>
    cases h
    exact .cancel s
  | age span =>
    cases h
    exact .age span
  | pass t =>
    simp only [step?] at h
    split at h
    · next hpass =>
      obtain ⟨hnow, ht, hquiet, halarms⟩ := hpass
      cases h
      exact .pass hnow ht hquiet halarms
    · cases h

theorem take_env (w : Clockwork g σ φ) (r : Request g) (since : Nat) (others : List (Pending g φ))
    (turn : Turn σ φ (Answer g)) : (w.take r since others turn).env = w.env := by
  unfold take
  cases turn.progress <;> rfl

theorem ready_of_quiet {w : Clockwork g σ φ} (h : w.quiet l jobs = true) :
    (∀ p ∈ w.pending, l.ready p.call w.env w.state = false) ∧
      ∀ j ∈ jobs, j.ready w.env w.state = false := by
  simpa [quiet] using h

theorem alarm_of_call {w : Clockwork g σ φ} {p : Pending g φ} (hp : p ∈ w.pending) {a : Nat}
    (ha : l.alarm p.call = some a) : a ∈ w.alarms l jobs :=
  List.mem_append_left _ (List.mem_filterMap.mpr ⟨p, hp, ha⟩)

theorem alarm_of_job {w : Clockwork g σ φ} {j : Job σ} (hj : j ∈ jobs) {a : Nat}
    (ha : j.alarm w.state = some a) : a ∈ w.alarms l jobs :=
  List.mem_append_right _ (List.mem_filterMap.mpr ⟨j, hj, ha⟩)

theorem take_asked (w : Clockwork g σ φ) (r : Request g) (since : Nat) (others : List (Pending g φ))
    (turn : Turn σ φ (Answer g)) : (w.take r since others turn).asked = w.asked := by
  unfold take
  cases turn.progress <;> rfl

theorem take_told (w : Clockwork g σ φ) (r : Request g) (since : Nat) (others : List (Pending g φ))
    (turn : Turn σ φ (Answer g)) : w.told <+: (w.take r since others turn).told := by
  unfold take
  cases turn.progress with
  | waiting => exact List.prefix_rfl
  | answered => exact List.prefix_append _ _

/-- An act leaves what has ended as it is. -/
theorem Stepped.before {w w' : Clockwork g σ φ} {act : Act g} (h : w.Stepped l jobs act w') :
    w.env.Before w'.env := by
  cases h with
  | call r inside =>
    rw [take_env]
    exact .refl _
  | look i hp hready =>
    rw [take_env]
    exact .refl _
  | abandon | work => exact .refl _
  | derive parent => exact .of_cancelled fun n hn => ScopeTree.isCancelled_derive hn parent
  | cancel s => exact .of_cancelled fun n hn => ScopeTree.isCancelled_cancelScope hn s
  | age => exact .of_cancelled fun _ => id
  | pass hnow => exact .of_le (Nat.le_of_lt hnow)

variable (l jobs)

/-- Acts as often as told, if all of it can be done. -/
def run? (w : Clockwork g σ φ) (acts : List (Act g)) : Option (Clockwork g σ φ) :=
  acts.foldlM (step? l jobs) w

variable {l jobs}

theorem Stepped.asked {w w' : Clockwork g σ φ} {act : Act g} (h : w.Stepped l jobs act w') :
    w.asked <+: w'.asked := by
  cases h with
  | call r inside =>
    rw [take_asked]
    unfold ask
    split
    · exact List.prefix_append _ _
    · exact List.prefix_rfl
  | look i hp hready => exact (take_asked ..).symm ▸ List.prefix_rfl
  | abandon | work | derive | cancel | age | pass => exact List.prefix_rfl

theorem run?_cons {w w' : Clockwork g σ φ} {act : Act g} {acts : List (Act g)} :
    run? l jobs w (act :: acts) = some w' ↔
      ∃ v, step? l jobs w act = some v ∧ run? l jobs v acts = some w' := by
  simp only [run?, List.foldlM_cons, Option.bind_eq_bind, Option.bind_eq_some_iff]

/-- What every act of a run keeps holds in the end. The rest of the run is given at each act, since
some acts keep it only where the run ends as it does. -/
theorem run?_invariant {P : Clockwork g σ φ → Prop} {w w' : Clockwork g σ φ} {acts : List (Act g)}
    (hrun : run? l jobs w acts = some w')
    (hstep : ∀ {u v act rest}, act ∈ acts → u.Stepped l jobs act v →
      run? l jobs v rest = some w' → P u → P v)
    (h : P w) : P w' := by
  induction acts generalizing w with
  | nil =>
    cases hrun
    exact h
  | cons act acts ih =>
    obtain ⟨v, hv, hrest⟩ := run?_cons.mp hrun
    have hkept : P v := hstep List.mem_cons_self (stepped hv) hrest h
    exact ih hrest (fun hmem => hstep (List.mem_cons_of_mem _ hmem)) hkept

theorem asked_of_run? {w w' : Clockwork g σ φ} {acts : List (Act g)}
    (h : run? l jobs w acts = some w') : w.asked <+: w'.asked :=
  run?_invariant (P := (w.asked <+: ·.asked)) h
    (fun _ hstep _ hprefix => hprefix.trans hstep.asked) List.prefix_rfl

theorem Stepped.told {w w' : Clockwork g σ φ} {act : Act g} (h : w.Stepped l jobs act w') :
    w.told <+: w'.told := by
  cases h with
  | call r inside => exact take_told (w.ask r inside) r _ _ _
  | look i hp hready => exact take_told ..
  | abandon | work | derive | cancel | age | pass => exact List.prefix_rfl

/-- What was told stays told. -/
theorem told_of_run? {w w' : Clockwork g σ φ} {acts : List (Act g)}
    (h : run? l jobs w acts = some w') : w.told <+: w'.told :=
  run?_invariant (P := (w.told <+: ·.told)) h
    (fun _ hstep _ hprefix => hprefix.trans hstep.told) List.prefix_rfl

theorem step?_look {w : Clockwork g σ φ} {i : Nat} {p : Pending g φ} (hi : w.pending[i]? = some p)
    (hready : l.ready p.call w.env w.state = true) :
    w.step? l jobs (.look i) =
      some (w.take p.request p.since (w.pending.eraseIdx i) (l.resume p.call w.env w.state)) := by
  simp only [step?, hi, Option.bind_some, hready, if_true]

/-- Who was the first to ask for a close was so from the beginning. -/
theorem asked_before {w w' : Clockwork g σ φ} {acts : List (Act g)}
    (h : run? l jobs w acts = some w') {first : Nat × Bool}
    (hfirst : w'.asked = [] ∨ w'.asked.head? = some first) :
    w.asked = [] ∨ w.asked.head? = some first := by
  obtain ⟨more, hmore⟩ := asked_of_run? h
  cases hasked : w.asked with
  | nil => exact .inl rfl
  | cons a rest =>
    rw [← hmore, hasked] at hfirst
    exact .inr (hfirst.resolve_left nofun)

/-- One of the calls, next to the others. -/
theorem perm_pick {calls : List (Pending g φ)} {i : Nat} {p : Pending g φ}
    (h : calls[i]? = some p) : (p :: calls.eraseIdx i).Perm calls := by
  obtain ⟨hi, rfl⟩ := List.getElem?_eq_some_iff.mp h
  exact List.getElem_cons_eraseIdx_perm hi

/-- The call is under way, or it was answered. -/
def Served (w : Clockwork g σ φ) (r : Request g) (since : Nat) : Prop :=
  (∃ p ∈ w.pending, p.request = r ∧ p.since = since) ∨ ∃ c ∈ w.told, c.request = r ∧ c.since = since

section Served

variable {w w' : Clockwork g σ φ} {r : Request g} {since : Nat}

theorem Served.take_new (r : Request g) (since : Nat) (others : List (Pending g φ))
    (turn : Turn σ φ (Answer g)) : (w.take r since others turn).Served r since := by
  obtain ⟨x, p, es⟩ := turn
  cases p with
  | waiting call => exact .inl ⟨_, List.mem_append_right _ List.mem_cons_self, rfl, rfl⟩
  | answered a => exact .inr ⟨_, List.mem_append_right _ List.mem_cons_self, rfl, rfl⟩

theorem Served.take {others : List (Pending g φ)}
    (h : { w with pending := others }.Served r since) (q : Request g) (started : Nat)
    (turn : Turn σ φ (Answer g)) : (w.take q started others turn).Served r since := by
  obtain ⟨x, p, es⟩ := turn
  cases p with
  | waiting call => exact h.imp_left fun ⟨p, hp, hkey⟩ => ⟨p, List.mem_append_left _ hp, hkey⟩
  | answered a => exact h.imp_right fun ⟨c, hc, hkey⟩ => ⟨c, List.mem_append_left _ hc, hkey⟩

/-- A call that nobody gives up is under way until it is answered. -/
theorem Served.stepped (h : w.Served r since) {act : Act g} (hstep : w.Stepped l jobs act w')
    (hact : ∀ i, act ≠ .abandon i) : w'.Served r since := by
  cases hstep with
  | call q inside => exact Served.take (w := w.ask q inside) h q _ _
  | @look i p hi hready =>
    have hothers (h : { w with pending := w.pending.eraseIdx i }.Served r since) := h.take p.request
      p.since (l.resume p.call w.env w.state)
    obtain ⟨q, hq, hkey⟩ | htold := h
    · rcases List.mem_cons.mp ((perm_pick hi).mem_iff.mpr hq) with rfl | hq
      · obtain ⟨rfl, rfl⟩ := hkey
        exact .take_new _ _ _ _
      · exact hothers (.inl ⟨q, hq, hkey⟩)
    · exact hothers (.inr htold)
  | abandon i => exact absurd rfl (hact i)
  | work | derive | cancel | age | pass => exact h

theorem Served.run? (h : w.Served r since) {acts : List (Act g)}
    (hrun : Clockwork.run? l jobs w acts = some w') (hacts : ∀ i, .abandon i ∉ acts) :
    w'.Served r since :=
  run?_invariant (P := (·.Served r since)) hrun
    (fun hact hstep _ h => h.stepped hstep fun i hi => hacts i (hi ▸ hact)) h

end Served

/-- At an earlier instant, which the clock has left, no wait had run out of time that went on. -/
structure Watched (v : Env) (w : Clockwork g σ φ) : Prop where
  before : v.Before w.env
  pending : ∀ p ∈ w.pending, tellsClosed p.request = true → p.since ≤ v.now →
    v.now < w.env.now → lapsed p.since v p.request = false
  told : ∀ c ∈ w.told, tellsClosed c.request = true → c.since ≤ v.now → v.now < c.till →
    lapsed c.since v c.request = false

section Watched

variable {v : Env} {w w' : Clockwork g σ φ}

theorem Watched.take (h : w.Watched v) (asked : List (Nat × Bool)) {r : Request g} {since : Nat}
    {others : List (Pending g φ)} (hothers : ∀ p ∈ others, p ∈ w.pending)
    (hopen : tellsClosed r = true → since ≤ v.now → v.now < w.env.now → lapsed since v r = false)
    (turn : Turn σ φ (Answer g)) :
    (Clockwork.take { w with asked := asked } r since others turn).Watched v := by
  obtain ⟨x, p, es⟩ := turn
  cases p with
  | waiting call =>
    refine ⟨h.before, fun p hp => ?_, h.told⟩
    rcases List.mem_append.mp hp with hp | hp
    · exact h.pending p (hothers p hp)
    · cases List.mem_singleton.mp hp
      exact hopen
  | answered a =>
    refine ⟨h.before, fun p hp => h.pending p (hothers p hp), fun c hc => ?_⟩
    rcases List.mem_append.mp hc with hc | hc
    · exact h.told c hc
    · cases List.mem_singleton.mp hc
      exact hopen

/-- The clock leaves nobody behind whose time is up. -/
theorem Watched.stepped (h : w.Watched v) {act : Act g} (hstep : w.Stepped l jobs act w')
    (hopen : w.quiet l jobs = true → ∀ p ∈ w.pending, tellsClosed p.request = true →
      lapsed p.since w.env p.request = false) : w'.Watched v := by
  have hbefore := h.before.trans hstep.before
  cases hstep with
  | call r inside =>
    exact h.take _ (fun _ => id) (fun _ hsince hnow => absurd hnow (Nat.not_lt.mpr hsince)) _
  | look i hi =>
    have hp := List.mem_of_getElem? hi
    exact h.take w.asked (fun _ => List.mem_of_mem_eraseIdx) (h.pending _ hp) _
  | abandon i =>
    exact ⟨hbefore, fun p hp => h.pending p (List.mem_of_mem_eraseIdx hp), h.told⟩
  | work | derive | cancel | age => exact ⟨hbefore, h.pending, h.told⟩
  | pass hnow hlater hquiet halarms =>
    refine ⟨hbefore, fun p hp htells hsince _ => ?_, h.told⟩
    refine eq_false_of_ne_true fun hlapsed => ?_
    exact absurd ((hopen hquiet p hp htells).symm.trans (h.before.lapsed hlapsed)) nofun

end Watched

/-- Whoever was told too late is out of time for good. -/
def Lasting (w : Clockwork g σ φ) : Prop :=
  ∀ c ∈ w.told, c.late = true → lapsed c.since w.env c.request = true

theorem Lasting.take {w : Clockwork g σ φ} (h : w.Lasting) (r : Request g) (since : Nat)
    (others : List (Pending g φ)) (turn : Turn σ φ (Answer g)) :
    (w.take r since others turn).Lasting := by
  obtain ⟨x, p, es⟩ := turn
  cases p with
  | waiting call => exact h
  | answered a =>
    intro c hc hlate
    rcases List.mem_append.mp hc with hc | hc
    · exact h c hc hlate
    · cases List.mem_singleton.mp hc
      exact hlate

theorem Lasting.stepped {w w' : Clockwork g σ φ} (h : w.Lasting) {act : Act g}
    (hstep : w.Stepped l jobs act w') : w'.Lasting := by
  have hbefore := hstep.before
  cases hstep with
  | call r inside => exact Lasting.take (w := w.ask r inside) h r _ _ _
  | look i => exact h.take _ _ _ _
  | abandon | work => exact h
  | derive | cancel | age | pass => exact fun c hc hlate => hbefore.lapsed (h c hc hlate)

theorem Lasting.run? {w w' : Clockwork g σ φ} (h : w.Lasting) {acts : List (Act g)}
    (hrun : Clockwork.run? l jobs w acts = some w') : w'.Lasting :=
  run?_invariant (P := Lasting) hrun (fun _ hstep _ h => h.stepped hstep) h

end Clockwork

end CacheBridge
