import CacheBridge.Proofs.ClosingWave
import CacheBridge.Stack

/-!
Stacks that are towers. A stack is put together layer by layer, with types that follow its levels;
if its bottom is a cache that keeps what it is given, and its layers are bridges, it is a tower on
that cache, in a state that nobody has called yet.
-/

namespace CacheBridge.Stack

/-- A stack of one level: a fresh cache that keeps everything for as long as it is told to. -/
inductive Grounded : Stack → Prop where
  | alone {b : Generation} {σ φ : Type} {level : Level b σ φ} {fresh : σ}
    (h : Retains none level fresh) (view : σ → Inspection) : Grounded (alone level fresh view)

theorem grounded_lazyStore : (ofBottom .lazyStore).Grounded := .alone .lazyStore .lazyStore

theorem grounded_timedStore : (ofBottom (.timedStore .unbounded)).Grounded :=
  .alone .timedStore .timedStore

/-- A bridge whose polls, if there are any, take some time. -/
def Layer.Bridges : Layer → Prop
  | .toLegacy _ _ => True
  | .toModern _ poll => 0 < poll
  | .bare | .spy .. => False

variable {v : Vault} {b g : Generation}

/-- The stack is the tower, in a fresh state. -/
def Carries (v : Vault) (st : Stack) (t : Tower b g) : Prop :=
  ∃ inner phase? inspect?, st = ⟨t.Built v, t.fresh (Engine.fresh v b), inner,
    ⟨g, t.Call (Engine.Call b), t.cache v, phase?, inspect?⟩, t.closers v⟩

theorem Grounded.carries {st : Stack} (h : st.Grounded) :
    ∃ v : Vault, v.Honours (.perEntry none) ∧ ∃ b, st.Carries v (Tower.ground : Tower b b) := by
  cases h with
  | @alone b _ _ _ _ h view =>
    revert view
    exact h.of_engine fun v hv view => ⟨v, hv, b, [], _, _, rfl⟩

/-- A bridge on a tower is a tower. -/
theorem wrap?_carries {st st' : Stack} {t : Tower b g} (h : st.Carries v t) (hp : t.Prompt)
    {layer : Layer} (hl : layer.Bridges) {env : Env} {es : List Event}
    (hw : st.wrap? env layer = some (st', es)) :
    ∃ g', ∃ t' : Tower b g', t'.Prompt ∧ st'.Carries v t' := by
  obtain ⟨inner, phase?, inspect?, rfl⟩ := h
  cases layer with
  | toLegacy kept counts =>
    cases g with
    | modern =>
      cases hw
      exact ⟨.legacy, .toLegacy counts t, hp, _, _, _, rfl⟩
    | legacy => cases hw
  | toModern kept poll =>
    cases g with
    | modern => cases hw
    | legacy =>
      cases hw
      exact ⟨.modern, .toModern poll t, ⟨hl, hp⟩, _, _, _,
        congrArg (Stack.mk _ _ _ _) (List.append_nil _)⟩
  | bare | spy => exact hl.elim

theorem wrapAll?_carries {env : Env} {layers : List Layer} (hl : ∀ layer ∈ layers, layer.Bridges)
    {st st' : Stack} {es : List Event} {t : Tower b g} (h : st.Carries v t) (hp : t.Prompt)
    (hw : wrapAll? env layers st = some (st', es)) :
    ∃ g', ∃ t' : Tower b g', t'.Prompt ∧ st'.Carries v t' := by
  induction layers generalizing st es g with
  | nil =>
    cases hw
    exact ⟨g, t, hp, h⟩
  | cons layer layers ih =>
    obtain ⟨⟨next, fs⟩, hnext, hw⟩ := Option.bind_eq_some_iff.mp hw
    obtain ⟨⟨last, gs⟩, hlast, heq⟩ := Option.map_eq_some_iff.mp hw
    cases heq
    obtain ⟨g', t', hp', h'⟩ := wrap?_carries h hp (hl layer List.mem_cons_self) hnext
    exact ih (fun layer hmem => hl layer (List.mem_cons_of_mem _ hmem)) h' hp' hlast

end CacheBridge.Stack
