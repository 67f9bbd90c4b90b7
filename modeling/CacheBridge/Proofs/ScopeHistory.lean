import Mathlib.Data.List.Perm.Basic
import Mathlib.Logic.Function.Basic
import CacheBridge.Proofs.Lineage

/-!
Scopes as a program works with them: it makes them, derives them from each other, holds some of them
more than once, lets go of them and cancels them, and time goes by. The history keeps of every scope
what it was derived from and when. That alone says when a scope ends: at the earliest of the
deadlines along its line, or with the first cancellation of anything in it, however much of the line
has been let go.
-/

namespace CacheBridge

/-- How a scope came to be: which one it was, when, and with what timeout. -/
structure Birth where
  number : Nat
  born : Nat
  timeout : Option Nat
  deriving DecidableEq

/-- The end of the timeout, if there is one and it can be written. -/
def Birth.limit (b : Birth) : Option Nat := b.timeout.bind (Time.after? b.born)

/-- The earliest end of a timeout in a line. -/
def earliest (line : List Birth) : Option Nat := (line.filterMap Birth.limit).min?

theorem earliest_cons (b : Birth) (line : List Birth) :
    earliest (b :: line) = ScopeTree.earlier (earliest line) b.limit := by
  unfold earliest
  cases hlimit : b.limit with
  | none => cases h : (line.filterMap Birth.limit).min? <;> simp [hlimit, h, ScopeTree.earlier]
  | some d =>
    cases h : (line.filterMap Birth.limit).min? <;>
      simp [hlimit, h, List.min?_cons, ScopeTree.earlier, Nat.min_comm]

theorem ScopeTree.earlier_none (d : Option Nat) : earlier d none = d := by cases d <;> rfl

/-- A longer line is not out of time later. -/
theorem earliest_suffix {line longer : List Birth} (h : line <:+ longer) {d : Nat}
    (hd : earliest line = some d) : ∃ e ≤ d, earliest longer = some e := by
  have hmem : d ∈ longer.filterMap Birth.limit :=
    (h.filterMap Birth.limit).subset (List.min?_mem hd)
  cases he : earliest longer with
  | none => simp [List.min?_eq_none_iff.mp he] at hmem
  | some e => exact ⟨e, (List.min?_eq_some_iff.mp he).2 d hmem, rfl⟩

/-- A handle on a scope, with the line of the scope: itself, then what it was derived from, up to
the one that was derived from none. -/
structure Handle where
  line : List Birth
  scope : Scope
  deriving DecidableEq

/-- The handles that are held, the oldest first, and the lines of the scopes that were cancelled. -/
structure ScopeHistory where
  now : Nat := 0
  tree : ScopeTree := {}
  held : List Handle := []
  made : Nat := 0
  cancelled : List (List Birth) := []

namespace ScopeHistory

/-- What a program does with its scopes; it speaks of them by their place among those it holds. -/
inductive Act where
  /-- Also what a scope made by default is. -/
  | background
  | withTimeout (span : Nat)
  | timeout (place span : Nat)
  | child (place : Nat)
  | clone (place : Nat)
  | drop (place : Nat)
  | cancel (place : Nat)
  /-- The clock goes on. -/
  | pass (span : Nat)

/-- Takes hold of a new scope, derived from the one with the line `above`. -/
def hold (h : ScopeHistory) (above : List Birth) (timeout : Option Nat) (new : ScopeTree × Scope) :
    ScopeHistory :=
  { h with
    tree := new.1
    made := h.made + 1
    held := h.held ++ [⟨⟨h.made, h.now, timeout⟩ :: above, new.2⟩] }

/-- One act. What it does to a place where nothing is held is nothing. -/
def take (h : ScopeHistory) : Act → ScopeHistory
  | .background => h.hold [] none h.tree.root
  | .withTimeout span => h.hold [] (some span) (h.tree.within h.now .background span)
  | .timeout place span => withHandle h place fun c =>
    h.hold c.line (some span) (h.tree.within h.now c.scope span)
  | .child place => withHandle h place fun c => h.hold c.line none (h.tree.child c.scope)
  | .clone place => withHandle h place fun c =>
    { h with tree := h.tree.clone c.scope, held := h.held ++ [c] }
  | .drop place => withHandle h place fun c =>
    { h with tree := h.tree.drop c.scope, held := h.held.eraseIdx place }
  | .cancel place => withHandle h place fun c =>
    { h with tree := h.tree.cancelScope c.scope, cancelled := h.cancelled ++ [c.line] }
  | .pass span => { h with now := h.now + span }
where
  withHandle (h : ScopeHistory) (place : Nat) (f : Handle → ScopeHistory) : ScopeHistory :=
    (h.held[place]?).elim h f

def run (acts : List Act) : ScopeHistory := acts.foldl take {}

def ended (h : ScopeHistory) (c : Handle) : Bool := h.tree.ended h.now c.scope

theorem run_concat (acts : List Act) (act : Act) : run (acts ++ [act]) = (run acts).take act :=
  List.foldl_concat ..

/-! ## What is on record -/

/-- The line of a handle is that of its node, and says when its deadline is. -/
structure Stands (line : Nat → List Nat) (birth : Nat → Birth) (n : Nat) (c : Handle) : Prop where
  node : c.scope.node = some n
  line : c.line = (line n).map birth
  deadline : c.scope.deadline = earliest c.line

/-- The tree is as the lines and the cancellations say, with a seat for every handle. -/
structure Recorded (line : Nat → List Nat) (birth : Nat → Birth) (cancels : List Nat)
    (h : ScopeHistory) : Prop where
  grown : ScopeTree.Grown line cancels (h.held.filterMap (·.scope.node)) h.tree
  numbered : ∀ n, (birth n).number = n
  made : h.tree.next = h.made
  cancelled : h.cancelled = cancels.map fun n => (line n).map birth
  stands : ∀ c ∈ h.held, ∃ n, Stands line birth n c

namespace Recorded

variable {line : Nat → List Nat} {birth : Nat → Birth} {cancels : List Nat} {h : ScopeHistory}
  {c : Handle} {n : Nat}

theorem alive (hr : Recorded line birth cancels h) (hc : c ∈ h.held) (hn : c.scope.node = some n) :
    h.tree.alive n = true :=
  hr.grown.seated n (List.mem_filterMap.mpr ⟨c, hc, hn⟩)

/-- A scope stands in the line of another exactly if the line of the other ends with its line. -/
theorem suffix_iff (hr : Recorded line birth cancels h) {a : Nat} (ha : a < h.tree.next)
    (hn : n < h.tree.next) : (line a).map birth <:+ (line n).map birth ↔ a ∈ line n := by
  constructor
  · intro hsuffix
    have hself := hr.grown.descent.self_mem ha
    obtain ⟨b, hb, heq⟩ := List.mem_map.mp (hsuffix.subset (List.mem_map_of_mem hself))
    have hnumber : b = a := by rw [← hr.numbered b, heq, hr.numbered a]
    exact hnumber ▸ hb
  · exact fun hmem => (hr.grown.descent.suffix hn hmem).2.map birth

/-- When a scope that is held has ended. -/
theorem ended_iff (hr : Recorded line birth cancels h) (hc : c ∈ h.held) :
    h.ended c = true ↔
      (∃ d, earliest c.line = some d ∧ d ≤ h.now) ∨ ∃ a ∈ h.cancelled, a <:+ c.line := by
  obtain ⟨n, hnode, hline, hdeadline⟩ := hr.stands c hc
  have halive := hr.alive hc hnode
  have hn := hr.grown.alive_lt halive
  have hcancelled : (∃ a ∈ h.cancelled, a <:+ c.line) ↔ ∃ a ∈ line n, a ∈ cancels := by
    rw [hr.cancelled, hline]
    constructor
    · rintro ⟨_, hmem, hsuffix⟩
      obtain ⟨a, ha, rfl⟩ := List.mem_map.mp hmem
      exact ⟨a, (hr.suffix_iff (hr.grown.past a ha) hn).mp hsuffix, ha⟩
    · rintro ⟨a, hmem, ha⟩
      exact ⟨_, List.mem_map_of_mem ha, (hr.suffix_iff (hr.grown.past a ha) hn).mpr hmem⟩
  rw [hcancelled, ← hr.grown.isCancelled_iff halive, ended, ScopeTree.ended, hnode, hdeadline,
    Option.any_some, Bool.or_eq_true, or_comm]
  simp only [Option.any_eq_true, decide_eq_true_eq]

/-- What stood before a scope was made stands after it. -/
theorem map_extended (hr : Recorded line birth cancels h) (hn : n < h.tree.next)
    (parent : Option Nat) (b : Birth) :
    (extended line h.tree.next parent n).map (Function.update birth h.tree.next b) =
      (line n).map birth := by
  rw [extended_of_lt hn]
  refine List.map_congr_left fun a ha => Function.update_of_ne ?_ ..
  exact Nat.ne_of_lt (Nat.lt_of_le_of_lt (hr.grown.descent.suffix hn ha).1 hn)

theorem hold (hr : Recorded line birth cancels h) (parent : Option Nat)
    (hparent : ∀ p, parent = some p → h.tree.alive p = true) (timeout : Option Nat) {s : Scope}
    (hnode : s.node = some h.tree.next)
    (hdeadline : s.deadline =
      earliest (⟨h.made, h.now, timeout⟩ :: (parent.elim [] line).map birth)) :
    Recorded (extended line h.tree.next parent)
      (Function.update birth h.tree.next ⟨h.made, h.now, timeout⟩) cancels
      (h.hold ((parent.elim [] line).map birth) timeout ((h.tree.derive parent).1, s)) := by
  have hkept {n : Nat} (hn : n < h.tree.next) :=
    hr.map_extended hn parent ⟨h.made, h.now, timeout⟩
  refine ⟨?_, fun n => ?_, congrArg (· + 1) hr.made, ?_, ?_⟩
  · have hgrown := hr.grown.derive hparent
    simpa [ScopeHistory.hold, hnode] using hgrown
  · by_cases hn : n = h.tree.next
    · rw [hn, Function.update_self, hr.made]
    · rw [Function.update_of_ne hn, hr.numbered]
  · exact hr.cancelled.trans (List.map_congr_left fun n hn => (hkept (hr.grown.past n hn)).symm)
  · refine List.forall_mem_append.mpr ⟨fun c hc => ?_, List.forall_mem_singleton.mpr ?_⟩
    · obtain ⟨n, hnode, hline, hdeadline⟩ := hr.stands c hc
      exact ⟨n, hnode, hline.trans (hkept (hr.grown.alive_lt (hr.alive hc hnode))).symm, hdeadline⟩
    · refine ⟨h.tree.next, hnode, ?_, hdeadline⟩
      rw [extended_next, List.map_cons, Function.update_self]
      refine congrArg (List.cons _) ?_
      cases hp : parent with
      | none => rfl
      | some p =>
        have hlt := hr.grown.alive_lt (hparent p hp)
        have habove := hkept hlt
        rw [extended_of_lt hlt] at habove
        exact habove.symm

theorem clone (hr : Recorded line birth cancels h) (hc : c ∈ h.held) :
    Recorded line birth cancels { h with tree := h.tree.clone c.scope, held := h.held ++ [c] } := by
  obtain ⟨n, hstands⟩ := hr.stands c hc
  have hnode := hstands.node
  refine ⟨?_, hr.numbered, ?_, hr.cancelled, ?_⟩
  · simpa [ScopeTree.clone, hnode] using hr.grown.share (hr.alive hc hnode)
  · simpa [ScopeTree.clone, hnode] using hr.made
  · exact List.forall_mem_append.mpr ⟨hr.stands, List.forall_mem_singleton.mpr ⟨n, hstands⟩⟩

theorem drop (hr : Recorded line birth cancels h) {place : Nat} (hc : h.held[place]? = some c) :
    Recorded line birth cancels
      { h with tree := h.tree.drop c.scope, held := h.held.eraseIdx place } := by
  obtain ⟨hplace, rfl⟩ := List.getElem?_eq_some_iff.mp hc
  obtain ⟨n, hnode, -⟩ := hr.stands _ (List.getElem_mem hplace)
  have hperm := (List.getElem_cons_eraseIdx_perm hplace).symm
  have hseats := hperm.filterMap fun c : Handle => c.scope.node
  rw [List.filterMap_cons_some (f := fun c : Handle => c.scope.node) hnode] at hseats
  refine ⟨?_, hr.numbered, ?_, hr.cancelled,
    fun c hc => hr.stands c (List.mem_of_mem_eraseIdx hc)⟩
  · simpa [ScopeTree.drop, hnode] using hr.grown.release hseats
  · simpa [ScopeTree.drop, hnode] using hr.made

theorem cancel (hr : Recorded line birth cancels h) (hc : c ∈ h.held) :
    ∃ n, Recorded line birth (cancels ++ [n])
      { h with tree := h.tree.cancelScope c.scope, cancelled := h.cancelled ++ [c.line] } := by
  obtain ⟨n, hnode, hline, -⟩ := hr.stands c hc
  refine ⟨n, ?_, hr.numbered, ?_, ?_, hr.stands⟩
  · simpa [ScopeTree.cancelScope, hnode] using hr.grown.cancel (hr.alive hc hnode)
  · simpa [ScopeTree.cancelScope, hnode] using hr.made
  · rw [List.map_append, ← hr.cancelled, List.map_singleton, hline]

theorem pass (hr : Recorded line birth cancels h) (span : Nat) :
    Recorded line birth cancels { h with now := h.now + span } :=
  ⟨hr.grown, hr.numbered, hr.made, hr.cancelled, hr.stands⟩

end Recorded

/-! ## Every history is on record -/

/-- There are lines, and numbers that were cancelled, that bear a history out. -/
def OnRecord (h : ScopeHistory) : Prop := ∃ line birth cancels, Recorded line birth cancels h

namespace OnRecord

variable {h : ScopeHistory}

theorem withHandle (hr : OnRecord h) {place : Nat} {f : Handle → ScopeHistory}
    (hact : ∀ c, h.held[place]? = some c → OnRecord (f c)) :
    OnRecord (take.withHandle h place f) := by
  unfold take.withHandle
  cases hc : h.held[place]? with
  | none => exact hr
  | some c => exact hact c hc

theorem hold_root (hr : OnRecord h) (timeout : Option Nat) :
    OnRecord (h.hold [] timeout ((h.tree.derive none).1,
      ⟨some h.tree.next, timeout.bind (Time.after? h.now)⟩)) := by
  obtain ⟨line, birth, cancels, hr⟩ := hr
  refine ⟨_, _, _, hr.hold none nofun timeout rfl ?_⟩
  exact (earliest_cons ⟨h.made, h.now, timeout⟩ []).symm

theorem hold_derived (hr : OnRecord h) {c : Handle} (hc : c ∈ h.held) (timeout : Option Nat) :
    OnRecord (h.hold c.line timeout ((h.tree.derive c.scope.node).1, ⟨some h.tree.next,
      ScopeTree.earlier c.scope.deadline (timeout.bind (Time.after? h.now))⟩)) := by
  obtain ⟨line, birth, cancels, hr⟩ := hr
  obtain ⟨n, hnode, hline, hdeadline⟩ := hr.stands c hc
  have hparent (p : Nat) (hp : c.scope.node = some p) : h.tree.alive p = true := hr.alive hc hp
  have habove : (c.scope.node.elim [] line).map birth = c.line := by rw [hnode, hline]; rfl
  have hhold := hr.hold _ hparent timeout (s := ⟨some h.tree.next,
    ScopeTree.earlier c.scope.deadline (timeout.bind (Time.after? h.now))⟩) rfl
    (by rw [habove, earliest_cons, hdeadline]; rfl)
  rw [habove] at hhold
  exact ⟨_, _, _, hhold⟩

theorem take (hr : OnRecord h) (act : Act) : OnRecord (h.take act) := by
  cases act with
  | background => exact hr.hold_root none
  | withTimeout span => exact hr.hold_root (some span)
  | timeout place span =>
    exact hr.withHandle fun c hc => hr.hold_derived (List.mem_of_getElem? hc) (some span)
  | child place =>
    refine hr.withHandle fun c hc => ?_
    have hchild := hr.hold_derived (List.mem_of_getElem? hc) none
    rwa [Option.bind_none, ScopeTree.earlier_none] at hchild
  | clone place =>
    obtain ⟨line, birth, cancels, hrecorded⟩ := id hr
    exact hr.withHandle fun c hc => ⟨_, _, _, hrecorded.clone (List.mem_of_getElem? hc)⟩
  | drop place =>
    obtain ⟨line, birth, cancels, hrecorded⟩ := id hr
    exact hr.withHandle fun c hc => ⟨_, _, _, hrecorded.drop hc⟩
  | cancel place =>
    obtain ⟨line, birth, cancels, hrecorded⟩ := id hr
    refine hr.withHandle fun c hc => ?_
    obtain ⟨n, hcancel⟩ := hrecorded.cancel (List.mem_of_getElem? hc)
    exact ⟨_, _, _, hcancel⟩
  | pass span =>
    obtain ⟨line, birth, cancels, hrecorded⟩ := hr
    exact ⟨_, _, _, hrecorded.pass span⟩

theorem foldl (hr : OnRecord h) (acts : List Act) : OnRecord (acts.foldl ScopeHistory.take h) := by
  induction acts generalizing h with
  | nil => exact hr
  | cons act acts ih => exact ih (hr.take act)

end OnRecord

theorem onRecord_run (acts : List Act) : OnRecord (run acts) := by
  refine OnRecord.foldl ⟨fun n => [n], fun n => ⟨n, 0, none⟩, [], ?_⟩ acts
  exact ⟨ScopeTree.grown_empty _, fun _ => rfl, rfl, rfl, List.forall_mem_nil _⟩

/-- When a scope that is held has ended, from its line alone. -/
theorem run_ended_iff {acts : List Act} {c : Handle} (hc : c ∈ (run acts).held) :
    (run acts).ended c = true ↔ (∃ d, earliest c.line = some d ∧ d ≤ (run acts).now) ∨
      ∃ a ∈ (run acts).cancelled, a <:+ c.line := by
  obtain ⟨line, birth, cancels, hr⟩ := onRecord_run acts
  exact hr.ended_iff hc

/-! ## What stays -/

/-- Time goes on, and what was cancelled stays so. -/
theorem take_later (h : ScopeHistory) (act : Act) :
    h.now ≤ (h.take act).now ∧ h.cancelled <+: (h.take act).cancelled := by
  have hat (place : Nat) (f : Handle → ScopeHistory)
      (hf : ∀ c, h.now ≤ (f c).now ∧ h.cancelled <+: (f c).cancelled) :
      h.now ≤ (take.withHandle h place f).now ∧
        h.cancelled <+: (take.withHandle h place f).cancelled := by
    unfold take.withHandle
    cases h.held[place]? with
    | none => exact ⟨Nat.le_refl _, List.prefix_refl _⟩
    | some c => exact hf c
  have hsame : h.now ≤ h.now ∧ h.cancelled <+: h.cancelled := ⟨Nat.le_refl _, List.prefix_refl _⟩
  cases act with
  | background | withTimeout => exact hsame
  | timeout place | child place | clone place | drop place => exact hat place _ fun _ => hsame
  | cancel place => exact hat place _ fun _ => ⟨Nat.le_refl _, List.prefix_append ..⟩
  | pass span => exact ⟨Nat.le_add_right .., List.prefix_refl _⟩

theorem run_later (acts more : List Act) :
    (run acts).now ≤ (run (acts ++ more)).now ∧
      (run acts).cancelled <+: (run (acts ++ more)).cancelled := by
  induction more using List.reverseRecOn with
  | nil => simp
  | append_singleton more act ih =>
    rw [← List.append_assoc, run_concat]
    obtain ⟨hnow, hcancelled⟩ := take_later (run (acts ++ more)) act
    exact ⟨ih.1.trans hnow, ih.2.trans hcancelled⟩

/-- A drop changes no more than which handles there are. -/
theorem take_drop (h : ScopeHistory) (place : Nat) :
    (h.take (.drop place)).now = h.now ∧ (h.take (.drop place)).cancelled = h.cancelled := by
  rw [take, take.withHandle]
  cases h.held[place]? <;> exact ⟨rfl, rfl⟩

theorem take_cancel {h : ScopeHistory} {place : Nat} {a : Handle} (ha : h.held[place]? = some a) :
    (h.take (.cancel place)).now = h.now ∧ (h.take (.cancel place)).held = h.held ∧
      (h.take (.cancel place)).cancelled = h.cancelled ++ [a.line] := by
  rw [take, take.withHandle, ha]
  exact ⟨rfl, rfl, rfl⟩

/-- After every course of acts, for every handle that is held: its deadline is the earliest of the
timeouts of its line that can be written, and its scope has ended exactly if that has come or
something in its line was cancelled. So it stays ended, it ends with whatever it was derived from, a
cancellation ends nothing but what derives from the cancelled one, and letting go of a handle ends
nothing. -/
theorem reach (acts : List Act) {c : Handle} (hc : c ∈ (run acts).held) :
    c.scope.deadline = earliest c.line ∧
    ((run acts).ended c = true ↔ (∃ d, earliest c.line = some d ∧ d ≤ (run acts).now) ∨
      ∃ a ∈ (run acts).cancelled, a <:+ c.line) ∧
    (∀ more, c ∈ (run (acts ++ more)).held → (run acts).ended c = true →
      (run (acts ++ more)).ended c = true) ∧
    (∀ a ∈ (run acts).held, a.line <:+ c.line → (run acts).ended a = true →
      (run acts).ended c = true) ∧
    (∀ place a, (run acts).held[place]? = some a → ¬ a.line <:+ c.line →
      (run (acts ++ [.cancel place])).ended c = (run acts).ended c) ∧
    (∀ place, c ∈ (run (acts ++ [.drop place])).held →
      (run (acts ++ [.drop place])).ended c = (run acts).ended c) := by
  refine ⟨?deadline, run_ended_iff hc, fun more hmore hended => ?stays,
    fun a ha hsuffix hended => ?above, fun place a ha hapart => ?cancel, fun place hkept => ?drop⟩
  case deadline =>
    obtain ⟨line, birth, cancels, hr⟩ := onRecord_run acts
    obtain ⟨n, hstands⟩ := hr.stands c hc
    exact hstands.deadline
  case stays =>
    obtain ⟨hnow, hcancelled⟩ := run_later acts more
    rw [run_ended_iff hmore]
    refine ((run_ended_iff hc).mp hended).imp ?_ ?_
    · exact fun ⟨d, hd, hle⟩ => ⟨d, hd, hle.trans hnow⟩
    · exact fun ⟨a, ha, hsuffix⟩ => ⟨a, hcancelled.subset ha, hsuffix⟩
  case above =>
    rw [run_ended_iff hc]
    refine ((run_ended_iff ha).mp hended).imp ?_ ?_
    · rintro ⟨d, hd, hle⟩
      obtain ⟨e, hed, he⟩ := earliest_suffix hsuffix hd
      exact ⟨e, he, hed.trans hle⟩
    · exact fun ⟨b, hb, hbelow⟩ => ⟨b, hb, hbelow.trans hsuffix⟩
  case cancel =>
    obtain ⟨hnow, hheld, hcancelled⟩ := take_cancel ha
    have hstill : c ∈ (run (acts ++ [.cancel place])).held := by rwa [run_concat, hheld]
    rw [Bool.eq_iff_iff, run_ended_iff hstill, run_ended_iff hc, run_concat, hnow, hcancelled]
    simp [or_and_right, exists_or, hapart]
  case drop =>
    obtain ⟨hnow, hcancelled⟩ := take_drop (run acts) place
    rw [Bool.eq_iff_iff, run_ended_iff hkept, run_ended_iff hc, run_concat, hnow, hcancelled]

/-- A scope two below the one that is cancelled ends with it, though the one between was let go. -/
theorem reach_past_dropped :
    let acts := [.background, .child 0, .timeout 1 5, .pass 2, .drop 1, .cancel 0]
    let c : Handle := ⟨[⟨2, 0, some 5⟩, ⟨1, 0, none⟩, ⟨0, 0, none⟩], ⟨some 2, some 5⟩⟩
    c ∈ (run acts).held ∧ (run acts).ended c = true := by
  intro acts c
  have hheld : c ∈ (run acts).held := by decide
  exact ⟨hheld, (reach acts hheld).2.1.mpr (.inr ⟨[⟨0, 0, none⟩], by decide, by decide⟩)⟩

end ScopeHistory

end CacheBridge
