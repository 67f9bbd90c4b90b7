import CacheBridge.Proofs.Provenance

/-!
Errors in their wrappings. A nest is an error with all that was done around it: faults raised around
it, failures of either generation around those, conversions and copies, in any order that the types
allow and to any depth. Whatever the nest, it shows the text of the error at its core and has the
sources of that error, and the fault that was raised last still holds the very value it was raised
around. `Holds` finds the nest that a register of the workbench holds in what the workbench has
done.
-/

namespace CacheBridge

namespace Cause

/-- The texts that are met by going from an error to its source until there is none. -/
inductive Leads : Cause → List String → Prop where
  | none {c : Cause} (h : c.source? = none) : Leads c []
  | next {c d : Cause} {ts : List String} (h : c.source? = some d) (rest : Leads d ts) :
      Leads c (d.text :: ts)

theorem leads_trace (c : Cause) : c.Leads c.trace := by
  generalize hts : c.trace = ts
  induction ts generalizing c with
  | nil =>
    rw [trace_eq] at hts
    cases hsource : c.source? with
    | none => exact .none hsource
    | some d => simp [hsource] at hts
  | cons t ts ih =>
    rw [trace_eq] at hts
    cases hsource : c.source? with
    | none => simp [hsource] at hts
    | some d =>
      rw [hsource] at hts
      obtain ⟨rfl, hrest⟩ := List.cons.inj hts
      exact .next hsource (ih d hrest)

theorem Leads.unique {c : Cause} {ts us : List String} (h : c.Leads ts) (h' : c.Leads us) :
    ts = us := by
  induction h generalizing us with
  | none hnone =>
    cases h' with
    | none => rfl
    | next hsome => exact absurd (hnone.symm.trans hsome) nofun
  | next hsome rest ih =>
    cases h' with
    | none hnone => exact absurd (hnone.symm.trans hsome) nofun
    | next hsome' rest' =>
      cases hsome.symm.trans hsome'
      exact congrArg _ (ih rest')

theorem leads_iff {c : Cause} {ts : List String} : c.Leads ts ↔ ts = c.trace :=
  ⟨fun h => h.unique (leads_trace c), fun h => h ▸ leads_trace c⟩

/-- The value that a cause is, if it is one that a register may hold. -/
def specimen? : Cause → Option Workbench.Specimen
  | message _ | chain _ _ => none
  | condition g c => some (.failure g (.condition c))
  | backend g number c => some (.failure g (.backend ⟨number, c⟩))
  | fault number c => some (.fault ⟨number, c⟩)

/-- Who has the same source has all the same sources. -/
theorem trace_congr {c d : Cause} (h : c.source? = d.source?) : c.trace = d.trace := by
  rw [trace_eq, trace_eq, h]

end Cause

/-- The types of errors: an error of a backend's own, a fault, or a failure of a generation. -/
inductive ErrorType where
  | own
  | fault
  | failure (g : Generation)

namespace ErrorType

abbrev Value : ErrorType → Type
  | own => Cause
  | fault => Fault
  | failure g => Failure g

/-- An error as what a fault may be raised around. -/
def cause : (k : ErrorType) → k.Value → Cause
  | own, c => c
  | fault, f => f.asCause
  | failure _, e => e.cause

/-- An error as what a register may hold. An error of a backend's own is not held bare. -/
def specimen? : (k : ErrorType) → k.Value → Option Workbench.Specimen
  | own, _ => none
  | fault, f => some (.fault f)
  | failure g, e => some (.failure g e)

end ErrorType

/-- An error and what was done around it. -/
inductive Nest : ErrorType → Type where
  | message (text : String) : Nest .own
  | chain (text : String) (causes : List String) : Nest .own
  | condition (g : Generation) (c : Condition) : Nest (.failure g)
  /-- A fault raised around an error of any type. -/
  | wrap {k : ErrorType} (number : Nat) (inner : Nest k) : Nest .fault
  /-- A fault raised around an error, in a failure at once. -/
  | raise {k : ErrorType} (g : Generation) (number : Nat) (inner : Nest k) : Nest (.failure g)
  | carry (g : Generation) (inner : Nest .fault) : Nest (.failure g)
  | convert {g : Generation} (h : Generation) (inner : Nest (.failure g)) : Nest (.failure h)
  | copy {k : ErrorType} (inner : Nest k) : Nest k

namespace Nest

def value : {k : ErrorType} → Nest k → k.Value
  | _, message t => Cause.message t
  | _, chain t ts => Cause.chain t ts
  | _, condition _ c => Failure.condition c
  | _, @wrap k n inner => Fault.mk n (k.cause inner.value)
  | _, @raise k _ n inner => Failure.backend ⟨n, k.cause inner.value⟩
  | _, carry _ inner => Failure.backend inner.value
  | _, convert h inner => inner.value.as h
  | _, copy inner => inner.value

def cause {k : ErrorType} (n : Nest k) : Cause := k.cause n.value

def specimen? {k : ErrorType} (n : Nest k) : Option Workbench.Specimen := k.specimen? n.value

/-- The fault that an error is, or carries. -/
def fault? {k : ErrorType} (n : Nest k) : Option Fault := n.specimen?.bind Workbench.Specimen.fault?

/-- The error in the middle. -/
def core : {k : ErrorType} → Nest k → Cause
  | _, message t => .message t
  | _, chain t ts => .chain t ts
  | _, condition g c => .condition g c
  | _, wrap _ inner | _, raise _ _ inner | _, carry _ inner | _, convert _ inner
  | _, copy inner => inner.core

/-- How many faults were raised, one around the other. -/
def wraps : {k : ErrorType} → Nest k → Nat
  | _, message _ | _, chain _ _ | _, condition _ _ => 0
  | _, wrap _ inner | _, raise _ _ inner => inner.wraps + 1
  | _, carry _ inner | _, convert _ inner | _, copy inner => inner.wraps

/-- What the last of the faults was raised around. -/
def content? : {k : ErrorType} → Nest k → Option (Σ k, Nest k)
  | _, message _ | _, chain _ _ | _, condition _ _ => none
  | _, wrap _ inner | _, raise _ _ inner => some ⟨_, inner⟩
  | _, carry _ inner | _, convert _ inner | _, copy inner => inner.content?

theorem cause_convert {g : Generation} (h : Generation) (n : Nest (.failure g)) :
    (convert h n).cause.text = n.cause.text ∧ (convert h n).cause.source? = n.cause.source? := by
  change (n.value.as h).cause.text = n.value.cause.text ∧
    (n.value.as h).cause.source? = n.value.cause.source?
  cases n.value <;> exact ⟨rfl, rfl⟩

theorem fault?_convert {g : Generation} (h : Generation) (n : Nest (.failure g)) :
    (convert h n).fault? = n.fault? := by
  change (Workbench.Specimen.failure h (n.value.as h)).fault? =
    (Workbench.Specimen.failure _ n.value).fault?
  cases n.value <;> rfl

/-- Nothing that is done around an error shows. -/
theorem transparent {k : ErrorType} (n : Nest k) :
    n.cause.text = n.core.text ∧ n.cause.source? = n.core.source? := by
  induction n with
  | message | chain | condition => exact ⟨rfl, rfl⟩
  | wrap _ _ ih | raise _ _ _ ih | carry _ _ ih | copy _ ih => exact ih
  | convert h inner ih =>
    obtain ⟨htext, hsource⟩ := cause_convert h inner
    exact ⟨htext.trans ih.1, hsource.trans ih.2⟩

/-- What a nest holds that has a fault in it. -/
theorem content?_spec {k : ErrorType} (n : Nest k) :
    n.wraps = 0 ∧ n.content? = none ∧ n.fault? = none ∨
      0 < n.wraps ∧ ∃ k' m f, n.content? = some ⟨k', m⟩ ∧ n.fault? = some f ∧
          f.cause = m.cause := by
  induction n with
  | message | chain | condition => exact .inl ⟨rfl, rfl, rfl⟩
  | @wrap k n inner => exact .inr ⟨Nat.succ_pos _, k, inner, ⟨n, inner.cause⟩, rfl, rfl, rfl⟩
  | @raise k g n inner => exact .inr ⟨Nat.succ_pos _, k, inner, ⟨n, inner.cause⟩, rfl, rfl, rfl⟩
  | carry _ inner ih => exact ih
  | convert h inner ih =>
    rw [fault?_convert]
    exact ih
  | copy _ ih => exact ih

/-- The nest of the fault alone, without what was done around it. -/
def bare? : {k : ErrorType} → Nest k → Option (Nest .fault)
  | _, message _ | _, chain _ _ | _, condition _ _ => none
  | _, wrap n inner | _, raise _ n inner => some (wrap n inner)
  | _, carry _ inner => some inner
  | _, convert _ inner | _, copy inner => inner.bare?

theorem fault?_eq_bare? {k : ErrorType} (n : Nest k) : n.fault? = n.bare?.map value := by
  induction n with
  | message | chain | condition | wrap | raise | carry => rfl
  | convert h inner ih => exact (fault?_convert h inner).trans ih
  | copy _ ih => exact ih

theorem carried?_value {g : Generation} (n : Nest (.failure g)) :
    (Workbench.Specimen.failure g n.value).carried? = n.bare?.map value := by
  rw [← fault?_eq_bare?]
  change _ = (Workbench.Specimen.failure g n.value).fault?
  cases n.value <;> rfl

/-- A failure has no kind of its own exactly if a fault was raised. -/
theorem kind?_eq_none_iff {g : Generation} (n : Nest (.failure g)) :
    n.value.kind? = none ↔ 0 < n.wraps := by
  have hkind : n.value.kind? = none ↔ n.fault? ≠ none := by
    change _ ↔ (Workbench.Specimen.failure g n.value).fault? ≠ none
    cases n.value <;> simp [Failure.kind?, Workbench.Specimen.fault?]
  rw [hkind]
  obtain ⟨hwraps, -, hfault⟩ | ⟨hwraps, k, m, f, -, hfault, -⟩ := n.content?_spec
  · simp [hwraps, hfault]
  · simp [hwraps, hfault]

/-- A fault raised around an error, held as it is or in a failure. -/
def hold {k : ErrorType} (inner : Nest k) (number : Nat) : Option Generation → Σ k, Nest k
  | none => ⟨_, wrap number inner⟩
  | some g => ⟨_, raise g number inner⟩

theorem specimen?_hold {k : ErrorType} (inner : Nest k) (number : Nat) (held : Option Generation) :
    (inner.hold number held).2.specimen? =
      some (Workbench.State.hold ⟨number, inner.cause⟩ held) := by
  cases held <;> rfl

theorem exists_fault {p : Σ k, Nest k} {f : Fault} (h : p.2.specimen? = some (.fault f)) :
    ∃ n : Nest .fault, p = ⟨_, n⟩ ∧ n.value = f := by
  obtain ⟨k, n⟩ := p
  unfold specimen? at h
  cases k with
  | own | failure => cases h
  | fault =>
    cases h
    exact ⟨n, rfl, rfl⟩

theorem exists_failure {p : Σ k, Nest k} {g : Generation} {e : Failure g}
    (h : p.2.specimen? = some (.failure g e)) :
    ∃ n : Nest (.failure g), p = ⟨_, n⟩ ∧ n.value = e := by
  obtain ⟨k, n⟩ := p
  unfold specimen? at h
  cases k with
  | own | fault => cases h
  | failure =>
    cases h
    exact ⟨n, rfl, rfl⟩

/-- Nothing of an error is lost in what a fault keeps of it. -/
theorem specimen?_cause {k : ErrorType} (n : Nest k) : n.cause.specimen? = n.specimen? := by
  induction n with
  | message | chain | condition | wrap | raise | carry => rfl
  | convert h inner ih =>
    change (inner.value.as h).cause.specimen? = some (.failure h (inner.value.as h))
    cases inner.value <;> rfl
  | copy _ ih => exact ih

theorem cause_of_specimen? {k : ErrorType} {n : Nest k} {v : Workbench.Specimen}
    (h : n.specimen? = some v) : v.cause = n.cause := by
  unfold specimen? at h
  unfold cause
  cases k with
  | own => cases h
  | fault | failure =>
    cases h
    rfl

end Nest

namespace Workbench

/-! ## The workbench -/

/-- The nest that a register holds after some steps, as the steps have built it. -/
inductive Holds : List Step → String → (Σ k, Nest k) → Prop where
  | message (steps : List Step) (held : Option Generation) (t dest : String) :
      Holds (steps ++ [.raise held (.message t) dest]) dest
        ((Nest.message t).hold (after steps).next held)
  | chain (steps : List Step) (held : Option Generation) (t : String) (ts : List String)
    (dest : String) :
      Holds (steps ++ [.raise held (.chain t ts) dest]) dest
        ((Nest.chain t ts).hold (after steps).next held)
  | wrapped {steps : List Step} {name : String} {p : Σ k, Nest k} (held : Option Generation)
      (dest : String) (h : Holds steps name p) :
      Holds (steps ++ [.raise held (.register name) dest]) dest (p.2.hold (after steps).next held)
  | condition (steps : List Step) (g : Generation) (c : Condition) (dest : String) :
      Holds (steps ++ [.condition g c dest]) dest ⟨_, .condition g c⟩
  | carried {steps : List Step} {name : String} {n : Nest .fault} (g : Generation) (dest : String)
      (h : Holds steps name ⟨_, n⟩) : Holds (steps ++ [.carry g name dest]) dest ⟨_, .carry g n⟩
  | converted {steps : List Step} {name : String} {g : Generation} {n : Nest (.failure g)}
      (dest : String) (h : Holds steps name ⟨_, n⟩) :
      Holds (steps ++ [.convert name dest]) dest ⟨_, .convert g.other n⟩
  | copied {steps : List Step} {name : String} {p : Σ k, Nest k} (dest : String)
      (h : Holds steps name p) : Holds (steps ++ [.copy name dest]) dest ⟨_, p.2.copy⟩
  | unwrapped {steps : List Step} {name : String} {g : Generation} {n : Nest (.failure g)}
      {m : Nest .fault} (dest : String) (h : Holds steps name ⟨_, n⟩) (hm : n.bare? = some m) :
      Holds (steps ++ [.unwrap name dest]) dest ⟨_, m⟩
  | left {steps : List Step} {t : Step} {name : String} {p : Σ k, Nest k}
      (h : t.dest? = some name → ((after steps).step t).2 = none) (hholds : Holds steps name p) :
      Holds (steps ++ [t]) name p

/-- What a register holds is the value of its nest. -/
theorem Holds.get {steps : List Step} {name : String} {p : Σ k, Nest k} (h : Holds steps name p) :
    ∃ v, p.2.specimen? = some v ∧ (after steps).registers.get? name = some v := by
  have hkept {steps : List Step} {t : Step} {dest : String} {v : Specimen}
      (hstep : ((after steps).step t).1.registers = (after steps).registers.put dest v) :
      (after (steps ++ [t])).registers.get? dest = some v := by
    rw [after_concat, hstep, Table.get?_put_self]
  induction h with
  | message | chain => exact ⟨_, Nest.specimen?_hold _ _ _, hkept rfl⟩
  | @wrapped steps name p held dest h ih =>
    obtain ⟨v, hv, hget⟩ := ih
    refine ⟨_, Nest.specimen?_hold _ _ _, hkept ?_⟩
    simp [State.step, State.content?, hget, State.keep, Nest.cause_of_specimen? hv]
  | condition => exact ⟨_, rfl, hkept rfl⟩
  | @carried steps name n g dest h ih =>
    obtain ⟨v, hv, hget⟩ := ih
    cases hv
    exact ⟨_, rfl, hkept (by simp only [State.step, hget]; rfl)⟩
  | @converted steps name g n dest h ih =>
    obtain ⟨v, hv, hget⟩ := ih
    cases hv
    exact ⟨_, rfl, hkept (by simp only [State.step, hget]; rfl)⟩
  | copied dest h ih =>
    obtain ⟨v, hv, hget⟩ := ih
    exact ⟨v, hv, hkept (by simp only [State.step, hget]; rfl)⟩
  | @unwrapped steps name g n m dest h hm ih =>
    obtain ⟨v, hv, hget⟩ := ih
    cases hv
    have hcarried : (Specimen.failure g n.value).carried? = some m.value :=
      (Nest.carried?_value n).trans (congrArg _ hm)
    refine ⟨_, rfl, hkept (v := .fault m.value) ?_⟩
    simp [State.step, hget, hcarried, State.keep]
  | left hleft h ih =>
    obtain ⟨v, hv, hget⟩ := ih
    exact ⟨v, hv, by rwa [after_concat, get?_left hleft]⟩

/-- A step that hands on, and does so, finds something to hand on. -/
theorem exists_source {s : State} {t : Step} {source : String} (hsource : t.source? = some source)
    (hdone : (s.step t).2 ≠ none) : ∃ v, s.registers.get? source = some v := by
  cases hv : s.registers.get? source with
  | some v => exact ⟨v, rfl⟩
  | none =>
    cases t with
    | raise | condition | view | compare | inside => cases hsource
    | carry | convert | copy | unwrap =>
      cases hsource
      simp [State.step, hv] at hdone

/-- A step that has written a register has built a nest there, if there is one behind each register
that it may have read. -/
theorem exists_holds_step {steps : List Step} {t : Step} {name : String}
    (hthere : ∀ {source : String} {w : Specimen},
      (after steps).registers.get? source = some w →
        ∃ p, Holds steps source p ∧ p.2.specimen? = some w)
    (hdest : t.dest? = some name) (hdone : ((after steps).step t).2 ≠ none) :
    ∃ p, Holds (steps ++ [t]) name p := by
  have hfrom {source : String} (hsource : t.source? = some source) :
      ∃ w p, (after steps).registers.get? source = some w ∧ Holds steps source p ∧
        p.2.specimen? = some w := by
    obtain ⟨w, hw⟩ := exists_source hsource hdone
    obtain ⟨p, hp, hvalue⟩ := hthere hw
    exact ⟨w, p, hw, hp, hvalue⟩
  cases t with
  | view | compare | inside => cases hdest
  | condition g c dest =>
    cases hdest
    exact ⟨_, .condition steps g c name⟩
  | raise held content dest =>
    cases hdest
    cases content with
    | message t => exact ⟨_, .message steps held t name⟩
    | chain t ts => exact ⟨_, .chain steps held t ts name⟩
    | register source =>
      cases hw : (after steps).registers.get? source with
      | none => simp [State.step, State.content?, hw] at hdone
      | some w =>
        obtain ⟨p, hp, -⟩ := hthere hw
        exact ⟨_, .wrapped held name hp⟩
  | copy source dest =>
    cases hdest
    obtain ⟨w, p, -, hp, -⟩ := hfrom rfl
    exact ⟨_, .copied name hp⟩
  | carry g source dest =>
    cases hdest
    obtain ⟨w, p, hw, hp, hvalue⟩ := hfrom rfl
    cases w with
    | failure => simp [State.step, hw] at hdone
    | fault f =>
      obtain ⟨n, rfl, -⟩ := Nest.exists_fault hvalue
      exact ⟨_, .carried g name hp⟩
  | convert source dest =>
    cases hdest
    obtain ⟨w, p, hw, hp, hvalue⟩ := hfrom rfl
    cases w with
    | fault => simp [State.step, hw, Specimen.convert?] at hdone
    | failure g e =>
      obtain ⟨n, rfl, -⟩ := Nest.exists_failure hvalue
      exact ⟨_, .converted name hp⟩
  | unwrap source dest =>
    cases hdest
    obtain ⟨w, p, hw, hp, hvalue⟩ := hfrom rfl
    cases w with
    | fault => simp [State.step, hw, Specimen.carried?] at hdone
    | failure g e =>
      obtain ⟨n, rfl, rfl⟩ := Nest.exists_failure hvalue
      cases hm : n.bare? with
      | some m => exact ⟨_, .unwrapped name hp hm⟩
      | none =>
        have hnone : (Specimen.failure g n.value).carried? = none :=
          n.carried?_value.trans (congrArg _ hm)
        simp [State.step, hw, hnone] at hdone

/-- Whatever a register holds, the steps have built a nest for it. -/
theorem exists_holds {steps : List Step} {name : String} {v : Specimen}
    (h : (after steps).registers.get? name = some v) : ∃ p, Holds steps name p := by
  induction steps using List.reverseRecOn generalizing name v with
  | nil => cases h
  | append_singleton steps t ih =>
    by_cases hwritten : t.dest? = some name → ((after steps).step t).2 = none
    · rw [after_concat, get?_left hwritten] at h
      obtain ⟨p, hp⟩ := ih h
      exact ⟨p, .left hwritten hp⟩
    · obtain ⟨hdest, hdone⟩ := Classical.not_imp.mp hwritten
      refine exists_holds_step (fun hw => ?_) hdest hdone
      obtain ⟨p, hp⟩ := ih hw
      obtain ⟨w, hvalue, hget⟩ := hp.get
      cases hw.symm.trans hget
      exact ⟨p, hp, hvalue⟩

/-- Looking inside a fault shows what its nest says was wrapped last. -/
theorem Holds.inside {steps : List Step} {name : String} {n : Nest .fault}
    (h : Holds steps name ⟨_, n⟩) :
    ∃ k m, n.content? = some ⟨k, m⟩ ∧
      ((after steps).step (.inside name)).2 = some (.inside m.cause) := by
  obtain ⟨v, hv, hget⟩ := h.get
  cases hv
  obtain ⟨-, -, hfault⟩ | ⟨-, k, m, f, hcontent, hfault, hcause⟩ := n.content?_spec
  · cases hfault
  · cases hfault
    exact ⟨k, m, hcontent, by simp only [State.step, hget, hcause]⟩

end Workbench

/-- Every nest shows the text of the error at its core, has the source of that error, and leads to
the texts that it leads to. A failure is of no kind of its own exactly if a fault was raised in its
nest. The fault that was raised last holds what it was raised around, and gives the whole value
back. On the workbench a register holds the value of a nest that the steps have built in it, and
looking inside a fault shows what that was built around. -/
theorem wrapping_transparent :
    (∀ {k : ErrorType} (n : Nest k), n.cause.text = n.core.text ∧
      n.cause.source? = n.core.source? ∧ ∀ ts, n.cause.Leads ts ↔ n.core.Leads ts) ∧
    (∀ (c : Cause) (ts : List String), c.Leads ts ↔ ts = c.trace) ∧
    (∀ {g : Generation} (n : Nest (.failure g)), n.value.kind? = none ↔ 0 < n.wraps) ∧
    (∀ {k : ErrorType} (n : Nest k), 0 < n.wraps → ∃ k' m f, n.content? = some ⟨k', m⟩ ∧
      n.fault? = some f ∧ f.cause = m.cause ∧ f.cause.specimen? = m.specimen?) ∧
    (∀ (steps : List Workbench.Step) (name : String) (v : Workbench.Specimen),
      (Workbench.after steps).registers.get? name = some v ↔
        ∃ k n, Workbench.Holds steps name ⟨k, n⟩ ∧ n.specimen? = some v) ∧
    ∀ (steps : List Workbench.Step) (name : String) (n : Nest .fault),
      Workbench.Holds steps name ⟨_, n⟩ → ∃ k m, n.content? = some ⟨k, m⟩ ∧
        ((Workbench.after steps).step (.inside name)).2 = some (.inside m.cause) := by
  refine ⟨fun n => ?_, fun c ts => Cause.leads_iff, fun n => n.kind?_eq_none_iff,
    fun n hwraps => ?_, fun steps name v => ⟨fun h => ?_, ?_⟩, fun steps name n h => h.inside⟩
  · obtain ⟨htext, hsource⟩ := n.transparent
    refine ⟨htext, hsource, fun ts => ?_⟩
    rw [Cause.leads_iff, Cause.leads_iff, Cause.trace_congr hsource]
  · obtain ⟨hnone, -⟩ | ⟨-, k, m, f, hcontent, hfault, hcause⟩ := n.content?_spec
    · exact absurd hnone (Nat.ne_of_gt hwraps)
    · exact ⟨k, m, f, hcontent, hfault, hcause, hcause ▸ m.specimen?_cause⟩
  · obtain ⟨⟨k, n⟩, hn⟩ := Workbench.exists_holds h
    obtain ⟨w, hw, hget⟩ := hn.get
    cases h.symm.trans hget
    exact ⟨k, n, hn, hw⟩
  · rintro ⟨k, n, hn, hv⟩
    obtain ⟨w, hw, hget⟩ := hn.get
    cases hv.symm.trans hw
    exact hget

/-- A legacy timeout as a fault, carried by a modern failure, converted, copied, and raised again;
and an error with two causes on the workbench. -/
theorem wrapping_transparent_sentinel :
    let inner : Nest (.failure .legacy) :=
      .copy (.convert .legacy (.carry .modern (.wrap 0 (.condition .legacy .timeout))))
    let n : Nest (.failure .modern) := .raise .modern 1 inner
    let steps : List Workbench.Step :=
      [.raise none (.chain "a" ["b", "c"]) "x", .raise none (.register "x") "y"]
    let chained : Nest .fault := .wrap 0 (.chain "a" ["b", "c"])
    0 < n.wraps ∧ n.value.kind? = none ∧ n.cause.text = "action timed out" ∧ n.cause.Leads [] ∧
      n.content? = some ⟨_, inner⟩ ∧ (n.fault?.map Fault.cause) = some inner.cause ∧
      Workbench.Holds steps "y" ⟨_, .wrap 1 chained⟩ ∧
        (Nest.wrap 1 chained).cause.Leads ["b", "c"] ∧
      ((Workbench.after steps).step (.inside "y")).2 = some (.inside chained.cause) := by
  intro inner n steps chained
  obtain ⟨htransparent, htrace, hkind, hcontent, -, hinside⟩ := wrapping_transparent
  have hholds : Workbench.Holds steps "y" ⟨_, .wrap 1 chained⟩ :=
    .wrapped none "y" (.chain [] none "a" ["b", "c"] "x")
  obtain ⟨htext, -, hleads⟩ := htransparent n
  obtain ⟨k, m, f, hm, hf, hcause, -⟩ := hcontent n (by decide)
  obtain ⟨k', m', hm', hreport⟩ := hinside steps "y" _ hholds
  cases hm
  cases hm'
  refine ⟨by decide, (hkind n).mpr (by decide), htext, ?_, rfl, ?_, hholds, ?_, hreport⟩
  · exact (hleads []).mpr ((htrace _ _).mpr rfl)
  · rw [hf]
    exact congrArg some hcause
  · exact (htrace _ _).mpr rfl

end CacheBridge
