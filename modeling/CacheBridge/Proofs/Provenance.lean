import Mathlib.Data.List.Induction
import CacheBridge.Failure.Workbench

/-!
Where a fault comes from. A fault in a register stems from the step that raised it, and reaches the
register by steps that hand it on in one form or another: a copy, a failure of the other generation,
a failure around it, or the bare fault again. Two faults are equal exactly if they stem from the
same step; what they say, and what they were raised around, does not matter.
-/

namespace CacheBridge

/-- The faults that a cause stands for, or that it was raised around, the outermost first. -/
def Cause.faults : Cause → List Fault
  | message _ | chain _ _ | condition _ _ => []
  | backend _ n c | fault n c => ⟨n, c⟩ :: c.faults

/-! ## Equality -/

instance : EquivBEq Fault where
  rfl := Fault.beq_iff.mpr rfl
  symm h := Fault.beq_iff.mpr (Fault.beq_iff.mp h).symm
  trans h h' := Fault.beq_iff.mpr ((Fault.beq_iff.mp h).trans (Fault.beq_iff.mp h'))

namespace Failure

variable {g : Generation}

theorem beq_iff {a b : Failure g} :
    (a == b) = true ↔ a.kind? = b.kind? ∧
      ∀ e f, a = .backend e → b = .backend f → (e == f) = true := by
  change a.same b = true ↔ _
  cases a <;> cases b <;> simp [same, kind?]

instance : EquivBEq (Failure g) where
  rfl := by
    rintro (c | f)
    · exact beq_iff.mpr ⟨rfl, nofun⟩
    · exact beq_iff.mpr ⟨rfl, fun _ _ he hf => by cases he; cases hf; exact BEq.rfl⟩
  symm h := by
    obtain ⟨hkind, hfault⟩ := beq_iff.mp h
    exact beq_iff.mpr ⟨hkind.symm, fun e f he hf => BEq.symm (hfault f e hf he)⟩
  trans {a b c} h h' := by
    obtain ⟨hkind, hfault⟩ := beq_iff.mp h
    obtain ⟨hkind', hfault'⟩ := beq_iff.mp h'
    refine beq_iff.mpr ⟨hkind.trans hkind', fun e f he hf => ?_⟩
    cases b with
    | condition d => simp [he, kind?] at hkind
    | backend m => exact BEq.trans (hfault e m he rfl) (hfault' m f rfl hf)

end Failure

namespace Workbench

/-- The fault that a specimen is, or carries. -/
def Specimen.fault? : Specimen → Option Fault
  | .fault f => some f
  | .failure _ (.backend f) => some f
  | .failure _ (.condition _) => none

@[simp] theorem fault?_hold (f : Fault) (held : Option Generation) :
    (State.hold f held).fault? = some f := by
  cases held <;> rfl

theorem faults_hold (f : Fault) (held : Option Generation) :
    (State.hold f held).cause.faults = f :: f.cause.faults := by
  cases held <;> rfl

namespace Step

/-- The register that a step writes, if it does anything. -/
def dest? : Step → Option String
  | raise _ _ dest | condition _ _ dest | carry _ _ dest | convert _ dest | copy _ dest
  | unwrap _ dest => some dest
  | view _ | compare _ _ | inside _ => none

/-- The register whose fault a step hands on. -/
def source? : Step → Option String
  | carry _ name _ | convert name _ | copy name _ | unwrap name _ => some name
  | raise _ _ _ | condition _ _ _ | view _ | compare _ _ | inside _ => none

end Step

/-! ## What a step comes to -/

/-- A step leaves everything as it is, or raises a fault, or makes a condition, or hands on what one
register holds to another. -/
inductive Comes (s : State) (t : Step) : State → Prop where
  | idle (h : ∀ dest, t.dest? = some dest → (s.step t).2 = none) : Comes s t s
  | raised {held : Option Generation} {content : Content} {dest : String} {cause : Cause}
      (ht : t = .raise held content dest) (hcause : s.content? content = some cause) :
      Comes s t { registers := s.registers.put dest (State.hold ⟨s.next, cause⟩ held),
                  next := s.next + 1 }
  | condition {g : Generation} {c : Condition} {dest : String} (ht : t = .condition g c dest) :
      Comes s t { s with registers := s.registers.put dest (.failure g (.condition c)) }
  | handed {source dest : String} {v w : Specimen} (hsource : t.source? = some source)
      (hdest : t.dest? = some dest) (hdone : (s.step t).2.isSome = true)
      (hv : s.registers.get? source = some v) (hfault : w.fault? = v.fault?)
      (hfaults : w.cause.faults = v.cause.faults) :
      Comes s t { s with registers := s.registers.put dest w }

/-- A step that does not fit what its registers hold. -/
theorem Comes.refused {s : State} {t : Step} (h : s.step t = (s, none)) :
    Comes s t (s.step t).1 := by
  rw [h]
  exact .idle fun _ _ => congrArg Prod.snd h

/-- A step that hands on. -/
theorem Comes.kept {s : State} {t : Step} {source dest : String} {v w : Specimen}
    (hsource : t.source? = some source) (hdest : t.dest? = some dest)
    (h : s.step t = s.keep dest w) (hv : s.registers.get? source = some v)
    (hfault : w.fault? = v.fault?) (hfaults : w.cause.faults = v.cause.faults) :
    Comes s t (s.step t).1 := by
  have hdone : (s.step t).2.isSome = true := by rw [h]; rfl
  rw [h]
  exact .handed hsource hdest hdone hv hfault hfaults

theorem comes (s : State) (t : Step) : Comes s t (s.step t).1 := by
  cases t with
  | raise held content dest =>
    cases hc : s.content? content with
    | none => exact .refused (by simp only [State.step, hc])
    | some cause => simpa only [State.step, hc] using .raised rfl hc
  | condition g c dest => exact .condition rfl
  | carry g name dest =>
    cases hv : s.registers.get? name with
    | none => exact .refused (by simp only [State.step, hv])
    | some v =>
      cases v with
      | failure h e => exact .refused (by simp only [State.step, hv])
      | fault f =>
        exact .kept (w := .failure g (.backend f)) rfl rfl
          (by simp only [State.step, hv]) hv rfl rfl
  | convert name dest =>
    cases hv : s.registers.get? name with
    | none => exact .refused (by simp [State.step, hv])
    | some v =>
      cases v with
      | fault f => exact .refused (by simp [State.step, hv, Specimen.convert?])
      | failure g e =>
        refine .kept (w := .failure g.other (e.as g.other)) rfl rfl ?_ hv ?_ ?_
        · simp [State.step, hv, Specimen.convert?]
        · cases e <;> rfl
        · cases e <;> rfl
  | copy name dest =>
    cases hv : s.registers.get? name with
    | none => exact .refused (by simp only [State.step, hv])
    | some v => exact .kept rfl rfl (by simp only [State.step, hv]) hv rfl rfl
  | unwrap name dest =>
    cases hv : s.registers.get? name with
    | none => exact .refused (by simp [State.step, hv])
    | some v =>
      cases v with
      | fault f => exact .refused (by simp [State.step, hv, Specimen.carried?])
      | failure g e =>
        cases e with
        | condition c => exact .refused (by simp [State.step, hv, Specimen.carried?])
        | backend f =>
          refine .kept (w := .fault f) rfl rfl ?_ hv rfl rfl
          simp [State.step, hv, Specimen.carried?]
  | view | compare => exact .idle nofun
  | inside name =>
    have hsame : (s.step (.inside name)).1 = s := by
      simp only [State.step]
      split <;> rfl
    rw [hsame]
    exact .idle nofun

/-! ## Where a fault stems from -/

/-- What the registers hold after some steps, from the beginning. -/
def after (steps : List Step) : State := State.run {} steps

theorem after_append (steps more : List Step) : after (steps ++ more) = (after steps).run more :=
  List.foldl_append

theorem after_concat (steps : List Step) (t : Step) :
    after (steps ++ [t]) = ((after steps).step t).1 :=
  after_append steps [t]

/-- The fault in a register stems from the step with the number `i`: it was raised there, or handed
on from a register whose fault does, and since then nothing else was written over it. -/
inductive Stems : List Step → String → Nat → Prop where
  | raised {steps : List Step} {held : Option Generation} {content : Content} {dest : String}
      (h : ((after steps).step (.raise held content dest)).2.isSome = true) :
      Stems (steps ++ [.raise held content dest]) dest steps.length
  | handed {steps : List Step} {t : Step} {source dest : String} {i : Nat}
      (hsource : t.source? = some source) (hdest : t.dest? = some dest)
      (h : ((after steps).step t).2.isSome = true) (hstems : Stems steps source i) :
      Stems (steps ++ [t]) dest i
  | left {steps : List Step} {t : Step} {name : String} {i : Nat}
      (h : t.dest? = some name → ((after steps).step t).2 = none) (hstems : Stems steps name i) :
      Stems (steps ++ [t]) name i

/-- After the steps the register holds the fault, bare or in a failure. -/
def Bears (steps : List Step) (name : String) (f : Fault) : Prop :=
  ((after steps).registers.get? name).bind Specimen.fault? = some f

/-- The number that a fault gets which is raised by the step with the number `i`. -/
def numberAt (steps : List Step) (i : Nat) : Nat := (after (steps.take i)).next

theorem next_le_step (s : State) (t : Step) : s.next ≤ (s.step t).1.next := by
  have hcomes := comes s t
  generalize (s.step t).1 = s' at hcomes
  cases hcomes with
  | raised => exact Nat.le_succ _
  | idle | condition | handed => exact Nat.le_refl _

theorem numberAt_concat {steps : List Step} {i : Nat} (h : i ≤ steps.length) (t : Step) :
    numberAt (steps ++ [t]) i = numberAt steps i :=
  congrArg (fun taken => (after taken).next) (List.take_append_of_le_length h)

theorem numberAt_length (steps : List Step) : numberAt steps steps.length = (after steps).next := by
  rw [numberAt, List.take_length]

theorem numberAt_mono (steps : List Step) {i j : Nat} (h : i ≤ j) :
    numberAt steps i ≤ numberAt steps j := by
  induction h with
  | refl => exact Nat.le_refl _
  | @step j h ih =>
    refine Nat.le_trans ih ?_
    unfold numberAt
    rw [List.take_add_one]
    cases steps[j]? with
    | none => simp
    | some t => exact after_concat (steps.take j) t ▸ next_le_step _ t

/-- What a step does not write stays. -/
theorem get?_left {s : State} {t : Step} {name : String}
    (h : t.dest? = some name → (s.step t).2 = none) :
    (s.step t).1.registers.get? name = s.registers.get? name := by
  have hcomes := comes s t
  have hother {dest : String} (hdest : t.dest? = some dest) (hdone : (s.step t).2.isSome = true) :
      name ≠ dest := by
    rintro rfl
    rw [h hdest] at hdone
    cases hdone
  generalize hs : (s.step t).1 = s' at hcomes
  cases hcomes with
  | idle => rfl
  | raised ht hcause =>
    subst ht
    exact Table.get?_put_of_ne _ _ (hother rfl (by simp [State.step, hcause, State.keep]))
  | condition ht =>
    subst ht
    exact Table.get?_put_of_ne _ _ (hother rfl rfl)
  | handed _ hdest hdone => exact Table.get?_put_of_ne _ _ (hother hdest hdone)

/-- A fault that is held stems from some step, and has the number that is raised there. -/
theorem Bears.stems {steps : List Step} {name : String} {f : Fault} (h : Bears steps name f) :
    ∃ i ≤ steps.length, Stems steps name i ∧ f.number = numberAt steps i := by
  induction steps using List.reverseRecOn generalizing name f with
  | nil => cases h
  | append_singleton steps t ih =>
    have hthere {source : String} (h : Bears steps source f)
        (hstems : ∀ i, Stems steps source i → Stems (steps ++ [t]) name i) :
        ∃ i ≤ (steps ++ [t]).length, Stems (steps ++ [t]) name i ∧
          f.number = numberAt (steps ++ [t]) i := by
      obtain ⟨i, hi, hs, hnumber⟩ := ih h
      exact ⟨i, by simp; omega, hstems i hs, hnumber.trans (numberAt_concat hi t).symm⟩
    unfold Bears at h
    rw [after_concat] at h
    by_cases hwritten : t.dest? = some name → ((after steps).step t).2 = none
    · rw [get?_left hwritten] at h
      exact hthere h fun i => .left hwritten
    · obtain ⟨hdest, hdone⟩ := Classical.not_imp.mp hwritten
      have hcomes := comes (after steps) t
      generalize ((after steps).step t).1 = s' at h hcomes
      cases hcomes with
      | idle hnone => exact absurd (hnone name hdest) hdone
      | raised ht hcause =>
        subst ht
        cases hdest
        rw [Table.get?_put_self, Option.bind_some, fault?_hold] at h
        refine ⟨steps.length, by simp, .raised (by simp [State.step, hcause, State.keep]), ?_⟩
        rw [numberAt_concat (Nat.le_refl _), numberAt_length, ← Option.some.inj h]
      | condition ht =>
        subst ht
        cases hdest
        simp [Specimen.fault?] at h
      | handed hsource hdest' hdone' hv hfault =>
        cases hdest.symm.trans hdest'
        rw [Table.get?_put_self, Option.bind_some, hfault] at h
        refine hthere ?_ fun i => .handed hsource hdest hdone'
        rw [Bears, hv, Option.bind_some, h]

/-- The register bears the fault that the step with the number `i` raised. -/
structure BearsRaised (steps : List Step) (name : String) (i : Nat) : Prop where
  lt : i < steps.length
  rises : numberAt steps i < numberAt steps (i + 1)
  bears : ∃ f, Bears steps name f ∧ f.number = numberAt steps i

theorem BearsRaised.concat {steps : List Step} {source name : String} {i : Nat}
    (h : BearsRaised steps source i) {t : Step}
    (hbears : ∀ f, Bears steps source f → Bears (steps ++ [t]) name f) :
    BearsRaised (steps ++ [t]) name i := by
  obtain ⟨hi, hlt, f, hf, hnumber⟩ := h
  refine ⟨by simp; omega, ?_, f, hbears f hf, ?_⟩
  · rwa [numberAt_concat (Nat.le_of_lt hi), numberAt_concat hi]
  · rwa [numberAt_concat (Nat.le_of_lt hi)]

/-- What stems from a step was raised there. -/
theorem Stems.bears {steps : List Step} {name : String} {i : Nat} (h : Stems steps name i) :
    BearsRaised steps name i := by
  induction h with
  | @raised steps held content dest h =>
    have hcomes := comes (after steps) (.raise held content dest)
    have hafter := after_concat steps (.raise held content dest)
    generalize ((after steps).step (.raise held content dest)).1 = s at hcomes hafter
    cases hcomes with
    | idle hnone => simp [hnone dest rfl] at h
    | @raised held' content' dest' cause ht hcause =>
      cases ht
      refine ⟨by simp, ?_, ⟨(after steps).next, cause⟩, ?_, ?_⟩
      · rw [numberAt_concat (Nat.le_refl _), numberAt_length, numberAt,
          List.take_of_length_le (by simp), hafter]
        exact Nat.lt_succ_self _
      · rw [Bears, hafter, Table.get?_put_self, Option.bind_some, fault?_hold]
      · rw [numberAt_concat (Nat.le_refl _), numberAt_length]
    | condition ht => cases ht
    | handed hsource => cases hsource
  | @handed steps t source dest i hsource hdest h hstems ih =>
    refine ih.concat fun f hf => ?_
    unfold Bears at hf ⊢
    rw [after_concat]
    have hcomes := comes (after steps) t
    generalize ((after steps).step t).1 = s at hcomes
    cases hcomes with
    | idle hnone => simp [hnone dest hdest] at h
    | raised ht | condition ht =>
      subst ht
      cases hsource
    | handed hsource' hdest' _ hv hfault =>
      cases hsource.symm.trans hsource'
      cases hdest.symm.trans hdest'
      rw [hv, Option.bind_some] at hf
      rw [Table.get?_put_self, Option.bind_some, hfault, hf]
  | @left steps t name i h hstems ih =>
    refine ih.concat fun f hf => ?_
    rwa [Bears, after_concat, get?_left h]

/-- Steps that raised faults with one number are one step. -/
theorem BearsRaised.eq_of_numberAt {steps : List Step} {a b : String} {i j : Nat}
    (hi : BearsRaised steps a i) (hj : BearsRaised steps b j)
    (h : numberAt steps i = numberAt steps j) : i = j := by
  rcases Nat.lt_trichotomy i j with hlt | heq | hlt
  · have hle := numberAt_mono steps (Nat.succ_le_of_lt hlt)
    exact absurd (Nat.lt_of_lt_of_le hi.rises hle) (by omega)
  · exact heq
  · have hle := numberAt_mono steps (Nat.succ_le_of_lt hlt)
    exact absurd (Nat.lt_of_lt_of_le hj.rises hle) (by omega)

/-- A register stems from one step at most. -/
theorem Stems.unique {steps : List Step} {name : String} {i j : Nat} (hi : Stems steps name i)
    (hj : Stems steps name j) : i = j := by
  obtain ⟨f, hf, hnumber⟩ := hi.bears.bears
  obtain ⟨f', hf', hnumber'⟩ := hj.bears.bears
  cases hf.symm.trans hf'
  exact hi.bears.eq_of_numberAt hj.bears (hnumber.symm.trans hnumber')

/-- Faults in two registers are equal exactly if they stem from one step. -/
theorem Bears.beq_iff {steps : List Step} {a b : String} {e f : Fault} (ha : Bears steps a e)
    (hb : Bears steps b f) : (e == f) = true ↔ ∃ i, Stems steps a i ∧ Stems steps b i := by
  rw [Fault.beq_iff]
  constructor
  · intro h
    obtain ⟨i, -, hi, hnumber⟩ := ha.stems
    obtain ⟨j, -, hj, hnumber'⟩ := hb.stems
    cases hi.bears.eq_of_numberAt hj.bears (hnumber.symm.trans (h.trans hnumber'))
    exact ⟨i, hi, hj⟩
  · rintro ⟨i, hi, hj⟩
    obtain ⟨e', he', hnumber⟩ := hi.bears.bears
    obtain ⟨f', hf', hnumber'⟩ := hj.bears.bears
    cases ha.symm.trans he'
    cases hb.symm.trans hf'
    exact hnumber.trans hnumber'.symm

/-! ## New faults -/

/-- All faults in the registers, and those that they were raised around, have had their numbers. -/
def Numbered (s : State) : Prop :=
  ∀ name v, s.registers.get? name = some v → ∀ f ∈ v.cause.faults, f.number < s.next

theorem Numbered.content {s : State} (h : Numbered s) {content : Content} {cause : Cause}
    (hcause : s.content? content = some cause) : ∀ f ∈ cause.faults, f.number < s.next := by
  cases content with
  | message | chain =>
    cases hcause
    nofun
  | register name =>
    obtain ⟨v, hv, rfl⟩ := Option.map_eq_some_iff.mp hcause
    exact h name v hv

/-- Writing a specimen whose faults have had their numbers. -/
theorem Numbered.put {s : State} (h : Numbered s) {dest : String} {v : Specimen} {n : Nat}
    (hn : s.next ≤ n) (hv : ∀ f ∈ v.cause.faults, f.number < n) :
    Numbered { registers := s.registers.put dest v, next := n } := by
  intro name w hw f hf
  rw [Table.get?_put] at hw
  split at hw
  · cases hw
    exact hv f hf
  · exact Nat.lt_of_lt_of_le (h name w hw f hf) hn

theorem Numbered.step {s : State} (h : Numbered s) (t : Step) : Numbered (s.step t).1 := by
  have hcomes := comes s t
  generalize (s.step t).1 = s' at hcomes
  cases hcomes with
  | idle => exact h
  | raised _ hcause =>
    refine h.put (Nat.le_succ _) fun f hf => ?_
    rw [faults_hold] at hf
    rcases List.mem_cons.mp hf with rfl | hf
    · exact Nat.lt_succ_self _
    · exact Nat.lt_succ_of_lt (h.content hcause f hf)
  | condition => exact h.put (Nat.le_refl _) nofun
  | @handed source _ v _ _ _ _ hv _ hfaults =>
    exact h.put (Nat.le_refl _) fun f hf => h source v hv f (hfaults ▸ hf)

theorem numbered_after (steps : List Step) : Numbered (after steps) := by
  induction steps using List.reverseRecOn with
  | nil => nofun
  | append_singleton steps t ih => exact after_concat steps t ▸ ih.step t

/-- A fault that is raised equals none that there was before, not even inside another. -/
theorem raise_fresh {steps : List Step} {held : Option Generation} {content : Content}
    {dest : String} (h : ((after steps).step (.raise held content dest)).2.isSome = true) :
    ∃ f, Bears (steps ++ [.raise held content dest]) dest f ∧
      ∀ i name v, (after (steps.take i)).registers.get? name = some v →
        ∀ e ∈ v.cause.faults, (f == e) = false := by
  obtain ⟨-, -, f, hf, hnumber⟩ := (Stems.raised h).bears
  rw [numberAt_concat (Nat.le_refl _), numberAt_length] at hnumber
  refine ⟨f, hf, fun i name v hv e he => eq_false_of_ne_true fun heq => ?_⟩
  have hearlier : (after (steps.take i)).next ≤ (after steps).next := by
    rcases Nat.le_total i steps.length with hi | hi
    · exact numberAt_length steps ▸ numberAt_mono steps hi
    · exact Nat.le_of_eq (congrArg (fun taken => (after taken).next) (List.take_of_length_le hi))
  have hlt := numbered_after (steps.take i) name v hv e he
  have hsame := Fault.beq_iff.mp heq
  omega

/-! ## There and back -/

/-- A failure that is converted to the other generation and back is what it was. -/
theorem convert_twice {s : State} {name : String} {g : Generation} {e : Failure g}
    (h : s.registers.get? name = some (.failure g e)) :
    ((s.run [.convert name name, .convert name name]).registers.get? name) =
      some (.failure g e) := by
  cases g <;> simp [State.run, State.step, State.keep, h, Specimen.convert?, Generation.other]

theorem convert_back {s : State} {name : String} {g : Generation} {e : Failure g}
    (h : s.registers.get? name = some (.failure g e)) (n : Nat) :
    (s.run (List.replicate n [Step.convert name name, .convert name name]).flatten).registers.get?
      name = some (.failure g e) := by
  induction n generalizing s with
  | zero => exact h
  | succ n ih =>
    rw [List.replicate_succ, List.flatten_cons, State.run, List.foldl_append]
    exact ih (convert_twice h)

/-- After any steps a fault that is held stems from just one of them, and two such faults are equal
exactly if they stem from the same one. Failures are equal if they have the same kind and, where
that is none, equal faults. A fault that is raised then equals none there has been, in whatever it
is wrapped. Conversion gives nothing up: there and back, any number of times, leads to the same
failure, and on the way it keeps its kind and what it is equal to. -/
theorem identity_is_provenance (steps : List Step) :
    (∀ name f, Bears steps name f →
      ∃ i, Stems steps name i ∧ ∀ j, Stems steps name j → j = i) ∧
    (∀ a b e f, Bears steps a e → Bears steps b f →
      ((e == f) = true ↔ ∃ i, Stems steps a i ∧ Stems steps b i)) ∧
    (∀ {g : Generation} (d e : Failure g), (d == e) = true ↔ d.kind? = e.kind? ∧
      ∀ f f', d = .backend f → e = .backend f' → (f == f') = true) ∧
    (∀ held content dest, ((after steps).step (.raise held content dest)).2.isSome = true →
      ∃ f, Bears (steps ++ [.raise held content dest]) dest f ∧
        ∀ i name v, (after (steps.take i)).registers.get? name = some v →
          ∀ e ∈ v.cause.faults, (f == e) = false) ∧
    (∀ name g e n, (after steps).registers.get? name = some (.failure g e) →
      let there := List.replicate n [Step.convert name name, .convert name name]
      (after (steps ++ there.flatten)).registers.get? name = some (.failure g e)) ∧
    (∀ {g h : Generation} (d e : Failure g),
      (d.as h).kind? = d.kind? ∧ (d.as h == e.as h) = (d == e)) ∧
    (∀ g : Generation, Equivalence fun d e : Failure g => (d == e) = true) ∧
    Equivalence fun e f : Fault => (e == f) = true := by
  refine ⟨fun name f hf => ?_, fun a b e f ha hb => ha.beq_iff hb, fun d e => Failure.beq_iff,
    fun held content dest h => raise_fresh h, fun name g e n h => ?_,
    fun d e => ⟨d.kind?_as, Failure.as_beq_as d e⟩,
    fun g => ⟨fun _ => BEq.rfl, BEq.symm, BEq.trans⟩, ⟨fun _ => BEq.rfl, BEq.symm, BEq.trans⟩⟩
  · obtain ⟨i, -, hi, -⟩ := hf.stems
    exact ⟨i, hi, fun j hj => hj.unique hi⟩
  · intro there
    rw [after_append]
    exact convert_back h n

/-- Two faults with one text, one of them carried to the other generation, copied there and
unwrapped from the copy, and a third raised around it. -/
theorem identity_is_provenance_wrapped :
    let steps : List Step :=
      [.raise none (.message "boom") "a", .raise none (.message "boom") "b", .carry .legacy "a" "c",
        .convert "c" "d", .copy "d" "g", .unwrap "g" "e", .raise (some .modern) (.register "d") "f"]
    let boom : Cause := .message "boom"
    Bears steps "a" ⟨0, boom⟩ ∧ Bears steps "b" ⟨1, boom⟩ ∧ Bears steps "g" ⟨0, boom⟩ ∧
      Bears steps "e" ⟨0, boom⟩ ∧ Bears steps "f" ⟨2, .backend .modern 0 boom⟩ ∧
      (∃ i, Stems steps "a" i ∧ Stems steps "g" i) ∧
      (∃ i, Stems steps "a" i ∧ Stems steps "e" i) ∧
      (¬∃ i, Stems steps "a" i ∧ Stems steps "b" i) ∧
      ¬∃ i, Stems steps "d" i ∧ Stems steps "f" i := by
  intro steps boom
  have ha : Bears steps "a" ⟨0, boom⟩ := rfl
  have hb : Bears steps "b" ⟨1, boom⟩ := rfl
  have hd : Bears steps "d" ⟨0, boom⟩ := rfl
  have hg : Bears steps "g" ⟨0, boom⟩ := rfl
  have he : Bears steps "e" ⟨0, boom⟩ := rfl
  have hf : Bears steps "f" ⟨2, .backend .modern 0 boom⟩ := rfl
  have hsame := (identity_is_provenance steps).2.1
  refine ⟨ha, hb, hg, he, hf, (hsame _ _ _ _ ha hg).mp rfl, (hsame _ _ _ _ ha he).mp rfl,
    fun h => ?_, fun h => ?_⟩
  · exact nomatch (hsame _ _ _ _ ha hb).mpr h
  · exact nomatch (hsame _ _ _ _ hd hf).mpr h

end Workbench

end CacheBridge
