import Mathlib.Data.List.Find
import Mathlib.Data.List.Nodup
import Mathlib.Data.List.Induction
import CacheBridge.Scope

/-!
What the tree of scopes stands for. Every node has a line of descent: itself, then what it was
derived from, up to its root. The tree keeps only the nodes that are held, each below the nearest of
its line that is still there; since lines that meet go on as one, a walk from a node on finds just
the nodes that have it in their line, whatever was taken out in between.
-/

namespace CacheBridge

/-! ## Lines of descent -/

/-- The lines of the nodes with a number below `next`. -/
def Descent (line : Nat → List Nat) (next : Nat) : Prop :=
  ∀ n < next, line n = [n] ∨ ∃ p < n, line n = n :: line p

/-- The lines with one more, of a node below `parent`. -/
def extended (line : Nat → List Nat) (next : Nat) (parent : Option Nat) : Nat → List Nat :=
  fun n => if n = next then next :: parent.elim [] line else line n

theorem extended_of_lt {line : Nat → List Nat} {next n : Nat} {parent : Option Nat} (h : n < next) :
    extended line next parent n = line n := if_neg (Nat.ne_of_lt h)

theorem extended_next {line : Nat → List Nat} {next : Nat} {parent : Option Nat} :
    extended line next parent next = next :: parent.elim [] line := if_pos rfl

namespace Descent

variable {line : Nat → List Nat} {next n a p : Nat} {alive : Nat → Bool}

theorem self_mem (h : Descent line next) (hn : n < next) : n ∈ line n := by
  rcases h n hn with hline | ⟨p, -, hline⟩ <;> rw [hline] <;> exact List.mem_cons_self

theorem eq_cons (h : Descent line next) (hn : n < next) : ∃ rest, line n = n :: rest := by
  rcases h n hn with hline | ⟨p, -, hline⟩ <;> exact ⟨_, hline⟩

/-- A line goes down in numbers, and goes on as the line of whatever stands in it. -/
theorem suffix (h : Descent line next) (hn : n < next) (ha : a ∈ line n) :
    a ≤ n ∧ line a <:+ line n := by
  induction n using Nat.strongRecOn with
  | ind n ih =>
    rcases h n hn with hline | ⟨p, hp, hline⟩
    · rw [hline] at ha
      cases List.mem_singleton.mp ha
      exact ⟨Nat.le_refl _, List.suffix_refl _⟩
    · have hmem := ha
      rw [hline] at hmem
      rcases List.mem_cons.mp hmem with rfl | hmem
      · exact ⟨Nat.le_refl _, List.suffix_refl _⟩
      · obtain ⟨hle, hsuffix⟩ := ih p hp (Nat.lt_trans hp hn) hmem
        refine ⟨Nat.le_trans hle (Nat.le_of_lt hp), ?_⟩
        rw [hline]
        exact hsuffix.trans (List.suffix_cons _ _)

theorem tail_lt (h : Descent line next) (hn : n < next) (ha : a ∈ (line n).tail) : a < n := by
  rcases h n hn with hline | ⟨p, hp, hline⟩ <;> rw [hline] at ha
  · cases ha
  · exact Nat.lt_of_le_of_lt (h.suffix (Nat.lt_trans hp hn) ha).1 hp

/-- The nearest of a line that is alive has the rest of the line for its own. -/
theorem of_nearest (h : Descent line next) (hn : n < next)
    (hp : (line n).tail.find? alive = some p) :
    p < n ∧ alive p = true ∧ line p <:+ line n := by
  have hmem := List.mem_of_find?_eq_some hp
  exact ⟨h.tail_lt hn hmem, List.find?_some hp, (h.suffix hn (List.mem_of_mem_tail hmem)).2⟩

/-- Whoever is alive in a line stands in the line of its nearest, or comes first. -/
theorem exists_nearest (h : Descent line next) (hn : n < next) (ha : a ∈ line n) (hne : a ≠ n)
    (halive : alive a = true) : ∃ p, (line n).tail.find? alive = some p ∧ a ∈ line p := by
  induction n using Nat.strongRecOn with
  | ind n ih =>
    rcases h n hn with hline | ⟨q, hq, hline⟩
    · rw [hline] at ha
      exact absurd (List.mem_singleton.mp ha) hne
    · have hqn := Nat.lt_trans hq hn
      rw [hline] at ha ⊢
      have ha : a ∈ line q := (List.mem_cons.mp ha).resolve_left hne
      obtain ⟨rest, hrest⟩ := h.eq_cons hqn
      rw [List.tail_cons]
      cases hq' : alive q with
      | true => exact ⟨q, by simp [hrest, hq'], ha⟩
      | false =>
        have haq : a ≠ q := by
          rintro rfl
          exact absurd (halive.symm.trans hq') nofun
        obtain ⟨p, hp, hap⟩ := ih q hq hqn ha haq
        rw [hrest, List.tail_cons] at hp
        exact ⟨p, by simp [hrest, hq', hp], hap⟩

/-- When `n` goes, who had it for the nearest has the nearest of `n` instead. -/
theorem find?_without (h : Descent line next) (alive : Nat → Bool) (hn : n < next) (gone : Nat) :
    (line n).tail.find? (fun a => alive a && a != gone) =
      if (line n).tail.find? alive = some gone then (line gone).tail.find? alive
      else (line n).tail.find? alive := by
  induction n using Nat.strongRecOn with
  | ind n ih =>
    rcases h n hn with hline | ⟨q, hq, hline⟩
    · simp [hline]
    · have hqn := Nat.lt_trans hq hn
      obtain ⟨rest, hrest⟩ := h.eq_cons hqn
      have ih := ih q hq hqn
      rw [hrest, List.tail_cons] at ih
      rw [hline, List.tail_cons, hrest]
      cases hq' : alive q with
      | false => simpa [hq'] using ih
      | true =>
        by_cases hgone : q = gone
        · subst hgone
          -- further up the line there is no second one of that number
          have hrest' : ∀ a ∈ rest, (alive a && a != q) = alive a := fun a ha => by
            have hlt := h.tail_lt hqn (a := a) (by rwa [hrest])
            simp [Nat.ne_of_lt hlt]
          simp [hq', hrest, List.find?_congr hrest']
        · simp [hq', hgone]

theorem extend (h : Descent line next) {parent : Option Nat}
    (hparent : ∀ p, parent = some p → p < next) :
    Descent (extended line next parent) (next + 1) := by
  intro n hn
  rcases Nat.lt_succ_iff_lt_or_eq.mp hn with hn | rfl
  · rw [extended_of_lt hn]
    refine (h n hn).imp_right fun ⟨p, hp, hline⟩ => ⟨p, hp, ?_⟩
    rw [extended_of_lt (Nat.lt_trans hp hn), hline]
  · cases parent with
    | none => exact .inl extended_next
    | some p =>
      have hp := hparent p rfl
      exact .inr ⟨p, hp, by rw [extended_next, extended_of_lt hp]; rfl⟩

end Descent

/-! ## The tree -/

namespace ScopeTree

/-- The node is there. -/
def alive (t : ScopeTree) (n : Nat) : Bool := t.nodes.any (·.number == n)

/-- What is true of a node: it stands below the nearest of its line, it is cancelled if any of its
line was, and it counts its seats. -/
structure Fits (line : Nat → List Nat) (cancels seats : List Nat) (alive : Nat → Bool)
    (node : ScopeNode) : Prop where
  parent : node.parent = (line node.number).tail.find? alive
  cancelled : node.cancelled = true ↔ ∃ a ∈ line node.number, a ∈ cancels
  handles : node.handles = seats.count node.number

/-- The tree after the nodes `cancels` were cancelled, with a seat at a node for each handle on
it. -/
structure Grown (line : Nat → List Nat) (cancels seats : List Nat) (t : ScopeTree) : Prop where
  descent : Descent line t.next
  ascending : t.nodes.Pairwise (·.number < ·.number)
  early : ∀ node ∈ t.nodes, node.number < t.next
  past : ∀ a ∈ cancels, a < t.next
  seated : ∀ n ∈ seats, t.alive n = true
  fits : ∀ node ∈ t.nodes, Fits line cancels seats t.alive node

variable {line : Nat → List Nat} {cancels seats : List Nat} {t : ScopeTree} {n : Nat}

theorem alive_iff : t.alive n = true ↔ ∃ node ∈ t.nodes, node.number = n := by
  simp [alive]

/-- Nodes that keep their numbers are there or not as before. -/
theorem alive_map {f : ScopeNode → ScopeNode} (hf : ∀ node, (f node).number = node.number) :
    ScopeTree.alive { t with nodes := t.nodes.map f } = t.alive := by
  funext n
  simp [alive, List.any_map, Function.comp_def, hf]

theorem alive_derive {parent : Option Nat} (m : Nat) :
    (t.derive parent).1.alive m = (t.alive m || t.next == m) := by
  simp [derive, alive]

theorem alive_derive_of_lt {parent : Option Nat} {m : Nat} (hm : m < t.next) :
    (t.derive parent).1.alive m = t.alive m := by
  rw [alive_derive, beq_false_of_ne (Nat.ne_of_gt hm), Bool.or_false]

theorem forall_derive {parent : Option Nat} {P : ScopeNode → Prop} (hold : ∀ node ∈ t.nodes, P node)
    (hnew : P ⟨t.next, parent, parent.any t.isCancelled, 1⟩) :
    ∀ node ∈ (t.derive parent).1.nodes, P node :=
  List.forall_mem_append.mpr ⟨hold, List.forall_mem_singleton.mpr hnew⟩

/-- What becomes of another node when one is taken out. -/
def movedUp (gone other : ScopeNode) : ScopeNode :=
  if other.parent = some gone.number then { other with parent := gone.parent } else other

theorem movedUp_number (gone other : ScopeNode) : (movedUp gone other).number = other.number := by
  unfold movedUp
  split <;> rfl

theorem remove_nodes (gone : ScopeNode) : (t.remove gone).nodes =
    (t.nodes.filter (·.number != gone.number)).map (movedUp gone) := rfl

theorem forall_remove {gone : ScopeNode} {P : ScopeNode → Prop}
    (h : ∀ other ∈ t.nodes, gone.number ≠ other.number → P (movedUp gone other)) :
    ∀ other ∈ (t.remove gone).nodes, P other := by
  rw [remove_nodes, List.forall_mem_map]
  intro other hother
  obtain ⟨hmem, hne⟩ := List.mem_filter.mp hother
  exact h other hmem (bne_iff_ne.mp hne).symm

theorem alive_remove (gone : ScopeNode) (m : Nat) :
    (t.remove gone).alive m = (t.alive m && m != gone.number) := by
  rw [Bool.eq_iff_iff, Bool.and_eq_true, alive_iff, alive_iff, remove_nodes, bne_iff_ne]
  constructor
  · rintro ⟨_, hmem, rfl⟩
    obtain ⟨other, hother, rfl⟩ := List.mem_map.mp hmem
    obtain ⟨hother, hne⟩ := List.mem_filter.mp hother
    rw [movedUp_number]
    exact ⟨⟨other, hother, rfl⟩, bne_iff_ne.mp hne⟩
  · rintro ⟨⟨other, hother, rfl⟩, hne⟩
    exact ⟨_, List.mem_map_of_mem (List.mem_filter.mpr ⟨hother, bne_iff_ne.mpr hne⟩),
      movedUp_number gone other⟩

@[simp] theorem share_next (t : ScopeTree) (n : Nat) : (t.share n).next = t.next := rfl

@[simp] theorem cancel_next (t : ScopeTree) (n : Nat) : (t.cancel n).next = t.next := rfl

@[simp] theorem release_next (t : ScopeTree) (n : Nat) : (t.release n).next = t.next := by
  unfold release
  split
  · rfl
  · split <;> rfl

theorem grown_empty (line : Nat → List Nat) : Grown line [] [] {} where
  descent := nofun
  ascending := .nil
  early := nofun
  past := nofun
  seated := nofun
  fits := nofun

namespace Grown

theorem alive_lt (h : Grown line cancels seats t) (hn : t.alive n = true) : n < t.next := by
  obtain ⟨node, hnode, rfl⟩ := alive_iff.mp hn
  exact h.early node hnode

/-- Two nodes with one number are one node. -/
theorem unique (h : Grown line cancels seats t) {node other : ScopeNode} (hnode : node ∈ t.nodes)
    (hother : other ∈ t.nodes) (hnumber : node.number = other.number) : node = other := by
  have hnodup : (t.nodes.map ScopeNode.number).Nodup :=
    List.pairwise_map.mpr (h.ascending.imp Nat.ne_of_lt)
  exact List.inj_on_of_nodup_map hnodup hnode hother hnumber

theorem node?_eq (h : Grown line cancels seats t) {node : ScopeNode} (hnode : node ∈ t.nodes) :
    t.node? node.number = some node := by
  obtain ⟨other, hother⟩ : ∃ other, t.node? node.number = some other := by
    rw [← Option.isSome_iff_exists, node?, List.find?_isSome]
    exact ⟨node, hnode, beq_self_eq_true _⟩
  have hnumber : other.number = node.number := by simpa using List.find?_some hother
  rw [hother, h.unique (List.mem_of_find?_eq_some hother) hnode hnumber]

/-- A node that is there is cancelled exactly if any of its line was. -/
theorem isCancelled_iff (h : Grown line cancels seats t) (hn : t.alive n = true) :
    t.isCancelled n = true ↔ ∃ a ∈ line n, a ∈ cancels := by
  obtain ⟨node, hnode, rfl⟩ := alive_iff.mp hn
  rw [isCancelled, h.node?_eq hnode, Option.any_some]
  exact (h.fits node hnode).cancelled

/-! ### The walk of a cancellation -/

/-- The nearest of a node stands before it. -/
theorem nearest_before (h : Grown line cancels seats t) {past rest : List ScopeNode}
    {node : ScopeNode} (hnodes : t.nodes = past ++ node :: rest) {p : Nat} (hlt : p < node.number)
    (hp : t.alive p = true) : ∃ other ∈ past, other.number = p := by
  obtain ⟨other, hother, rfl⟩ := alive_iff.mp hp
  have hascending := h.ascending
  rw [hnodes, List.pairwise_append] at hascending
  rw [hnodes, List.mem_append, List.mem_cons] at hother
  rcases hother with hother | rfl | hother
  · exact ⟨other, hother, rfl⟩
  · exact absurd hlt (Nat.lt_irrefl _)
  · exact absurd (List.rel_of_pairwise_cons hascending.2.1 hother) (Nat.not_lt_of_lt hlt)

/-- A walk that has come past the nodes `past` has hit those of them with `n` in their line. -/
theorem mem_below (h : Grown line cancels seats t) (hn : t.alive n = true)
    {past rest : List ScopeNode} (hnodes : t.nodes = past ++ rest) (x : Nat) :
    x ∈ below past n ↔ n ∈ line x ∧ ∃ node ∈ past, node.number = x := by
  induction past using List.reverseRecOn generalizing rest x with
  | nil => simp [below]
  | append_singleton past node ih =>
    rw [List.append_assoc, List.singleton_append] at hnodes
    have hmem : node ∈ t.nodes := by simp [hnodes]
    have hearly := h.early node hmem
    have hhit : (node.number = n ∨ node.parent.any (below past n).contains = true) ↔
        n ∈ line node.number := by
      rw [(h.fits node hmem).parent]
      constructor
      · rintro (rfl | hparent)
        · exact h.descent.self_mem hearly
        · obtain ⟨p, hp, hbelow⟩ := (Option.any_eq_true ..).mp hparent
          have hsuffix := (h.descent.of_nearest hearly hp).2.2
          exact hsuffix.subset ((ih hnodes p).mp (List.contains_iff_mem.mp hbelow)).1
      · refine fun hline => or_iff_not_imp_left.mpr fun hne => ?_
        obtain ⟨p, hp, hnp⟩ := h.descent.exists_nearest hearly hline (Ne.symm hne) hn
        obtain ⟨hlt, halive, -⟩ := h.descent.of_nearest hearly hp
        rw [hp, Option.any_some, List.contains_iff_mem, ih hnodes]
        exact ⟨hnp, h.nearest_before hnodes hlt halive⟩
    have hstep : below (past ++ [node]) n = if n ∈ line node.number then
        node.number :: below past n else below past n := by
      rw [below, List.foldl_append, List.foldl_cons, List.foldl_nil]
      exact if_congr hhit rfl rfl
    have hmem_append : (∃ other ∈ past ++ [node], other.number = x) ↔
        (∃ other ∈ past, other.number = x) ∨ node.number = x := by
      simp [or_and_right, exists_or]
    rw [hstep, hmem_append, and_or_left, ← ih hnodes]
    by_cases hx : node.number = x
    · subst hx
      by_cases hline : n ∈ line node.number <;> simp [hline]
    · have hx' : x ≠ node.number := Ne.symm hx
      split <;> simp [hx, hx']

/-! ### Changes to the nodes -/

/-- Changes that leave the nodes where they are. -/
theorem map (h : Grown line cancels seats t) {f : ScopeNode → ScopeNode}
    {cancels' seats' : List Nat} (hnumber : ∀ node, (f node).number = node.number)
    (hparent : ∀ node, (f node).parent = node.parent)
    (hpast : ∀ a ∈ cancels', a < t.next) (hseated : ∀ n ∈ seats', t.alive n = true)
    (hcancelled : ∀ node ∈ t.nodes,
      (f node).cancelled = true ↔ ∃ a ∈ line node.number, a ∈ cancels')
    (hhandles : ∀ node ∈ t.nodes, (f node).handles = seats'.count node.number) :
    Grown line cancels' seats' { t with nodes := t.nodes.map f } where
  descent := h.descent
  ascending := List.pairwise_map.mpr (by simpa only [hnumber] using h.ascending)
  early := List.forall_mem_map.mpr (by simpa only [hnumber] using h.early)
  past := hpast
  seated := by rwa [alive_map hnumber]
  fits := List.forall_mem_map.mpr fun node hnode => by
    rw [alive_map hnumber]
    exact ⟨by rw [hparent, hnumber, (h.fits node hnode).parent],
      by rw [hnumber, hcancelled node hnode], by rw [hnumber, hhandles node hnode]⟩

theorem cancel (h : Grown line cancels seats t) (hn : t.alive n = true) :
    Grown line (cancels ++ [n]) seats (t.cancel n) := by
  have hhit (x : Nat) := h.mem_below hn (List.append_nil _).symm x
  refine h.map (fun _ => by split <;> rfl) (fun _ => by split <;> rfl) ?_ h.seated ?_ ?_
  · intro a ha
    rcases List.mem_append.mp ha with ha | ha
    · exact h.past a ha
    · cases List.mem_singleton.mp ha
      exact h.alive_lt hn
  · intro node hnode
    have hcancelled := (h.fits node hnode).cancelled
    have hline : (below t.nodes n).contains node.number = true ↔ n ∈ line node.number := by
      rw [List.contains_iff_mem, hhit]
      exact and_iff_left ⟨node, hnode, rfl⟩
    simp only [List.mem_append, List.mem_singleton, and_or_left, exists_or, exists_eq_right]
    split
    · next hin => simp [hline.mp hin]
    · next hout => simp [hcancelled, mt hline.mpr hout]
  · intro node hnode
    rw [← (h.fits node hnode).handles]
    split <;> rfl

theorem share (h : Grown line cancels seats t) (hn : t.alive n = true) :
    Grown line cancels (seats ++ [n]) (t.share n) := by
  refine h.map (fun _ => by split <;> rfl) (fun _ => by split <;> rfl) h.past ?_ ?_ ?_
  · intro m hm
    rcases List.mem_append.mp hm with hm | hm
    · exact h.seated m hm
    · cases List.mem_singleton.mp hm
      exact hn
  · intro node hnode
    rw [← (h.fits node hnode).cancelled]
    split <;> rfl
  · intro node hnode
    have hhandles := (h.fits node hnode).handles
    rw [List.count_append, List.count_singleton]
    split
    · next heq => simp [hhandles, heq]
    · next hne => simp [hhandles, Ne.symm hne]

theorem derive (h : Grown line cancels seats t) {parent : Option Nat}
    (hparent : ∀ p, parent = some p → t.alive p = true) :
    Grown (extended line t.next parent) cancels (seats ++ [t.next]) (t.derive parent).1 := by
  have hlt (p : Nat) (hp : parent = some p) : p < t.next := h.alive_lt (hparent p hp)
  have hfresh : t.next ∉ seats := fun hm => Nat.lt_irrefl _ (h.alive_lt (h.seated _ hm))
  have hlast : t.next ∉ cancels := fun hm => Nat.lt_irrefl _ (h.past _ hm)
  refine ⟨h.descent.extend hlt, ?_, forall_derive ?_ (Nat.lt_succ_self _),
    fun a ha => Nat.lt_succ_of_lt (h.past a ha), ?_, forall_derive ?_ ?_⟩
  · refine List.pairwise_append.mpr ⟨h.ascending, List.pairwise_singleton .., ?_⟩
    rintro node hnode _ hlast
    rw [List.mem_singleton.mp hlast]
    exact h.early node hnode
  · exact fun node hnode => Nat.lt_succ_of_lt (h.early node hnode)
  · intro m hm
    rw [alive_derive]
    rcases List.mem_append.mp hm with hm | hm
    · rw [h.seated m hm, Bool.true_or]
    · rw [List.mem_singleton.mp hm, beq_self_eq_true, Bool.or_true]
  · intro node hnode
    have hearly := h.early node hnode
    have hfits := h.fits node hnode
    refine ⟨?_, by rw [extended_of_lt hearly]; exact hfits.cancelled, ?_⟩
    · rw [extended_of_lt hearly, hfits.parent]
      exact List.find?_congr fun a ha =>
        (alive_derive_of_lt (Nat.lt_trans (h.descent.tail_lt hearly ha) hearly)).symm
    · simp [hfits.handles, Nat.ne_of_gt hearly]
  · refine ⟨?_, ?_, by simp [List.count_eq_zero.mpr hfresh]⟩ <;> rw [extended_next]
    · cases hp : parent with
      | none => rfl
      | some p =>
        obtain ⟨rest, hrest⟩ := h.descent.eq_cons (hlt p hp)
        have halive : (t.derive (some p)).1.alive p = true := by
          rw [alive_derive_of_lt (hlt p hp), hparent p hp]
        simp [hrest, halive]
    · cases hp : parent with
      | none => simp [hlast]
      | some p => simp [hlast, h.isCancelled_iff (hparent p hp)]

theorem remove (h : Grown line cancels seats t) {left : List Nat} {gone : ScopeNode}
    (hgone : gone ∈ t.nodes) (hleft : seats.Perm (gone.number :: left))
    (hout : gone.number ∉ left) :
    Grown line cancels left (t.remove gone) := by
  have halive := alive_remove (t := t) gone
  refine ⟨h.descent, ?_, forall_remove fun other hother _ => ?_, h.past, ?_,
    forall_remove fun other hother hne => ?_⟩
  · rw [remove_nodes, List.pairwise_map]
    simpa only [movedUp_number] using h.ascending.filter _
  · rw [movedUp_number]
    exact h.early other hother
  · intro m hm
    rw [halive, h.seated m (hleft.mem_iff.mpr (List.mem_cons_of_mem _ hm)), Bool.true_and,
      bne_iff_ne]
    rintro rfl
    exact hout hm
  · have hfits := h.fits other hother
    have hfind := h.descent.find?_without t.alive (h.early other hother) gone.number
    rw [funext halive]
    refine ⟨?_, ?_, ?_⟩
    · rw [movedUp_number, hfind, ← hfits.parent, ← (h.fits gone hgone).parent, movedUp]
      split <;> rfl
    · rw [movedUp_number, ← hfits.cancelled, movedUp]
      split <;> rfl
    · rw [movedUp_number, movedUp, ← List.count_cons_of_ne hne, ← hleft.count_eq, ← hfits.handles]
      split <;> rfl

theorem release (h : Grown line cancels seats t) {left : List Nat}
    (hleft : seats.Perm (n :: left)) :
    Grown line cancels left (t.release n) := by
  obtain ⟨node, hnode, rfl⟩ := alive_iff.mp (h.seated n (hleft.mem_iff.mpr List.mem_cons_self))
  have hhandles := (h.fits node hnode).handles
  rw [hleft.count_eq, List.count_cons_self] at hhandles
  rw [ScopeTree.release, h.node?_eq hnode]
  dsimp only
  split
  · next hlast => exact h.remove hnode hleft (List.count_eq_zero.mp (by omega))
  · have hseated (m : Nat) (hm : m ∈ left) : t.alive m = true :=
      h.seated m (hleft.mem_iff.mpr (List.mem_cons_of_mem _ hm))
    refine h.map (fun _ => by split <;> rfl) (fun _ => by split <;> rfl) h.past hseated ?_ ?_
    · intro other hother
      rw [← (h.fits other hother).cancelled]
      split <;> rfl
    · intro other hother
      have hcount := (h.fits other hother).handles
      rw [hleft.count_eq] at hcount
      split
      · next heq =>
        rw [heq, List.count_cons_self] at hcount
        rw [heq, hcount, Nat.add_sub_cancel]
      · next hne => rwa [List.count_cons_of_ne (Ne.symm hne)] at hcount

end Grown

end ScopeTree

end CacheBridge
