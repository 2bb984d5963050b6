import Mathlib.Data.List.Sort
import Mathlib.Data.List.Perm.Subperm
import Mathlib.Algebra.BigOperators.Group.List.Basic
import Mathlib.Algebra.Order.BigOperators.Group.List
import Mathlib.Algebra.Order.Ring.Nat

/-! Sizes put into slots: the smallest slot that fits, and the sums of the largest slots. -/
namespace ReviewSensei.Slots

/-- The slots without the first one that a size fits in. -/
def takeSlot (size : Nat) : List Nat → Option (List Nat)
  | [] => none
  | slot :: slots =>
    if size ≤ slot then some slots else (takeSlot size slots).map (slot :: ·)

def takeSlots : List Nat → List Nat → Option (List Nat)
  | [], slots => some slots
  | size :: sizes, slots => (takeSlot size slots).bind (takeSlots sizes)

theorem takeSlot_spec {size : Nat} {slots rest : List Nat} (h : takeSlot size slots = some rest) :
    ∃ slot, size ≤ slot ∧ slots.Perm (slot :: rest) ∧ rest.Sublist slots := by
  induction slots generalizing rest with
  | nil => cases h
  | cons first slots ih =>
    unfold takeSlot at h
    split at h
    · next hfits =>
      obtain rfl := Option.some.inj h
      exact ⟨first, hfits, .refl _, List.sublist_cons_self first slots⟩
    · obtain ⟨tail, htail, rfl⟩ := Option.map_eq_some_iff.mp h
      obtain ⟨slot, hfits, hperm, hsub⟩ := ih htail
      refine ⟨slot, hfits, ?_, hsub.cons_cons first⟩
      exact (hperm.cons first).trans (.swap slot first tail)

/-- Of ascending slots the smallest that fits is taken: no slot in between is left out. -/
theorem takeSlot_smallest {size : Nat} {slots rest : List Nat} (hsorted : slots.Pairwise (· ≤ ·))
    (h : takeSlot size slots = some rest) :
    ∃ slot, size ≤ slot ∧ slots.Perm (slot :: rest) ∧
      ∀ other ∈ slots, size ≤ other → slot ≤ other := by
  induction slots generalizing rest with
  | nil => cases h
  | cons first slots ih =>
    obtain ⟨hfirst, hslots⟩ := List.pairwise_cons.mp hsorted
    unfold takeSlot at h
    split at h
    · next hfits =>
      obtain rfl := Option.some.inj h
      refine ⟨first, hfits, .refl _, ?_⟩
      intro other hother _
      rcases List.mem_cons.mp hother with heq | hmem
      · exact heq.ge
      · exact hfirst other hmem
    · next hsmall =>
      obtain ⟨tail, htail, rfl⟩ := Option.map_eq_some_iff.mp h
      obtain ⟨slot, hfits, hperm, hleast⟩ := ih hslots htail
      refine ⟨slot, hfits, (hperm.cons first).trans (.swap slot first tail), ?_⟩
      intro other hother hsize
      rcases List.mem_cons.mp hother with heq | hmem
      · exact absurd (heq ▸ hsize) hsmall
      · exact hleast other hmem hsize

theorem takeSlot_some {size : Nat} {slots : List Nat} (h : ∃ slot ∈ slots, size ≤ slot) :
    ∃ rest, takeSlot size slots = some rest := by
  induction slots with
  | nil =>
    obtain ⟨slot, hmem, _⟩ := h
    cases hmem
  | cons first slots ih =>
    unfold takeSlot
    split
    · exact ⟨slots, rfl⟩
    · next hsmall =>
      obtain ⟨slot, hmem, hsize⟩ := h
      rcases List.mem_cons.mp hmem with heq | hmem
      · exact absurd (heq ▸ hsize) hsmall
      · obtain ⟨rest, hrest⟩ := ih ⟨slot, hmem, hsize⟩
        exact ⟨first :: rest, by rw [hrest]; rfl⟩

/-- At every threshold there are at least as many slots as sizes. -/
def Dominates (slots sizes : List Nat) : Prop :=
  ∀ t, sizes.countP (t ≤ ·) ≤ slots.countP (t ≤ ·)

/-- Sizes that were matched to slots of their own are dominated. -/
theorem dominates_of_matched {slots sizes chosen : List Nat} (hchosen : chosen.Subperm slots)
    (h : List.Forall₂ (· ≤ ·) sizes chosen) : Dominates slots sizes := by
  intro t
  have hpair : sizes.countP (t ≤ ·) ≤ chosen.countP (t ≤ ·) := by
    clear hchosen
    induction h with
    | nil => exact le_refl _
    | cons hle _ ih =>
      rw [List.countP_cons, List.countP_cons]
      simp only [decide_eq_true_eq]
      split <;> split <;> omega
  exact hpair.trans (hchosen.countP_le _)

/-- Without the smallest slot that fits a size, the rest still dominates the other sizes. -/
theorem least_dominates {size slot : Nat} {sizes slots rest : List Nat}
    (h : Dominates slots (size :: sizes)) (hsize : size ≤ slot) (hperm : slots.Perm (slot :: rest))
    (hleast : ∀ other ∈ slots, size ≤ other → slot ≤ other) : Dominates rest sizes := by
  intro t
  have hslots (n : Nat) : slots.countP (n ≤ ·) =
      rest.countP (n ≤ ·) + if n ≤ slot then 1 else 0 := by
    rw [hperm.countP_eq, List.countP_cons]
    simp only [decide_eq_true_eq]
  have ht := h t
  rw [List.countP_cons, hslots t] at ht
  simp only [decide_eq_true_eq] at ht
  by_cases hlow : t ≤ size
  · rw [if_pos hlow, if_pos (hlow.trans hsize)] at ht
    omega
  by_cases hhigh : slot < t
  · rw [if_neg hlow, if_neg (by omega)] at ht
    omega
  -- between the size and its slot there is no other slot
  have hbetween : slots.countP (t ≤ ·) = slots.countP (size ≤ ·) := by
    refine List.countP_congr fun other hother => ?_
    simp only [decide_eq_true_eq]
    refine ⟨fun hle => by omega, fun hle => ?_⟩
    have hge := hleast other hother hle
    omega
  have hsizes : sizes.countP (t ≤ ·) ≤ sizes.countP (size ≤ ·) := by
    refine List.countP_mono_left fun other _ hle => ?_
    simp only [decide_eq_true_eq] at hle ⊢
    omega
  have hat := h size
  rw [List.countP_cons, if_pos (by simp)] at hat
  have hrestCount := hslots t
  rw [if_pos (by omega)] at hrestCount
  omega

theorem Dominates.fits {size : Nat} {sizes slots : List Nat} (h : Dominates slots (size :: sizes)) :
    ∃ slot ∈ slots, size ≤ slot := by
  have hcount := h size
  rw [List.countP_cons, if_pos (by simp)] at hcount
  have hpos : 0 < slots.countP (size ≤ ·) := by omega
  obtain ⟨slot, hmem, hsize⟩ := List.countP_pos_iff.mp hpos
  exact ⟨slot, hmem, of_decide_eq_true hsize⟩

/-- Taking the smallest slot that fits keeps the rest dominated. -/
theorem takeSlot_dominates {size : Nat} {sizes slots : List Nat}
    (hsorted : slots.Pairwise (· ≤ ·)) (h : Dominates slots (size :: sizes)) :
    ∃ rest, takeSlot size slots = some rest ∧ Dominates rest sizes := by
  obtain ⟨rest, hrest⟩ := takeSlot_some h.fits
  obtain ⟨slot, hsize, hperm, hleast⟩ := takeSlot_smallest hsorted hrest
  exact ⟨rest, hrest, least_dominates h hsize hperm hleast⟩

/-- The slots, in any order, without one smallest that a size fits in. -/
def bestFit (size : Nat) (slots : List Nat) : Option (List Nat) :=
  ((slots.filter (fun slot => decide (size ≤ slot))).min?).map slots.erase

theorem bestFit_least {size : Nat} {slots rest : List Nat} (h : bestFit size slots = some rest) :
    ∃ slot, size ≤ slot ∧ slots.Perm (slot :: rest) ∧
      ∀ other ∈ slots, size ≤ other → slot ≤ other := by
  obtain ⟨slot, hmin, hrest⟩ := Option.map_eq_some_iff.mp h
  obtain ⟨hmem, hleast⟩ := List.min?_eq_some_iff.mp hmin
  obtain ⟨hslot, hsize⟩ := List.mem_filter.mp hmem
  refine ⟨slot, of_decide_eq_true hsize, ?_, ?_⟩
  · rw [← hrest]
    exact List.perm_cons_erase hslot
  · intro other hother hfits
    exact hleast other (List.mem_filter.mpr ⟨hother, decide_eq_true hfits⟩)

theorem bestFit_dominates {size : Nat} {sizes slots : List Nat}
    (h : Dominates slots (size :: sizes)) :
    ∃ rest, bestFit size slots = some rest ∧ Dominates rest sizes := by
  obtain ⟨slot, hslot, hsize⟩ := h.fits
  have hsome : (bestFit size slots).isSome = true := by
    unfold bestFit
    rw [Option.isSome_map, List.isSome_min?_iff]
    exact List.ne_nil_of_mem (List.mem_filter.mpr ⟨hslot, decide_eq_true hsize⟩)
  obtain ⟨rest, hrest⟩ := Option.isSome_iff_exists.mp hsome
  obtain ⟨least, hfits, hperm, hleast⟩ := bestFit_least hrest
  exact ⟨rest, hrest, least_dominates h hfits hperm hleast⟩

/-- The largest slots, of slots that descend, are worth the most. -/
theorem sum_le_largest {slots part : List Nat} (hsorted : slots.Pairwise (· ≥ ·))
    (h : part.Sublist slots) : part.sum ≤ (slots.take part.length).sum := by
  have hshift (first : Nat) (rest : List Nat) (k : Nat) (hdesc : (first :: rest).Pairwise (· ≥ ·)) :
      (rest.take k).sum ≤ ((first :: rest).take k).sum := by
    induction k generalizing first rest with
    | zero => simp
    | succ k ih =>
      cases rest with
      | nil => simp
      | cons second rest =>
        obtain ⟨hfirst, hrest⟩ := List.pairwise_cons.mp hdesc
        have hle : second ≤ first := hfirst second List.mem_cons_self
        have hstep := ih second rest hrest
        rw [List.take_succ_cons, List.take_succ_cons, List.sum_cons, List.sum_cons]
        omega
  induction h with
  | slnil => simp
  | cons first hsub ih =>
    obtain ⟨_, hrest⟩ := List.pairwise_cons.mp hsorted
    exact (ih hrest).trans (hshift first _ _ hsorted)
  | cons_cons first hsub ih =>
    obtain ⟨_, hrest⟩ := List.pairwise_cons.mp hsorted
    rw [List.length_cons, List.take_succ_cons, List.sum_cons, List.sum_cons]
    have hih := ih hrest
    omega

/-- The sum of the last `k` of slots that ascend. -/
def lastSum (slots : List Nat) (k : Nat) : Nat := (slots.drop (slots.length - k)).sum

theorem take_sum_mono (slots : List Nat) {j k : Nat} (h : j ≤ k) :
    (slots.take j).sum ≤ (slots.take k).sum := by
  have hsub : (slots.take j).Sublist (slots.take k) := (List.take_prefix_take_left h).sublist
  exact hsub.sum_le_sum (fun _ _ => Nat.zero_le _)

theorem lastSum_reverse (slots : List Nat) (k : Nat) :
    lastSum slots k = (slots.reverse.take k).sum := by
  unfold lastSum
  rw [List.take_reverse, List.sum_reverse]

/-- Fewer slots have smaller largest ones. -/
theorem lastSum_sublist {part slots : List Nat} (hsorted : slots.Pairwise (· ≤ ·))
    (h : part.Sublist slots) (k : Nat) : lastSum part k ≤ lastSum slots k := by
  rw [lastSum_reverse, lastSum_reverse]
  have hdesc : slots.reverse.Pairwise (· ≥ ·) := List.pairwise_reverse.mpr hsorted
  have hsub : (part.reverse.take k).Sublist slots.reverse :=
    (List.take_sublist _ _).trans (List.reverse_sublist.mpr h)
  refine (sum_le_largest hdesc hsub).trans (take_sum_mono _ ?_)
  rw [List.length_take]
  exact Nat.min_le_left _ _

/-- Sizes that take slots are no larger than as many of the largest slots. -/
theorem takeSlots_sum {sizes slots rest : List Nat} (hsorted : slots.Pairwise (· ≤ ·))
    (h : takeSlots sizes slots = some rest) : sizes.sum ≤ lastSum slots sizes.length := by
  have htaken : ∃ taken, List.Forall₂ (· ≤ ·) sizes taken ∧ slots.Perm (taken ++ rest) := by
    clear hsorted
    induction sizes generalizing slots with
    | nil =>
      obtain rfl := Option.some.inj h
      exact ⟨[], .nil, .refl _⟩
    | cons size sizes ih =>
      obtain ⟨middle, hmiddle, htail⟩ := Option.bind_eq_some_iff.mp h
      obtain ⟨slot, hsize, hperm, _⟩ := takeSlot_spec hmiddle
      obtain ⟨taken, hpairs, hrest⟩ := ih htail
      exact ⟨slot :: taken, .cons hsize hpairs, hperm.trans (hrest.cons slot)⟩
  obtain ⟨taken, hpairs, hperm⟩ := htaken
  have hsum : sizes.sum ≤ taken.sum := hpairs.sum_le_sum
  have hsubperm : taken.Subperm slots :=
    (List.sublist_append_left taken rest).subperm.trans hperm.symm.subperm
  obtain ⟨part, hpart, hsub⟩ := hsubperm
  have hdesc : slots.reverse.Pairwise (· ≥ ·) := List.pairwise_reverse.mpr hsorted
  have hlargest := sum_le_largest hdesc (List.reverse_sublist.mpr hsub)
  rw [List.sum_reverse, List.length_reverse, hpart.sum_eq, hpart.length_eq,
    ← hpairs.length_eq] at hlargest
  rw [lastSum_reverse]
  exact hsum.trans hlargest

theorem takeSlots_sublist {sizes slots rest : List Nat} (h : takeSlots sizes slots = some rest) :
    rest.Sublist slots := by
  induction sizes generalizing slots with
  | nil =>
    obtain rfl := Option.some.inj h
    exact .refl _
  | cons size sizes ih =>
    obtain ⟨middle, hmiddle, htail⟩ := Option.bind_eq_some_iff.mp h
    obtain ⟨_, _, _, hsub⟩ := takeSlot_spec hmiddle
    exact (ih htail).trans hsub

end ReviewSensei.Slots
