import ReviewSensei.SelectionSteps

/-! The strict cap over every selection, and what accepts a selection once it is frozen. -/
namespace ReviewSensei.Selection
open Session (bind_ok isSha256)
open CappedChoice (choose)
open Review (ReviewComment ReviewVerdict ResultFields ResultRules ReviewResult
  projectReviewComments ConvergencePolicy maxComments)

section Slots
variable {printable : String → Bool} {slots slots' : List (PublishedSlot printable)}
  {slot : PublishedSlot printable} {target : String}

/-- With one slot a target, a target has its slot. -/
theorem slotAt_iff (h : (slots.map (·.target)).Nodup) :
    slotAt slots target = some slot ↔ slot ∈ slots ∧ slot.target = target := by
  constructor
  · intro hfind
    have hsome := List.find?_some hfind
    exact ⟨List.mem_of_find?_eq_some hfind, of_decide_eq_true hsome⟩
  · rintro ⟨hmem, htarget⟩
    unfold slotAt
    cases hfind : slots.find? (fun slot => slot.target = target) with
    | none =>
      exact absurd (decide_eq_true htarget) (List.find?_eq_none.mp hfind slot hmem)
    | some other =>
      have hother : other ∈ slots := List.mem_of_find?_eq_some hfind
      have hsome := List.find?_some hfind
      have hsame : other.target = target := of_decide_eq_true hsome
      exact congrArg some (List.inj_on_of_nodup_map h hother hmem (hsame.trans htarget.symm))

theorem slotAt_perm (h : (slots.map (·.target)).Nodup) (hperm : slots'.Perm slots) :
    slotAt slots' = slotAt slots := by
  have h' : (slots'.map (·.target)).Nodup := (hperm.map _).nodup_iff.mpr h
  funext target
  apply Option.ext
  intro slot
  rw [slotAt_iff h', slotAt_iff h, hperm.mem_iff]

theorem sortedSlots_perm (h : (slots.map (·.target)).Nodup) (hperm : slots'.Perm slots) :
    sortedSlots slots' = sortedSlots slots := by
  have htotal : Std.Total (fun a b : PublishedSlot printable => a.target ≤ b.target) :=
    ⟨fun a b => le_total _ _⟩
  have htrans : IsTrans (PublishedSlot printable) (fun a b => a.target ≤ b.target) :=
    ⟨fun _ _ _ => le_trans⟩
  have hsorted : (sortedSlots slots').Perm (sortedSlots slots) :=
    (List.perm_insertionSort _ _).trans (hperm.trans (List.perm_insertionSort _ _).symm)
  apply hsorted.eq_of_pairwise _ (List.pairwise_insertionSort _ _) (List.pairwise_insertionSort _ _)
  intro a b ha hb hab hba
  have ha := hperm.mem_iff.mp ((List.perm_insertionSort _ _).mem_iff.mp ha)
  have hb := (List.perm_insertionSort _ _).mem_iff.mp hb
  exact List.inj_on_of_nodup_map h ha hb (le_antisymm hab hba)

end Slots

section Plans
variable {printable : String → Bool} {slots slots' : List (PublishedSlot printable)}
  {candidates candidates' values values' : List PublicationCandidate} {cap : Nat}
  {plan : PublicationSelection}

/-- The candidates that are taken, in their order. -/
def chosen (slots : List (PublishedSlot printable)) (cap : Nat)
    (values : List PublicationCandidate) : List PublicationCandidate :=
  choose (consumes slots) (cap - reservations slots) (byPriority values)

/-- The plan over candidates that are each listed once. -/
def planOf (slots : List (PublishedSlot printable)) (cap : Nat)
    (values : List PublicationCandidate) : PublicationSelection where
  maxActiveFindings := cap
  occupancySha256 :=
    sha256 (Json.canonical (.arr ((sortedSlots slots).map PublishedSlot.toDocument)))
  selected := (chosen slots cap values).map (fun c => ⟨c, consumes slots c⟩)
  requiredVerdict := values.any (·.required)

/-- What the slots have to be for a selection. -/
structure Selectable (slots : List (PublishedSlot printable)) (cap : Nat) : Prop where
  positive : 1 ≤ cap
  targets : (slots.map (·.target)).Nodup
  fits : reservations slots ≤ cap

theorem planOf_perm (hvalues : Admissible slots values) (hperm : values.Perm values') :
    planOf slots cap values = planOf slots cap values' := by
  have hany : values.any (·.required) = values'.any (·.required) := by
    rw [Bool.eq_iff_iff, List.any_eq_true, List.any_eq_true]
    constructor
    · rintro ⟨c, hc, hrequired⟩
      exact ⟨c, hperm.mem_iff.mp hc, hrequired⟩
    · rintro ⟨c, hc, hrequired⟩
      exact ⟨c, hperm.mem_iff.mpr hc, hrequired⟩
  unfold planOf chosen
  rw [byPriority_eq hvalues hperm, hany]

/-- A selection is the plan over the candidates' different members. -/
theorem selectPublication_iff : selectPublication slots candidates cap = .ok plan ↔
    Selectable slots cap ∧ Admissible slots candidates ∧ ∃ values : List PublicationCandidate,
      values.Nodup ∧ (∀ c, c ∈ values ↔ c ∈ candidates) ∧ plan = planOf slots cap values := by
  have hfold (values : List PublicationCandidate) (hfits : reservations slots ≤ cap) :
      (byPriority values).foldl (takeCandidate slots cap) ([], reservations slots) =
        ((chosen slots cap values).map (fun c => ⟨c, consumes slots c⟩),
          reservations slots + (chosen slots cap values).countP (consumes slots)) :=
    takeCandidate_fold [] _ hfits
  constructor
  · intro h
    unfold selectPublication at h
    obtain ⟨_, hpositive, h⟩ := bind_ok h
    obtain ⟨_, htargets, h⟩ := bind_ok h
    obtain ⟨_, hfits, h⟩ := bind_ok h
    obtain ⟨inventory, hinventory, h⟩ := bind_ok h
    obtain ⟨digest, hdigest, h⟩ := bind_ok h
    have hread := (inventory_fold read_nil).1 inventory hinventory
    rw [List.nil_append] at hread
    refine ⟨⟨ensure_inv hpositive, ensure_inv htargets, ensure_inv hfits⟩, hread.admissible,
      inventory.unique.map Prod.snd, hread.values_nodup, hread.mem, ?_⟩
    have hdigest : digest = sha256 (Json.canonical (.arr ((sortedSlots slots).map
        PublishedSlot.toDocument))) := by
      unfold occupancyDigest at hdigest
      obtain ⟨_, _, hdigest⟩ := bind_ok hdigest
      exact (Except.ok.inj hdigest).symm
    rw [← Except.ok.inj h, hfold _ (ensure_inv hfits), hdigest]
    rfl
  · rintro ⟨⟨hpositive, htargets, hfits⟩, hadmissible, values, hnodup, hmem, rfl⟩
    have hall : Admissible slots ([] ++ candidates) := hadmissible
    obtain ⟨inventory, hinventory⟩ := (inventory_fold read_nil).2 hall
    have hread := (inventory_fold read_nil).1 inventory hinventory
    rw [List.nil_append] at hread
    have hperm : values.Perm (inventory.unique.map Prod.snd) :=
      (List.perm_ext_iff_of_nodup hnodup hread.values_nodup).mpr
        fun c => (hmem c).trans (hread.mem c).symm
    have hdigest : occupancyDigest slots = .ok (sha256 (Json.canonical (.arr
        ((sortedSlots slots).map PublishedSlot.toDocument)))) :=
      ensure_bind htargets _
    unfold selectPublication
    rw [ensure_bind hpositive, ensure_bind htargets, ensure_bind hfits, ok_bind hinventory,
      planOf_perm (hadmissible.subset fun c hc => (hmem c).mp hc) hperm]
    dsimp only
    rw [hfold _ hfits, ok_bind hdigest]
    rfl

/-- Candidates of the same members and slots in another order come to the same plan. -/
theorem selectPublication_perm (h : selectPublication slots candidates cap = .ok plan)
    (hmem : ∀ c, c ∈ candidates' ↔ c ∈ candidates) (hperm : slots'.Perm slots) :
    selectPublication slots' candidates' cap = .ok plan := by
  obtain ⟨⟨hpositive, htargets, hfits⟩, hadmissible, values, hnodup, hvalues, rfl⟩ :=
    selectPublication_iff.mp h
  have hat : slotAt slots' = slotAt slots := slotAt_perm htargets hperm
  have hreserved : reservations slots' = reservations slots := hperm.countP_eq _
  have hconsumes : consumes slots' = consumes slots := by
    funext c
    unfold consumes
    rw [hat]
  have hplan : planOf slots' cap values = planOf slots cap values := by
    unfold planOf chosen
    rw [hconsumes, hreserved, sortedSlots_perm htargets hperm]
  have hadmissible' : Admissible slots' candidates' := by
    have hsub := hadmissible.subset fun c hc => (hmem c).mp hc
    exact ⟨hsub.instances, fun c hc => by rw [hat]; exact hsub.known c hc, hsub.targets⟩
  refine selectPublication_iff.mpr ⟨⟨hpositive, ?_, hreserved ▸ hfits⟩, hadmissible', values,
    hnodup, fun c => (hvalues c).trans (hmem c).symm, hplan.symm⟩
  exact (hperm.map _).nodup_iff.mpr htargets

/-- What the strict cap asks of a selection. -/
structure StrictCap (slots : List (PublishedSlot printable))
    (candidates : List PublicationCandidate) (cap : Nat) (plan : PublicationSelection) : Prop where
  within : reservations slots + plan.selected.countP (·.consumesSlot) ≤ cap
  among : ∀ s ∈ plan.selected, s.candidate ∈ candidates
  once : (plan.selected.map (·.candidate)).Nodup
  retained : ∀ c ∈ candidates, ∀ slot ∈ slots, c.existingTarget = some slot.target →
    slot.reserved = true → ⟨c, false⟩ ∈ plan.selected
  best : ∀ c ∈ candidates, (∀ s ∈ plan.selected, s.candidate ≠ c) →
    ∀ s ∈ plan.selected, s.consumesSlot = true → s.candidate.priority < c.priority
  free : reservations slots + plan.selected.countP (·.consumesSlot) < cap →
    ∀ c ∈ candidates, ∃ s ∈ plan.selected, s.candidate = c
  required : plan.requiredVerdict = true ↔ ∃ c ∈ candidates, c.required = true
  order : ∀ (candidates' : List PublicationCandidate) (slots' : List (PublishedSlot printable)),
    (∀ c, c ∈ candidates' ↔ c ∈ candidates) → slots'.Perm slots →
      selectPublication slots' candidates' cap = .ok plan

theorem selection_strict (h : selectPublication slots candidates cap = .ok plan) :
    StrictCap slots candidates cap plan := by
  obtain ⟨⟨_, htargets, hfits⟩, hadmissible, values, hnodup, hvalues, rfl⟩ :=
    selectPublication_iff.mp h
  have hsorted : (byPriority values).Nodup := (byPriority_perm values).nodup_iff.mpr hnodup
  have hmem (c : PublicationCandidate) : c ∈ byPriority values ↔ c ∈ candidates :=
    (byPriority_perm values).mem_iff.trans (hvalues c)
  have hchosen : (chosen slots cap values).Sublist (byPriority values) :=
    CappedChoice.choose_sublist
  have hcandidate (c : PublicationCandidate) (hc : c ∈ chosen slots cap values) :
      c ∈ candidates := (hmem c).mp (hchosen.subset hc)
  have hcount : (planOf slots cap values).selected.countP (·.consumesSlot) =
      (chosen slots cap values).countP (consumes slots) :=
    List.countP_map
  have hlisted (c : PublicationCandidate) (hc : c ∈ chosen slots cap values) :
      ⟨c, consumes slots c⟩ ∈ (planOf slots cap values).selected :=
    List.mem_map_of_mem (f := fun c => (⟨c, consumes slots c⟩ : SelectedFinding)) hc
  have hroom : (chosen slots cap values).countP (consumes slots) ≤ cap - reservations slots :=
    CappedChoice.choose_count
  refine ⟨?_, ?_, ?_, ?_, ?_, ?_, ?_, fun _ _ => selectPublication_perm h⟩
  · rw [hcount]
    omega
  · intro s hs
    obtain ⟨c, hc, rfl⟩ := List.mem_map.mp hs
    exact hcandidate c hc
  · have hmap : (planOf slots cap values).selected.map (·.candidate) =
        chosen slots cap values := by
      unfold planOf
      rw [List.map_map]
      exact List.map_id' _
    rw [hmap]
    exact hsorted.sublist hchosen
  · intro c hc slot hslot htarget hreserved
    have hfree : consumes slots c = false := by
      unfold consumes
      rw [htarget, Option.bind_some, (slotAt_iff htargets).mpr ⟨hslot, rfl⟩]
      dsimp only
      rw [hreserved]
      rfl
    have htaken : c ∈ chosen slots cap values :=
      CappedChoice.mem_choose_of_free ((hmem c).mpr hc) hfree
    have hs := hlisted c htaken
    rw [hfree] at hs
    exact hs
  · intro c hc hout s hs hcost
    obtain ⟨d, hd, rfl⟩ := List.mem_map.mp hs
    have hleft : c ∉ chosen slots cap values := fun hin => hout _ (hlisted c hin) rfl
    have hle := (CappedChoice.left_out (byPriority_sorted values) ((hmem c).mpr hc) hleft).2
      d hd hcost
    apply lt_of_le_of_ne hle
    intro hsame
    have heq := hadmissible.instances d (hcandidate d hd) c hc (instance_of_priority hsame)
    exact hleft (heq ▸ hd)
  · intro hless c hc
    by_contra hout
    have hleft : c ∉ chosen slots cap values := fun hin => hout ⟨_, hlisted c hin, rfl⟩
    have hfull := (CappedChoice.left_out (byPriority_sorted values) ((hmem c).mpr hc) hleft).1
    have hfull : (chosen slots cap values).countP (consumes slots) = cap - reservations slots :=
      hfull
    rw [hcount] at hless
    omega
  · unfold planOf
    rw [List.any_eq_true]
    constructor
    · rintro ⟨c, hc, hrequired⟩
      exact ⟨c, (hvalues c).mp hc, hrequired⟩
    · rintro ⟨c, hc, hrequired⟩
      exact ⟨c, (hvalues c).mpr hc, hrequired⟩

end Plans

end ReviewSensei.Selection
