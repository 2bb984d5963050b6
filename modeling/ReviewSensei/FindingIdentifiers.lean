import ReviewSensei.Dispositions
import Mathlib.Algebra.Order.BigOperators.Group.List
import Mathlib.Algebra.Order.Ring.Nat
import Mathlib.Data.List.Nodup

/-! The displayed ids of a set of findings: which digits are shown, and how far they grow. -/
namespace ReviewSensei.Presentation
open Disposition (findingIdentifier widen upper)
open Session (bind_ok)

def hexDigits : List Char := "0123456789abcdef".toList

/-- `^[0-9a-f]+$`. -/
def isFingerprint (s : String) : Bool := s ≠ "" && s.toList.all (hexDigits.contains ·)

/-- `finding_identifier`. -/
def checkedIdentifier (fingerprint : String) (digits : Nat) : Except String String :=
  if !isFingerprint fingerprint then .error "finding identifier requires a fingerprint digest"
  else if digits < 6 ∨ fingerprint.toList.length < digits then
    .error "finding identifier length is invalid"
  else .ok (findingIdentifier fingerprint digits)

/-- `identifiers` of one round. -/
def identifiersOf (lengths : List (String × Nat)) : Except String (List (String × String)) :=
  lengths.mapM (fun p => (checkedIdentifier p.1 p.2).map (fun id => (p.1, id)))

/-- The most digits that are shown of a fingerprint. -/
def cap (fingerprint : String) : Nat := min 16 fingerprint.toList.length

section Slack
variable {lengths : List (String × Nat)} {p : String × Nat}

/-- Another fingerprint has the same id. -/
def collides (lengths : List (String × Nat)) (p : String × Nat) : Bool :=
  lengths.any (fun q => q.1 ≠ p.1 && findingIdentifier q.1 q.2 = findingIdentifier p.1 p.2)

/-- What a round makes of one width. -/
def widenOne (lengths : List (String × Nat)) (p : String × Nat) : String × Nat :=
  if collides lengths p && decide (p.2 < cap p.1) then (p.1, min (p.2 + 2) (cap p.1)) else p

theorem widen_eq (lengths : List (String × Nat)) :
    widen lengths = lengths.map (widenOne lengths) := rfl

theorem widenOne_cases (lengths : List (String × Nat)) (p : String × Nat) :
    widenOne lengths p = p ∨
      (collides lengths p = true ∧ p.2 < cap p.1 ∧
        widenOne lengths p = (p.1, min (p.2 + 2) (cap p.1))) := by
  unfold widenOne
  split
  · next hopen =>
    rw [Bool.and_eq_true, decide_eq_true_iff] at hopen
    exact .inr ⟨hopen.1, hopen.2, rfl⟩
  · exact .inl rfl

/-- The digits that may still be added. -/
def slack (lengths : List (String × Nat)) : Nat := (lengths.map (fun p => cap p.1 - p.2)).sum

/-- A round that widens anything leaves less to widen. -/
theorem slack_widen (h : widen lengths ≠ lengths) : slack (widen lengths) < slack lengths := by
  have hmoved : ∃ p ∈ lengths, widenOne lengths p ≠ p := by
    by_contra hall
    push Not at hall
    refine h ?_
    calc widen lengths = lengths.map (widenOne lengths) := widen_eq lengths
      _ = lengths.map id := List.map_congr_left hall
      _ = lengths := List.map_id lengths
  rw [slack, slack, widen_eq, List.map_map]
  refine List.sum_lt_sum _ _ (fun p _ => ?_) ?_
  · rcases widenOne_cases lengths p with hsame | ⟨_, _, hwide⟩
    · rw [Function.comp_apply, hsame]
    · rw [Function.comp_apply, hwide]
      dsimp only
      omega
  · obtain ⟨p, hp, hne⟩ := hmoved
    refine ⟨p, hp, ?_⟩
    rcases widenOne_cases lengths p with hsame | ⟨_, hlt, hwide⟩
    · exact absurd hsame hne
    · rw [Function.comp_apply, hwide]
      dsimp only
      omega

end Slack

/-- The loop of `assign_finding_identifiers`. -/
def assignLoop (lengths : List (String × Nat)) : Except String (List (String × String)) := do
  let identifiers ← identifiersOf lengths
  if (identifiers.map (·.2)).Nodup then .ok identifiers
  else if hstuck : widen lengths = lengths then
    .error "finding identifier collision cannot be resolved"
  else
    have _ := slack_widen hstuck
    assignLoop (widen lengths)
  termination_by slack lengths

/-- `assign_finding_identifiers`. -/
def assignFindingIdentifiers (fingerprints : List String) :
    Except String (List (String × String)) :=
  assignLoop (fingerprints.eraseDups.map (fun f => (f, 6)))

section Digits

theorem upper_digit (c : Char) (hc : c ∈ hexDigits) (d : Char) (hd : d ∈ hexDigits)
    (h : c.toUpper = d.toUpper) : c = d := by
  have hall : hexDigits.all (fun c => hexDigits.all
      (fun d => decide (c.toUpper = d.toUpper → c = d))) = true := by decide
  exact of_decide_eq_true (List.all_eq_true.mp (List.all_eq_true.mp hall c hc) d hd) h

/-- Digits are told apart by their upper case. -/
theorem upper_digits {s t : List Char} (hs : ∀ c ∈ s, c ∈ hexDigits) (ht : ∀ c ∈ t, c ∈ hexDigits)
    (h : s.map Char.toUpper = t.map Char.toUpper) : s = t := by
  induction s generalizing t with
  | nil =>
    cases t with
    | nil => rfl
    | cons d t => cases h
  | cons c s ih =>
    cases t with
    | nil => cases h
    | cons d t =>
      obtain ⟨hhead, htail⟩ := List.cons.inj h
      have hc := upper_digit c (hs c List.mem_cons_self) d (ht d List.mem_cons_self) hhead
      have hrest := ih (fun e he => hs e (List.mem_cons_of_mem _ he))
        (fun e he => ht e (List.mem_cons_of_mem _ he)) htail
      rw [hc, hrest]

/-- A fingerprint of at least six digits. -/
structure Shown (f : String) : Prop where
  digits : ∀ c ∈ f.toList, c ∈ hexDigits
  long : 6 ≤ f.toList.length

theorem isFingerprint_iff {f : String} :
    isFingerprint f = true ↔ f ≠ "" ∧ ∀ c ∈ f.toList, c ∈ hexDigits := by
  simp [isFingerprint, List.all_eq_true]

theorem Shown.fingerprint {f : String} (h : Shown f) : isFingerprint f = true := by
  refine isFingerprint_iff.mpr ⟨?_, h.digits⟩
  rintro rfl
  exact absurd h.long (by decide)

theorem six_le_cap {f : String} (h : Shown f) : 6 ≤ cap f := by
  have hlong := h.long
  unfold cap
  omega

theorem checked_shown {f : String} {w : Nat} (h : Shown f) (hlow : 6 ≤ w) (hcap : w ≤ cap f) :
    checkedIdentifier f w = .ok (findingIdentifier f w) := by
  have hrange : ¬ (w < 6 ∨ f.toList.length < w) := by
    unfold cap at hcap
    omega
  unfold checkedIdentifier
  rw [h.fingerprint, if_neg (by simp), if_neg hrange]

/-- The digits of an id. -/
theorem identifier_inj {f g : String} {v w : Nat} (hf : Shown f) (hg : Shown g)
    (h : findingIdentifier f v = findingIdentifier g w) :
    f.toList.take v = g.toList.take w := by
  have hlists := congrArg String.toList h
  simp only [findingIdentifier, upper, String.toList_append, String.toList_ofList] at hlists
  exact upper_digits (fun c hc => hf.digits c (List.mem_of_mem_take hc))
    (fun c hc => hg.digits c (List.mem_of_mem_take hc)) (List.append_cancel_left hlists)

/-- Fingerprints with one id show equally many digits. -/
theorem width_eq {f g : String} {v w : Nat} (hf : Shown f) (hg : Shown g) (hv : v ≤ cap f)
    (hw : w ≤ cap g) (h : findingIdentifier f v = findingIdentifier g w) : v = w := by
  have hlength := congrArg List.length (identifier_inj hf hg h)
  rw [List.length_take, List.length_take] at hlength
  unfold cap at hv hw
  omega

end Digits

section Loop
variable {u u' : List String} {w : String → Nat}

/-- Two fingerprints agree on the most digits that are ever shown. -/
def Agree (f g : String) : Prop :=
  16 ≤ f.toList.length ∧ 16 ≤ g.toList.length ∧ f.toList.take 16 = g.toList.take 16

/-- The fingerprints of a set with the digits each of them shows. -/
def rows (u : List String) (w : String → Nat) : List (String × Nat) := u.map (fun f => (f, w f))

def shownIds (u : List String) (w : String → Nat) : List (String × String) :=
  u.map (fun f => (f, findingIdentifier f (w f)))

/-- The widths lie between six digits and all that may be shown. -/
def Within (u : List String) (w : String → Nat) : Prop := ∀ f ∈ u, 6 ≤ w f ∧ w f ≤ cap f

/-- No two fingerprints show the same id. -/
def Distinct (u : List String) (w : String → Nat) : Prop :=
  ∀ f ∈ u, ∀ g ∈ u, f ≠ g → findingIdentifier f (w f) ≠ findingIdentifier g (w g)

/-- The widths after a round. -/
def grow (u : List String) (w : String → Nat) (f : String) : Nat := (widenOne (rows u w) (f, w f)).2

theorem collides_iff {f : String} : collides (rows u w) (f, w f) = true ↔
    ∃ g ∈ u, g ≠ f ∧ findingIdentifier g (w g) = findingIdentifier f (w f) := by
  simp [collides, rows]

theorem widen_rows (u : List String) (w : String → Nat) :
    widen (rows u w) = rows u (grow u w) := by
  rw [widen_eq]
  unfold rows
  rw [List.map_map]
  refine List.map_congr_left fun f _ => ?_
  have hfst : (widenOne (rows u w) (f, w f)).1 = f := by
    rcases widenOne_cases (rows u w) (f, w f) with hsame | ⟨_, _, hwide⟩
    · rw [hsame]
    · rw [hwide]
  exact Prod.ext hfst rfl

theorem grow_cases (u : List String) (w : String → Nat) (f : String) :
    grow u w f = w f ∨
      ((∃ g ∈ u, g ≠ f ∧ findingIdentifier g (w g) = findingIdentifier f (w f)) ∧ w f < cap f ∧
        grow u w f = min (w f + 2) (cap f)) := by
  unfold grow
  rcases widenOne_cases (rows u w) (f, w f) with hsame | ⟨hcollides, hlt, hwide⟩
  · exact .inl (by rw [hsame])
  · exact .inr ⟨collides_iff.mp hcollides, hlt, by rw [hwide]⟩

theorem grow_of_collision {f g : String} (hg : g ∈ u) (hne : g ≠ f)
    (h : findingIdentifier g (w g) = findingIdentifier f (w f)) (hlt : w f < cap f) :
    grow u w f = min (w f + 2) (cap f) := by
  have hcollides : collides (rows u w) (f, w f) = true := collides_iff.mpr ⟨g, hg, hne, h⟩
  unfold grow widenOne
  rw [hcollides, Bool.true_and, if_pos (decide_eq_true hlt)]

/-- How a round widens depends on the set alone, not on its order. -/
theorem grow_congr (h : ∀ f, f ∈ u ↔ f ∈ u') (w : String → Nat) : grow u w = grow u' w := by
  funext f
  have hsame : collides (rows u w) (f, w f) = collides (rows u' w) (f, w f) := by
    rw [Bool.eq_iff_iff, collides_iff, collides_iff]
    simp only [h]
  unfold grow widenOne
  rw [hsame]

theorem within_grow (h : Within u w) : Within u (grow u w) := by
  intro f hf
  obtain ⟨hlow, hcap⟩ := h f hf
  rcases grow_cases u w f with hsame | ⟨_, hlt, hwide⟩
  · rw [hsame]
    exact ⟨hlow, hcap⟩
  · rw [hwide]
    omega

theorem identifiersOf_rows (hshown : ∀ f ∈ u, Shown f) (h : Within u w) :
    identifiersOf (rows u w) = .ok (shownIds u w) := by
  unfold identifiersOf rows shownIds
  induction u with
  | nil => rfl
  | cons f rest ih =>
    obtain ⟨hlow, hcap⟩ := h f List.mem_cons_self
    have hrest := ih (fun g hg => hshown g (List.mem_cons_of_mem _ hg))
      (fun g hg => h g (List.mem_cons_of_mem _ hg))
    rw [List.map_cons, List.mapM_cons, hrest,
      checked_shown (hshown f List.mem_cons_self) hlow hcap]
    rfl

theorem nodup_shownIds (hnodup : u.Nodup) :
    ((shownIds u w).map (·.2)).Nodup ↔ Distinct u w := by
  unfold shownIds
  rw [List.map_map]
  constructor
  · intro hids f hf g hg hne heq
    exact hne (List.inj_on_of_nodup_map hids hf hg heq)
  · intro hdistinct
    refine (List.nodup_map_iff_inj_on hnodup).mpr fun f hf g hg heq => ?_
    by_contra hne
    exact hdistinct f hf g hg hne heq

/-- Where a round widens nothing, two fingerprints agree on all digits shown. -/
theorem agree_of_stuck (hshown : ∀ f ∈ u, Shown f) (h : Within u w) (hsame : ¬ Distinct u w)
    (hstuck : ∀ f ∈ u, grow u w f = w f) : ∃ f ∈ u, ∃ g ∈ u, f ≠ g ∧ Agree f g := by
  unfold Distinct at hsame
  push Not at hsame
  obtain ⟨f, hf, g, hg, hne, hid⟩ := hsame
  obtain ⟨_, hcapf⟩ := h f hf
  obtain ⟨_, hcapg⟩ := h g hg
  have hwidth := width_eq (hshown f hf) (hshown g hg) hcapf hcapg hid
  have hdigits := identifier_inj (hshown f hf) (hshown g hg) hid
  have hfullf : ¬ w f < cap f := by
    intro hlt
    have hgrown := grow_of_collision hg (Ne.symm hne) hid.symm hlt
    rw [hstuck f hf] at hgrown
    omega
  have hfullg : ¬ w g < cap g := by
    intro hlt
    have hgrown := grow_of_collision hf hne hid hlt
    rw [hstuck g hg] at hgrown
    omega
  refine ⟨f, hf, g, hg, hne, ?_⟩
  unfold cap at hcapf hcapg hfullf hfullg
  by_cases hsixteen : w f = 16
  · have hsixteen' : w g = 16 := hwidth ▸ hsixteen
    rw [hsixteen, hsixteen'] at hdigits
    exact ⟨by omega, by omega, hdigits⟩
  · -- both show all their digits, and are the same fingerprint
    have hallf : f.toList.take (w f) = f.toList := List.take_of_length_le (by omega)
    have hallg : g.toList.take (w g) = g.toList := List.take_of_length_le (by omega)
    rw [hallf, hallg] at hdigits
    exact absurd (String.toList_inj.mp hdigits) hne

/-- How the loop ends: with distinct ids, for every order of the set, or with two fingerprints that
agree on all digits shown. -/
inductive Ends (u : List String) (w : String → Nat) : Prop
  | assigned (v : String → Nat) (within : Within u v) (distinct : Distinct u v)
      (together : ∀ f ∈ u, ∀ g ∈ u, Agree f g → w f = w g → v f = v g)
      (ok : ∀ u' : List String, u'.Nodup → (∀ f, f ∈ u ↔ f ∈ u') →
        assignLoop (rows u' w) = .ok (shownIds u' v))
  | refused (agree : ∃ f ∈ u, ∃ g ∈ u, f ≠ g ∧ Agree f g)
      (error : ∀ u' : List String, u'.Nodup → (∀ f, f ∈ u ↔ f ∈ u') →
        assignLoop (rows u' w) = .error "finding identifier collision cannot be resolved")

theorem distinct_congr (h : ∀ f, f ∈ u ↔ f ∈ u') : Distinct u w ↔ Distinct u' w := by
  simp only [Distinct, h]

theorem rows_inj {v : String → Nat} : rows u v = rows u w ↔ ∀ f ∈ u, v f = w f := by
  unfold rows
  rw [List.map_inj_left]
  simp

theorem assignLoop_distinct (hnodup : u.Nodup) (hshown : ∀ f ∈ u, Shown f) (h : Within u w)
    (hdistinct : Distinct u w) : assignLoop (rows u w) = .ok (shownIds u w) := by
  rw [assignLoop, identifiersOf_rows hshown h]
  exact if_pos ((nodup_shownIds hnodup).mpr hdistinct)

theorem assignLoop_stuck (hnodup : u.Nodup) (hshown : ∀ f ∈ u, Shown f) (h : Within u w)
    (hsame : ¬ Distinct u w) (hstuck : ∀ f ∈ u, grow u w f = w f) :
    assignLoop (rows u w) = .error "finding identifier collision cannot be resolved" := by
  have hwiden : widen (rows u w) = rows u w := by
    rw [widen_rows]
    exact rows_inj.mpr hstuck
  rw [assignLoop, identifiersOf_rows hshown h]
  exact (if_neg ((nodup_shownIds hnodup).not.mpr hsame)).trans (dif_pos hwiden)

theorem assignLoop_grows (hnodup : u.Nodup) (hshown : ∀ f ∈ u, Shown f) (h : Within u w)
    (hsame : ¬ Distinct u w) (hgrows : ¬ ∀ f ∈ u, grow u w f = w f) :
    assignLoop (rows u w) = assignLoop (rows u (grow u w)) := by
  have hwiden : ¬ widen (rows u w) = rows u w := by
    rw [widen_rows]
    exact rows_inj.not.mpr hgrows
  rw [← widen_rows]
  conv_lhs => rw [assignLoop, identifiersOf_rows hshown h]
  exact (if_neg ((nodup_shownIds hnodup).not.mpr hsame)).trans (dif_neg hwiden)

/-- Two fingerprints that agree on all digits shown grow together. -/
theorem grow_together (h : Within u w) {f g : String} (hf : f ∈ u) (hg : g ∈ u)
    (hagree : Agree f g) (hsame : w f = w g) : grow u w f = grow u w g := by
  by_cases hne : f = g
  · rw [hne]
  obtain ⟨hlongf, hlongg, hdigits⟩ := hagree
  obtain ⟨_, hcapf⟩ := h f hf
  have hcaps : cap f = 16 ∧ cap g = 16 := by
    unfold cap
    omega
  have htake : f.toList.take (w f) = g.toList.take (w g) := by
    have hmin : min (w f) 16 = w f := by omega
    have hprefix := congrArg (List.take (w f)) hdigits
    rw [List.take_take, List.take_take, hmin] at hprefix
    rw [← hsame]
    exact hprefix
  have hid : findingIdentifier f (w f) = findingIdentifier g (w g) := by
    unfold findingIdentifier
    rw [htake]
  by_cases hlt : w f < 16
  · have hgrownf := grow_of_collision hg (Ne.symm hne) hid.symm (by omega)
    have hgrowng := grow_of_collision hf hne hid (by omega)
    rw [hgrownf, hgrowng, hsame, hcaps.1, hcaps.2]
  · rcases grow_cases u w f with hf' | ⟨_, hlt', _⟩
    · rcases grow_cases u w g with hg' | ⟨_, hlt', _⟩
      · rw [hf', hg', hsame]
      · omega
    · omega

theorem loop_ends (hshown : ∀ f ∈ u, Shown f) (h : Within u w) :
    Ends u w := by
  induction hslack : slack (rows u w) using Nat.strong_induction_on generalizing w with
  | _ n ih =>
    have hmembers {u' : List String} (hsame : ∀ f, f ∈ u ↔ f ∈ u') :
        (∀ f ∈ u', Shown f) ∧ Within u' w :=
      ⟨fun f hf => hshown f ((hsame f).mpr hf), fun f hf => h f ((hsame f).mpr hf)⟩
    by_cases hdistinct : Distinct u w
    · refine .assigned w h hdistinct (fun _ _ _ _ _ hw => hw) fun u' hnodup' hsame => ?_
      obtain ⟨hshown', hwithin'⟩ := hmembers hsame
      exact assignLoop_distinct hnodup' hshown' hwithin' ((distinct_congr hsame).mp hdistinct)
    by_cases hstuck : ∀ f ∈ u, grow u w f = w f
    · refine .refused (agree_of_stuck hshown h hdistinct hstuck) fun u' hnodup' hsame => ?_
      obtain ⟨hshown', hwithin'⟩ := hmembers hsame
      refine assignLoop_stuck hnodup' hshown' hwithin'
        (fun hother => hdistinct ((distinct_congr hsame).mpr hother)) fun f hf => ?_
      rw [← grow_congr hsame]
      exact hstuck f ((hsame f).mpr hf)
    · -- the round widens something, and the loop goes on from less slack
      have hgrows {u' : List String} (hnodup' : u'.Nodup) (hsame : ∀ f, f ∈ u ↔ f ∈ u') :
          assignLoop (rows u' w) = assignLoop (rows u' (grow u w)) := by
        obtain ⟨hshown', hwithin'⟩ := hmembers hsame
        rw [grow_congr hsame]
        refine assignLoop_grows hnodup' hshown' hwithin'
          (fun hother => hdistinct ((distinct_congr hsame).mpr hother)) fun hother => ?_
        refine hstuck fun f hf => ?_
        rw [grow_congr hsame]
        exact hother f ((hsame f).mp hf)
      have hless : slack (rows u (grow u w)) < n := by
        rw [← widen_rows, ← hslack]
        refine slack_widen ?_
        rw [widen_rows]
        exact rows_inj.not.mpr hstuck
      cases ih _ hless (within_grow h) rfl with
      | assigned v within distinct together ok =>
        refine .assigned v within distinct (fun f hf g hg hagree hw => ?_)
          fun u' hnodup' hsame => (hgrows hnodup' hsame).trans (ok u' hnodup' hsame)
        exact together f hf g hg hagree (grow_together h hf hg hagree hw)
      | refused agree error =>
        exact .refused agree fun u' hnodup' hsame =>
          (hgrows hnodup' hsame).trans (error u' hnodup' hsame)

end Loop

end ReviewSensei.Presentation
