import ReviewSensei.FindingIdentifiers

/-! What a displayed id or a full fingerprint of a finding is resolved to. -/
namespace ReviewSensei.Presentation
open Disposition (FindingIdentity findingIdentifier widen upper lower resolveFindingIdentity
  isFindingReference requireOverridable assignRounds)
open Session (bind_ok)

section Assigned

theorem nodup_eraseDups (l : List String) : l.eraseDups.Nodup := by
  induction hlength : l.length using Nat.strong_induction_on generalizing l with
  | _ n ih =>
    cases l with
    | nil => simp
    | cons a rest =>
      rw [List.eraseDups_cons, List.nodup_cons]
      have hle : (rest.filter (fun b => !b == a)).length ≤ rest.length := List.length_filter_le _ _
      rw [List.length_cons] at hlength
      refine ⟨?_, ih _ (by omega) _ rfl⟩
      rw [List.mem_eraseDups, List.mem_filter]
      simp

variable {fingerprints : List String}

/-- How the assignment of a set of fingerprints ends. -/
inductive Outcome (fingerprints : List String) : Prop
  | assigned (v : String → Nat) (within : Within fingerprints v)
      (distinct : Distinct fingerprints v)
      (apart : ¬ ∃ f ∈ fingerprints, ∃ g ∈ fingerprints, f ≠ g ∧ Agree f g)
      (ok : ∀ others : List String, (∀ f, f ∈ fingerprints ↔ f ∈ others) →
        assignFindingIdentifiers others = .ok (shownIds others.eraseDups v))
  | refused (agree : ∃ f ∈ fingerprints, ∃ g ∈ fingerprints, f ≠ g ∧ Agree f g)
      (error : ∀ others : List String, (∀ f, f ∈ fingerprints ↔ f ∈ others) →
        assignFindingIdentifiers others =
          .error "finding identifier collision cannot be resolved")

theorem assign_ends (hshown : ∀ f ∈ fingerprints, Shown f) : Outcome fingerprints := by
  have hstart : Within fingerprints (fun _ => 6) := fun f hf =>
    ⟨Nat.le_refl 6, six_le_cap (hshown f hf)⟩
  have hmembers {others : List String} (hsame : ∀ f, f ∈ fingerprints ↔ f ∈ others) :
      ∀ f, f ∈ fingerprints ↔ f ∈ others.eraseDups := by
    intro f
    rw [List.mem_eraseDups]
    exact hsame f
  cases loop_ends hshown hstart with
  | assigned v within distinct together ok =>
    refine .assigned v within distinct ?_ fun others hsame =>
      ok _ (nodup_eraseDups others) (hmembers hsame)
    rintro ⟨f, hf, g, hg, hne, hagree⟩
    have hwidth := together f hf g hg hagree rfl
    have hle : v f ≤ 16 := Nat.le_trans (within f hf).2 (Nat.min_le_left _ _)
    have htake := congrArg (List.take (v f)) hagree.2.2
    rw [List.take_take, List.take_take, Nat.min_eq_left hle] at htake
    refine distinct f hf g hg hne ?_
    unfold findingIdentifier
    rw [← hwidth, htake]
  | refused agree error =>
    exact .refused agree fun others hsame => error _ (nodup_eraseDups others) (hmembers hsame)

theorem identifiersOf_ok {lengths : List (String × Nat)} {ids : List (String × String)}
    (h : identifiersOf lengths = .ok ids) :
    ∀ p ∈ lengths, ∃ id, checkedIdentifier p.1 p.2 = .ok id := by
  unfold identifiersOf at h
  induction lengths generalizing ids with
  | nil => exact fun p hp => absurd hp List.not_mem_nil
  | cons first rest ih =>
    rw [List.mapM_cons] at h
    obtain ⟨row, hrow, h⟩ := bind_ok h
    obtain ⟨others, hothers, _⟩ := bind_ok h
    intro p hp
    rcases List.mem_cons.mp hp with rfl | hp
    · cases hchecked : checkedIdentifier p.1 p.2 with
      | error message =>
        rw [hchecked] at hrow
        cases hrow
      | ok id => exact ⟨id, rfl⟩
    · exact ih hothers p hp

/-- A fingerprint of fewer than six digits is refused. -/
theorem assign_short {f : String} (hf : f ∈ fingerprints) (hshort : f.toList.length < 6) :
    ∃ message, assignFindingIdentifiers fingerprints = .error message := by
  cases hassign : assignFindingIdentifiers fingerprints with
  | error message => exact ⟨message, rfl⟩
  | ok ids =>
    unfold assignFindingIdentifiers at hassign
    rw [assignLoop] at hassign
    obtain ⟨identifiers, hidentifiers, _⟩ := bind_ok hassign
    have hmem : (f, 6) ∈ fingerprints.eraseDups.map (fun f => (f, 6)) :=
      List.mem_map_of_mem (List.mem_eraseDups.mpr hf)
    obtain ⟨id, hid⟩ := identifiersOf_ok hidentifiers _ hmem
    unfold checkedIdentifier at hid
    split at hid
    · cases hid
    · rw [if_pos (.inr hshort)] at hid
      cases hid

/-- A set of fingerprints is refused exactly where one is too short or two agree on all digits that
are ever shown. -/
theorem assign_error_iff (hhex : ∀ f ∈ fingerprints, isFingerprint f = true) :
    (∃ message, assignFindingIdentifiers fingerprints = .error message) ↔
      (∃ f ∈ fingerprints, f.toList.length < 6) ∨
        ∃ f ∈ fingerprints, ∃ g ∈ fingerprints, f ≠ g ∧ Agree f g := by
  by_cases hshort : ∃ f ∈ fingerprints, f.toList.length < 6
  · obtain ⟨f, hf, hlength⟩ := hshort
    exact iff_of_true (assign_short hf hlength) (.inl ⟨f, hf, hlength⟩)
  · push Not at hshort
    have hshown : ∀ f ∈ fingerprints, Shown f := fun f hf =>
      ⟨(isFingerprint_iff.mp (hhex f hf)).2, hshort f hf⟩
    cases assign_ends hshown with
    | assigned v within distinct apart ok =>
      rw [ok fingerprints fun _ => Iff.rfl]
      refine iff_of_false (fun herror => nomatch herror.choose_spec) ?_
      rintro (⟨f, hf, hlength⟩ | hagree)
      · exact absurd hlength (Nat.not_lt.mpr (hshort f hf))
      · exact apart hagree
    | refused agree error => exact iff_of_true ⟨_, error fingerprints fun _ => Iff.rfl⟩ (.inr agree)

end Assigned

section Rounds
variable {u : List String} {w : String → Nat} {width : Nat}

/-- The fingerprints that still share digits with others all show the same number of them. -/
structure Lockstep (u : List String) (w : String → Nat) (width : Nat) : Prop where
  even : width % 2 = 0
  le : width ≤ 16
  rows : ∀ f ∈ u, w f ≤ width ∧
    (w f = width ∨ ∀ g ∈ u, g ≠ f → g.toList.take (w f) ≠ f.toList.take (w f))

theorem take_of_le {s t : List Char} {m n : Nat} (hle : m ≤ n) (h : s.take n = t.take n) :
    s.take m = t.take m := by
  have htake := congrArg (List.take m) h
  rwa [List.take_take, List.take_take, Nat.min_eq_left hle] at htake

/-- A collision takes place at the common width. -/
theorem Lockstep.collision (h : Lockstep u w width) (hshown : ∀ f ∈ u, Shown f)
    (hwithin : Within u w) {f g : String} (hf : f ∈ u) (hg : g ∈ u) (hne : g ≠ f)
    (hid : findingIdentifier g (w g) = findingIdentifier f (w f)) :
    w f = width := by
  have hwidth := width_eq (hshown g hg) (hshown f hf) (hwithin g hg).2 (hwithin f hf).2 hid
  have hdigits := identifier_inj (hshown g hg) (hshown f hf) hid
  rw [hwidth] at hdigits
  exact (h.rows f hf).2.resolve_right fun hsettled => hsettled g hg hne hdigits

theorem Lockstep.grow (h : Lockstep u w width) (hshown : ∀ f ∈ u, Shown f)
    (hlong : ∀ f ∈ u, 16 ≤ f.toList.length) (hwithin : Within u w) (hless : width < 16) :
    Lockstep u (grow u w) (width + 2) := by
  have heven := h.even
  refine ⟨by omega, by omega, fun f hf => ?_⟩
  have hcap : cap f = 16 := by
    have hlength := hlong f hf
    unfold cap
    omega
  obtain ⟨hle, hkind⟩ := h.rows f hf
  rcases grow_cases u w f with hsame | ⟨⟨g, hg, hne, hid⟩, hlt, hwide⟩
  · rw [hsame]
    refine ⟨by omega, .inr fun g hg hne hdigits => ?_⟩
    have hfree : findingIdentifier g (w g) ≠ findingIdentifier f (w f) := by
      intro hid
      have hgrown := grow_of_collision hg hne hid (by
        have hwidth := h.collision hshown hwithin hf hg hne hid
        omega)
      omega
    rcases (h.rows g hg).2 with hg' | hsettled
    · rcases hkind with hf' | hsettled
      · refine hfree ?_
        unfold findingIdentifier
        rw [hg', ← hf', hdigits]
      · exact hsettled g hg hne hdigits
    · by_cases hshorter : w g ≤ w f
      · exact hsettled f hf (Ne.symm hne) (take_of_le hshorter hdigits).symm
      · rcases hkind with hf' | hsettled'
        · have hgle := (h.rows g hg).1
          omega
        · exact hsettled' g hg hne hdigits
  · have hwidth := h.collision hshown hwithin hf hg hne hid
    rw [hwide, hcap, hwidth]
    exact ⟨by omega, .inl (by omega)⟩

/-- Eight rounds are enough for fingerprints of at least sixteen digits. -/
theorem assignRounds_eq (hnodup : u.Nodup) (hshown : ∀ f ∈ u, Shown f)
    (hlong : ∀ f ∈ u, 16 ≤ f.toList.length) {fuel : Nat} (hwithin : Within u w)
    (hlock : Lockstep u w width) (hfuel : 16 < width + 2 * fuel) :
    assignRounds fuel (rows u w) = assignLoop (rows u w) := by
  induction fuel generalizing w width with
  | zero =>
    have hle := hlock.le
    omega
  | succ fuel ih =>
    have hids : (rows u w).map (fun p => (p.1, findingIdentifier p.1 p.2)) = shownIds u w := by
      unfold rows shownIds
      rw [List.map_map]
      rfl
    rw [assignRounds, hids]
    by_cases hdistinct : Distinct u w
    · rw [assignLoop_distinct hnodup hshown hwithin hdistinct]
      exact if_pos ((nodup_shownIds hnodup).mpr hdistinct)
    by_cases hstuck : ∀ f ∈ u, grow u w f = w f
    · have hwiden : widen (rows u w) = rows u w := by
        rw [widen_rows]
        exact rows_inj.mpr hstuck
      rw [assignLoop_stuck hnodup hshown hwithin hdistinct hstuck]
      exact (if_neg ((nodup_shownIds hnodup).not.mpr hdistinct)).trans (if_pos hwiden)
    · have hwiden : ¬ widen (rows u w) = rows u w := by
        rw [widen_rows]
        exact rows_inj.not.mpr hstuck
      have hless : width < 16 := by
        push Not at hstuck
        obtain ⟨f, hf, hmoved⟩ := hstuck
        rcases grow_cases u w f with hsame | ⟨⟨g, hg, hne, hid⟩, hlt, _⟩
        · exact absurd hsame hmoved
        · have hwidth := hlock.collision hshown hwithin hf hg hne hid
          have hle : cap f ≤ 16 := Nat.min_le_left _ _
          omega
      rw [assignLoop_grows hnodup hshown hwithin hdistinct hstuck, ← widen_rows]
      refine ((if_neg ((nodup_shownIds hnodup).not.mpr hdistinct)).trans (if_neg hwiden)).trans ?_
      rw [widen_rows]
      exact ih (within_grow hwithin) (hlock.grow hshown hlong hwithin hless) (by omega)

end Rounds

section References

/-- A text of digits as a reader may write it: each digit as it is or in upper case. -/
def Cased (body digits : List Char) : Prop := List.Forall₂ (fun c d => c = d ∨ c = d.toUpper) body digits

/-- A reference that consists of the digits, with or without the heading. -/
def Names (reference : String) (digits : List Char) : Prop :=
  ∃ body, Cased body digits ∧
    (reference.toList = body ∨ reference.toList = "RS-".toList ++ body)

/-- The digits of a reference, as the code takes them. -/
def bodyOf (reference : String) : String :=
  if (lower reference).startsWith "rs-" then String.ofList (reference.toList.drop 3) else reference

theorem cased_digit (d : Char) (hd : d ∈ hexDigits) (c : Char) (hc : c ∈ [d, d.toUpper]) :
    c.toUpper = d.toUpper ∧ c.toLower = d ∧ c ≠ 'R' ∧
      (c.isDigit || ('a' ≤ c && c ≤ 'f') || ('A' ≤ c && c ≤ 'F')) = true := by
  have hall : hexDigits.all (fun d => [d, d.toUpper].all (fun c =>
      decide (c.toUpper = d.toUpper ∧ c.toLower = d ∧ c ≠ 'R' ∧
        (c.isDigit || ('a' ≤ c && c ≤ 'f') || ('A' ≤ c && c ≤ 'F')) = true))) = true := by decide
  exact of_decide_eq_true (List.all_eq_true.mp (List.all_eq_true.mp hall d hd) c hc)

variable {body digits : List Char}

theorem Cased.chars (h : Cased body digits) (hdigits : ∀ d ∈ digits, d ∈ hexDigits) :
    body.map Char.toUpper = digits.map Char.toUpper ∧ body.map Char.toLower = digits ∧
      ∀ c ∈ body, c ≠ 'R' ∧
        (c.isDigit || ('a' ≤ c && c ≤ 'f') || ('A' ≤ c && c ≤ 'F')) = true := by
  induction h with
  | nil => exact ⟨rfl, rfl, fun c hc => absurd hc List.not_mem_nil⟩
  | @cons c d body digits hcase _ ih =>
    have hmem : c ∈ [d, d.toUpper] := by
      rcases hcase with rfl | rfl
      · exact List.mem_cons_self
      · exact List.mem_cons_of_mem _ List.mem_cons_self
    obtain ⟨hupper, hlower, hne, hhex⟩ := cased_digit d (hdigits d List.mem_cons_self) c hmem
    obtain ⟨huppers, hlowers, hall⟩ := ih fun e he => hdigits e (List.mem_cons_of_mem _ he)
    refine ⟨?_, ?_, ?_⟩
    · rw [List.map_cons, List.map_cons, hupper, huppers]
    · rw [List.map_cons, hlower, hlowers]
    · intro e he
      rcases List.mem_cons.mp he with rfl | he
      · exact ⟨hne, hhex⟩
      · exact hall e he

/-- What the code reads of a reference to some digits. -/
structure ReadsAs (reference : String) (digits : List Char) : Prop where
  valid : isFindingReference reference = true
  upper_body : upper (bodyOf reference) = upper (String.ofList digits)
  lower_body : lower (bodyOf reference) = String.ofList digits

theorem Names.reads {reference : String} (h : Names reference digits)
    (hdigits : ∀ d ∈ digits, d ∈ hexDigits) (hlong : 6 ≤ digits.length)
    (hshort : digits.length ≤ 64) : ReadsAs reference digits := by
  obtain ⟨body, hcased, hreference⟩ := h
  have hchars : (lower reference).toList = reference.toList.map Char.toLower :=
    String.toList_ofList
  obtain ⟨hupper, hlower, hall⟩ := hcased.chars hdigits
  have hlength : body.length = digits.length := List.Forall₂.length_eq hcased
  have hhex : body.all (fun c => c.isDigit || ('a' ≤ c && c ≤ 'f') || ('A' ≤ c && c ≤ 'F')) =
      true := List.all_eq_true.mpr fun c hc => (hall c hc).2
  have hread : (∃ heading, isFindingReference reference =
      (decide (6 ≤ (reference.toList.drop heading).length) &&
        decide ((reference.toList.drop heading).length ≤ 64) &&
        (reference.toList.drop heading).all
          (fun c => c.isDigit || ('a' ≤ c && c ≤ 'f') || ('A' ≤ c && c ≤ 'F'))) ∧
      reference.toList.drop heading = body) ∧ (bodyOf reference).toList = body := by
    rcases hreference with hplain | hheaded
    · have hbare : ¬ reference.startsWith "RS-" = true := by
        rw [String.startsWith_string_iff, hplain]
        rintro ⟨rest, hrest⟩
        have hmem : 'R' ∈ body := hrest ▸ List.mem_cons_self
        exact (hall 'R' hmem).1 rfl
      have hbare' : ¬ (lower reference).startsWith "rs-" = true := by
        rw [String.startsWith_string_iff, hchars, hplain, hlower]
        rintro ⟨rest, hrest⟩
        have hmem : 'r' ∈ digits := hrest ▸ List.mem_cons_self
        exact absurd (hdigits 'r' hmem) (by decide)
      refine ⟨⟨0, ?_, hplain⟩, ?_⟩
      · unfold isFindingReference
        rw [if_neg hbare, List.drop_zero]
      · unfold bodyOf
        rw [if_neg hbare', hplain]
    · have hheading : reference.startsWith "RS-" = true := by
        rw [String.startsWith_string_iff, hheaded]
        exact List.prefix_append _ _
      have hheading' : (lower reference).startsWith "rs-" = true := by
        rw [String.startsWith_string_iff, hchars, hheaded, List.map_append]
        exact List.prefix_append _ _
      have hdrop : reference.toList.drop 3 = body := by
        rw [hheaded]
        exact List.drop_left' rfl
      refine ⟨⟨3, ?_, hdrop⟩, ?_⟩
      · unfold isFindingReference
        rw [if_pos hheading]
      · unfold bodyOf
        rw [if_pos hheading', String.toList_ofList, hdrop]
  obtain ⟨⟨heading, hvalid, hdrop⟩, hbody⟩ := hread
  refine ⟨?_, ?_, ?_⟩
  · rw [hvalid, hdrop, hhex, hlength]
    simp [hlong, hshort]
  · unfold upper
    rw [hbody, hupper, String.toList_ofList]
  · unfold lower
    rw [hbody, hlower]

end References

section Resolution
variable {inventory : List FindingIdentity} {v : String → Nat} {reference : String}

/-- `^[a-f0-9]{16,64}$`. -/
structure FullDigest (s : String) : Prop where
  digits : ∀ c ∈ s.toList, c ∈ hexDigits
  long : 16 ≤ s.toList.length
  short : s.toList.length ≤ 64

theorem FullDigest.shown {s : String} (h : FullDigest s) : Shown s :=
  ⟨h.digits, Nat.le_trans (by decide) h.long⟩

/-- What the constructor of an identity checks, and that no instance is listed twice. -/
structure ValidInventory (inventory : List FindingIdentity) : Prop where
  instances : ∀ item ∈ inventory, FullDigest item.instance_
  concerns : ∀ item ∈ inventory, ∀ c, item.concern = some c → FullDigest c
  distinct : (inventory.map (·.instance_)).Nodup

/-- The ids a set publishes: no two are the same, and they are assigned in any order. -/
structure Displayed (inventory : List FindingIdentity) (v : String → Nat) : Prop where
  within : Within (inventory.map (·.instance_)) v
  distinct : Distinct (inventory.map (·.instance_)) v
  apart : ¬ ∃ f ∈ inventory.map (·.instance_), ∃ g ∈ inventory.map (·.instance_),
    f ≠ g ∧ Agree f g
  assigned : Disposition.assignFindingIdentifiers (inventory.map (·.instance_)) =
    .ok (shownIds (inventory.map (·.instance_)).eraseDups v)

theorem lower_hex {s : String} (h : ∀ c ∈ s.toList, c ∈ hexDigits) : lower s = s := by
  have hall : hexDigits.all (fun d => decide (d.toLower = d)) = true := by decide
  have hdigit : ∀ d ∈ hexDigits, d.toLower = d :=
    fun d hd => of_decide_eq_true (List.all_eq_true.mp hall d hd)
  unfold lower
  rw [List.map_congr_left fun c hc => hdigit c (h c hc), List.map_id', String.ofList_toList]

/-- The id of an identity stands in upper case. -/
theorem upper_identifier {f : String} (h : ∀ c ∈ f.toList, c ∈ hexDigits) (w : Nat) :
    upper (findingIdentifier f w) = findingIdentifier f w := by
  have hall : hexDigits.all (fun d => decide (d.toUpper.toUpper = d.toUpper)) = true := by decide
  have hdigit : ∀ d ∈ hexDigits, d.toUpper.toUpper = d.toUpper :=
    fun d hd => of_decide_eq_true (List.all_eq_true.mp hall d hd)
  have hchars : (findingIdentifier f w).toList =
      "RS-".toList ++ (f.toList.take w).map Char.toUpper := by
    simp [findingIdentifier, upper]
  have hheading : "RS-".toList.map Char.toUpper = "RS-".toList := by decide
  have hupper : ((f.toList.take w).map Char.toUpper).map Char.toUpper =
      (f.toList.take w).map Char.toUpper := by
    rw [List.map_map]
    exact List.map_congr_left fun c hc => hdigit c (h c (List.mem_of_mem_take hc))
  rw [upper, hchars, List.map_append, hheading, hupper, ← hchars, String.ofList_toList]

theorem find_shownIds {u : List String} {f : String} (hf : f ∈ u) :
    (shownIds u v).find? (fun p => p.1 = f) = some (f, findingIdentifier f (v f)) := by
  induction u with
  | nil => cases hf
  | cons g rest ih =>
    by_cases heq : g = f
    · subst heq
      simp [shownIds]
    · have hrest := ih ((List.mem_cons.mp hf).resolve_left (Ne.symm heq))
      simpa [shownIds, heq] using hrest

/-- The one element of a list that a test admits. -/
theorem filter_one {α : Type} {l : List α} {a : α} {p : α → Bool} (hnodup : l.Nodup) (ha : a ∈ l)
    (hp : p a = true) (honly : ∀ b ∈ l, p b = true → b = a) : l.filter p = [a] := by
  induction l with
  | nil => cases ha
  | cons b rest ih =>
    obtain ⟨hfresh, hrest⟩ := List.nodup_cons.mp hnodup
    by_cases hb : p b = true
    · have heq := honly b List.mem_cons_self hb
      subst heq
      have hnone : rest.filter p = [] := by
        refine List.filter_eq_nil_iff.mpr fun c hc hpc => ?_
        have hcb := honly c (List.mem_cons_of_mem _ hc) hpc
        exact hfresh (hcb ▸ hc)
      rw [List.filter_cons_of_pos hb, hnone]
    · have hne : a ≠ b := fun heq => hb (heq ▸ hp)
      rw [List.filter_cons_of_neg hb]
      exact ih hrest ((List.mem_cons.mp ha).resolve_left hne)
        fun c hc => honly c (List.mem_cons_of_mem _ hc)

/-- The identities whose displayed id a reference spells. -/
def shownFor (inventory : List FindingIdentity) (v : String → Nat) (reference : String) :
    List FindingIdentity :=
  inventory.filter (fun item =>
    findingIdentifier item.instance_ (v item.instance_) = "RS-" ++ upper (bodyOf reference))

def instancesFor (inventory : List FindingIdentity) (reference : String) : List FindingIdentity :=
  inventory.filter (fun item => item.instance_ = lower (bodyOf reference))

def concernsFor (inventory : List FindingIdentity) (reference : String) : List FindingIdentity :=
  inventory.filter (fun item => item.concern = some (lower (bodyOf reference)))

/-- The decision of the code on a reference that has the right shape. -/
theorem resolve_eq (hinventory : ValidInventory inventory) (hdisplayed : Displayed inventory v)
    (hvalid : isFindingReference reference = true) (hne : inventory ≠ []) :
    resolveFindingIdentity reference inventory =
      match shownFor inventory v reference, instancesFor inventory reference,
        concernsFor inventory reference with
      | _ :: _ :: _, _, _ => .error "finding id is ambiguous"
      | [found], _, _ => requireOverridable found
      | [], [found], [] => requireOverridable found
      | [], [], [found] => requireOverridable found
      | [], [], [] => .error "finding id does not match one current finding"
      | [], _, _ => .error "finding id is ambiguous" := by
  have hshown : inventory.filter (fun item =>
      ((shownIds (inventory.map (·.instance_)).eraseDups v).find?
        (fun p => p.1 = item.instance_)).any
          (fun p => upper p.2 = "RS-" ++ upper (bodyOf reference))) =
      shownFor inventory v reference := by
    refine List.filter_congr fun item hitem => ?_
    have hmem : item.instance_ ∈ (inventory.map (·.instance_)).eraseDups :=
      List.mem_eraseDups.mpr (List.mem_map_of_mem hitem)
    rw [find_shownIds hmem, Option.any_some,
      upper_identifier (hinventory.instances item hitem).digits]
  have hinstances : inventory.filter (fun item =>
      lower item.instance_ = lower (bodyOf reference)) = instancesFor inventory reference := by
    refine List.filter_congr fun item hitem => ?_
    rw [lower_hex (hinventory.instances item hitem).digits]
  have hconcerns : inventory.filter (fun item =>
      item.concern.any (fun c => lower c = lower (bodyOf reference))) =
      concernsFor inventory reference := by
    refine List.filter_congr fun item hitem => ?_
    cases hconcern : item.concern with
    | none => rfl
    | some c =>
      rw [Option.any_some, lower_hex (hinventory.concerns item hitem c hconcern).digits]
      simp
  unfold resolveFindingIdentity
  rw [hvalid, if_neg (by simp), if_neg hne, hdisplayed.assigned]
  dsimp only [bind, Except.bind]
  rw [← hshown, ← hinstances, ← hconcerns]
  rfl

theorem ValidInventory.nodup (h : ValidInventory inventory) : inventory.Nodup :=
  List.Nodup.of_map _ h.distinct

/-- An instance is listed once. -/
theorem ValidInventory.eq_of_instance (h : ValidInventory inventory) {item other : FindingIdentity}
    (hitem : item ∈ inventory) (hother : other ∈ inventory)
    (heq : item.instance_ = other.instance_) : item = other :=
  List.inj_on_of_nodup_map h.distinct hitem hother heq

/-- The displayed id of a finding resolves to that finding, if it may be overridden. -/
theorem resolve_displayed (hinventory : ValidInventory inventory)
    (hdisplayed : Displayed inventory v) {item : FindingIdentity} (hitem : item ∈ inventory)
    (hnames : Names reference (item.instance_.toList.take (v item.instance_))) :
    resolveFindingIdentity reference inventory = requireOverridable item := by
  have hdigest := hinventory.instances item hitem
  have hmem : item.instance_ ∈ inventory.map (·.instance_) := List.mem_map_of_mem hitem
  obtain ⟨hlow, hcap⟩ := hdisplayed.within _ hmem
  have hlength : (item.instance_.toList.take (v item.instance_)).length = v item.instance_ := by
    unfold cap at hcap
    rw [List.length_take]
    omega
  have hshort : v item.instance_ ≤ 64 := by
    unfold cap at hcap
    omega
  have hreads := hnames.reads (fun d hd => hdigest.digits d (List.mem_of_mem_take hd))
    (by omega) (by omega)
  have hid : findingIdentifier item.instance_ (v item.instance_) =
      "RS-" ++ upper (bodyOf reference) := by
    rw [hreads.upper_body]
    rfl
  have hshown : shownFor inventory v reference = [item] := by
    refine filter_one hinventory.nodup hitem (decide_eq_true hid) fun other hother hsame => ?_
    by_contra hne
    refine hdisplayed.distinct _ (List.mem_map_of_mem hother) _ hmem (fun heq => hne ?_) ?_
    · exact hinventory.eq_of_instance hother hitem heq
    · exact (of_decide_eq_true hsame).trans hid.symm
  rw [resolve_eq hinventory hdisplayed hreads.valid (List.ne_nil_of_mem hitem), hshown]

/-- A full fingerprint resolves to its finding where it is no finding's concern. -/
theorem resolve_full (hinventory : ValidInventory inventory) (hdisplayed : Displayed inventory v)
    {item : FindingIdentity} (hitem : item ∈ inventory)
    (hnames : Names reference item.instance_.toList)
    (hconcern : ∀ other ∈ inventory, other.concern ≠ some item.instance_) :
    resolveFindingIdentity reference inventory = requireOverridable item := by
  have hdigest := hinventory.instances item hitem
  have hmem : item.instance_ ∈ inventory.map (·.instance_) := List.mem_map_of_mem hitem
  have hreads := hnames.reads hdigest.digits (Nat.le_trans (by decide) hdigest.long) hdigest.short
  have hbody : lower (bodyOf reference) = item.instance_ := by
    rw [hreads.lower_body, String.ofList_toList]
  have hinstances : instancesFor inventory reference = [item] := by
    refine filter_one hinventory.nodup hitem (decide_eq_true hbody.symm) fun other hother hsame => ?_
    exact hinventory.eq_of_instance hother hitem ((of_decide_eq_true hsame).trans hbody)
  have hconcerns : concernsFor inventory reference = [] := by
    refine List.filter_eq_nil_iff.mpr fun other hother hsame => ?_
    exact hconcern other hother (hbody ▸ of_decide_eq_true hsame)
  have hshown : ∀ other ∈ shownFor inventory v reference, other = item := by
    intro other hother
    obtain ⟨hmember, hsame⟩ := List.mem_filter.mp hother
    have hother' : other.instance_ ∈ inventory.map (·.instance_) := List.mem_map_of_mem hmember
    have hcap := (hdisplayed.within _ hother').2
    have hdigestOther := hinventory.instances other hmember
    -- the id shows as many digits as the whole fingerprint has
    have hid : findingIdentifier other.instance_ (v other.instance_) =
        findingIdentifier item.instance_ item.instance_.toList.length := by
      rw [of_decide_eq_true hsame, hreads.upper_body, findingIdentifier, List.take_length]
    have hdigits := identifier_inj hdigestOther.shown hdigest.shown hid
    have hlength := congrArg List.length hdigits
    rw [List.length_take, List.length_take] at hlength
    have hlong := hdigest.long
    have hsixteen : item.instance_.toList.length = 16 ∧ v other.instance_ = 16 := by
      unfold cap at hcap
      omega
    by_contra hne
    refine hdisplayed.apart ⟨_, hother', _, hmem, fun heq => hne ?_, hdigestOther.long, hlong, ?_⟩
    · exact hinventory.eq_of_instance hmember hitem heq
    · rw [hsixteen.1, hsixteen.2] at hdigits
      exact hdigits
  have hnodup : (shownFor inventory v reference).Nodup := hinventory.nodup.filter _
  rw [resolve_eq hinventory hdisplayed hreads.valid (List.ne_nil_of_mem hitem), hinstances,
    hconcerns]
  cases hlist : shownFor inventory v reference with
  | nil => rfl
  | cons first rest =>
    rw [hlist] at hshown hnodup
    have hfirst := hshown first List.mem_cons_self
    cases rest with
    | nil => rw [hfirst]
    | cons second others =>
      have hsecond := hshown second (List.mem_cons_of_mem _ List.mem_cons_self)
      rw [hfirst, hsecond] at hnodup
      exact absurd List.mem_cons_self (List.nodup_cons.mp hnodup).1

/-- A finding that a reference stands for: by its displayed id, its instance or its concern. -/
def Denotes (v : String → Nat) (reference : String) (item : FindingIdentity) : Prop :=
  findingIdentifier item.instance_ (v item.instance_) = "RS-" ++ upper (bodyOf reference) ∨
    item.instance_ = lower (bodyOf reference) ∨ item.concern = some (lower (bodyOf reference))

theorem requireOverridable_ok {item found : FindingIdentity}
    (h : requireOverridable item = .ok found) : found = item ∧ found.overridable = true := by
  unfold requireOverridable at h
  split at h
  · next hallowed =>
    obtain rfl := Except.ok.inj h
    exact ⟨rfl, hallowed⟩
  · cases h

theorem resolve_denotes (hinventory : ValidInventory inventory)
    (hdisplayed : Displayed inventory v) {found : FindingIdentity}
    (h : resolveFindingIdentity reference inventory = .ok found) :
    found ∈ inventory ∧ found.overridable = true ∧ Denotes v reference found := by
  have hvalid : isFindingReference reference = true := by
    by_contra hinvalid
    rw [resolveFindingIdentity, if_pos (by simpa using hinvalid)] at h
    cases h
  have hne : inventory ≠ [] := by
    rintro rfl
    rw [resolveFindingIdentity, if_neg (by simp [hvalid]), if_pos rfl] at h
    cases h
  have hmember {p : FindingIdentity → Bool} {item : FindingIdentity}
      (hlist : inventory.filter p = [item]) : item ∈ inventory ∧ p item = true :=
    List.mem_filter.mp (hlist ▸ List.mem_singleton_self item)
  rw [resolve_eq hinventory hdisplayed hvalid hne] at h
  split at h
  · cases h
  · next item hshown =>
    obtain ⟨rfl, hallowed⟩ := requireOverridable_ok h
    obtain ⟨hmem, hid⟩ := hmember hshown
    exact ⟨hmem, hallowed, .inl (of_decide_eq_true hid)⟩
  · next item _ hinstances _ =>
    obtain ⟨rfl, hallowed⟩ := requireOverridable_ok h
    obtain ⟨hmem, hid⟩ := hmember hinstances
    exact ⟨hmem, hallowed, .inr (.inl (of_decide_eq_true hid))⟩
  · next item _ _ hconcerns =>
    obtain ⟨rfl, hallowed⟩ := requireOverridable_ok h
    obtain ⟨hmem, hid⟩ := hmember hconcerns
    exact ⟨hmem, hallowed, .inr (.inr (of_decide_eq_true hid))⟩
  · cases h
  · cases h

/-- The ids of an inventory are those its fingerprints are assigned. -/
theorem displayed_of_assigned (hinventory : ValidInventory inventory)
    {ids : List (String × String)}
    (h : assignFindingIdentifiers (inventory.map (·.instance_)) = .ok ids) :
    ∃ v, Displayed inventory v ∧ ids = shownIds (inventory.map (·.instance_)).eraseDups v := by
  have hdigest : ∀ f ∈ inventory.map (·.instance_), FullDigest f := by
    intro f hf
    obtain ⟨item, hitem, rfl⟩ := List.mem_map.mp hf
    exact hinventory.instances item hitem
  have hunique {f : String} (hf : f ∈ (inventory.map (·.instance_)).eraseDups) : FullDigest f :=
    hdigest f (List.mem_eraseDups.mp hf)
  have hstart : Within (inventory.map (·.instance_)).eraseDups (fun _ => 6) := fun f hf =>
    ⟨Nat.le_refl 6, six_le_cap (hunique hf).shown⟩
  have hlock : Lockstep (inventory.map (·.instance_)).eraseDups (fun _ => 6) 6 :=
    ⟨rfl, by decide, fun f _ => ⟨Nat.le_refl 6, .inl rfl⟩⟩
  have hsame : Disposition.assignFindingIdentifiers (inventory.map (·.instance_)) =
      assignFindingIdentifiers (inventory.map (·.instance_)) :=
    assignRounds_eq (nodup_eraseDups _) (fun f hf => (hunique hf).shown)
      (fun f hf => (hunique hf).long) hstart hlock (by decide)
  cases assign_ends fun f hf => (hdigest f hf).shown with
  | assigned v within distinct apart ok =>
    have hids := ok _ fun _ => Iff.rfl
    refine ⟨v, ⟨within, distinct, apart, hsame.trans hids⟩, ?_⟩
    exact Except.ok.inj (h.symm.trans hids)
  | refused agree error =>
    rw [error _ fun _ => Iff.rfl] at h
    cases h

end Resolution

section Claim

/-- Over every set of fingerprints and every valid inventory: ids are refused exactly where a
fingerprint has fewer than six digits or two agree on sixteen, else they are pairwise distinct
projections that do not depend on the order; and a displayed id, or a full fingerprint that is no
concern, resolves to its finding, while nothing resolves to a finding it does not denote. -/
theorem finding_identifiers (fingerprints : List String)
    (hhex : ∀ f ∈ fingerprints, isFingerprint f = true) :
    ((∃ message, assignFindingIdentifiers fingerprints = .error message) ↔
      (∃ f ∈ fingerprints, f.toList.length < 6) ∨
        ∃ f ∈ fingerprints, ∃ g ∈ fingerprints, f ≠ g ∧ Agree f g) ∧
    (∀ ids, assignFindingIdentifiers fingerprints = .ok ids →
      ∃ v, Within fingerprints v ∧ Distinct fingerprints v ∧
        ∀ others : List String, (∀ f, f ∈ fingerprints ↔ f ∈ others) →
          assignFindingIdentifiers others = .ok (shownIds others.eraseDups v)) ∧
    ∀ inventory ids, ValidInventory inventory →
      assignFindingIdentifiers (inventory.map (·.instance_)) = .ok ids →
      ∃ v, Displayed inventory v ∧
        ids = shownIds (inventory.map (·.instance_)).eraseDups v ∧
        (∀ item ∈ inventory, ∀ reference,
          Names reference (item.instance_.toList.take (v item.instance_)) →
            resolveFindingIdentity reference inventory = requireOverridable item) ∧
        (∀ item ∈ inventory, ∀ reference, Names reference item.instance_.toList →
          (∀ other ∈ inventory, other.concern ≠ some item.instance_) →
            resolveFindingIdentity reference inventory = requireOverridable item) ∧
        ∀ reference found, resolveFindingIdentity reference inventory = .ok found →
          found ∈ inventory ∧ found.overridable = true ∧ Denotes v reference found := by
  refine ⟨assign_error_iff hhex, fun ids hids => ?_, fun inventory ids hinventory hids => ?_⟩
  · have hlong : ∀ f ∈ fingerprints, Shown f := by
      intro f hf
      refine ⟨(isFingerprint_iff.mp (hhex f hf)).2, Nat.not_lt.mp fun hshort => ?_⟩
      obtain ⟨message, herror⟩ := assign_short hf hshort
      rw [hids] at herror
      cases herror
    cases assign_ends hlong with
    | assigned v within distinct _ ok => exact ⟨v, within, distinct, ok⟩
    | refused _ error =>
      rw [error _ fun _ => Iff.rfl] at hids
      cases hids
  · obtain ⟨v, hdisplayed, hshown⟩ := displayed_of_assigned hinventory hids
    refine ⟨v, hdisplayed, hshown, ?_, ?_, ?_⟩
    · intro item hitem reference hnames
      exact resolve_displayed hinventory hdisplayed hitem hnames
    · intro item hitem reference hnames hconcern
      exact resolve_full hinventory hdisplayed hitem hnames hconcern
    · intro reference found h
      exact resolve_denotes hinventory hdisplayed h

/-- Two fingerprints of seven and eight digits are both assigned ids. -/
theorem sample_identifiers :
    ¬ (∃ message, assignFindingIdentifiers ["abcdef0", "abcdef01"] = .error message) := by
  rw [(finding_identifiers ["abcdef0", "abcdef01"] (by decide)).1]
  rintro (⟨f, hf, hshort⟩ | ⟨f, hf, g, hg, _, hlong, _⟩)
  · rcases List.mem_pair.mp hf with rfl | rfl
    · exact absurd hshort (by decide)
    · exact absurd hshort (by decide)
  · rcases List.mem_pair.mp hf with rfl | rfl
    · exact absurd hlong (by decide)
    · exact absurd hlong (by decide)

/-- A lone short fingerprint is refused, and a fingerprint that is its own concern does not resolve
in full. -/
theorem short_and_own_concern :
    (∃ message, assignFindingIdentifiers ["abc"] = .error message) ∧
      resolveFindingIdentity "abcdef0123456789a"
        [⟨"abcdef0123456789a", some "abcdef0123456789a", true⟩] =
          .error "finding id is ambiguous" :=
  ⟨assign_short List.mem_cons_self (by decide), by decide +kernel⟩

end Claim

end ReviewSensei.Presentation
