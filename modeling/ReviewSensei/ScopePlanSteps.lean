import ReviewSensei.ScopePlan
import ReviewSensei.BaselineReading
import Mathlib.Data.List.Dedup

/-! What the steps of a scope plan return: path groups, unions, constructors. -/
namespace ReviewSensei.Convergence
open Session (bind_ok isSha256)
open Diff (validateRepositoryPath)

section Labels
variable {rules : AdmissionRules} {label label' : String} {path : String} {paths : List String}

theorem relabel_check {c : Prop} [Decidable c] {e e' : String} {x x' : Except String Unit}
    (hrest : x = .ok () → x' = .ok ()) (h : (if c then .error e else x) = .ok ()) :
    (if c then .error e' else x') = .ok () := by
  split at h
  · cases h
  · next hc => exact (if_neg hc).trans (hrest h)

/-- The label is only for the message, and a path without glob tokens is one that may have them. -/
theorem validate_relabel {globs globs' : Bool} (hglobs : globs = true → globs' = true)
    {path : Diff.Path} (h : validateRepositoryPath rules.unicode label globs path = .ok ()) :
    validateRepositoryPath rules.unicode label' globs' path = .ok () := by
  revert h
  unfold validateRepositoryPath
  dsimp only
  iterate 9 refine relabel_check ?_
  intro h
  split at h
  · cases h
  · next hfree =>
    apply if_neg
    intro htoken
    rw [Bool.and_eq_true, Bool.not_eq_true'] at htoken hfree
    cases hg : globs with
    | false => exact hfree ⟨hg, htoken.2⟩
    | true => exact absurd (hglobs hg) (by rw [htoken.1]; decide)

theorem ne_of_validate (h : validateRepositoryPath rules.unicode label true path.toList = .ok ()) :
    path ≠ "" := by
  rintro rfl
  exact nomatch h

theorem GoodPaths.relabel (h : GoodPaths rules label paths) : GoodPaths rules label' paths :=
  ⟨fun p hp => validate_relabel id (h.valid p hp), h.nodup, h.few⟩

/-- The bounded paths are good, and are the given ones. -/
theorem boundedPaths_ok_iff {out : List String} (h : boundedPaths rules label paths = .ok out) :
    GoodPaths rules label out ∧ ∀ p, p ∈ out ↔ p ∈ paths := by
  obtain ⟨hnodup, hfew, hvalid, hmem⟩ := foldPaths_inv h List.nodup_nil (Nat.zero_le _)
  have hmem : ∀ p, p ∈ out ↔ p ∈ paths := fun p => by simpa using hmem p
  exact ⟨⟨fun p hp => hvalid p ((hmem p).mp hp), hnodup, hfew⟩, hmem⟩

theorem boundedRelatedPaths_ok {out : List String} (h : boundedRelatedPaths rules paths = .ok out) :
    GoodPaths rules "related" out ∧ out.length ≤ maxRelatedPaths ∧ ∀ p, p ∈ out ↔ p ∈ paths := by
  obtain ⟨bounded, hbounded, h⟩ := bind_ok h
  obtain ⟨_, hfew, h⟩ := bind_ok h
  obtain rfl := Except.ok.inj h
  obtain ⟨hgood, hmem⟩ := boundedPaths_ok_iff hbounded
  exact ⟨hgood, ensure_inv hfew, hmem⟩

theorem boundedRelatedPaths_of_good (h : GoodPaths rules label paths)
    (hfew : paths.length ≤ maxRelatedPaths) : boundedRelatedPaths rules paths = .ok paths := by
  unfold boundedRelatedPaths
  rw [ok_bind (boundedPaths_ok h.relabel), ensure_bind hfew]
  rfl

end Labels

section Unions

/-- The first occurrences of `_unique_paths`. -/
theorem unique_fold (paths seen : List String) (hseen : seen.Nodup) :
    (paths.foldl (fun seen path => if path ∈ seen then seen else seen ++ [path]) seen).Nodup ∧
      ∀ p, p ∈ paths.foldl (fun seen path => if path ∈ seen then seen else seen ++ [path]) seen ↔
        p ∈ seen ∨ p ∈ paths := by
  induction paths generalizing seen with
  | nil => exact ⟨hseen, fun p => by simp⟩
  | cons path rest ih =>
    rw [List.foldl_cons]
    by_cases hmem : path ∈ seen
    · rw [if_pos hmem]
      obtain ⟨hnodup, hall⟩ := ih seen hseen
      refine ⟨hnodup, fun p => (hall p).trans ?_⟩
      rw [List.mem_cons]
      constructor
      · rintro (hp | hp)
        · exact .inl hp
        · exact .inr (.inr hp)
      · rintro (hp | rfl | hp)
        · exact .inl hp
        · exact .inl hmem
        · exact .inr hp
    · rw [if_neg hmem]
      have hnext : (seen ++ [path]).Nodup := by
        rw [List.nodup_append]
        refine ⟨hseen, List.nodup_singleton _, fun p hp q hq heq => ?_⟩
        rw [List.mem_singleton] at hq
        exact hmem (hq ▸ heq ▸ hp)
      obtain ⟨hnodup, hall⟩ := ih _ hnext
      refine ⟨hnodup, fun p => (hall p).trans ?_⟩
      rw [List.mem_append, List.mem_singleton, List.mem_cons, or_assoc]

/-- Lists of the same members have the same number of different ones. -/
theorem dedup_length_eq {paths paths' : List String} (h : ∀ p, p ∈ paths ↔ p ∈ paths') :
    paths.dedup.length = paths'.dedup.length := by
  apply List.Perm.length_eq
  apply (List.perm_ext_iff_of_nodup (List.nodup_dedup _) (List.nodup_dedup _)).mpr
  intro p
  rw [List.mem_dedup, List.mem_dedup, h]

/-- A union is returned exactly where its different members are within the bound. -/
theorem uniquePaths_spec (bound : Nat) (message : String) (paths : List String) :
    (paths.dedup.length ≤ bound → ∃ unique, uniquePaths bound message paths = .ok unique ∧
      unique.Nodup ∧ unique.length ≤ bound ∧ ∀ p, p ∈ unique ↔ p ∈ paths) ∧
    (bound < paths.dedup.length → uniquePaths bound message paths = .error message) := by
  obtain ⟨hnodup, hmem⟩ := unique_fold paths [] List.nodup_nil
  have hmem : ∀ p, p ∈ paths.foldl (fun seen path => if path ∈ seen then seen else seen ++ [path])
      [] ↔ p ∈ paths := fun p => by simpa using hmem p
  have hlength := dedup_length_eq hmem
  rw [hnodup.dedup] at hlength
  constructor
  · intro hfew
    refine ⟨_, ?_, hnodup, hlength ▸ hfew, hmem⟩
    unfold uniquePaths
    dsimp only
    rw [ensure_bind (hlength ▸ hfew)]
    rfl
  · intro hmany
    unfold uniquePaths ensure
    dsimp only
    rw [if_neg (by omega)]
    rfl

end Unions

section Siblings
variable {rules : AdmissionRules} {changed : List String}

/-- What holds of the siblings while they are collected. -/
structure Siblings (changed related : List String) : Prop where
  nodup : related.Nodup
  few : related.length ≤ maxRelatedPaths
  among : ∀ p ∈ related, p ∈ changed

theorem Siblings.add {related : List String} (h : Siblings changed related) (path : String)
    {candidate : String} (hcandidate : candidate ∈ changed) :
    Siblings changed (addSibling path related candidate) := by
  unfold addSibling
  split
  · next hadd =>
    refine ⟨?_, ?_, fun p hp => ?_⟩
    · rw [List.nodup_append]
      refine ⟨h.nodup, List.nodup_singleton _, fun p hp q hq heq => ?_⟩
      rw [List.mem_singleton] at hq
      exact hadd.2.2.1 (hq ▸ heq ▸ hp)
    · rw [List.length_append, List.length_singleton]
      exact hadd.2.2.2
    · rcases List.mem_append.mp hp with hp | hp
      · exact h.among p hp
      · rw [List.mem_singleton.mp hp]
        exact hcandidate
  · exact h

theorem siblings_foldl {α : Type} {step : List String → α → List String} (items : List α)
    (hstep : ∀ related a, a ∈ items → Siblings changed related → Siblings changed (step related a))
    {related : List String} (h : Siblings changed related) :
    Siblings changed (items.foldl step related) := by
  induction items generalizing related with
  | nil => exact h
  | cons a rest ih =>
    exact ih (fun r b hb => hstep r b (List.mem_cons_of_mem _ hb))
      (hstep related a List.mem_cons_self h)

theorem siblings_collected : Siblings changed
    (changed.foldl (fun related path => changed.foldl (addSibling path) related) []) := by
  have hempty : Siblings changed [] :=
    ⟨List.nodup_nil, Nat.zero_le _, fun p hp => absurd hp List.not_mem_nil⟩
  apply siblings_foldl _ _ hempty
  intro related path _ h
  apply siblings_foldl _ _ h
  intro r candidate hcandidate hr
  exact hr.add path hcandidate

/-- No changed path has a glob token. -/
def GlobFree (rules : AdmissionRules) (changed : List String) : Prop :=
  ∀ path ∈ changed,
    validateRepositoryPath rules.unicode "changed path" false path.toList = .ok ()

/-- The related paths derived from a change are good; a change with a glob token has none. -/
theorem relatedPathsForChange_spec {label : String} (hchanged : GoodPaths rules label changed) :
    (GlobFree rules changed → ∃ related, relatedPathsForChange rules changed = .ok related ∧
      boundedRelatedPaths rules related = .ok related ∧ ∀ p ∈ related, p ∈ changed) ∧
    ∀ related, relatedPathsForChange rules changed = .ok related → GlobFree rules changed := by
  have hsiblings : Siblings changed
      (changed.foldl (fun related path => changed.foldl (addSibling path) related) []) :=
    siblings_collected
  constructor
  · intro hfree
    refine ⟨_, ok_bind (forM_iff.mpr hfree) _, ?_, hsiblings.among⟩
    have hgood : GoodPaths rules label
        (changed.foldl (fun related path => changed.foldl (addSibling path) related) []) :=
      ⟨fun p hp => hchanged.valid p (hsiblings.among p hp), hsiblings.nodup,
        Nat.le_trans hsiblings.few (by decide)⟩
    exact boundedRelatedPaths_of_good hgood hsiblings.few
  · intro related h
    obtain ⟨_, hvalid, _⟩ := bind_ok h
    exact forM_iff.mp hvalid

end Siblings
end ReviewSensei.Convergence
