import ReviewSensei.JsonFields
import Mathlib.Tactic

/-! The first number at which a test passes, by halving: a test gives a value where it passes, and
passes from there on. -/
namespace ReviewSensei.Bisection
variable {α : Type}

/-- Halving the numbers between `low` and one that is known to pass. -/
def search (probe : Nat → Except String (Option α)) (low high : Nat) (found : α) :
    Except String (Nat × α) :=
  if low < high then do
    match ← probe ((low + high) / 2) with
    | none => search probe ((low + high) / 2 + 1) high found
    | some attempt => search probe low ((low + high) / 2) attempt
  else .ok (high, found)
termination_by high - low
decreasing_by
  all_goals omega

variable {probe : Nat → Except String (Option α)} {test : Nat → Option α} {low high : Nat} {found : α}

/-- From a number that passes to any later one. -/
theorem passes_later (hmono : ∀ n, low ≤ n → n < high → (test n).isSome → (test (n + 1)).isSome)
    {m n : Nat} (hlow : low ≤ m) (hle : m ≤ n) (hhigh : n ≤ high) (h : (test m).isSome) :
    (test n).isSome := by
  induction n, hle using Nat.le_induction with
  | base => exact h
  | succ n hle ih => exact hmono n (by omega) (by omega) (ih (by omega))

/-- The search ends at the first number that passes, with the value found there. -/
theorem search_first (hprobe : ∀ n, low ≤ n → n ≤ high → probe n = .ok (test n))
    (hmono : ∀ n, low ≤ n → n < high → (test n).isSome → (test (n + 1)).isSome)
    (hle : low ≤ high) (hfound : test high = some found) :
    ∃ n a, search probe low high found = .ok (n, a) ∧ low ≤ n ∧ n ≤ high ∧ test n = some a ∧
      ∀ m, low ≤ m → m < n → test m = none := by
  induction hsize : high - low using Nat.strong_induction_on generalizing low high found with
  | _ size ih =>
    rw [search]
    by_cases hlt : low < high
    · have hmiddle := hprobe ((low + high) / 2) (by omega) (by omega)
      rw [if_pos hlt, ok_bind hmiddle]
      cases htest : test ((low + high) / 2) with
      | none =>
        obtain ⟨n, a, hsearch, hn, hn', ha, hbefore⟩ := ih (high - ((low + high) / 2 + 1)) (by omega)
          (fun n hn hn' => hprobe n (by omega) hn') (fun n hn hn' => hmono n (by omega) hn')
          (by omega) hfound rfl
        refine ⟨n, a, hsearch, by omega, hn', ha, fun m hm hmn => ?_⟩
        by_cases hlate : (low + high) / 2 + 1 ≤ m
        · exact hbefore m hlate hmn
        · -- a number before the middle passes only if the middle does
          by_contra hsome
          have hpasses := passes_later hmono hm (by omega : m ≤ (low + high) / 2) (by omega)
            (Option.isSome_iff_ne_none.mpr hsome)
          rw [htest] at hpasses
          cases hpasses
      | some attempt =>
        obtain ⟨n, a, hsearch, hn, hn', ha, hbefore⟩ := ih ((low + high) / 2 - low) (by omega)
          (fun n hn hn' => hprobe n hn (by omega)) (fun n hn hn' => hmono n hn (by omega))
          (by omega) htest rfl
        exact ⟨n, a, hsearch, hn, by omega, ha, hbefore⟩
    · obtain rfl : low = high := by omega
      rw [if_neg hlt]
      exact ⟨low, found, rfl, hle, hle, hfound, fun m hm hmn => by omega⟩

end ReviewSensei.Bisection
