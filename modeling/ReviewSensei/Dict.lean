import Mathlib.Data.List.Basic
import Mathlib.Data.List.Nodup

/-! Dictionaries that keep the order in which their keys were first set. -/
namespace ReviewSensei

abbrev Dict (κ α : Type) := List (κ × α)

namespace Dict
variable {κ α : Type} [DecidableEq κ]

def get? : Dict κ α → κ → Option α
  | [], _ => none
  | (k', v) :: d, k => if k' = k then some v else get? d k

/-- Setting a present key replaces its value in place; a new key goes last. -/
def set : Dict κ α → κ → α → Dict κ α
  | [], k, v => [(k, v)]
  | (k', v') :: d, k, v => if k' = k then (k, v) :: d else (k', v') :: set d k v

def keys (d : Dict κ α) : List κ := d.map Prod.fst

def contains (d : Dict κ α) (k : κ) : Bool := (d.get? k).isSome

/-- `d.setdefault(k, v)`. -/
def setDefault (d : Dict κ α) (k : κ) (v : α) : Dict κ α :=
  if d.contains k then d else d.set k v

/-- A dict comprehension over pairs: the last value of a repeated key wins. -/
def ofPairs (ps : List (κ × α)) : Dict κ α := ps.foldl (fun d p => d.set p.1 p.2) []

/-- Equality of dictionaries does not see the order of their keys. -/
def same [DecidableEq α] (d e : Dict κ α) : Bool :=
  (d.keys ++ e.keys).all (fun k => decide (d.get? k = e.get? k))

@[simp] theorem get?_nil (k : κ) : get? ([] : Dict κ α) k = none := rfl

theorem get?_set (d : Dict κ α) (k k' : κ) (v : α) :
    (d.set k v).get? k' = if k = k' then some v else d.get? k' := by
  induction d with
  | nil => rfl
  | cons p d ih =>
    obtain ⟨k₀, v₀⟩ := p
    by_cases h₀ : k₀ = k
    · subst h₀
      by_cases hk : k₀ = k' <;> simp [set, get?, hk]
    · by_cases hk' : k₀ = k'
      · subst hk'
        simp [set, get?, h₀, Ne.symm h₀]
      · simp [set, get?, h₀, hk', ih]

@[simp] theorem get?_set_self (d : Dict κ α) (k : κ) (v : α) : (d.set k v).get? k = some v := by
  simp [get?_set]

theorem keys_set (d : Dict κ α) (k : κ) (v : α) :
    (d.set k v).keys = if k ∈ d.keys then d.keys else d.keys ++ [k] := by
  induction d with
  | nil => simp [set, keys]
  | cons p d ih =>
    obtain ⟨k', v'⟩ := p
    by_cases h : k' = k
    · simp [set, keys, h]
    · have hne : ¬ k = k' := fun e => h e.symm
      have hstep : ((k', v') :: set d k v).map Prod.fst = k' :: (set d k v).keys := rfl
      rw [set, if_neg h, keys, hstep, ih]
      by_cases hk : k ∈ keys d
      · have hmem : k ∈ keys ((k', v') :: d) := List.mem_cons_of_mem _ hk
        rw [if_pos hk, if_pos hmem]
        rfl
      · have hmem : k ∉ keys ((k', v') :: d) := by
          intro hcons
          rcases List.mem_cons.mp hcons with heq | hrest
          · exact hne heq
          · exact hk hrest
        rw [if_neg hk, if_neg hmem]
        rfl

theorem mem_set {d : Dict κ α} {k : κ} {v : α} {p : κ × α} (h : p ∈ d.set k v) :
    p = (k, v) ∨ p ∈ d := by
  induction d with
  | nil => exact .inl (List.mem_singleton.mp h)
  | cons q d ih =>
    obtain ⟨k', v'⟩ := q
    unfold set at h
    split at h
    · rcases List.mem_cons.mp h with h | h
      · exact .inl h
      · exact .inr (List.mem_cons_of_mem _ h)
    · rcases List.mem_cons.mp h with h | h
      · exact .inr (h ▸ List.mem_cons_self)
      · exact (ih h).imp_right (List.mem_cons_of_mem _)

theorem nodup_set {d : Dict κ α} (h : d.keys.Nodup) (k : κ) (v : α) : (d.set k v).keys.Nodup := by
  rw [keys_set]
  split
  · exact h
  · next hk =>
    refine List.nodup_append.mpr ⟨h, List.nodup_singleton k, ?_⟩
    intro a ha b hb hab
    exact hk (List.mem_singleton.mp hb ▸ hab ▸ ha)

theorem nodup_ofPairs (ps : List (κ × α)) : (ofPairs ps).keys.Nodup := by
  have hfold : ∀ (ps : List (κ × α)) (d : Dict κ α), d.keys.Nodup →
      (keys (ps.foldl (fun d p => d.set p.1 p.2) d)).Nodup := by
    intro ps
    induction ps with
    | nil => exact fun _ hd => hd
    | cons p ps ih => exact fun d hd => ih _ (nodup_set hd p.1 p.2)
  exact hfold ps [] List.nodup_nil

theorem mem_of_get? {d : Dict κ α} {k : κ} {v : α} (h : d.get? k = some v) : (k, v) ∈ d := by
  induction d with
  | nil => cases h
  | cons p d ih =>
    obtain ⟨k₀, v₀⟩ := p
    unfold get? at h
    split at h
    · next hk =>
      obtain rfl := Option.some.inj h
      exact hk ▸ List.mem_cons_self
    · exact List.mem_cons_of_mem _ (ih h)

theorem get?_of_mem {d : Dict κ α} (hnodup : d.keys.Nodup) {k : κ} {v : α} (h : (k, v) ∈ d) :
    d.get? k = some v := by
  induction d with
  | nil => cases h
  | cons p d ih =>
    obtain ⟨k₀, v₀⟩ := p
    rw [keys, List.map_cons, List.nodup_cons] at hnodup
    rcases List.mem_cons.mp h with heq | hrest
    · obtain ⟨rfl, rfl⟩ := Prod.mk.inj heq
      simp [get?]
    · have hne : k₀ ≠ k := by
        rintro rfl
        exact hnodup.1 (List.mem_map.mpr ⟨(k₀, v), hrest, rfl⟩)
      rw [get?, if_neg hne]
      exact ih hnodup.2 hrest

theorem get?_setDefault (d : Dict κ α) (k k' : κ) (v : α) :
    (d.setDefault k v).get? k' = if k = k' ∧ d.get? k = none then some v else d.get? k' := by
  unfold setDefault contains
  cases hk : d.get? k with
  | none => simp [get?_set]
  | some v' => simp

theorem mem_keys_iff (d : Dict κ α) (k : κ) : k ∈ d.keys ↔ (d.get? k).isSome := by
  induction d with
  | nil => simp [keys]
  | cons p d ih =>
    obtain ⟨k₀, v₀⟩ := p
    by_cases h : k₀ = k
    · simp [keys, get?, h]
    · have hne : k ≠ k₀ := fun e => h e.symm
      simpa [keys, get?, h, hne] using ih

theorem get?_foldl_set (ps : List (κ × α)) (d : Dict κ α) (k : κ) (v : α)
    (h : (ps.foldl (fun d p => d.set p.1 p.2) d).get? k = some v) :
    (k, v) ∈ ps ∨ d.get? k = some v := by
  induction ps generalizing d with
  | nil => exact .inr h
  | cons p ps ih =>
    rcases ih (d.set p.1 p.2) h with hmem | hset
    · exact .inl (List.mem_cons_of_mem p hmem)
    · rw [get?_set] at hset
      split at hset
      · rename_i hk
        cases hset
        exact .inl (hk ▸ List.mem_cons_self)
      · exact .inr hset

theorem mem_of_get?_ofPairs {ps : List (κ × α)} {k : κ} {v : α}
    (h : (ofPairs ps).get? k = some v) : (k, v) ∈ ps := by
  rcases get?_foldl_set ps [] k v h with hmem | hnil
  · exact hmem
  · simp at hnil

theorem isSome_get?_foldl_set (ps : List (κ × α)) (d : Dict κ α) (k : κ) :
    ((ps.foldl (fun d p => d.set p.1 p.2) d).get? k).isSome ↔
      k ∈ ps.map Prod.fst ∨ (d.get? k).isSome := by
  induction ps generalizing d with
  | nil => simp
  | cons p ps ih =>
    rw [List.foldl_cons, ih, get?_set, List.map_cons, List.mem_cons]
    by_cases hk : p.1 = k
    · simp [hk]
    · have hne : k ≠ p.1 := fun e => hk e.symm
      simp [hk, hne]

theorem isSome_get?_ofPairs (ps : List (κ × α)) (k : κ) :
    ((ofPairs ps).get? k).isSome ↔ k ∈ ps.map Prod.fst := by
  rw [ofPairs, isSome_get?_foldl_set]
  simp

theorem get?_ofPairs_of_mem {ps : List (κ × α)} {k : κ} {v : α} (hmem : (k, v) ∈ ps)
    (hnodup : (ps.map Prod.fst).Nodup) : (ofPairs ps).get? k = some v := by
  have hk : ((ofPairs ps).get? k).isSome :=
    (isSome_get?_ofPairs ps k).mpr (List.mem_map_of_mem (f := Prod.fst) hmem)
  obtain ⟨v', hv'⟩ := Option.isSome_iff_exists.mp hk
  have hmem' := mem_of_get?_ofPairs hv'
  have hinj := List.inj_on_of_nodup_map hnodup hmem hmem' rfl
  rw [hv', ← (Prod.mk.injEq _ _ _ _ ▸ hinj : k = k ∧ v = v').2]

theorem same_iff [DecidableEq α] (d e : Dict κ α) :
    d.same e = true ↔ ∀ k, d.get? k = e.get? k := by
  constructor
  · intro h k
    by_cases hk : k ∈ d.keys ++ e.keys
    · exact of_decide_eq_true (List.all_eq_true.mp h k hk)
    · rw [List.mem_append, not_or, mem_keys_iff, mem_keys_iff] at hk
      rw [Option.not_isSome_iff_eq_none.mp hk.1, Option.not_isSome_iff_eq_none.mp hk.2]
  · intro h
    apply List.all_eq_true.mpr
    intro k _
    exact decide_eq_true (h k)

end Dict
end ReviewSensei
