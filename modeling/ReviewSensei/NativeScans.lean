import ReviewSensei.NativeCapacity

/-! The scans of a surface need no more requests when there is less to scan. -/
namespace ReviewSensei.NativeCapacity
open Packed

section Walk
variable {sizes : List Nat} {count count' largest largest' : Nat}

/-- A walk that has not ended makes another request. -/
theorem restWalk_lt (sizes : List Nat) (count largest : Nat) :
    ∀ fuel offset index calls, fuel + calls ≤ maxPaginationPages + 1 →
      calls + min fuel 1 ≤ restWalk sizes count largest fuel offset index calls := by
  intro fuel
  induction fuel with
  | zero => exact fun _ _ _ _ => Nat.le_refl _
  | succ fuel ih =>
    intro offset index calls hfuel
    have hstep : ∀ o i, calls + 1 ≤ restWalk sizes count largest fuel o i (calls + 1) := by
      intro o i
      have := ih o i (calls + 1) (by omega)
      omega
    unfold restWalk
    dsimp only
    split
    · split
      · omega
      · have := hstep offset ‹Nat›
        omega
    split
    · omega
    · have := hstep (offset + min (sizes.getD index 1) (count - offset))
        ((alignedFrom sizes (offset + min (sizes.getD index 1) (count - offset)) 0).getD 0)
      omega

/-- Fewer items take the same way and end no later. -/
theorem restWalk_mono (hcount : count' ≤ count) :
    ∀ fuel offset index calls, fuel + calls ≤ maxPaginationPages + 1 →
      restWalk sizes count' largest fuel offset index calls ≤
        restWalk sizes count largest fuel offset index calls := by
  intro fuel
  induction fuel with
  | zero => exact fun _ _ _ _ => Nat.le_refl _
  | succ fuel ih =>
    intro offset index calls hfuel
    have hlater := restWalk_lt sizes count largest (fuel + 1) offset index calls hfuel
    have hmin : min (fuel + 1) 1 = 1 := by omega
    rw [hmin] at hlater
    let size := sizes.getD index 1
    let amount := min size (count - offset)
    let amount' := min size (count' - offset)
    have hamount : amount' ≤ amount := by
      have hsub : count' - offset ≤ count - offset := by omega
      exact min_le_min_left _ hsub
    have hlt : amount' < size → ¬pageBytes < amount' * largest →
        restWalk sizes count' largest (fuel + 1) offset index calls = calls + 1 := by
      intro hsmall hfits
      unfold restWalk
      dsimp only
      rw [if_neg hfits, if_pos hsmall]
    by_cases hfits' : pageBytes < amount' * largest
    · -- the page fails for both
      have hfits : pageBytes < amount * largest :=
        Nat.lt_of_lt_of_le hfits' (Nat.mul_le_mul_right _ hamount)
      unfold restWalk
      dsimp only
      rw [if_pos hfits', if_pos hfits]
      split
      · exact Nat.le_refl _
      · exact ih _ _ _ (by omega)
    by_cases hsame : amount' = amount
    · by_cases hshort : amount' < size
      · rw [hlt hshort hfits']
        exact hlater
      · have hfits : ¬pageBytes < amount * largest := hsame ▸ hfits'
        have hfull : ¬amount < size := hsame ▸ hshort
        unfold restWalk
        dsimp only
        rw [if_neg hfits', if_neg hfits, if_neg hshort, if_neg hfull]
        change restWalk sizes count' largest fuel (offset + amount') _ _ ≤
          restWalk sizes count largest fuel (offset + amount) _ _
        change restWalk sizes count' largest fuel (offset + amount')
            ((alignedFrom sizes (offset + amount') 0).getD 0) _ ≤
          restWalk sizes count largest fuel (offset + amount)
            ((alignedFrom sizes (offset + amount) 0).getD 0) _
        rw [hsame]
        exact ih _ _ _ (by omega)
    · have hsize : amount ≤ size := min_le_left _ _
      rw [hlt (by omega) hfits']
      exact hlater

/-- A walk sees of the largest item only which pages it makes too big. -/
theorem restWalk_congr (hsizes : ∀ index, sizes.getD index 1 ≤ 100)
    (h : ∀ amount, amount ≤ 100 →
      (pageBytes < amount * largest' ↔ pageBytes < amount * largest)) :
    ∀ fuel offset index calls, restWalk sizes count largest' fuel offset index calls =
      restWalk sizes count largest fuel offset index calls := by
  intro fuel
  induction fuel with
  | zero => exact fun _ _ _ => rfl
  | succ fuel ih =>
    intro offset index calls
    have hamount : min (sizes.getD index 1) (count - offset) ≤ 100 :=
      (min_le_left _ _).trans (hsizes index)
    unfold restWalk
    dsimp only
    by_cases hfits : pageBytes < min (sizes.getD index 1) (count - offset) * largest
    · rw [if_pos hfits, if_pos ((h _ hamount).mpr hfits)]
      split
      · rfl
      · exact ih _ _ _
    · rw [if_neg hfits, if_neg (fun hbad => hfits ((h _ hamount).mp hbad))]
      split
      · rfl
      · exact ih _ _ _

end Walk

/-- How many of the largest items one page of at most a hundred holds. -/
def perPage (largest : Nat) : Nat :=
  if largest = 0 then 100 else min 100 (pageBytes / largest)

theorem perPage_iff {largest amount : Nat} (h : amount ≤ 100) :
    pageBytes < amount * largest ↔ perPage largest < amount := by
  unfold perPage
  split
  · rename_i hzero
    rw [hzero]
    omega
  · rename_i hpos
    have hdiv := Nat.div_lt_iff_lt_mul (x := pageBytes) (y := amount) (Nat.pos_of_ne_zero hpos)
    omega

theorem perPage_anti {largest largest' : Nat} (h : largest' ≤ largest) :
    perPage largest ≤ perPage largest' := by
  unfold perPage
  by_cases hzero' : largest' = 0
  · rw [if_pos hzero']
    split <;> omega
  · have hzero : largest ≠ 0 := by omega
    have hdiv : pageBytes / largest ≤ pageBytes / largest' :=
      Nat.div_le_div_left h (Nat.pos_of_ne_zero hzero')
    rw [if_neg hzero, if_neg hzero']
    omega

/-- An item of which a page holds just so many. -/
def itemFor (perPage : Nat) : Nat := if perPage = 0 then pageBytes + 1 else pageBytes / perPage

/-- The longest listing that ten requests finish, by how many items a page holds. -/
def reach (k : Nat) : Nat :=
  if k = 0 then 0 else if k < 5 then 4 else if k < 10 then 20 + k else if k < 25 then 50 + k
  else if k < 50 then 100 + k else if k < 100 then 300 + k else 999

theorem reach_table : ∀ k < 101, perPage (itemFor k) = k ∧
    coldRestRequests (reach k) (itemFor k) historyPageSizes ≤ maxPaginationPages ∧
    maxPaginationPages < coldRestRequests (reach k + 1) (itemFor k) historyPageSizes := by
  decide

theorem reach_mono {j k : Nat} (h : j ≤ k) : reach j ≤ reach k := by
  unfold reach
  split_ifs <;> omega

theorem coldRest_mono {count count' largest : Nat} (sizes : List Nat) (h : count' ≤ count) :
    coldRestRequests count' largest sizes ≤ coldRestRequests count largest sizes :=
  restWalk_mono h _ _ _ _ (Nat.le_refl _)

theorem coldRest_perPage (count largest : Nat) :
    coldRestRequests count largest historyPageSizes =
      coldRestRequests count (itemFor (perPage largest)) historyPageSizes := by
  have hk : perPage largest < 101 := by
    unfold perPage
    split <;> omega
  apply restWalk_congr
  · intro index
    match index with
    | 0 | 1 | 2 | 3 | 4 | 5 => decide
    | n + 6 => exact (by decide : 1 ≤ 100)
  · intro amount hamount
    rw [perPage_iff hamount, perPage_iff hamount, (reach_table _ hk).1]

theorem coldRest_iff (count largest : Nat) :
    coldRestRequests count largest historyPageSizes ≤ maxPaginationPages ↔
      count ≤ reach (perPage largest) := by
  have hk : perPage largest < 101 := by
    unfold perPage
    split <;> omega
  obtain ⟨_, hreach, hbeyond⟩ := reach_table _ hk
  rw [coldRest_perPage]
  constructor
  · intro h
    by_contra hfar
    have hlonger : reach (perPage largest) + 1 ≤ count := by omega
    have hmono : coldRestRequests (reach (perPage largest) + 1) (itemFor (perPage largest))
        historyPageSizes ≤ coldRestRequests count (itemFor (perPage largest)) historyPageSizes :=
      coldRest_mono historyPageSizes hlonger
    omega
  · intro h
    exact (coldRest_mono historyPageSizes h).trans hreach

/-- Less to scan stays within ten requests. -/
theorem coldRest_smaller {count count' largest largest' : Nat} (hcount : count' ≤ count)
    (hlargest : largest' ≤ largest)
    (h : coldRestRequests count largest historyPageSizes ≤ maxPaginationPages) :
    coldRestRequests count' largest' historyPageSizes ≤ maxPaginationPages := by
  rw [coldRest_iff] at h ⊢
  exact (hcount.trans h).trans (reach_mono (perPage_anti hlargest))

/-- The pages of a size, rounded up. -/
theorem ceil_le_iff {size room c : Nat} (hroom : 0 < room) :
    (size + room - 1) / room ≤ c ↔ size ≤ c * room := by
  rw [← Nat.lt_succ_iff, Nat.div_lt_iff_lt_mul hroom, Nat.succ_mul]
  omega

theorem ceil_mono {size size' room room' : Nat} (hroom : 0 < room) (hle : room ≤ room')
    (hsize : size' ≤ size) : (size' + room' - 1) / room' ≤ (size + room - 1) / room := by
  rw [ceil_le_iff (Nat.lt_of_lt_of_le hroom hle)]
  have hself := (ceil_le_iff hroom).mp (Nat.le_refl ((size + room - 1) / room))
  calc
    size' ≤ size := hsize
    _ ≤ (size + room - 1) / room * room := hself
    _ ≤ (size + room - 1) / room * room' := Nat.mul_le_mul_left _ hle

theorem coldCursor_smaller {count count' size size' largest largest' : Nat}
    (hcount : count' ≤ count) (hsize : size' ≤ size) (hlargest : largest' ≤ largest)
    (h : coldCursorRequests count size largest ≤ maxPaginationPages) :
    coldCursorRequests count' size' largest' ≤ maxPaginationPages := by
  have hten : maxPaginationPages = 10 := rfl
  unfold coldCursorRequests at h ⊢
  by_cases hone' : count' = 0 ∨ (count' ≤ 100 ∧ size' ≤ pageBytes)
  · rw [if_pos hone']
    omega
  have hone : ¬(count = 0 ∨ (count ≤ 100 ∧ size ≤ pageBytes)) := by omega
  rw [if_neg hone] at h
  rw [if_neg hone']
  by_cases hbig : pageBytes < largest
  · rw [if_pos hbig] at h
    omega
  rw [if_neg hbig] at h
  rw [if_neg (by omega)]
  by_cases hsmall : 100 * largest ≤ pageBytes
  · rw [if_pos hsmall] at h
    rw [if_pos (by omega)]
    omega
  rw [if_neg hsmall] at h
  dsimp only at h ⊢
  have hpos : 0 < max 1 (pageBytes - largest) := by omega
  by_cases hsmall' : 100 * largest' ≤ pageBytes
  · rw [if_pos hsmall']
    have hpage : size = 0 ∨
        1 ≤ (size + max 1 (pageBytes - largest) - 1) / max 1 (pageBytes - largest) := by
      by_cases hzero : size = 0
      · exact .inl hzero
      · refine .inr ?_
        rw [Nat.le_div_iff_mul_le hpos]
        omega
    generalize (size + max 1 (pageBytes - largest) - 1) / max 1 (pageBytes - largest) = pages
      at h hpage
    omega
  · rw [if_neg hsmall']
    have hroom : max 1 (pageBytes - largest) ≤ max 1 (pageBytes - largest') := by omega
    have hceil := ceil_mono hpos hroom hsize
    omega

end ReviewSensei.NativeCapacity
