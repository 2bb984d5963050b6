import Mathlib.Data.List.Count
import Mathlib.Data.List.Sort
import Mathlib.Order.Basic

/-! Choosing along an order under a cap: some items are free, the others take one place each. -/
namespace ReviewSensei.CappedChoice

variable {α : Type} (costs : α → Bool)

/-- The items chosen with `room` places left. -/
def choose : Nat → List α → List α
  | _, [] => []
  | room, a :: rest =>
    if costs a then
      match room with
      | 0 => choose 0 rest
      | room + 1 => a :: choose room rest
    else a :: choose room rest

section Steps
variable {costs} {room : Nat} {a : α} {rest : List α}

@[simp] theorem choose_nil : choose costs room [] = [] := by
  cases room <;> rfl

@[simp] theorem choose_free (h : costs a = false) :
    choose costs room (a :: rest) = a :: choose costs room rest := by
  have hfree : ¬costs a = true := by rw [h]; exact Bool.false_ne_true
  cases room with
  | zero => exact if_neg hfree
  | succ room => exact if_neg hfree

@[simp] theorem choose_full (h : costs a = true) :
    choose costs 0 (a :: rest) = choose costs 0 rest := if_pos h

@[simp] theorem choose_place (h : costs a = true) :
    choose costs (room + 1) (a :: rest) = a :: choose costs room rest := if_pos h

end Steps

section Laws
variable {costs} {room : Nat} {items : List α} {a : α}

theorem choose_sublist : (choose costs room items).Sublist items := by
  induction items generalizing room with
  | nil => simp
  | cons x rest ih =>
    cases hx : costs x with
    | false =>
      rw [choose_free hx]
      exact ih.cons_cons x
    | true =>
      cases room with
      | zero =>
        rw [choose_full hx]
        exact ih.cons x
      | succ room =>
        rw [choose_place hx]
        exact ih.cons_cons x

/-- No more places are taken than there are. -/
theorem choose_count : (choose costs room items).countP costs ≤ room := by
  induction items generalizing room with
  | nil => simp
  | cons x rest ih =>
    cases hx : costs x with
    | false =>
      rw [choose_free hx, List.countP_cons_of_neg (by rw [hx]; decide)]
      exact ih
    | true =>
      cases room with
      | zero =>
        rw [choose_full hx]
        exact ih
      | succ room =>
        rw [choose_place hx, List.countP_cons_of_pos hx]
        exact Nat.succ_le_succ ih

/-- A free item is always chosen. -/
theorem mem_choose_of_free (ha : a ∈ items) (hfree : costs a = false) :
    a ∈ choose costs room items := by
  induction items generalizing room with
  | nil => cases ha
  | cons x rest ih =>
    cases hx : costs x with
    | false =>
      rw [choose_free hx]
      rcases List.mem_cons.mp ha with rfl | ha
      · exact List.mem_cons_self
      · exact List.mem_cons_of_mem _ (ih ha)
    | true =>
      have ha : a ∈ rest := by
        rcases List.mem_cons.mp ha with rfl | ha
        · exact absurd (hx.symm.trans hfree) (by decide)
        · exact ha
      cases room with
      | zero =>
        rw [choose_full hx]
        exact ih ha
      | succ room =>
        rw [choose_place hx]
        exact List.mem_cons_of_mem _ (ih ha)

/-- Where an item is left out, every place is taken, and only by items before it. -/
theorem left_out {r : α → α → Prop} (horder : items.Pairwise r) (ha : a ∈ items)
    (hout : a ∉ choose costs room items) :
    (choose costs room items).countP costs = room ∧
      ∀ b ∈ choose costs room items, costs b = true → r b a := by
  induction items generalizing room with
  | nil => cases ha
  | cons x rest ih =>
    obtain ⟨hfirst, horder⟩ := List.pairwise_cons.mp horder
    cases hx : costs x with
    | false =>
      rw [choose_free hx] at hout ⊢
      rw [List.mem_cons, not_or] at hout
      have ha : a ∈ rest := List.mem_of_ne_of_mem hout.1 ha
      obtain ⟨hcount, hbefore⟩ := ih horder ha hout.2
      refine ⟨?_, fun b hb hcost => ?_⟩
      · rw [List.countP_cons_of_neg (by rw [hx]; decide), hcount]
      · rcases List.mem_cons.mp hb with rfl | hb
        · exact absurd (hcost.symm.trans hx) (by decide)
        · exact hbefore b hb hcost
    | true =>
      cases room with
      | zero =>
        -- nothing after a full list takes a place
        have hnone : (choose costs 0 (x :: rest)).countP costs = 0 :=
          Nat.le_zero.mp choose_count
        refine ⟨hnone, fun b hb hcost => ?_⟩
        exact absurd hcost (List.countP_eq_zero.mp hnone b hb)
      | succ room =>
        rw [choose_place hx] at hout ⊢
        rw [List.mem_cons, not_or] at hout
        have hrest : a ∈ rest := List.mem_of_ne_of_mem hout.1 ha
        obtain ⟨hcount, hbefore⟩ := ih horder hrest hout.2
        refine ⟨?_, fun b hb hcost => ?_⟩
        · rw [List.countP_cons_of_pos hx, hcount]
        · rcases List.mem_cons.mp hb with rfl | hb
          · exact hfirst a hrest
          · exact hbefore b hb hcost

end Laws
end ReviewSensei.CappedChoice
