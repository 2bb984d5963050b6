import Mathlib.Data.List.Forall2

/-! Patterns over sequences in which some elements span any number of items. -/
namespace ReviewSensei.SegmentGlob

variable {α β : Type} {spans : β → Prop} {accepts : α → β → Prop}

/-- An item sequence, read element by element of a pattern. -/
inductive Matches (spans : β → Prop) (accepts : α → β → Prop) : List α → List β → Prop
  | nil : Matches spans accepts [] []
  | skip {p : β} {ps : List β} {w : List α} (star : spans p)
      (rest : Matches spans accepts w ps) : Matches spans accepts w (p :: ps)
  | absorb {p : β} {ps : List β} {a : α} {w : List α} (star : spans p)
      (rest : Matches spans accepts w (p :: ps)) : Matches spans accepts (a :: w) (p :: ps)
  | one {p : β} {ps : List β} {a : α} {w : List α} (plain : ¬ spans p) (item : accepts a p)
      (rest : Matches spans accepts w ps) : Matches spans accepts (a :: w) (p :: ps)

/-- What one element of a pattern may stand for. -/
def Covers (spans : β → Prop) (accepts : α → β → Prop) (p : β) (block : List α) : Prop :=
  spans p ∨ ∃ a, block = [a] ∧ accepts a p

/-- The sequence is cut into blocks, one for each element of the pattern. -/
def Cut (spans : β → Prop) (accepts : α → β → Prop) (w : List α) (ps : List β) : Prop :=
  ∃ blocks : List (List α), blocks.flatten = w ∧ List.Forall₂ (Covers spans accepts) ps blocks

theorem Matches.cut {w : List α} {ps : List β} (h : Matches spans accepts w ps) :
    Cut spans accepts w ps := by
  induction h with
  | nil => exact ⟨[], rfl, .nil⟩
  | skip star _ ih =>
    obtain ⟨blocks, hflat, hall⟩ := ih
    exact ⟨[] :: blocks, hflat, .cons (.inl star) hall⟩
  | @absorb p ps a w star _ ih =>
    obtain ⟨blocks, hflat, hall⟩ := ih
    cases hall with
    | @cons _ block _ others _ hothers =>
      refine ⟨(a :: block) :: others, ?_, .cons (.inl star) hothers⟩
      exact congrArg (a :: ·) hflat
  | @one p ps a w _ item _ ih =>
    obtain ⟨blocks, hflat, hall⟩ := ih
    exact ⟨[a] :: blocks, congrArg (a :: ·) hflat, .cons (.inr ⟨a, rfl, item⟩) hall⟩

/-- A spanning element takes any block. -/
theorem Matches.block {p : β} {ps : List β} {w : List α} (star : spans p)
    (h : Matches spans accepts w ps) (block : List α) :
    Matches spans accepts (block ++ w) (p :: ps) := by
  induction block with
  | nil => exact .skip star h
  | cons a block ih => exact .absorb star ih

theorem matches_iff_cut {w : List α} {ps : List β} :
    Matches spans accepts w ps ↔ Cut spans accepts w ps := by
  refine ⟨Matches.cut, ?_⟩
  rintro ⟨blocks, rfl, hall⟩
  induction hall with
  | nil => exact .nil
  | @cons p block ps blocks hcovers _ ih =>
    rw [List.flatten_cons]
    by_cases star : spans p
    · exact ih.block star block
    · obtain ⟨a, rfl, item⟩ := hcovers.resolve_left star
      exact .one star item ih

theorem Matches.append {u v : List α} {ps qs : List β} (hu : Matches spans accepts u ps)
    (hv : Matches spans accepts v qs) : Matches spans accepts (u ++ v) (ps ++ qs) := by
  induction hu with
  | nil => exact hv
  | skip star _ ih => exact .skip star ih
  | absorb star _ ih => exact .absorb star ih
  | one plain item _ ih => exact .one plain item ih

/-- A nonempty pattern element spans what follows. -/
theorem Matches.extend {u : List α} {ps : List β} {p : β} (star : spans p)
    (hu : Matches spans accepts u ps) (v : List α) :
    Matches spans accepts (u ++ v) (ps ++ [p]) := by
  have hrest : Matches spans accepts (v ++ []) [p] := Matches.nil.block star v
  rw [List.append_nil] at hrest
  exact hu.append hrest

/-- Where a match stands inside its sequence: a prefix of the pattern matches the prefix of the
sequence, and it ends in a spanning element or leaves a part of the pattern for the rest. -/
theorem Matches.front {u v : List α} {ps : List β} (h : Matches spans accepts (u ++ v) ps)
    (hv : v ≠ []) : ∃ qs rs, ps = qs ++ rs ∧ Matches spans accepts u qs ∧
      (rs ≠ [] ∨ ∃ p, qs.getLast? = some p ∧ spans p) := by
  generalize hw : u ++ v = w at h
  induction h generalizing u with
  | nil => exact absurd (List.append_eq_nil_iff.mp hw).2 hv
  | @skip p ps w star _ ih =>
    obtain ⟨qs, rs, rfl, hu, hend⟩ := ih hw
    refine ⟨p :: qs, rs, rfl, .skip star hu, hend.imp_right ?_⟩
    rintro ⟨q, hlast, hspans⟩
    exact ⟨q, by rw [List.getLast?_cons, hlast]; rfl, hspans⟩
  | @absorb p ps a w star hrest ih =>
    cases u with
    | nil => exact ⟨[], p :: ps, rfl, .nil, .inl (List.cons_ne_nil _ _)⟩
    | cons b u =>
      obtain ⟨rfl, htail⟩ := List.cons.inj hw
      obtain ⟨qs, rs, hps, hu, hend⟩ := ih htail
      cases qs with
      | nil =>
        -- the spanning element takes the item it stands before
        obtain rfl : p :: ps = rs := hps
        cases hu
        exact ⟨[p], ps, rfl, .absorb star (.skip star .nil), .inr ⟨p, rfl, star⟩⟩
      | cons q qs =>
        obtain ⟨rfl, rfl⟩ := List.cons.inj hps
        exact ⟨p :: qs, rs, rfl, .absorb star hu, hend⟩
  | @one p ps a w plain item _ ih =>
    cases u with
    | nil => exact ⟨[], p :: ps, rfl, .nil, .inl (List.cons_ne_nil _ _)⟩
    | cons b u =>
      obtain ⟨rfl, htail⟩ := List.cons.inj hw
      obtain ⟨qs, rs, rfl, hu, hend⟩ := ih htail
      refine ⟨p :: qs, rs, rfl, .one plain item hu, hend.imp_right ?_⟩
      rintro ⟨q, hlast, hspans⟩
      exact ⟨q, by rw [List.getLast?_cons, hlast]; rfl, hspans⟩

theorem Matches.ne_nil {a : α} {w : List α} {ps : List β}
    (h : Matches spans accepts (a :: w) ps) : ps ≠ [] := by
  rintro rfl
  cases h

end ReviewSensei.SegmentGlob
