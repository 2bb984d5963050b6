import Mathlib.Data.List.Perm.Subperm
import Mathlib.Data.List.Nodup
import Mathlib.Algebra.Order.Ring.Nat

/-! The comments of a pull request as the host keeps them while others create and edit them, and
the pages of a listing read in the meantime. -/
namespace ReviewSensei.CommentList

/-- A comment as it is at one moment; the version counts the edits behind it. -/
structure Comment where
  id : Nat
  body : String
  updatedAt : Nat
  version : Nat
  deriving DecidableEq

/-- The comments in the order of their ids, and the clock in whole seconds. -/
structure Host where
  comments : List Comment
  clock : Nat
  ascending : comments.Pairwise (fun c d => c.id < d.id)
  stamped : ∀ c ∈ comments, c.updatedAt ≤ clock

inductive Move
  | create (gap : Nat) (body : String)
  | edit (id : Nat) (body : String)
  | tick (seconds : Nat)

namespace Host
variable (h : Host)

def ids : List Nat := h.comments.map Comment.id

def lastId : Nat := h.ids.foldr max 0

theorem le_lastId {c : Comment} (hc : c ∈ h.comments) : c.id ≤ h.lastId := by
  have hfold : ∀ (ns : List Nat) (n : Nat), n ∈ ns → n ≤ ns.foldr max 0 := by
    intro ns
    induction ns with
    | nil => exact fun n hn => absurd hn (by simp)
    | cons first ns ih =>
      intro n hn
      rcases List.mem_cons.mp hn with rfl | hmem
      · exact le_max_left _ _
      · exact (ih n hmem).trans (le_max_right _ _)
  exact hfold h.ids c.id (List.mem_map_of_mem hc)

/-- A comment is created with a new id, above all others. -/
def create (gap : Nat) (body : String) : Host where
  comments := h.comments ++ [⟨h.lastId + 1 + gap, body, h.clock, 0⟩]
  clock := h.clock
  ascending := by
    refine List.pairwise_append.mpr ⟨h.ascending, List.pairwise_singleton _ _, ?_⟩
    intro c hc d hd
    obtain rfl := List.mem_singleton.mp hd
    have hle := h.le_lastId hc
    dsimp only
    omega
  stamped := by
    intro c hc
    rcases List.mem_append.mp hc with hold | hnew
    · exact h.stamped c hold
    · obtain rfl := List.mem_singleton.mp hnew
      exact Nat.le_refl _

/-- The comment after an edit of the one with this id. -/
def edited (id : Nat) (body : String) (c : Comment) : Comment :=
  if c.id = id then { c with body, updatedAt := h.clock, version := c.version + 1 } else c

theorem edited_id (id : Nat) (body : String) (c : Comment) : (h.edited id body c).id = c.id := by
  unfold edited
  split <;> rfl

def edit (id : Nat) (body : String) : Host where
  comments := h.comments.map (h.edited id body)
  clock := h.clock
  ascending := by
    rw [List.pairwise_map]
    refine h.ascending.imp fun hlt => ?_
    rw [edited_id, edited_id]
    exact hlt
  stamped := by
    intro c hc
    obtain ⟨d, hd, rfl⟩ := List.mem_map.mp hc
    unfold edited
    split
    · exact Nat.le_refl _
    · exact h.stamped d hd

def tick (seconds : Nat) : Host where
  comments := h.comments
  clock := h.clock + seconds
  ascending := h.ascending
  stamped c hc := (h.stamped c hc).trans (Nat.le_add_right _ _)

def move : Move → Host
  | .create gap body => h.create gap body
  | .edit id body => h.edit id body
  | .tick seconds => h.tick seconds

def moves (ms : List Move) : Host := ms.foldl Host.move h

/-- What a listing holds: everything, or what was updated at or after a moment. -/
def listing (since : Option Nat) : List Comment :=
  h.comments.filter (fun c => since.all (fun moment => decide (moment ≤ c.updatedAt)))

/-- One page of a listing. -/
def page (since : Option Nat) (offset size : Nat) : List Comment :=
  ((h.listing since).drop offset).take size

end Host

/-- The host at a later moment: ids stay in place, and what is new or has changed carries a stamp
of its own. -/
structure Later (h h' : Host) : Prop where
  ids : h.ids <+: h'.ids
  clock : h.clock ≤ h'.clock
  stamped : ∀ c' ∈ h'.comments, c' ∈ h.comments ∨ h.clock ≤ c'.updatedAt
  grows : ∀ c ∈ h.comments, ∀ c' ∈ h'.comments, c'.id = c.id →
    c' = c ∨ (c.version < c'.version ∧ c.updatedAt ≤ c'.updatedAt)

section Ids
variable {h : Host} {c d : Comment}

theorem ids_ascending (h : Host) : h.ids.Pairwise (· < ·) := List.pairwise_map.mpr h.ascending

theorem ids_nodup (h : Host) : h.ids.Nodup := (ids_ascending h).imp Nat.ne_of_lt

/-- On one host an id names one comment. -/
theorem same_comment (hc : c ∈ h.comments) (hd : d ∈ h.comments) (hid : c.id = d.id) : c = d :=
  List.inj_on_of_nodup_map (ids_nodup h) hc hd hid

theorem mem_listing {since : Option Nat} :
    c ∈ h.listing since ↔ c ∈ h.comments ∧ ∀ moment ∈ since, moment ≤ c.updatedAt := by
  unfold Host.listing
  rw [List.mem_filter]
  cases since with
  | none => simp
  | some moment => simp

end Ids

namespace Later
variable {h h' k : Host}

theorem refl (h : Host) : Later h h where
  ids := List.prefix_refl _
  clock := Nat.le_refl _
  stamped _ hc := .inl hc
  grows _ hc _ hc' hid := .inl (same_comment hc' hc hid)

theorem kept (hl : Later h h') {c : Comment} (hc : c ∈ h.comments) :
    ∃ c' ∈ h'.comments, c'.id = c.id := by
  have hmem : c.id ∈ h'.ids := hl.ids.subset (List.mem_map_of_mem hc)
  exact List.mem_map.mp hmem

theorem trans (hl : Later h h') (hk : Later h' k) : Later h k where
  ids := hl.ids.trans hk.ids
  clock := hl.clock.trans hk.clock
  stamped c hc := by
    rcases hk.stamped c hc with hmem | hlate
    · exact hl.stamped c hmem
    · exact .inr (hl.clock.trans hlate)
  grows c hc e he hid := by
    obtain ⟨d, hd, hdid⟩ := hl.kept hc
    rcases hk.grows d hd e he (hid.trans hdid.symm) with rfl | ⟨hversion, hstamp⟩
    · exact hl.grows c hc e hd hid
    · rcases hl.grows c hc d hd hdid with rfl | ⟨hversion', hstamp'⟩
      · exact .inr ⟨hversion, hstamp⟩
      · exact .inr ⟨hversion'.trans hversion, hstamp'.trans hstamp⟩

theorem create (h : Host) (gap : Nat) (body : String) : Later h (h.create gap body) where
  ids := by
    unfold Host.ids Host.create
    rw [List.map_append]
    exact List.prefix_append _ _
  clock := Nat.le_refl _
  stamped c hc := by
    rcases List.mem_append.mp hc with hold | hnew
    · exact .inl hold
    · obtain rfl := List.mem_singleton.mp hnew
      exact .inr (Nat.le_refl _)
  grows c hc d hd hid := by
    have hc' : c ∈ (h.create gap body).comments := List.mem_append_left _ hc
    exact .inl (same_comment hd hc' hid)

theorem edit (h : Host) (id : Nat) (body : String) : Later h (h.edit id body) where
  ids := by
    have hids : (h.edit id body).ids = h.ids := by
      unfold Host.ids Host.edit
      rw [List.map_map]
      exact List.map_congr_left fun c _ => h.edited_id id body c
    exact hids.symm ▸ List.prefix_refl _
  clock := Nat.le_refl _
  stamped c hc := by
    obtain ⟨d, hd, rfl⟩ := List.mem_map.mp hc
    unfold Host.edited
    split
    · exact .inr (Nat.le_refl _)
    · exact .inl hd
  grows c hc d hd hid := by
    obtain ⟨e, he, rfl⟩ := List.mem_map.mp hd
    rw [Host.edited_id] at hid
    obtain rfl := same_comment he hc hid
    unfold Host.edited
    split
    · exact .inr ⟨Nat.lt_succ_self _, h.stamped e he⟩
    · exact .inl rfl

theorem tick (h : Host) (seconds : Nat) : Later h (h.tick seconds) where
  ids := List.prefix_refl _
  clock := Nat.le_add_right _ _
  stamped _ hc := .inl hc
  grows _ hc _ hc' hid := .inl (same_comment hc' (h := h) hc hid)

theorem moves (h : Host) (ms : List Move) : Later h (h.moves ms) := by
  induction ms generalizing h with
  | nil => exact refl h
  | cons m ms ih =>
    have hstep : Later h (h.move m) := by
      cases m with
      | create gap body => exact create h gap body
      | edit id body => exact edit h id body
      | tick seconds => exact tick h seconds
    exact hstep.trans (ih (h.move m))

/-- A comment that is the same later on was not changed in between. -/
theorem unchanged (hl : Later h h') (hk : Later h' k) {c d : Comment} (hc : c ∈ h.comments)
    (hck : c ∈ k.comments) (hd : d ∈ h'.comments) (hid : d.id = c.id) : d = c := by
  rcases hl.grows c hc d hd hid with rfl | ⟨hversion, _⟩
  · rfl
  · rcases hk.grows d hd c hck hid.symm with rfl | ⟨hversion', _⟩
    · rfl
    · omega

end Later

section Positions
variable {h h' : Host} {since : Option Nat} {c : Comment}

/-- How many rows of the listing come before an id. -/
def Host.position (h : Host) (since : Option Nat) (id : Nat) : Nat :=
  ((h.listing since).map Comment.id).countP (· < id)

theorem listing_ascending (h : Host) (since : Option Nat) :
    ((h.listing since).map Comment.id).Pairwise (· < ·) :=
  List.pairwise_map.mpr (h.ascending.sublist List.filter_sublist)

theorem getElem?_position {ids : List Nat} (hasc : ids.Pairwise (· < ·)) {id : Nat}
    (hmem : id ∈ ids) : ids[ids.countP (· < id)]? = some id := by
  induction ids with
  | nil => cases hmem
  | cons first ids ih =>
    obtain ⟨hfirst, hids⟩ := List.pairwise_cons.mp hasc
    rw [List.countP_cons]
    rcases List.mem_cons.mp hmem with rfl | htail
    · have hnone : ids.countP (· < id) = 0 := by
        rw [List.countP_eq_zero]
        intro other hother
        have hlt := hfirst other hother
        simp only [decide_eq_true_eq]
        omega
      rw [hnone]
      simp
    · have hlt : first < id := hfirst id htail
      rw [if_pos (decide_eq_true hlt), List.getElem?_cons_succ]
      exact ih hids htail

theorem position_lt (hc : c ∈ h.listing since) :
    h.position since c.id < (h.listing since).length := by
  have hget := getElem?_position (listing_ascending h since) (List.mem_map_of_mem hc)
  have hlt := (List.getElem?_eq_some_iff.mp hget).1
  rwa [List.length_map] at hlt

/-- A row of the listing is on the page its position falls on. -/
theorem mem_page {offset size : Nat} (hc : c ∈ h.listing since)
    (hlow : offset ≤ h.position since c.id) (hhigh : h.position since c.id < offset + size) :
    c ∈ h.page since offset size := by
  have hget := getElem?_position (listing_ascending h since) (List.mem_map_of_mem hc)
  rw [List.getElem?_map, Option.map_eq_some_iff] at hget
  obtain ⟨d, hd, hid⟩ := hget
  have hdl : d ∈ h.listing since := List.mem_of_getElem? hd
  obtain rfl := same_comment (mem_listing.mp hdl).1 (mem_listing.mp hc).1 hid
  refine List.mem_iff_getElem?.mpr ⟨h.position since d.id - offset, ?_⟩
  unfold Host.page
  rw [List.getElem?_take_of_lt (by omega), List.getElem?_drop, Nat.add_sub_cancel' hlow]
  exact hd

theorem listing_later (hl : Later h h') (hc : c ∈ h.listing since) :
    ∃ c' ∈ h'.listing since, c'.id = c.id := by
  obtain ⟨hmem, hsince⟩ := mem_listing.mp hc
  obtain ⟨c', hc', hid⟩ := hl.kept hmem
  refine ⟨c', mem_listing.mpr ⟨hc', fun moment hmoment => ?_⟩, hid⟩
  rcases hl.grows c hmem c' hc' hid with rfl | ⟨_, hstamp⟩
  · exact hsince moment hmoment
  · exact (hsince moment hmoment).trans hstamp

/-- Rows enter a listing but never leave it, so positions only move back. -/
theorem position_mono (hl : Later h h') (id : Nat) :
    h.position since id ≤ h'.position since id := by
  have hsubset : (h.listing since).map Comment.id ⊆ (h'.listing since).map Comment.id := by
    intro n hn
    obtain ⟨c, hc, rfl⟩ := List.mem_map.mp hn
    obtain ⟨c', hc', hid⟩ := listing_later hl hc
    exact List.mem_map.mpr ⟨c', hc', hid⟩
  have hnodup : ((h.listing since).map Comment.id).Nodup :=
    (listing_ascending h since).imp Nat.ne_of_lt
  exact (hnodup.subperm hsubset).countP_le _

end Positions

end ReviewSensei.CommentList
