import ReviewSensei.PlanPacking
import Mathlib.Data.List.Forall2
import Mathlib.Data.List.Induction

/-! What packing a change into chunks conserves: the pieces of every record against the greedy
groups that a ceiling on the chunks cuts off. -/
namespace ReviewSensei.Planning
open Diff Coverage

/-- Greedy groups of pieces under the limits of one request; the last group is still open. -/
structure Grouping where
  closed : List (List DiffFileRecord) := []
  current : List DiffFileRecord := []

namespace Grouping
variable (limits : ReviewLimits)

def add (g : Grouping) (piece : DiffFileRecord) : Grouping :=
  if g.current ≠ [] ∧ fits limits g.current piece = false then
    ⟨g.closed ++ [g.current], [piece]⟩
  else ⟨g.closed, g.current ++ [piece]⟩

def count (g : Grouping) : Nat := g.closed.length + (if g.current = [] then 0 else 1)

theorem count_add (g : Grouping) (piece : DiffFileRecord) :
    (g.add limits piece).count = (g.add limits piece).closed.length + 1 := by
  have hne : (g.add limits piece).current ≠ [] := by
    unfold add
    split
    · exact List.cons_ne_nil _ _
    · exact List.append_ne_nil_of_right_ne_nil _ (List.cons_ne_nil _ _)
  rw [count, if_neg hne]

theorem count_le_add (g : Grouping) (piece : DiffFileRecord) :
    g.count ≤ (g.add limits piece).count := by
  rw [count_add, count]
  have hopen : (if g.current = [] then 0 else 1) ≤ 1 := by split <;> omega
  have hclosed : g.closed.length ≤ (g.add limits piece).closed.length := by
    unfold add
    split
    · rw [List.length_append]
      exact Nat.le_add_right _ _
    · exact Nat.le_refl _
  omega

theorem count_le_foldl (g : Grouping) (pieces : List DiffFileRecord) :
    g.count ≤ (pieces.foldl (add limits) g).count := by
  induction pieces generalizing g with
  | nil => exact Nat.le_refl _
  | cons piece rest ih => exact Nat.le_trans (count_le_add limits g piece) (ih _)

end Grouping

/-- How many chunks greedy packing takes for these pieces. -/
def chunksNeeded (limits : ReviewLimits) (pieces : List DiffFileRecord) : Nat :=
  (pieces.foldl (Grouping.add limits) {}).count

/-- The pieces of the records that can be packed at all. -/
def packable (limits : ReviewLimits) (records : List DiffFileRecord) : List DiffFileRecord :=
  records.flatMap (fun r => (piecesOf limits r).getD [])

/-- The first piece that the chunks have no room for is followed by another piece of its record. -/
def BrokenOff (limits : ReviewLimits) (maxChunks : Nat) (records : List DiffFileRecord) : Prop :=
  ∃ before r after first p q last, records = before ++ r :: after ∧
    piecesOf limits r = some (first ++ p :: q :: last) ∧
    chunksNeeded limits (packable limits before ++ first) ≤ maxChunks ∧
    maxChunks < chunksNeeded limits (packable limits before ++ first ++ [p])

/-- A record as it is accounted for: whole, or hunk by hunk where it fits no request. -/
inductive Cut (limits : ReviewLimits) (r : DiffFileRecord) : List DiffFileRecord → Prop
  | whole : Cut limits r [r]
  | hunks (hne : r.hunks ≠ []) (hlarge : fits limits [] r = false) :
    Cut limits r (r.hunks.map (hunkRecord r))

def chunksOf (changed : List Path) (groups : List (List DiffFileRecord)) : List ReviewChunk :=
  groups.zipIdx.map (fun g => chunkFromRecords (g.2 + 1) g.1 changed)

/-- A chunk is a request of its own. -/
structure WithinLimits (limits : ReviewLimits) (c : ReviewChunk) : Prop where
  bytes : utf8Size c.diff ≤ limits.maxDiffBytes
  lines : c.diff.count '\n' ≤ limits.maxDiffLines
  files : c.paths.length ≤ limits.maxDiffFiles
  hunks : c.hunkIndexes.length ≤ limits.maxDiffHunks

/-- Nothing is lost and nothing repeated: every hunk is in one chunk or one overflowing record,
every record's pieces are each in one of the two, and both keep the order of the input. -/
structure Conserves (limits : ReviewLimits) (maxChunks : Nat) (changed : List Path)
    (records : List DiffFileRecord) (k : Packing) : Prop where
  hunks : (k.packed ++ k.spilled).Perm (records.flatMap DiffFileRecord.hunkIndexes)
  pieces : ∃ cuts groups, List.Forall₂ (Cut limits) records cuts ∧
    k.chunks = chunksOf changed groups ∧
    (groups.flatten ++ k.overflow).Perm cuts.flatten ∧
    groups.flatten.Sublist cuts.flatten ∧ k.overflow.Sublist cuts.flatten
  within : ∀ c ∈ k.chunks, WithinLimits limits c
  count : k.chunks.length ≤ maxChunks

section
variable {limits : ReviewLimits} {maxChunks : Nat} {changed : List Path}

theorem chunksOf_append (groups : List (List DiffFileRecord)) (g : List DiffFileRecord) :
    chunksOf changed (groups ++ [g]) =
      chunksOf changed groups ++ [chunkFromRecords (groups.length + 1) g changed] := by
  simp [chunksOf, List.zipIdx_append]

@[simp] theorem chunksOf_length (groups : List (List DiffFileRecord)) :
    (chunksOf changed groups).length = groups.length := by
  simp [chunksOf]

theorem chunksOf_hunkIndexes (groups : List (List DiffFileRecord)) :
    (chunksOf changed groups).flatMap ReviewChunk.hunkIndexes =
      groups.flatten.flatMap DiffFileRecord.hunkIndexes := by
  induction groups using List.reverseRecOn with
  | nil => rfl
  | append_singleton groups g ih =>
    rw [chunksOf_append, List.flatMap_append, ih, List.flatten_append, List.flatMap_append]
    simp [chunkFromRecords]

/-- The loop between two pieces, before the chunks are used up, beside the greedy groups. -/
structure Matches (maxChunks : Nat) (changed : List Path) (g : Grouping) (k : Packing) : Prop where
  chunks : k.chunks = chunksOf changed g.closed
  current : k.current = g.current
  open_ : k.exhausted = false
  count : g.count ≤ maxChunks

theorem Matches.room {g : Grouping} {k : Packing} (h : Matches maxChunks changed g k) :
    HasRoom maxChunks k := by
  intro hne
  have hcount := h.count
  rw [h.current] at hne
  rw [Grouping.count, if_neg hne] at hcount
  rw [h.chunks, chunksOf_length]
  omega

/-- Room is made in the loop as the greedy groups are closed. -/
theorem Matches.makeRoom {g : Grouping} {k : Packing} (h : Matches maxChunks changed g k)
    (piece : DiffFileRecord) :
    makeRoom limits maxChunks changed k piece = { k with
      chunks := chunksOf changed (g.add limits piece).closed
      current := if (g.add limits piece).closed = g.closed then g.current else [] } ∧
    (g.add limits piece).current =
      (if (g.add limits piece).closed = g.closed then g.current else []) ++ [piece] := by
  unfold Planning.makeRoom Grouping.add
  rw [h.current]
  by_cases hclose : g.current ≠ [] ∧ fits limits g.current piece = false
  · have hheld : k.current ≠ [] := h.current ▸ hclose.1
    have hne : g.closed ++ [g.current] ≠ g.closed := by simp
    rw [if_pos hclose, if_pos hclose, if_neg hne, chunksOf_append]
    unfold flush
    rw [if_neg hheld, if_neg (Nat.not_le.mpr (h.room hheld)), h.chunks, chunksOf_length, h.current]
    exact ⟨rfl, rfl⟩
  · rw [if_neg hclose, if_neg hclose, if_pos rfl, ← h.chunks, ← h.current]
    exact ⟨rfl, rfl⟩

/-- A piece that finds a chunk joins the greedy groups. -/
theorem Matches.piece {g : Grouping} {k : Packing} (h : Matches maxChunks changed g k)
    {piece : DiffFileRecord} (rest : List DiffFileRecord)
    (hroom : (g.add limits piece).count ≤ maxChunks) :
    ∃ k', packPieces limits maxChunks changed (piece :: rest) k =
        packPieces limits maxChunks changed rest k' ∧
      Matches maxChunks changed (g.add limits piece) k' ∧ k'.overflow = k.overflow := by
  obtain ⟨hmade, hcurrent⟩ := @Matches.makeRoom limits _ _ _ _ h piece
  refine ⟨{ k with
    chunks := chunksOf changed (g.add limits piece).closed
    current := (if (g.add limits piece).closed = g.closed then g.current else []) ++ [piece] },
    ?_, ⟨rfl, hcurrent.symm, h.open_, hroom⟩, rfl⟩
  rw [Grouping.count_add] at hroom
  have hleft : ¬ maxChunks ≤ (chunksOf changed (g.add limits piece).closed).length := by
    rw [chunksOf_length]
    omega
  rw [packPieces, hmade]
  dsimp only
  rw [if_neg hleft]

/-- A piece without a chunk overflows, and the loop over its record ends. -/
theorem Matches.rejected {g : Grouping} {k : Packing} (h : Matches maxChunks changed g k)
    {piece : DiffFileRecord} (rest : List DiffFileRecord)
    (hfull : maxChunks < (g.add limits piece).count) :
    ∃ k', packPieces limits maxChunks changed (piece :: rest) k = k' ∧
      k'.chunks = chunksOf changed (g.add limits piece).closed ∧ k'.current = [] ∧
      k'.overflow = k.overflow ++ [piece] ∧ k'.exhausted = true ∧
      (g.add limits piece).closed.flatten = g.closed.flatten ++ g.current ∧
      (g.add limits piece).closed.length ≤ maxChunks := by
  obtain ⟨hmade, -⟩ := @Matches.makeRoom limits _ _ _ _ h piece
  have hcount := h.count
  rw [Grouping.count_add] at hfull
  have hleft : maxChunks ≤ (chunksOf changed (g.add limits piece).closed).length := by
    rw [chunksOf_length]
    omega
  -- the open group is closed here: with room in it the chunks would not be used up
  have hclosed : (g.add limits piece).closed = g.closed → g.current = [] := by
    intro hsame
    by_contra hne
    rw [hsame] at hfull
    rw [Grouping.count, if_neg hne] at hcount
    omega
  have hflatten : (g.add limits piece).closed.flatten = g.closed.flatten ++ g.current ∧
      (g.add limits piece).closed.length ≤ maxChunks := by
    rw [Grouping.count] at hcount
    by_cases hclose : g.current ≠ [] ∧ fits limits g.current piece = false
    · rw [if_neg hclose.1] at hcount
      simp only [Grouping.add, if_pos hclose]
      simpa using hcount
    · have hsame : (g.add limits piece).closed = g.closed := by
        simp only [Grouping.add, if_neg hclose]
      rw [hsame, hclosed hsame, List.append_nil]
      exact ⟨rfl, by omega⟩
  refine ⟨_, rfl, ?_⟩
  rw [packPieces, hmade]
  dsimp only
  rw [if_pos hleft]
  refine ⟨rfl, ?_, rfl, rfl, hflatten⟩
  dsimp only
  split
  · next hsame => exact hclosed hsame
  · rfl

/-- The pieces of one record: all of them find a chunk, or one is the first that does not. -/
inductive PiecesRun (limits : ReviewLimits) (maxChunks : Nat) (changed : List Path) (g : Grouping)
    (k : Packing) (pieces : List DiffFileRecord) (k' : Packing) : Prop
  | packed (h : Matches maxChunks changed (pieces.foldl (Grouping.add limits) g) k')
      (hover : k'.overflow = k.overflow)
  | rejected (first : List DiffFileRecord) (p : DiffFileRecord) (last : List DiffFileRecord)
      (groups : List (List DiffFileRecord)) (hpieces : pieces = first ++ p :: last)
      (hfits : (first.foldl (Grouping.add limits) g).count ≤ maxChunks)
      (hfull : maxChunks < ((first ++ [p]).foldl (Grouping.add limits) g).count)
      (hchunks : k'.chunks = chunksOf changed groups) (hlength : groups.length ≤ maxChunks)
      (hgroups : groups = ((first ++ [p]).foldl (Grouping.add limits) g).closed)
      (hflatten : groups.flatten = g.closed.flatten ++ g.current ++ first)
      (hcurrent : k'.current = []) (hover : k'.overflow = k.overflow ++ [p])
      (hexhausted : k'.exhausted = true)

theorem Grouping.flatten_add (g : Grouping) (piece : DiffFileRecord) :
    (g.add limits piece).closed.flatten ++ (g.add limits piece).current =
      g.closed.flatten ++ g.current ++ [piece] := by
  unfold Grouping.add
  split <;> simp

theorem Matches.pieces {g : Grouping} {k : Packing} (h : Matches maxChunks changed g k)
    (pieces : List DiffFileRecord) : PiecesRun limits maxChunks changed g k pieces
      (packPieces limits maxChunks changed pieces k) := by
  induction pieces generalizing g k with
  | nil => exact .packed h rfl
  | cons piece rest ih =>
    by_cases hroom : (g.add limits piece).count ≤ maxChunks
    · obtain ⟨k', hrun, hmatches, hover⟩ := h.piece rest hroom
      rw [hrun]
      cases ih hmatches with
      | packed hdone hover' => exact .packed hdone (hover'.trans hover)
      | rejected first p last groups hpieces hfits hfull hchunks hlength hgroups hflatten hcurrent
          hover' hexhausted =>
        refine .rejected (piece :: first) p last groups (by rw [hpieces]; rfl) hfits hfull hchunks
          hlength hgroups ?_ hcurrent (by rw [hover', hover]) hexhausted
        rw [hflatten, Grouping.flatten_add]
        simp
    · have hfull := Nat.not_le.mp hroom
      obtain ⟨k', hrun, hchunks, hcurrent, hover, hexhausted, hflatten, hlength⟩ :=
        h.rejected rest hfull
      rw [hrun]
      exact .rejected [] piece rest _ rfl h.count hfull hchunks hlength rfl
        (by rw [hflatten, List.append_nil]) hcurrent hover hexhausted

theorem packable_append (records : List DiffFileRecord) (r : DiffFileRecord) :
    packable limits (records ++ [r]) =
      packable limits records ++ (piecesOf limits r).getD [] := by
  simp [packable]

theorem chunksNeeded_le (pieces more : List DiffFileRecord) :
    chunksNeeded limits pieces ≤ chunksNeeded limits (pieces ++ more) := by
  unfold chunksNeeded
  rw [List.foldl_append]
  exact Grouping.count_le_foldl limits _ more

/-- A group of pieces that the limits of one request admit. -/
def Fit (limits : ReviewLimits) (group : List DiffFileRecord) : Prop :=
  ∃ first last, group = first ++ [last] ∧ fits limits first last = true

theorem Fit.within {group : List DiffFileRecord} (h : Fit limits group) (index : Nat) :
    WithinLimits limits (chunkFromRecords index group changed) := by
  obtain ⟨first, last, rfl, hfits⟩ := h
  simp only [fits, Bool.and_eq_true, decide_eq_true_eq] at hfits
  obtain ⟨⟨⟨hbytes, hlines⟩, hfiles⟩, hhunks⟩ := hfits
  refine ⟨hbytes, ?_, hfiles, ?_⟩
  · rw [chunkFromRecords, List.count_flatMap]
    exact hlines
  · rw [chunkFromRecords, List.length_flatMap]
    simpa [DiffFileRecord.hunkIndexes] using hhunks

/-- The groups of pieces that each fit a request of their own. -/
structure AllFit (limits : ReviewLimits) (g : Grouping) : Prop where
  closed : ∀ group ∈ g.closed, Fit limits group
  current : g.current ≠ [] → Fit limits g.current

theorem AllFit.add {g : Grouping} (h : AllFit limits g) {piece : DiffFileRecord}
    (hpiece : fits limits [] piece = true) : AllFit limits (g.add limits piece) := by
  unfold Grouping.add
  split
  · next hclose =>
    refine ⟨fun group hgroup => ?_, fun _ => ⟨[], piece, rfl, hpiece⟩⟩
    rcases List.mem_append.mp hgroup with hold | hnew
    · exact h.closed group hold
    · rw [List.mem_singleton.mp hnew]
      exact h.current hclose.1
  · next hstay =>
    refine ⟨h.closed, fun _ => ⟨g.current, piece, rfl, ?_⟩⟩
    by_cases hempty : g.current = []
    · rw [hempty]
      exact hpiece
    · by_contra hno
      exact hstay ⟨hempty, Bool.eq_false_iff.mpr hno⟩

theorem AllFit.foldl {g : Grouping} (h : AllFit limits g) {pieces : List DiffFileRecord}
    (hpieces : ∀ p ∈ pieces, fits limits [] p = true) :
    AllFit limits (pieces.foldl (Grouping.add limits) g) := by
  induction pieces generalizing g with
  | nil => exact h
  | cons piece rest ih =>
    exact ih (h.add (hpieces piece List.mem_cons_self))
      fun p hp => hpieces p (List.mem_cons_of_mem _ hp)

theorem piecesOf_fits {r : DiffFileRecord} {pieces : List DiffFileRecord}
    (h : piecesOf limits r = some pieces) : ∀ p ∈ pieces, fits limits [] p = true := by
  intro p hp
  unfold piecesOf at h
  split at h
  · next hfits =>
    obtain rfl := Option.some.inj h
    rw [List.mem_singleton.mp hp]
    exact hfits
  · split at h
    · dsimp only at h
      split at h
      · cases h
      · next hall =>
        obtain rfl := Option.some.inj h
        simp only [List.any_eq_true, not_exists, not_and, Bool.not_eq_true',
          Bool.not_eq_false] at hall
        exact hall p hp
    · cases h

theorem piecesOf_cut {r : DiffFileRecord} {pieces : List DiffFileRecord}
    (h : piecesOf limits r = some pieces) : Cut limits r pieces := by
  unfold piecesOf at h
  split at h
  · exact Option.some.inj h ▸ .whole
  · next hlarge =>
    split at h
    · next hhunks =>
      dsimp only at h
      split at h
      · cases h
      · exact Option.some.inj h ▸ .hunks hhunks.1 (Bool.not_eq_true _ ▸ hlarge)
    · cases h

theorem packable_fits (records : List DiffFileRecord) :
    ∀ p ∈ packable limits records, fits limits [] p = true := by
  intro p hp
  obtain ⟨r, _, hmem⟩ := List.mem_flatMap.mp hp
  cases hpieces : piecesOf limits r with
  | none =>
    rw [hpieces] at hmem
    cases hmem
  | some pieces =>
    rw [hpieces] at hmem
    exact piecesOf_fits hpieces p hmem

theorem Cut.hunkIndexes {r : DiffFileRecord} {cut : List DiffFileRecord} (h : Cut limits r cut) :
    cut.flatMap DiffFileRecord.hunkIndexes = r.hunkIndexes := by
  cases h with
  | whole => simp
  | hunks => exact pieces_hunkIndexes r r.hunks

theorem cuts_hunkIndexes {records : List DiffFileRecord} {cuts : List (List DiffFileRecord)}
    (h : List.Forall₂ (Cut limits) records cuts) :
    cuts.flatten.flatMap DiffFileRecord.hunkIndexes =
      records.flatMap DiffFileRecord.hunkIndexes := by
  induction h with
  | nil => rfl
  | cons hcut _ ih =>
    rw [List.flatten_cons, List.flatMap_append, ih, hcut.hunkIndexes]
    rfl

/-- Where the pieces of the records are: in the closed groups, in the open one, or in the
overflow, each in the order of the input. -/
structure Placed (limits : ReviewLimits) (records : List DiffFileRecord)
    (groups : List (List DiffFileRecord)) (current overflow : List DiffFileRecord) : Prop where
  cuts : ∃ cuts, List.Forall₂ (Cut limits) records cuts ∧
    (groups.flatten ++ current ++ overflow).Perm cuts.flatten ∧
    (groups.flatten ++ current).Sublist cuts.flatten ∧ overflow.Sublist cuts.flatten

theorem Placed.next {records : List DiffFileRecord} {groups groups' : List (List DiffFileRecord)}
    {current current' overflow : List DiffFileRecord}
    (h : Placed limits records groups current overflow) {r : DiffFileRecord}
    {first last : List DiffFileRecord} (hcut : Cut limits r (first ++ last))
    (hgroups : groups'.flatten ++ current' = groups.flatten ++ current ++ first) :
    Placed limits (records ++ [r]) groups' current' (overflow ++ last) := by
  obtain ⟨cuts, hcuts, hperm, hpacked, hover⟩ := h
  refine ⟨cuts ++ [first ++ last], List.rel_append hcuts (.cons hcut .nil), ?_, ?_, ?_⟩
  · rw [hgroups, List.flatten_append, List.flatten_singleton]
    have hmove : (groups.flatten ++ current ++ first ++ (overflow ++ last)).Perm
        (groups.flatten ++ current ++ overflow ++ (first ++ last)) := by
      simp only [List.append_assoc]
      refine (List.Perm.refl _).append ((List.Perm.refl _).append ?_)
      rw [← List.append_assoc, ← List.append_assoc]
      exact List.perm_append_comm.append (List.Perm.refl _)
    exact hmove.trans (hperm.append (List.Perm.refl _))
  · rw [hgroups, List.flatten_append, List.flatten_singleton]
    exact hpacked.append (List.sublist_append_left _ _)
  · rw [List.flatten_append, List.flatten_singleton]
    exact hover.append (List.sublist_append_right _ _)

/-- How many hunks have a place. -/
def Packing.size (k : Packing) : Nat := k.packed.length + k.held.length + k.spilled.length

def hunkTotal (records : List DiffFileRecord) : Nat :=
  (records.flatMap DiffFileRecord.hunkIndexes).length

theorem Placed.size_eq {records : List DiffFileRecord} {groups : List (List DiffFileRecord)}
    {k : Packing} (h : Placed limits records groups k.current k.overflow)
    (hchunks : k.chunks = chunksOf changed groups) : k.size = hunkTotal records := by
  obtain ⟨cuts, hcuts, hperm, -⟩ := h
  have hlength := (hperm.flatMap_right DiffFileRecord.hunkIndexes).length_eq
  rw [cuts_hunkIndexes hcuts] at hlength
  simp only [List.flatMap_append, List.length_append] at hlength
  rw [Packing.size, Packing.packed, hchunks, chunksOf_hunkIndexes, Packing.held, Packing.spilled,
    hunkTotal]
  exact hlength

/-- The packing of some records: the chunks are not used up, or a last piece used them up, or a
piece did whose record goes on. -/
inductive Packs (limits : ReviewLimits) (maxChunks : Nat) (changed : List Path)
    (records : List DiffFileRecord) (k : Packing) : Prop
  | going (h : Matches maxChunks changed
      ((packable limits records).foldl (Grouping.add limits) {}) k)
    (hplaced : Placed limits records
      ((packable limits records).foldl (Grouping.add limits) {}).closed k.current k.overflow)
  | used (groups : List (List DiffFileRecord)) (hexhausted : k.exhausted = true)
    (hcurrent : k.current = []) (hchunks : k.chunks = chunksOf changed groups)
    (hlength : groups.length ≤ maxChunks) (hfit : ∀ group ∈ groups, Fit limits group)
    (hplaced : Placed limits records groups k.current k.overflow)
    (hwhole : ¬ BrokenOff limits maxChunks records)
    (hfull : maxChunks < chunksNeeded limits (packable limits records))
  | lossy (hexhausted : k.exhausted = true) (hcurrent : k.current = [])
    (hbroken : BrokenOff limits maxChunks records)
    (hsize : k.size < hunkTotal records)
    (hfull : maxChunks < chunksNeeded limits (packable limits records))

theorem BrokenOff.append {records : List DiffFileRecord} (h : BrokenOff limits maxChunks records)
    (r : DiffFileRecord) : BrokenOff limits maxChunks (records ++ [r]) := by
  obtain ⟨before, r', after, first, p, q, last, rfl, hrest⟩ := h
  exact ⟨before, r', after ++ [r], first, p, q, last, by simp, hrest⟩

theorem size_overflow (k : Packing) (r : DiffFileRecord) :
    Packing.size { k with overflow := k.overflow ++ [r] } = k.size + r.hunkIndexes.length := by
  simp only [Packing.size, Packing.packed, Packing.held, Packing.spilled, List.flatMap_append,
    List.flatMap_cons, List.flatMap_nil, List.length_append, List.length_nil]
  omega

theorem hunkTotal_append (records : List DiffFileRecord) (r : DiffFileRecord) :
    hunkTotal (records ++ [r]) = hunkTotal records + r.hunkIndexes.length := by
  simp [hunkTotal]

/-- A record that is cut in two pieces at least has a hunk in each of them. -/
theorem broken_hunks {r p q : DiffFileRecord} {first last : List DiffFileRecord}
    (h : piecesOf limits r = some (first ++ p :: q :: last)) :
    ((first ++ [p]).flatMap DiffFileRecord.hunkIndexes).length < r.hunkIndexes.length := by
  have htotal := congrArg List.length (piecesOf_hunkIndexes h)
  have hone : q.hunkIndexes.length = 1 := by
    rcases piecesOf_ok h with ⟨hwhole, -⟩ | ⟨hhunks, -⟩
    · have hlength := congrArg List.length hwhole
      simp only [List.length_append, List.length_cons, List.length_nil] at hlength
      omega
    · have hmem : q ∈ r.hunks.map (hunkRecord r) := by
        rw [← hhunks]
        simp
      obtain ⟨hunk, -, rfl⟩ := List.mem_map.mp hmem
      rfl
  simp only [List.flatMap_append, List.flatMap_cons, List.length_append, List.flatMap_nil,
    List.length_nil] at htotal ⊢
  omega

theorem BrokenOff.needs {records : List DiffFileRecord} (h : BrokenOff limits maxChunks records) :
    maxChunks < chunksNeeded limits (packable limits records) := by
  obtain ⟨before, r, after, first, p, q, last, rfl, hpieces, -, hfull⟩ := h
  have hsplit : packable limits (before ++ r :: after) =
      packable limits before ++ first ++ [p] ++ (q :: last ++ packable limits after) := by
    simp [packable, hpieces]
  rw [hsplit]
  exact Nat.lt_of_lt_of_le hfull (chunksNeeded_le _ _)

/-- Only the last record, or a break before it, breaks a longer list off. -/
theorem BrokenOff.of_append {records : List DiffFileRecord} {r : DiffFileRecord}
    (h : BrokenOff limits maxChunks (records ++ [r])) : BrokenOff limits maxChunks records ∨
      ∃ first p q last, piecesOf limits r = some (first ++ p :: q :: last) ∧
        chunksNeeded limits (packable limits records ++ first) ≤ maxChunks ∧
        maxChunks < chunksNeeded limits (packable limits records ++ first ++ [p]) := by
  obtain ⟨before, r', after, first, p, q, last, hrecords, hrest⟩ := h
  induction after using List.reverseRecOn with
  | nil =>
    obtain ⟨rfl, hlast⟩ := List.append_inj' hrecords rfl
    obtain rfl := List.singleton_inj.mp hlast
    exact .inr ⟨first, p, q, last, hrest⟩
  | append_singleton after x _ =>
    rw [← List.cons_append, ← List.append_assoc] at hrecords
    obtain ⟨rfl, -⟩ := List.append_inj' hrecords rfl
    exact .inl ⟨before, r', after, first, p, q, last, rfl, hrest⟩

theorem Grouping.flatten_foldl (g : Grouping) (pieces : List DiffFileRecord) :
    (pieces.foldl (add limits) g).closed.flatten ++ (pieces.foldl (add limits) g).current =
      g.closed.flatten ++ g.current ++ pieces := by
  induction pieces generalizing g with
  | nil => simp
  | cons piece rest ih =>
    rw [List.foldl_cons, ih, flatten_add]
    simp

theorem groups_fit (records more : List DiffFileRecord)
    (hmore : ∀ p ∈ more, fits limits [] p = true) :
    AllFit limits ((packable limits records ++ more).foldl (Grouping.add limits) {}) := by
  have hempty : AllFit limits {} := ⟨nofun, fun hne => absurd rfl hne⟩
  apply hempty.foldl
  intro p hp
  rcases List.mem_append.mp hp with hold | hnew
  · exact packable_fits records p hold
  · exact hmore p hnew

/-- A record that cannot be packed, or comes too late, overflows whole. -/
theorem Packs.overflow {records : List DiffFileRecord} {k : Packing}
    (h : Packs limits maxChunks changed records k) {r : DiffFileRecord}
    (hr : piecesOf limits r = none ∨ k.exhausted = true) :
    Packs limits maxChunks changed (records ++ [r]) { k with overflow := k.overflow ++ [r] } := by
  have hmono : chunksNeeded limits (packable limits records) ≤
      chunksNeeded limits (packable limits (records ++ [r])) := by
    rw [packable_append]
    exact chunksNeeded_le _ _
  cases h with
  | going hmatches hplaced =>
    have hnone : piecesOf limits r = none :=
      hr.resolve_right (by rw [hmatches.open_]; exact Bool.false_ne_true)
    have hsame : packable limits (records ++ [r]) = packable limits records := by
      rw [packable_append, hnone, Option.getD_none, List.append_nil]
    refine .going ?_ ?_
    · rw [hsame]
      exact ⟨hmatches.chunks, hmatches.current, hmatches.open_, hmatches.count⟩
    · rw [hsame]
      exact hplaced.next (show Cut limits r ([] ++ [r]) from .whole) (List.append_nil _).symm
  | used groups hexhausted hcurrent hchunks hlength hfit hplaced hwhole hfull =>
    refine .used groups hexhausted hcurrent hchunks hlength hfit ?_ ?_ ?_
    · exact hplaced.next (show Cut limits r ([] ++ [r]) from .whole) (List.append_nil _).symm
    · intro hbroken
      rcases hbroken.of_append with hbefore | ⟨first, p, q, last, _, hfits, _⟩
      · exact hwhole hbefore
      · have := @chunksNeeded_le limits (packable limits records) first
        omega
    · exact Nat.lt_of_lt_of_le hfull hmono
  | lossy hexhausted hcurrent hbroken hsize hfull =>
    refine .lossy hexhausted hcurrent (hbroken.append r) ?_ (Nat.lt_of_lt_of_le hfull hmono)
    rw [size_overflow, hunkTotal_append]
    omega

/-- A record whose pieces are packed while chunks are left. -/
theorem Packs.pieces {records : List DiffFileRecord} {k k' : Packing} {r : DiffFileRecord}
    {pieces : List DiffFileRecord} (hpieces : piecesOf limits r = some pieces)
    (hmatches : Matches maxChunks changed
      ((packable limits records).foldl (Grouping.add limits) {}) k)
    (hplaced : Placed limits records
      ((packable limits records).foldl (Grouping.add limits) {}).closed k.current k.overflow)
    (h : PiecesRun limits maxChunks changed
      ((packable limits records).foldl (Grouping.add limits) {}) k pieces k') :
    Packs limits maxChunks changed (records ++ [r]) k' := by
  have hcut := piecesOf_cut hpieces
  have hnext : packable limits (records ++ [r]) = packable limits records ++ pieces := by
    rw [packable_append, hpieces, Option.getD_some]
  have hfold : (packable limits (records ++ [r])).foldl (Grouping.add limits) {} =
      pieces.foldl (Grouping.add limits)
        ((packable limits records).foldl (Grouping.add limits) {}) := by
    rw [hnext, List.foldl_append]
  cases h with
  | packed hdone hover =>
    refine .going (hfold ▸ hdone) ?_
    rw [hfold, hdone.current, hover, ← List.append_nil k.overflow]
    refine hplaced.next ((List.append_nil pieces).symm ▸ hcut) ?_
    rw [Grouping.flatten_foldl, hmatches.current]
  | rejected first p last groups hsplit hfits hfull hchunks hlength hgroups hflatten hcurrent
      hover hexhausted =>
    rw [← List.foldl_append] at hfits hfull
    have hfull' : maxChunks < chunksNeeded limits (packable limits (records ++ [r])) := by
      have hmore := @chunksNeeded_le limits
        (packable limits records ++ (first ++ [p])) last
      rw [hnext, hsplit]
      simp only [List.append_assoc, List.singleton_append] at hmore ⊢
      exact Nat.lt_of_lt_of_le hfull (by simpa [chunksNeeded] using hmore)
    cases last with
    | nil =>
      refine .used groups hexhausted hcurrent hchunks hlength ?_ ?_ ?_ hfull'
      · rw [hgroups, ← List.foldl_append]
        refine (groups_fit records (first ++ [p]) fun piece hpiece => ?_).closed
        exact piecesOf_fits hpieces piece (hsplit ▸ hpiece)
      · rw [hover, hcurrent]
        refine hplaced.next (hsplit ▸ hcut) ?_
        rw [List.append_nil, hflatten, hmatches.current]
      · intro hbroken
        rcases hbroken.of_append with hbefore | ⟨first', p', q, last', hpieces', _, hfull''⟩
        · have hneeds := hbefore.needs
          have hcount := hmatches.count
          unfold chunksNeeded at hneeds
          omega
        · -- the piece of a break has another after it, so it is among those that found a chunk
          have hsame : first' ++ p' :: q :: last' = first ++ [p] :=
            (Option.some.inj (hpieces'.symm.trans hpieces)).trans hsplit
          obtain ⟨init, x, hinit⟩ : ∃ init x, q :: last' = init ++ [x] :=
            ⟨_, _, (List.dropLast_append_getLast (List.cons_ne_nil q last')).symm⟩
          rw [hinit, ← List.cons_append, ← List.append_assoc] at hsame
          have hfirst := (List.append_inj' hsame rfl).1
          have hmore := @chunksNeeded_le limits
            (packable limits records ++ first' ++ [p']) init
          rw [← hfirst] at hfits
          simp only [chunksNeeded, List.append_assoc, List.singleton_append] at hmore hfull'' hfits
          omega
    | cons q last =>
      refine .lossy hexhausted hcurrent
        ⟨records, r, [], first, p, q, last, rfl, hsplit ▸ hpieces, hfits, ?_⟩ ?_ hfull'
      · simpa [chunksNeeded, List.append_assoc] using hfull
      · have hbefore := hplaced.size_eq hmatches.chunks
        have hhunks := broken_hunks (hsplit ▸ hpieces)
        have hpacked : k'.packed =
            k.packed ++ k.held ++ first.flatMap DiffFileRecord.hunkIndexes := by
          rw [Packing.packed, hchunks, chunksOf_hunkIndexes, hflatten, Packing.packed,
            hmatches.chunks, chunksOf_hunkIndexes, Packing.held, hmatches.current]
          simp
        have hheld : k'.held = [] := by rw [Packing.held, hcurrent, List.flatMap_nil]
        have hspilled : k'.spilled = k.spilled ++ p.hunkIndexes := by
          rw [Packing.spilled, hover, List.flatMap_append, List.flatMap_singleton, Packing.spilled]
        rw [hunkTotal_append, ← hbefore, Packing.size, hpacked, hheld, hspilled, Packing.size]
        simp only [List.flatMap_append, List.flatMap_singleton, List.length_append,
          List.length_nil] at hhunks ⊢
        omega

theorem Packs.record {records : List DiffFileRecord} {k : Packing}
    (h : Packs limits maxChunks changed records k) (r : DiffFileRecord) :
    Packs limits maxChunks changed (records ++ [r]) (packRecord limits maxChunks changed k r) := by
  unfold packRecord
  split
  · next hexhausted => exact h.overflow (.inr hexhausted)
  · next hopen =>
    split
    · next hnone => exact h.overflow (.inl hnone)
    · next pieces hpieces =>
      cases h with
      | going hmatches hplaced =>
        exact Packs.pieces hpieces hmatches hplaced (hmatches.pieces pieces)
      | used _ hexhausted => exact absurd hexhausted hopen
      | lossy hexhausted => exact absurd hexhausted hopen

theorem packs_records (limits : ReviewLimits) (maxChunks : Nat) (changed : List Path)
    (records : List DiffFileRecord) : Packs limits maxChunks changed records
      (records.foldl (packRecord limits maxChunks changed) {}) := by
  induction records using List.reverseRecOn with
  | nil =>
    refine .going ⟨rfl, rfl, rfl, Nat.zero_le _⟩ ⟨[], .nil, ?_, ?_, ?_⟩
    · exact List.Perm.refl _
    · exact List.Sublist.refl _
    · exact List.Sublist.refl _
  | append_singleton records r ih =>
    rw [List.foldl_append, List.foldl_cons, List.foldl_nil]
    exact ih.record r

/-- Once nothing is held, pieces in their places are a packing that conserves its records. -/
theorem Placed.conserves {records : List DiffFileRecord} {groups : List (List DiffFileRecord)}
    {overflow : List DiffFileRecord} {k : Packing} (h : Placed limits records groups [] overflow)
    (hoverflow : k.overflow = overflow) (hchunks : k.chunks = chunksOf changed groups)
    (hfit : ∀ group ∈ groups, Fit limits group) (hlength : groups.length ≤ maxChunks) :
    Conserves limits maxChunks changed records k := by
  subst hoverflow
  obtain ⟨cuts, hcuts, hperm, hpacked, hover⟩ := h
  rw [List.append_nil] at hperm hpacked
  refine ⟨?_, ⟨cuts, groups, hcuts, hchunks, hperm, hpacked, hover⟩, ?_, ?_⟩
  · have hhunks := hperm.flatMap_right DiffFileRecord.hunkIndexes
    rw [cuts_hunkIndexes hcuts, List.flatMap_append] at hhunks
    rw [Packing.packed, hchunks, chunksOf_hunkIndexes]
    exact hhunks
  · intro c hc
    rw [hchunks] at hc
    obtain ⟨⟨group, index⟩, hmem, rfl⟩ := List.mem_map.mp hc
    exact (hfit group (List.fst_mem_of_mem_zipIdx hmem)).within _
  · rw [hchunks, chunksOf_length]
    exact hlength

/-- Packing conserves the pieces of every record exactly where no record is broken off. -/
theorem pack_records_conserve (limits : ReviewLimits) (maxChunks : Nat) (changed : List Path)
    (records : List DiffFileRecord) :
    Conserves limits maxChunks changed records (packRecords limits maxChunks changed records) ↔
      ¬ BrokenOff limits maxChunks records := by
  have hpacks := packs_records limits maxChunks changed records
  unfold packRecords
  generalize records.foldl (packRecord limits maxChunks changed) {} = k at hpacks
  cases hpacks with
  | going hmatches hplaced =>
    have hwhole : ¬ BrokenOff limits maxChunks records := by
      intro hbroken
      have hneeds := hbroken.needs
      have hcount := hmatches.count
      unfold chunksNeeded at hneeds
      omega
    refine iff_of_true ?_ hwhole
    have hfit := @groups_fit limits records [] nofun
    rw [List.append_nil] at hfit
    unfold flush
    split
    · next hempty =>
      rw [hempty] at hplaced
      refine hplaced.conserves rfl hmatches.chunks hfit.closed ?_
      exact Nat.le_trans (Nat.le_add_right _ _) hmatches.count
    · next hheld =>
      have hleft := hmatches.room hheld
      rw [if_neg (Nat.not_le.mpr hleft)]
      have hlast : Placed limits records
          (((packable limits records).foldl (Grouping.add limits) {}).closed ++ [k.current]) []
          k.overflow := by
        obtain ⟨cuts, hrest⟩ := hplaced
        refine ⟨cuts, ?_⟩
        rw [List.flatten_append, List.flatten_singleton, List.append_nil]
        exact hrest
      refine hlast.conserves rfl ?_ ?_ ?_
      · rw [chunksOf_append, hmatches.chunks, chunksOf_length]
      · intro group hgroup
        rcases List.mem_append.mp hgroup with hold | hnew
        · exact hfit.closed group hold
        · rw [List.mem_singleton.mp hnew, hmatches.current]
          exact hfit.current (hmatches.current ▸ hheld)
      · rw [hmatches.chunks, chunksOf_length] at hleft
        rw [List.length_append]
        exact hleft
  | used groups hexhausted hcurrent hchunks hlength hfit hplaced hwhole hfull =>
    refine iff_of_true ?_ hwhole
    rw [hcurrent] at hplaced
    rw [flush, if_pos hcurrent]
    exact hplaced.conserves rfl hchunks hfit hlength
  | lossy hexhausted hcurrent hbroken hsize hfull =>
    refine iff_of_false ?_ (not_not.mpr hbroken)
    intro hconserves
    rw [flush, if_pos hcurrent] at hconserves
    have hlength := hconserves.hunks.length_eq
    have hheld : k.held = [] := by rw [Packing.held, hcurrent, List.flatMap_nil]
    rw [Packing.size, hheld, hunkTotal] at hsize
    simp only [List.length_append, List.length_nil] at hlength hsize
    omega

/-- Three changed lines far from each other in one file. -/
def farHunks : DiffFileRecord :=
  let hunk (index line : Nat) (range : String) : DiffHunk :=
    { index
      oldPath := some "a.py".toList
      newPath := some "a.py".toList
      oldStart := line
      oldCount := 1
      newStart := line
      newCount := 1
      text := range.toList ++ "\n-x = 1\n+x = 2\n".toList
      addedLines := {line}
      deletedLines := {line} }
  let hunks := [hunk 0 1 "@@ -1 +1 @@", hunk 1 20 "@@ -20 +20 @@", hunk 2 40 "@@ -40 +40 @@"]
  let header := "diff --git a/a.py b/a.py\n--- a/a.py\n+++ b/a.py\n".toList
  { oldPath := some "a.py".toList
    newPath := some "a.py".toList
    text := header ++ hunks.flatMap DiffHunk.text
    header
    addedLines := {1, 20, 40}
    deletedLines := {1, 20, 40}
    hunks
    binary := false }

/-- With one chunk of one hunk the second hunk overflows and the third is nowhere. -/
theorem pack_records_drop_third_hunk :
    ¬ Conserves { maxDiffHunks := 1 } 1 ["a.py".toList] [farHunks]
      (packRecords { maxDiffHunks := 1 } 1 ["a.py".toList] [farHunks]) := by
  intro h
  have hhunks := h.hunks
  revert hhunks
  decide +kernel

end
end ReviewSensei.Planning
