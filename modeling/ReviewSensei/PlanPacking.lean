import ReviewSensei.ChangePlan

/-! Packing puts every hunk in at most one chunk, and says of each hunk it leaves out why. -/
namespace ReviewSensei.Planning
open Diff Coverage

variable {limits : ReviewLimits} {maxChunks : Nat} {changed : List Path}

namespace Packing

def packed (k : Packing) : List Nat := k.chunks.flatMap ReviewChunk.hunkIndexes

def held (k : Packing) : List Nat := k.current.flatMap DiffFileRecord.hunkIndexes

def spilled (k : Packing) : List Nat := k.overflow.flatMap DiffFileRecord.hunkIndexes

/-- How often the loop has put the hunk somewhere. -/
def placements (k : Packing) (i : Nat) : Nat :=
  k.packed.count i + k.held.count i + k.spilled.count i

end Packing

/-- What the loop holds goes in a chunk: records are held only while one is left. -/
def HasRoom (maxChunks : Nat) (k : Packing) : Prop :=
  k.current ≠ [] → k.chunks.length < maxChunks

/-- Between two points of the loop: nothing that was put in a chunk or held is lost. -/
structure Continues (k k' : Packing) : Prop where
  chunks : k.chunks.length ≤ k'.chunks.length
  kept : ∀ i, i ∈ k.packed ∨ i ∈ k.held → i ∈ k'.packed ∨ i ∈ k'.held
  overflow : k.overflow ⊆ k'.overflow

theorem Continues.refl (k : Packing) : Continues k k :=
  ⟨Nat.le_refl _, fun _ h => h, List.Subset.refl _⟩

theorem packed_push (k : Packing) :
    Packing.packed { k with
      chunks := k.chunks ++ [chunkFromRecords (k.chunks.length + 1) k.current changed]
      current := [] } = k.packed ++ k.held := by
  simp [Packing.packed, Packing.held, chunkFromRecords]

/-- Where there is room, a flush moves what is held into a chunk of its own. -/
structure Flushed (k k' : Packing) : Prop where
  packed : k'.packed = k.packed ++ k.held
  current : k'.current = []
  overflow : k'.overflow = k.overflow
  reason : k'.overflowReason = k.overflowReason
  exhausted : k'.exhausted = k.exhausted
  chunks : k.chunks.length ≤ k'.chunks.length

theorem flush_flushed (changed : List Path) {k : Packing} (hroom : HasRoom maxChunks k) :
    Flushed k (flush maxChunks changed k) := by
  unfold flush
  split
  · next hempty => exact ⟨by simp [Packing.held, hempty], hempty, rfl, rfl, rfl, Nat.le_refl _⟩
  · next hheld =>
    rw [if_neg (Nat.not_le.mpr (hroom hheld))]
    exact ⟨packed_push k, rfl, rfl, rfl, rfl, by simp⟩

theorem Flushed.continues {k k' : Packing} (h : Flushed k k') : Continues k k' := by
  refine ⟨h.chunks, fun i hi => .inl ?_, by rw [h.overflow]; exact List.Subset.refl _⟩
  rw [h.packed, List.mem_append]
  exact hi

theorem Flushed.placements {k k' : Packing} (h : Flushed k k') (i : Nat) :
    k'.placements i = k.placements i := by
  have hheld : k'.held = [] := by simp [Packing.held, h.current]
  simp [Packing.placements, h.packed, hheld, Packing.spilled, h.overflow]

/-- Making room either leaves the packing or flushes it. -/
theorem makeRoom_cases (limits : ReviewLimits) (changed : List Path) (k : Packing) (piece : DiffFileRecord) (hroom : HasRoom maxChunks k) :
    makeRoom limits maxChunks changed k piece = k ∨
      Flushed k (makeRoom limits maxChunks changed k piece) := by
  unfold makeRoom
  split
  · exact .inr (flush_flushed changed hroom)
  · exact .inl rfl

theorem makeRoom_placements (limits : ReviewLimits) (changed : List Path) {k : Packing}
    (piece : DiffFileRecord) (hroom : HasRoom maxChunks k)
    (i : Nat) : (makeRoom limits maxChunks changed k piece).placements i = k.placements i := by
  rcases makeRoom_cases limits changed k piece hroom with heq | hflushed
  · rw [heq]
  · exact hflushed.placements i

theorem makeRoom_continues (limits : ReviewLimits) (changed : List Path) {k : Packing}
    (piece : DiffFileRecord) (hroom : HasRoom maxChunks k) :
    Continues k (makeRoom limits maxChunks changed k piece) := by
  rcases makeRoom_cases limits changed k piece hroom with heq | hflushed
  · rw [heq]
    exact .refl k
  · exact hflushed.continues

/-- Where the chunks are used up, nothing is held after room has been made. -/
theorem makeRoom_room (limits : ReviewLimits) (changed : List Path) {k : Packing}
    (piece : DiffFileRecord) (hroom : HasRoom maxChunks k) :
    HasRoom maxChunks (makeRoom limits maxChunks changed k piece) := by
  rcases makeRoom_cases limits changed k piece hroom with heq | hflushed
  · rw [heq]
    exact hroom
  · exact fun hne => absurd hflushed.current hne

theorem makeRoom_overflow (limits : ReviewLimits) (changed : List Path) {k : Packing}
    (piece : DiffFileRecord) (hroom : HasRoom maxChunks k) :
    (makeRoom limits maxChunks changed k piece).overflow = k.overflow := by
  rcases makeRoom_cases limits changed k piece hroom with heq | hflushed
  · rw [heq]
  · exact hflushed.overflow

/-- Why the pieces of a record left the hunk out: its own piece or an earlier one overflowed. -/
def LeftOut (maxChunks : Nat) (pieces : List DiffFileRecord) (k : Packing) (i : Nat) : Prop :=
  ∃ before o after, pieces = before ++ o :: after ∧ o ∈ k.overflow ∧
    (i ∈ o.hunkIndexes ∨ i ∈ after.flatMap DiffFileRecord.hunkIndexes) ∧
    maxChunks ≤ k.chunks.length

structure PiecesPacked (maxChunks : Nat) (pieces : List DiffFileRecord) (k k' : Packing) :
    Prop where
  room : HasRoom maxChunks k'
  continues : Continues k k'
  once : ∀ i, k'.placements i ≤
    k.placements i + (pieces.flatMap DiffFileRecord.hunkIndexes).count i
  placed : ∀ i ∈ pieces.flatMap DiffFileRecord.hunkIndexes,
    i ∈ k'.packed ∨ i ∈ k'.held ∨ LeftOut maxChunks pieces k' i
  fresh : ∀ o ∈ k'.overflow, o ∈ k.overflow ∨ o ∈ pieces

theorem LeftOut.cons {pieces : List DiffFileRecord} {k : Packing} {i : Nat}
    (h : LeftOut maxChunks pieces k i) (piece : DiffFileRecord) :
    LeftOut maxChunks (piece :: pieces) k i := by
  obtain ⟨before, o, after, rfl, ho⟩ := h
  exact ⟨piece :: before, o, after, rfl, ho⟩

theorem packPieces_packed (limits : ReviewLimits) (changed : List Path) (pieces : List DiffFileRecord) (k : Packing)
    (hroom : HasRoom maxChunks k) :
    PiecesPacked maxChunks pieces k (packPieces limits maxChunks changed pieces k) := by
  induction pieces generalizing k with
  | nil => exact ⟨hroom, .refl k, fun _ => Nat.le_refl _, nofun, fun _ h => .inl h⟩
  | cons piece rest ih =>
    unfold packPieces
    dsimp only
    have hcontinues := makeRoom_continues limits changed piece hroom
    have hplacements := makeRoom_placements limits changed piece hroom
    have hoverflow := makeRoom_overflow limits changed piece hroom
    have hroom' := makeRoom_room limits changed piece hroom
    generalize makeRoom limits maxChunks changed k piece = m at hcontinues hplacements hoverflow hroom'
    split
    · next hfull =>
      refine ⟨hroom', ⟨hcontinues.chunks, hcontinues.kept, ?_⟩, ?_, ?_, ?_⟩
      · exact List.Subset.trans hcontinues.overflow (List.subset_append_left _ _)
      · intro i
        have hm := hplacements i
        simp only [Packing.placements, Packing.packed, Packing.held, Packing.spilled,
          List.flatMap_append, List.flatMap_cons, List.flatMap_nil, List.append_nil,
          List.count_append] at hm ⊢
        omega
      · intro i hi
        rw [List.flatMap_cons, List.mem_append] at hi
        exact .inr (.inr ⟨[], piece, rest, rfl, List.mem_append_right _ List.mem_cons_self, hi,
          hfull⟩)
      · intro o ho
        rcases List.mem_append.mp ho with hold | hnew
        · exact .inl (hoverflow ▸ hold)
        · exact .inr (List.mem_singleton.mp hnew ▸ List.mem_cons_self)
    · next hleft =>
      have hnext : HasRoom maxChunks { m with current := m.current ++ [piece] } :=
        fun _ => Nat.not_le.mp hleft
      obtain ⟨hroom₂, hcontinues₂, honce, hplaced, hfresh⟩ := ih _ hnext
      have hheld : ∀ i, i ∈ m.packed ∨ i ∈ m.held ∨ i ∈ piece.hunkIndexes →
          i ∈ (packPieces limits maxChunks changed rest
            { m with current := m.current ++ [piece] }).packed ∨
          i ∈ (packPieces limits maxChunks changed rest
            { m with current := m.current ++ [piece] }).held := by
        intro i hi
        apply hcontinues₂.kept
        rcases hi with hp | hh | hpiece
        · exact .inl hp
        · exact .inr (by simp only [Packing.held, List.flatMap_append, List.mem_append]; exact .inl hh)
        · exact .inr (by simp [Packing.held, hpiece])
      refine ⟨hroom₂, ⟨Nat.le_trans hcontinues.chunks hcontinues₂.chunks, ?_, ?_⟩, ?_, ?_, ?_⟩
      · intro i hi
        rcases hcontinues.kept i hi with hp | hh
        · exact hheld i (.inl hp)
        · exact hheld i (.inr (.inl hh))
      · exact List.Subset.trans hcontinues.overflow hcontinues₂.overflow
      · intro i
        have hm := hplacements i
        have hi := honce i
        simp only [Packing.placements, Packing.packed, Packing.held, Packing.spilled,
          List.flatMap_append, List.flatMap_cons, List.flatMap_nil, List.append_nil,
          List.count_append] at hm hi ⊢
        omega
      · intro i hi
        rw [List.flatMap_cons, List.mem_append] at hi
        rcases hi with hpiece | hrest
        · exact (hheld i (.inr (.inr hpiece))).imp_right .inl
        · rcases hplaced i hrest with hp | hh | hout
          · exact .inl hp
          · exact .inr (.inl hh)
          · exact .inr (.inr (hout.cons piece))
      · intro o ho
        rcases hfresh o ho with hold | hnew
        · exact .inl (hoverflow ▸ hold)
        · exact .inr (List.mem_cons_of_mem _ hnew)

/-- The hunk is after one that found the chunks used up, in a record that was cut in pieces. -/
def CutOff (limits : ReviewLimits) (maxChunks : Nat) (r : DiffFileRecord) (k : Packing) (i : Nat) :
    Prop :=
  fits limits [] r = false ∧ maxChunks ≤ k.chunks.length ∧
    ∃ before h after, r.hunks = before ++ h :: after ∧ h.index ∈ k.spilled ∧
      i ∈ after.map DiffHunk.index

/-- Why a record's hunk is in no chunk; the record's paths overflow with it. -/
def Spilled (limits : ReviewLimits) (maxChunks : Nat) (r : DiffFileRecord) (k : Packing) (i : Nat) :
    Prop :=
  (∃ o ∈ k.overflow, o.coveragePaths = r.coveragePaths) ∧
    (i ∈ k.spilled ∨ CutOff limits maxChunks r k i)

structure RecordsPacked (limits : ReviewLimits) (maxChunks : Nat) (done : List DiffFileRecord)
    (k : Packing) : Prop where
  room : HasRoom maxChunks k
  once : ∀ i, k.placements i ≤ (done.flatMap DiffFileRecord.hunkIndexes).count i
  placed : ∀ r ∈ done, ∀ i ∈ r.hunkIndexes,
    i ∈ k.packed ∨ i ∈ k.held ∨ Spilled limits maxChunks r k i
  origin : ∀ o ∈ k.overflow, ∃ r ∈ done, o.coveragePaths = r.coveragePaths

theorem Spilled.mono {r : DiffFileRecord} {k k' : Packing} {i : Nat} (h : Continues k k')
    (hs : Spilled limits maxChunks r k i) : Spilled limits maxChunks r k' i := by
  have hspilled : ∀ j, j ∈ k.spilled → j ∈ k'.spilled := by
    intro j hj
    obtain ⟨o, ho, hmem⟩ := List.mem_flatMap.mp hj
    exact List.mem_flatMap.mpr ⟨o, h.overflow ho, hmem⟩
  obtain ⟨⟨o, ho, hpaths⟩, hi⟩ := hs
  refine ⟨⟨o, h.overflow ho, hpaths⟩, ?_⟩
  rcases hi with hi | ⟨hfits, hfull, before, hunk, after, hsplit, hh, ha⟩
  · exact .inl (hspilled i hi)
  · exact .inr ⟨hfits, Nat.le_trans hfull h.chunks, before, hunk, after, hsplit,
      hspilled _ hh, ha⟩

theorem spilled_whole (k : Packing) (r : DiffFileRecord) {i : Nat} (hi : i ∈ r.hunkIndexes) :
    Spilled limits maxChunks r { k with overflow := k.overflow ++ [r] } i :=
  ⟨⟨r, List.mem_append_right _ List.mem_cons_self, rfl⟩,
    .inl (List.mem_flatMap.mpr ⟨r, List.mem_append_right _ List.mem_cons_self, hi⟩)⟩

theorem RecordsPacked.overflow {done : List DiffFileRecord} {k : Packing}
    (h : RecordsPacked limits maxChunks done k) (r : DiffFileRecord) :
    RecordsPacked limits maxChunks (done ++ [r]) { k with overflow := k.overflow ++ [r] } := by
  have hcontinues : Continues k { k with overflow := k.overflow ++ [r] } :=
    ⟨Nat.le_refl _, fun _ hi => hi, List.subset_append_left _ _⟩
  refine ⟨h.room, ?_, ?_, ?_⟩
  · intro i
    have hi := h.once i
    simp only [Packing.placements, Packing.packed, Packing.held, Packing.spilled,
      List.flatMap_append, List.flatMap_cons, List.flatMap_nil, List.append_nil,
      List.count_append] at hi ⊢
    omega
  · intro r' hr' i hi
    rcases List.mem_append.mp hr' with hold | hnew
    · exact (h.placed r' hold i hi).imp_right (Or.imp_right (Spilled.mono hcontinues))
    · obtain rfl := List.mem_singleton.mp hnew
      exact .inr (.inr (spilled_whole k r' hi))
  · intro o ho
    rcases List.mem_append.mp ho with hold | hnew
    · obtain ⟨r', hr', hpaths⟩ := h.origin o hold
      exact ⟨r', List.mem_append_left _ hr', hpaths⟩
    · exact ⟨r, List.mem_append_right _ List.mem_cons_self, by rw [List.mem_singleton.mp hnew]⟩

/-- The pieces of a record carry its paths and, together, its hunks. -/
theorem piecesOf_ok {r : DiffFileRecord} {pieces : List DiffFileRecord}
    (h : piecesOf limits r = some pieces) :
    (pieces = [r] ∧ fits limits [] r = true) ∨
      (pieces = r.hunks.map (hunkRecord r) ∧ fits limits [] r = false) := by
  unfold piecesOf at h
  split at h
  · next hfits => exact .inl ⟨(Option.some.inj h).symm, hfits⟩
  · next hfits =>
    split at h
    · dsimp only at h
      split at h
      · cases h
      · exact .inr ⟨(Option.some.inj h).symm, Bool.not_eq_true _ ▸ hfits⟩
    · cases h

theorem pieces_hunkIndexes (r : DiffFileRecord) (hunks : List DiffHunk) :
    (hunks.map (hunkRecord r)).flatMap DiffFileRecord.hunkIndexes = hunks.map DiffHunk.index := by
  induction hunks with
  | nil => rfl
  | cons h rest ih =>
    rw [List.map_cons, List.flatMap_cons, ih]
    rfl

theorem piecesOf_hunkIndexes {r : DiffFileRecord} {pieces : List DiffFileRecord}
    (h : piecesOf limits r = some pieces) :
    pieces.flatMap DiffFileRecord.hunkIndexes = r.hunkIndexes := by
  rcases piecesOf_ok h with ⟨rfl, _⟩ | ⟨rfl, _⟩
  · simp
  · exact pieces_hunkIndexes r r.hunks

theorem piecesOf_paths {r piece : DiffFileRecord} {pieces : List DiffFileRecord}
    (h : piecesOf limits r = some pieces) (hpiece : piece ∈ pieces) :
    piece.coveragePaths = r.coveragePaths := by
  rcases piecesOf_ok h with ⟨rfl, _⟩ | ⟨rfl, _⟩
  · rw [List.mem_singleton.mp hpiece]
  · obtain ⟨hunk, _, rfl⟩ := List.mem_map.mp hpiece
    rfl

theorem LeftOut.spilled {r : DiffFileRecord} {pieces : List DiffFileRecord} {k : Packing} {i : Nat}
    (hpieces : piecesOf limits r = some pieces) (h : LeftOut maxChunks pieces k i) :
    Spilled limits maxChunks r k i := by
  obtain ⟨before, o, after, hsplit, ho, hi, hfull⟩ := h
  have hmem : o ∈ pieces := hsplit ▸ List.mem_append_right _ List.mem_cons_self
  refine ⟨⟨o, ho, piecesOf_paths hpieces hmem⟩, ?_⟩
  rcases hi with hi | hi
  · exact .inl (List.mem_flatMap.mpr ⟨o, ho, hi⟩)
  · rcases piecesOf_ok hpieces with ⟨hone, _⟩ | ⟨hcut, hfits⟩
    · -- a record packed whole has no later pieces
      have hnil : after = [] := by
        rw [hone] at hsplit
        cases before with
        | nil => exact (List.cons.inj hsplit).2.symm
        | cons _ _ => simp at hsplit
      simp [hnil] at hi
    · rw [hcut] at hsplit
      obtain ⟨before', rest', hhunks, _, hrest⟩ := List.map_eq_append_iff.mp hsplit
      obtain ⟨hunk, after', hrest', rfl, hafter⟩ := List.map_eq_cons_iff.mp hrest
      rw [← hafter, pieces_hunkIndexes] at hi
      refine .inr ⟨hfits, hfull, before', hunk, after', by rw [hhunks, hrest'], ?_, hi⟩
      exact List.mem_flatMap.mpr ⟨_, ho, List.mem_cons_self⟩

theorem RecordsPacked.pieces {done : List DiffFileRecord} {k : Packing} {r : DiffFileRecord}
    {pieces : List DiffFileRecord} (h : RecordsPacked limits maxChunks done k)
    (hpieces : piecesOf limits r = some pieces) :
    RecordsPacked limits maxChunks (done ++ [r])
      (packPieces limits maxChunks changed pieces k) := by
  obtain ⟨hroom, hcontinues, honce, hplaced, hfresh⟩ :=
    packPieces_packed limits changed pieces k h.room
  rw [piecesOf_hunkIndexes hpieces] at honce hplaced
  refine ⟨hroom, ?_, ?_, ?_⟩
  · intro i
    have hi := h.once i
    have hi' := honce i
    rw [List.flatMap_append, List.count_append, List.flatMap_singleton]
    omega
  · intro r' hr' i hi
    rcases List.mem_append.mp hr' with hold | hnew
    · rcases h.placed r' hold i hi with hp | hh | hs
      · exact (hcontinues.kept i (.inl hp)).imp_right .inl
      · exact (hcontinues.kept i (.inr hh)).imp_right .inl
      · exact .inr (.inr (hs.mono hcontinues))
    · obtain rfl := List.mem_singleton.mp hnew
      exact (hplaced i hi).imp_right (Or.imp_right (LeftOut.spilled hpieces))
  · intro o ho
    rcases hfresh o ho with hold | hnew
    · obtain ⟨r', hr', hpaths⟩ := h.origin o hold
      exact ⟨r', List.mem_append_left _ hr', hpaths⟩
    · exact ⟨r, List.mem_append_right _ List.mem_cons_self, piecesOf_paths hpieces hnew⟩

theorem RecordsPacked.record {done : List DiffFileRecord} {k : Packing} {r : DiffFileRecord}
    (h : RecordsPacked limits maxChunks done k) :
    RecordsPacked limits maxChunks (done ++ [r]) (packRecord limits maxChunks changed k r) := by
  unfold packRecord
  split
  · exact h.overflow r
  · split
    · exact h.overflow r
    · next pieces hpieces => exact h.pieces hpieces

theorem RecordsPacked.fold (changed : List Path) {done : List DiffFileRecord} {k : Packing}
    (h : RecordsPacked limits maxChunks done k) (records : List DiffFileRecord) :
    RecordsPacked limits maxChunks (done ++ records)
      (records.foldl (packRecord limits maxChunks changed) k) := by
  induction records generalizing done k with
  | nil => rwa [List.append_nil]
  | cons r rest ih =>
    rw [List.foldl_cons, List.append_cons]
    exact ih h.record

/-- What `_pack_records` returns: chunks and overflow, with nothing held back. -/
theorem packRecords_packed (limits : ReviewLimits) (maxChunks : Nat) (changed : List Path)
    (records : List DiffFileRecord) :
    RecordsPacked limits maxChunks records (packRecords limits maxChunks changed records) ∧
      (packRecords limits maxChunks changed records).current = [] := by
  have hinit : RecordsPacked limits maxChunks [] {} :=
    ⟨nofun, fun _ => Nat.le_refl _, nofun, nofun⟩
  have h := hinit.fold changed records
  rw [List.nil_append] at h
  unfold packRecords
  have hflushed := flush_flushed changed h.room
  refine ⟨⟨fun hne => absurd hflushed.current hne, ?_, ?_, ?_⟩, hflushed.current⟩
  · intro i
    rw [hflushed.placements]
    exact h.once i
  · intro r hr i hi
    rcases h.placed r hr i hi with hp | hh | hs
    · exact (hflushed.continues.kept i (.inl hp)).imp_right .inl
    · exact (hflushed.continues.kept i (.inr hh)).imp_right .inl
    · exact .inr (.inr (hs.mono hflushed.continues))
  · rw [hflushed.overflow]
    exact h.origin

end ReviewSensei.Planning
