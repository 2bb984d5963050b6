import ReviewSensei.DiffParserSteps

/-! Over a whole pass the hunks stay in order, the file records hold each of them at most once, and
the inventory names every path they name. -/
namespace ReviewSensei.Diff
open Session (bind_ok)

variable {p : Parser} {s s' : State} {line : Text} {r : Step}

/-- Every path of the pair is in the inventory. -/
def Located (paths : List Path) (old new : Option Path) : Prop :=
  (∀ q ∈ old, q ∈ paths) ∧ ∀ q ∈ new, q ∈ paths

theorem Located.mono {paths paths' : List Path} {old new : Option Path}
    (h : Located paths old new) (hsub : paths ⊆ paths') : Located paths' old new :=
  ⟨fun q hq => hsub (h.1 q hq), fun q hq => hsub (h.2 q hq)⟩

structure Tracked (s : State) : Prop where
  sorted : (s.hunkRecords.map DiffHunk.index).Pairwise (· < ·)
  below : ∀ k ∈ s.hunkRecords, k.index ≤ s.hunkCount
  opened : ∀ h, s.hunk = some h → h.index = s.hunkCount ∧ ∀ k ∈ s.hunkRecords, k.index < h.index
  filed : (s.fileRecords.flatMap DiffFileRecord.hunks ++ s.file.hunks).Sublist s.hunkRecords
  located : ∀ k ∈ s.hunkRecords, Located s.paths k.oldPath k.newPath
  current : s.matchedFileMarker = true → s.pendingOldMarker = false →
    Located s.paths s.currentOldPath s.currentPath
  reading : ∀ h, s.hunk = some h → s.matchedFileMarker = true ∧ s.pendingOldMarker = false

/-- The fields the invariant reads, but for the inventory, which may grow. -/
structure SameTracking (s s' : State) : Prop where
  hunkRecords : s'.hunkRecords = s.hunkRecords
  hunkCount : s'.hunkCount = s.hunkCount
  filed : (s'.fileRecords.flatMap DiffFileRecord.hunks ++ s'.file.hunks).Sublist
    (s.fileRecords.flatMap DiffFileRecord.hunks ++ s.file.hunks)
  grown : s.paths ⊆ s'.paths
  hunk : ∀ h', s'.hunk = some h' → ∃ h, s.hunk = some h ∧ h'.index = h.index
  current : s'.matchedFileMarker = true → s'.pendingOldMarker = false →
    s.matchedFileMarker = true ∧ s.pendingOldMarker = false ∧
      s'.currentOldPath = s.currentOldPath ∧ s'.currentPath = s.currentPath
  reading : s.matchedFileMarker = true → s.pendingOldMarker = false → s'.hunk ≠ none →
    s'.matchedFileMarker = true ∧ s'.pendingOldMarker = false

theorem Tracked.same (hs : Tracked s) (h : SameTracking s s') : Tracked s' where
  sorted := h.hunkRecords ▸ hs.sorted
  below := h.hunkRecords ▸ h.hunkCount ▸ hs.below
  opened := by
    intro k' hk'
    obtain ⟨k, hk, hindex⟩ := h.hunk k' hk'
    rw [hindex, h.hunkCount, h.hunkRecords]
    exact hs.opened k hk
  filed := h.hunkRecords ▸ h.filed.trans hs.filed
  located := by
    rw [h.hunkRecords]
    exact fun k hk => (hs.located k hk).mono h.grown
  current := by
    intro hmatched hpending
    obtain ⟨hm, hp, hold, hnew⟩ := h.current hmatched hpending
    rw [hold, hnew]
    exact (hs.current hm hp).mono h.grown
  reading := by
    intro k' hk'
    obtain ⟨k, hk, _⟩ := h.hunk k' hk'
    obtain ⟨hm, hp⟩ := hs.reading k hk
    exact h.reading hm hp (by simp [hk'])

/-- The fields the invariant reads. -/
def State.tracking (s : State) :=
  (s.hunkRecords, s.fileRecords, s.file.hunks, s.paths, s.hunkCount, s.hunk, s.matchedFileMarker,
    s.pendingOldMarker, s.currentOldPath, s.currentPath)

theorem Tracked.untouched (hs : Tracked s) (h : s'.tracking = s.tracking) : Tracked s' := by
  simp only [State.tracking, Prod.mk.injEq] at h
  obtain ⟨hrecords, hfiles, hhunks, hpaths, hcount, hhunk, hmatched, hpending, hold, hnew⟩ := h
  refine hs.same ⟨hrecords, hcount, ?_, ?_, fun k hk => ⟨k, hhunk ▸ hk, rfl⟩, ?_, ?_⟩
  · rw [hfiles, hhunks]
  · rw [hpaths]
    exact List.Subset.refl _
  · rw [hmatched, hpending]
    exact fun hm hp => ⟨hm, hp, hold, hnew⟩
  · rw [hmatched, hpending]
    exact fun hm hp _ => ⟨hm, hp⟩

theorem Tracked.keepHunk (hs : Tracked s) {k : OpenHunk} (hk : s.hunk = some k) :
    Tracked (s.keepHunk k) := by
  obtain ⟨hindex, hbelow⟩ := hs.opened k hk
  obtain ⟨hmatched, hpending⟩ := hs.reading k hk
  refine ⟨?_, ?_, nofun, ?_, ?_, fun _ _ => hs.current hmatched hpending, nofun⟩
  · change (List.map DiffHunk.index (s.hunkRecords ++ [_])).Pairwise (· < ·)
    rw [List.map_append, List.pairwise_append]
    refine ⟨hs.sorted, List.pairwise_singleton _ _, ?_⟩
    intro a ha b hb
    obtain ⟨record, hrecord, rfl⟩ := List.mem_map.mp ha
    obtain rfl := List.mem_singleton.mp hb
    exact hbelow record hrecord
  · intro record hrecord
    rcases List.mem_append.mp hrecord with hold | hnew
    · exact hs.below record hold
    · obtain rfl := List.mem_singleton.mp hnew
      exact hindex.le
  · change (_ ++ (s.file.hunks ++ [_])).Sublist (s.hunkRecords ++ [_])
    rw [← List.append_assoc]
    exact hs.filed.append (List.Sublist.refl _)
  · intro record hrecord
    rcases List.mem_append.mp hrecord with hold | hnew
    · exact hs.located record hold
    · obtain rfl := List.mem_singleton.mp hnew
      exact hs.current hmatched hpending

theorem Tracked.closeHunk {b : Bool} (hs : Tracked s) (h : closeHunk p b s = .ok s') :
    Tracked s' := by
  rcases closeHunk_ok h with ⟨_, rfl⟩ | ⟨k, hk, _, rfl⟩ | ⟨k, _, _, _, _, rfl⟩
  · exact hs
  · exact hs.keepHunk hk
  · exact hs.same ⟨rfl, rfl, List.Sublist.refl _, List.Subset.refl _, nofun,
      fun hm hp => ⟨hm, hp, rfl, rfl⟩, fun hm hp _ => ⟨hm, hp⟩⟩

theorem Tracked.keepFile (hs : Tracked s) : Tracked s.keepFile := by
  unfold State.keepFile
  split
  · refine hs.same ⟨rfl, rfl, ?_, List.Subset.refl _, fun k hk => ⟨k, hk, rfl⟩,
      fun hm hp => ⟨hm, hp, rfl, rfl⟩, fun hm hp _ => ⟨hm, hp⟩⟩
    simp [FileState.record]
  · exact hs

theorem Tracked.dropFile (hs : Tracked s) : Tracked s.dropFile := by
  unfold State.dropFile
  split
  · refine hs.same ⟨rfl, rfl, ?_, List.Subset.refl _, fun k hk => ⟨k, hk, rfl⟩,
      fun hm hp => ⟨hm, hp, rfl, rfl⟩, fun hm hp _ => ⟨hm, hp⟩⟩
    simp
  · exact hs

theorem Tracked.appendFileLine (hs : Tracked s) : Tracked (s.appendFileLine line) := by
  unfold State.appendFileLine
  split
  · exact hs.untouched rfl
  · exact hs

theorem Tracked.registered (hs : Tracked s) (h : Registered s s') : Tracked s' := by
  obtain ⟨⟨paths, complete, pending, selected, rfl⟩, hgrown⟩ := h
  exact hs.same ⟨rfl, rfl, List.Sublist.refl _, hgrown, fun k hk => ⟨k, hk, rfl⟩,
    fun hm hp => ⟨hm, hp, rfl, rfl⟩, fun hm hp _ => ⟨hm, hp⟩⟩

theorem Tracked.gitHeaderLine (hs : Tracked s) (h : gitHeaderLine p line s = .ok r) :
    Tracked r.state := by
  obtain ⟨s₁, s₂, hfinish, _, _, _, _, hreg, rfl⟩ := gitHeaderLine_ok h
  have hclosed := closeHunk_closed hfinish
  have h₁ : Tracked { s₁.keepFile.enterFile with sawStructure := true } :=
    (hs.closeHunk hfinish).keepFile.untouched rfl
  have hnone : s₂.hunk = none := by
    rw [hreg.hunk_eq]
    change s₁.keepFile.hunk = none
    unfold State.keepFile
    split <;> exact hclosed
  refine Tracked.appendFileLine ((h₁.registered hreg).same ⟨rfl, rfl, List.Sublist.refl _,
    List.Subset.refl _, ?_, nofun, ?_⟩)
  · intro k hk
    exact ⟨k, hk, rfl⟩
  · intro _ _ hne
    exact absurd hnone hne

theorem Tracked.oldMarkerLine (hs : Tracked s) (hnone : s.hunk = none)
    (h : oldMarkerLine p line s = .ok r) : Tracked r.state := by
  obtain ⟨_, path, _, rfl⟩ := oldMarkerLine_ok hnone h
  refine Tracked.appendFileLine (hs.same ⟨rfl, rfl, List.Sublist.refl _, List.Subset.refl _,
    fun k hk => ⟨k, hk, rfl⟩, nofun, ?_⟩)
  intro _ _ hne
  exact absurd hnone hne

theorem Tracked.stopped (hs : Tracked s) :
    Tracked ({ s with stoppedForBudget := true } : State).dropFile :=
  Tracked.dropFile (hs.untouched rfl)

theorem Tracked.matchMarkers {path : Option Path} (hs : Tracked s) (hnone : s.hunk = none)
    (h : matchMarkers p line path s = .ok r) : Tracked r.state := by
  obtain ⟨s₁, hreg, ⟨rfl, hold, hnew⟩ | rfl⟩ := matchMarkers_ok hnone h
  · have h₁ := hs.registered hreg
    refine Tracked.appendFileLine ⟨h₁.sorted, h₁.below, h₁.opened, h₁.filed, h₁.located,
      fun _ _ => ⟨hold, hnew⟩, ?_⟩
    intro k hk
    have hk' : s₁.hunk = some k := hk
    rw [hreg.hunk_eq, hnone] at hk'
    cases hk'
  · exact (hs.registered hreg).stopped

theorem Tracked.newMarkerLine (hs : Tracked s) (hnone : s.hunk = none)
    (h : newMarkerLine p line s = .ok r) : Tracked r.state := by
  obtain ⟨_, _, path, s₁, _, hresolve, _, hmatch⟩ := newMarkerLine_ok hnone h
  have hreg := resolvePendingGitHeader_ok hresolve
  have hsaw : Tracked { s with sawStructure := true } :=
    hs.untouched rfl
  exact (hsaw.registered hreg).matchMarkers (hreg.hunk_eq.trans hnone) hmatch

theorem Tracked.renameEffect (hs : Tracked s) (h : RenameEffect line s r) : Tracked r.state := by
  obtain ⟨s₁, pairs, source, ofHeader, hreg, rfl | rfl⟩ := h
  · exact Tracked.appendFileLine ((hs.registered hreg).untouched rfl)
  · exact (hs.registered hreg).stopped

theorem Tracked.hunkHeaderLine (hs : Tracked s) (h : hunkHeaderLine p line s = .ok r) :
    Tracked r.state := by
  obtain ⟨s₁, range, hfinish, hpending, hmatched, _, hadmit⟩ := hunkHeaderLine_ok h
  have h₁ := hs.closeHunk hfinish
  have hnone : s₁.hunk = none := closeHunk_closed hfinish
  rcases admitHunk_ok (by exact hnone) hadmit with ⟨_, rfl⟩ | ⟨_, _, rfl⟩
  · refine Tracked.appendFileLine ⟨h₁.sorted, fun k hk => Nat.le_succ_of_le (h₁.below k hk), ?_,
      h₁.filed, h₁.located, fun _ _ => h₁.current hmatched hpending, fun _ _ => ⟨hmatched, hpending⟩⟩
    intro k hk
    obtain rfl := Option.some.inj hk
    exact ⟨rfl, fun k hk => Nat.lt_succ_of_le (h₁.below k hk)⟩
  · refine Tracked.keepFile ⟨h₁.sorted, fun k hk => Nat.le_succ_of_le (h₁.below k hk), ?_,
      h₁.filed, h₁.located, fun _ _ => h₁.current hmatched hpending, ?_⟩
    · intro k hk
      exact absurd (hk.symm.trans hnone) (by simp)
    · intro k hk
      exact absurd (hk.symm.trans hnone) (by simp)

theorem Tracked.pushed {k : OpenHunk} (hs : Tracked s) (hk : s.hunk = some k)
    (h : Pushed line k s s') : Tracked s' := by
  obtain ⟨_, k', s₁, rfl, hcases⟩ := h
  refine Tracked.appendFileLine (hs.same ?_)
  have hopen : ∀ l : OpenHunk, some { k' with lines := k'.lines ++ [line] } = some l →
      k'.index = k.index → ∃ l', s.hunk = some l' ∧ l.index = l'.index := by
    intro l hl hindex
    obtain rfl := Option.some.inj hl
    exact ⟨k, hk, hindex⟩
  rcases hcases with ⟨_, rfl, rfl⟩ | ⟨_, rfl, rfl⟩ | ⟨_, rfl, rfl⟩ | ⟨_, rfl, rfl⟩ <;>
    exact ⟨rfl, rfl, List.Sublist.refl _, List.Subset.refl _, fun l hl => hopen l hl rfl,
      fun hm hp => ⟨hm, hp, rfl, rfl⟩, fun hm hp _ => ⟨hm, hp⟩⟩

theorem Tracked.outsideLine (hs : Tracked s) : Tracked (Diff.outsideLine line s) := by
  unfold Diff.outsideLine
  refine Tracked.appendFileLine ?_
  split
  · exact hs.untouched rfl
  · exact hs

theorem Tracked.otherLine (hs : Tracked s) (h : otherLine p line s = .ok r) :
    Tracked r.state := by
  rcases otherLine_ok h with ⟨_, rfl⟩ | ⟨k, hk, _, _, rfl⟩ | ⟨k, s', hk, hpushed, rfl⟩
  · exact hs.outsideLine
  · exact (hs.keepHunk hk).appendFileLine
  · exact hs.pushed hk hpushed

/-- One line keeps the invariant. -/
theorem Tracked.step (hs : Tracked s) (h : step p line s = .ok r) : Tracked r.state := by
  unfold Diff.step at h
  have hout (hkind : lineKind s.hunk.isSome line = .oldMarker ∨
      lineKind s.hunk.isSome line = .newMarker) : s.hunk = none := by
    simpa using lineKind_outside (hkind.imp_right Or.inl)
  cases hkind : lineKind s.hunk.isSome line with
  | gitHeader =>
    rw [hkind] at h
    exact hs.gitHeaderLine h
  | oldMarker =>
    rw [hkind] at h
    exact hs.oldMarkerLine (hout (.inl hkind)) h
  | newMarker =>
    rw [hkind] at h
    exact hs.newMarkerLine (hout (.inr hkind)) h
  | badMarker =>
    rw [hkind] at h
    cases h
  | renameFrom =>
    rw [hkind] at h
    obtain ⟨s₁, path, hfinish, _, h⟩ := renameFromLine_ok h
    have hsaw : Tracked { s₁ with sawStructure := true } :=
      (hs.closeHunk hfinish).untouched rfl
    have hnone : s₁.hunk = none := closeHunk_closed hfinish
    exact hsaw.renameEffect (renameFromPath_ok hnone h)
  | renameTo =>
    rw [hkind] at h
    obtain ⟨s₁, path, hfinish, _, h⟩ := renameToLine_ok h
    have hsaw : Tracked { s₁ with sawStructure := true } :=
      (hs.closeHunk hfinish).untouched rfl
    have hnone : s₁.hunk = none := closeHunk_closed hfinish
    exact hsaw.renameEffect (renameToPath_ok hnone h)
  | hunkHeader =>
    rw [hkind] at h
    exact hs.hunkHeaderLine h
  | other =>
    rw [hkind] at h
    exact hs.otherLine h

theorem Tracked.run {records : List Text} (hs : Tracked s) (h : run p records s = .ok s') :
    Tracked s' := by
  induction records generalizing s with
  | nil =>
    obtain rfl := Except.ok.inj h
    exact hs
  | cons line rest ih =>
    unfold Diff.run at h
    split at h
    · cases h
    · next s₁ hstep => exact ih (hs.step hstep) h
    · next s₁ hstep =>
      obtain rfl := Except.ok.inj h
      exact hs.step hstep

theorem Tracked.closeFile (hs : Tracked s) (h : closeFile p s = .ok s') : Tracked s' := by
  obtain ⟨s₁, hclose, h⟩ := bind_ok h
  obtain rfl := Except.ok.inj h
  exact (hs.closeHunk hclose).keepFile

theorem Tracked.closeTruncated (hs : Tracked s) (h : closeTruncated p s = .ok s') :
    Tracked s' := by
  unfold Diff.closeTruncated at h
  split at h
  · obtain rfl := Except.ok.inj h
    exact hs
  · split at h
    · exact hs.closeFile h
    · obtain ⟨s₁, hclose, h⟩ := bind_ok h
      obtain rfl := Except.ok.inj h
      exact (hs.closeHunk hclose).dropFile

/-- What an analysis says of its hunks. -/
structure DiffAnalysis.Accounted (a : DiffAnalysis) : Prop where
  sorted : (a.hunkRecords.map DiffHunk.index).Pairwise (· < ·)
  filed : (a.fileRecords.flatMap DiffFileRecord.hunks).Sublist a.hunkRecords
  located : ∀ k ∈ a.hunkRecords, Located a.changedPaths k.oldPath k.newPath

theorem Tracked.accounted (hs : Tracked s) (bytes total : Nat) :
    (s.analysis bytes total).Accounted :=
  ⟨hs.sorted, (List.sublist_append_left _ _).trans hs.filed, hs.located⟩

theorem Tracked.endOfInput {truncated : Bool} (hs : Tracked s)
    (h : endOfInput p truncated s = .ok s') (bytes total : Nat) :
    (s'.analysis bytes total).Accounted := by
  unfold Diff.endOfInput at h
  split at h
  · obtain ⟨s₁, hclose, h⟩ := bind_ok h
    obtain ⟨s₂, htruncated, h⟩ := bind_ok h
    have hmarked : Tracked { s with enumerationComplete := false, stoppedForBudget := true } :=
      hs.untouched rfl
    -- forgetting what is pending leaves the records and the inventory
    have h₂ := ((hmarked.closeHunk hclose).closeTruncated htruncated).accounted bytes total
    obtain rfl := Except.ok.inj h
    exact ⟨h₂.sorted, h₂.filed, h₂.located⟩
  · obtain ⟨s₁, hclose, h⟩ := bind_ok h
    exact ((hs.closeHunk hclose).closeFile h).accounted bytes total

theorem analyzeDiff_ok {rules : UnicodeRules} {limits : ReviewLimits} {allowIncomplete : Bool}
    {inventory : Inventory} {diff : Text} {a : DiffAnalysis}
    (h : analyzeDiff rules limits allowIncomplete inventory diff = .ok a) :
    parseRecords (parser rules limits allowIncomplete inventory)
      (ceiling allowIncomplete inventory.maxBytes limits.maxDiffBytes)
      (ceiling allowIncomplete inventory.maxLines limits.maxDiffLines) diff = .ok a := by
  unfold analyzeDiff at h
  dsimp only at h
  split at h
  · cases h
  · split at h
    · cases h
    · split at h
      · cases h
      · exact h

theorem parseRecords_ok {byteLimit lineLimit : Nat} {diff : Text} {a : DiffAnalysis}
    (h : parseRecords p byteLimit lineLimit diff = .ok a) :
    ∃ s s', run p ((lines diff).take lineLimit)
        { enumerationComplete := decide (utf8Size diff ≤ byteLimit) &&
            !decide (lineLimit < (lines diff).length) } = .ok s ∧
      endOfInput p (decide (lineLimit < (lines diff).length)) s = .ok s' ∧
      checkEnd s' = .ok () ∧ a = s'.analysis (utf8Size diff) (lines diff).length := by
  obtain ⟨s, hrun, h⟩ := bind_ok h
  obtain ⟨s', hend, h⟩ := bind_ok h
  obtain ⟨_, hcheck, h⟩ := bind_ok h
  exact ⟨s, s', hrun, hend, hcheck, (Except.ok.inj h).symm⟩

/-- Whatever the mode and the ceilings, an analysis accounts for its hunks. -/
theorem analyzeDiff_accounted {rules : UnicodeRules} {limits : ReviewLimits}
    {allowIncomplete : Bool} {inventory : Inventory} {diff : Text} {a : DiffAnalysis}
    (h : analyzeDiff rules limits allowIncomplete inventory diff = .ok a) : a.Accounted := by
  obtain ⟨s, s', hrun, hend, _, rfl⟩ := parseRecords_ok (analyzeDiff_ok h)
  have hinit (b : Bool) : Tracked { enumerationComplete := b } :=
    ⟨.nil, nofun, nofun, .slnil, nofun, nofun, nofun⟩
  exact ((hinit _).run hrun).endOfInput hend _ _

end ReviewSensei.Diff
