import ReviewSensei.DiffLines
import ReviewSensei.DiffTwins

/-! A diff of Git records is read record by record: each stretch of lines from one Git header to
the next gives one file record, whatever stood before it. -/
namespace ReviewSensei.Diff
open Session (bind_ok)

variable {p : Parser} {s s' t : State} {line : Text}

/-- What a line outside every hunk leaves; the line itself is not yet in. -/
structure Outside (s s' : State) : Prop where
  hunk : s.hunk = none → s'.hunk = none
  file : ∃ binary, s'.file = { s.file with binary := binary }
  fileRecords : s'.fileRecords = s.fileRecords
  hunkRecords : s'.hunkRecords = s.hunkRecords
  paths : s.paths ⊆ s'.paths
  hunkCount : s'.hunkCount = s.hunkCount
  sawStructure : s.sawStructure = true → s'.sawStructure = true
  stopped : s'.stoppedForBudget = s.stoppedForBudget

theorem Outside.refl (s : State) : Outside s s :=
  ⟨id, ⟨s.file.binary, rfl⟩, rfl, rfl, List.Subset.refl _, rfl, id, rfl⟩

theorem Outside.trans {s₁ s₂ s₃ : State} (h : Outside s₁ s₂) (h' : Outside s₂ s₃) :
    Outside s₁ s₃ := by
  obtain ⟨binary, hfile⟩ := h.file
  obtain ⟨binary', hfile'⟩ := h'.file
  refine ⟨h'.hunk ∘ h.hunk, ⟨binary', ?_⟩, h'.fileRecords.trans h.fileRecords,
    h'.hunkRecords.trans h.hunkRecords, List.Subset.trans h.paths h'.paths, h'.hunkCount.trans h.hunkCount,
    h'.sawStructure ∘ h.sawStructure, h'.stopped.trans h.stopped⟩
  rw [hfile', hfile]

theorem Outside.sawOne (s : State) : Outside s s.sawOne :=
  ⟨id, ⟨s.file.binary, rfl⟩, rfl, rfl, List.Subset.refl _, rfl, fun _ => rfl, rfl⟩

theorem Registered.outside (h : Registered s s') : Outside s s' := by
  obtain ⟨⟨paths, complete, pending, selected, rfl⟩, hgrown⟩ := h
  exact ⟨id, ⟨s.file.binary, rfl⟩, rfl, rfl, hgrown, rfl, id, rfl⟩

/-- All that a line inside a file, no Git header, can do in a pass that reads on. -/
inductive LineEffect (p : Parser) (line : Text) (s s' : State) : Prop
  | outside (s₁ s₂ : State) (finished : finish p s = .ok s₁) (left : Outside s₁ s₂)
      (after : s' = s₂.appendFileLine line)
  | header (s₁ : State) (range : HunkRange) (kind : lineKind s.hunk.isSome line = .hunkHeader)
      (finished : finish p s = .ok s₁)
      (pending : s₁.pendingOldMarker = false) (matched : s₁.matchedFileMarker = true)
      (ranged : hunkRange p.maxLineNumber line = .ok range) (room : s₁.hunkCount < p.hunkLimit)
      (after : s' = (State.openHunk { s₁.sawOne with hunkCount := s₁.hunkCount + 1 }
        (range.open (s₁.hunkCount + 1) line)).appendFileLine line)
  | body (k : OpenHunk) (reading : s.hunk = some k) (kind : lineKind true line = .other)
      (read : bodyLine p line k s = .ok s') (pushed : Pushed line k s s')

theorem RenameEffect.lineEffect {s₁ : State} (hfinish : finish p s = .ok s₁)
    (h : RenameEffect line s₁.sawOne (.next s')) : LineEffect p line s s' := by
  obtain ⟨s₂, pairs, source, ofHeader, hreg, hr | hr⟩ := h
  · refine .outside s₁ _ hfinish ?_ (Step.next.inj hr)
    have h₂ := (Outside.sawOne s₁).trans hreg.outside
    exact ⟨h₂.hunk, h₂.file, h₂.fileRecords, h₂.hunkRecords, h₂.paths, h₂.hunkCount,
      h₂.sawStructure, h₂.stopped⟩
  · cases hr

theorem newMarkerLine_effect (hs : s.hunk = none)
    (h : newMarkerLine p line s = .ok (.next s')) : LineEffect p line s s' := by
  obtain ⟨_, _, path, s₁, _, hresolve, _, hmatch⟩ := newMarkerLine_ok hs h
  have hreg := resolvePendingGitHeader_ok hresolve
  obtain ⟨s₂, hreg', ⟨hr, _, _⟩ | hr⟩ := matchMarkers_ok (hreg.hunk_eq.trans hs) hmatch
  · refine .outside s _ (finish_none hs) ?_ (Step.next.inj hr)
    have h₂ := (Outside.sawOne s).trans (hreg.trans hreg').outside
    exact ⟨h₂.hunk, h₂.file, h₂.fileRecords, h₂.hunkRecords, h₂.paths, h₂.hunkCount,
      h₂.sawStructure, h₂.stopped⟩
  · cases hr

theorem oldMarkerLine_effect (hs : s.hunk = none) (hin : s.file.inFile = true)
    (h : oldMarkerLine p line s = .ok (.next s')) : LineEffect p line s s' := by
  obtain ⟨_, path, _, hr⟩ := oldMarkerLine_ok hs h
  refine .outside s _ (finish_none hs) ?_ (Step.next.inj hr)
  refine ⟨id, ⟨s.file.binary, ?_⟩, rfl, rfl, List.Subset.refl _, rfl, fun _ => rfl, rfl⟩
  change { s.file with inFile := true } = s.file
  rw [← hin]

theorem hunkHeaderLine_effect (hkind : lineKind s.hunk.isSome line = .hunkHeader)
    (h : hunkHeaderLine p line s = .ok (.next s')) : LineEffect p line s s' := by
  obtain ⟨s₁, range, hfinish, hpending, hmatched, hrange, hadmit⟩ := hunkHeaderLine_ok h
  have hnone : s₁.hunk = none := closeHunk_closed hfinish
  rcases admitHunk_ok (by exact hnone) hadmit with ⟨hroom, hr⟩ | ⟨_, _, hr⟩
  · exact .header s₁ range hkind hfinish hpending hmatched hrange hroom (Step.next.inj hr)
  · cases hr

theorem outsideLine_effect (hs : s.hunk = none) (hr : s' = outsideLine line s) :
    LineEffect p line s s' := by
  unfold outsideLine at hr
  refine .outside s _ (finish_none hs) ?_ hr
  split
  · exact ⟨id, ⟨true, rfl⟩, rfl, rfl, List.Subset.refl _, rfl, id, rfl⟩
  · exact .refl s

theorem otherLine_effect (hkind : lineKind s.hunk.isSome line = .other)
    (h : otherLine p line s = .ok (.next s')) : LineEffect p line s s' := by
  unfold otherLine at h
  cases hs : s.hunk with
  | none =>
    rw [hs] at h
    exact outsideLine_effect hs (Step.next.inj (Except.ok.inj h)).symm
  | some k =>
    rw [hs] at h hkind
    obtain ⟨s₁, hbody, h⟩ := bind_ok h
    obtain rfl := Step.next.inj (Except.ok.inj h)
    rcases bodyLine_ok hs hbody with ⟨_, hsat, rfl⟩ | hpushed
    · refine .outside (s.keepHunk k) _ ?_ (.refl _) rfl
      simp only [finish, closeHunk, hs, if_pos hsat]
    · exact .body k hs hkind hbody hpushed

theorem step_effect (hin : s.file.inFile = true) (hline : starts "diff --git " line = false)
    (h : step p line s = .ok (.next s')) : LineEffect p line s s' := by
  unfold step at h
  have hout (hkind : lineKind s.hunk.isSome line = .oldMarker ∨
      lineKind s.hunk.isSome line = .newMarker) : s.hunk = none := by
    simpa using lineKind_outside (hkind.imp_right Or.inl)
  cases hkind : lineKind s.hunk.isSome line with
  | gitHeader => grind [lineKind]
  | oldMarker =>
    rw [hkind] at h
    exact oldMarkerLine_effect (hout (.inl hkind)) hin h
  | newMarker =>
    rw [hkind] at h
    exact newMarkerLine_effect (hout (.inr hkind)) h
  | badMarker =>
    rw [hkind] at h
    cases h
  | renameFrom =>
    rw [hkind] at h
    obtain ⟨s₁, path, hfinish, _, h⟩ := renameFromLine_ok h
    have hnone : s₁.hunk = none := closeHunk_closed hfinish
    exact (renameFromPath_ok (s := s₁.sawOne) hnone h).lineEffect hfinish
  | renameTo =>
    rw [hkind] at h
    obtain ⟨s₁, path, hfinish, _, h⟩ := renameToLine_ok h
    have hnone : s₁.hunk = none := closeHunk_closed hfinish
    exact (renameToPath_ok (s := s₁.sawOne) hnone h).lineEffect hfinish
  | hunkHeader =>
    rw [hkind] at h
    exact hunkHeaderLine_effect hkind h
  | other =>
    rw [hkind] at h
    exact otherLine_effect hkind h

/-- What a line inside a file leaves of what has been filed; the line itself is not yet in. -/
structure Carries (s s' : State) : Prop where
  inFile : s'.file.inFile = s.file.inFile
  lines : s'.file.lines = s.file.lines
  closed : ∃ ks, s'.hunkRecords = s.hunkRecords ++ ks ∧ s'.file.hunks = s.file.hunks ++ ks
  fileRecords : s'.fileRecords = s.fileRecords
  paths : s.paths ⊆ s'.paths
  hunkCount : s.hunkCount ≤ s'.hunkCount
  sawStructure : s.sawStructure = true → s'.sawStructure = true
  stopped : s'.stoppedForBudget = s.stoppedForBudget

theorem Carries.refl (s : State) : Carries s s :=
  ⟨rfl, rfl, ⟨[], by simp⟩, rfl, List.Subset.refl _, le_rfl, id, rfl⟩

theorem Carries.trans {s₁ s₂ s₃ : State} (h : Carries s₁ s₂) (h' : Carries s₂ s₃) :
    Carries s₁ s₃ := by
  obtain ⟨ks, hrecords, hhunks⟩ := h.closed
  obtain ⟨ks', hrecords', hhunks'⟩ := h'.closed
  refine ⟨h'.inFile.trans h.inFile, h'.lines.trans h.lines, ⟨ks ++ ks', ?_, ?_⟩,
    h'.fileRecords.trans h.fileRecords, List.Subset.trans h.paths h'.paths,
    h.hunkCount.trans h'.hunkCount, h'.sawStructure ∘ h.sawStructure, h'.stopped.trans h.stopped⟩
  · rw [hrecords', hrecords, List.append_assoc]
  · rw [hhunks', hhunks, List.append_assoc]

theorem Outside.carries (h : Outside s s') : Carries s s' := by
  obtain ⟨binary, hfile⟩ := h.file
  exact ⟨by rw [hfile], by rw [hfile], ⟨[], by simp [h.hunkRecords], by simp [hfile]⟩,
    h.fileRecords, h.paths, h.hunkCount.ge, h.sawStructure, h.stopped⟩

theorem finish_carries (h : finish p s = .ok s') : Carries s s' := by
  rcases finish_ok h with ⟨_, rfl⟩ | ⟨k, _, _, rfl⟩
  · exact .refl _
  · exact ⟨rfl, rfl, ⟨[_], rfl, rfl⟩, rfl, List.Subset.refl _, le_rfl, id, rfl⟩

/-- Every line of a file leaves the records of earlier files alone. -/
theorem LineEffect.carries (h : LineEffect p line s s') :
    ∃ s₁, Carries s s₁ ∧ s' = s₁.appendFileLine line := by
  cases h with
  | outside s₁ s₂ hfinish hout hafter =>
    exact ⟨s₂, (finish_carries hfinish).trans hout.carries, hafter⟩
  | header s₁ range _ hfinish _ _ _ _ hafter =>
    refine ⟨_, (finish_carries hfinish).trans ?_, hafter⟩
    exact ⟨rfl, rfl, ⟨[], by simp [State.sawOne, State.openHunk]⟩, rfl, List.Subset.refl _,
      Nat.le_succ _, fun _ => rfl, rfl⟩
  | body k _ _ _ hpushed =>
    obtain ⟨_, k', s₁, rfl, hcases⟩ := hpushed
    refine ⟨{ s₁ with hunk := some { k' with lines := k'.lines ++ [line] } }, ?_, rfl⟩
    rcases hcases with ⟨_, _, rfl⟩ | ⟨_, _, rfl⟩ | ⟨_, _, rfl⟩ | ⟨_, _, rfl⟩ <;>
      exact ⟨rfl, rfl, ⟨[], by simp [State.addedLine, State.deletedLine]⟩, rfl,
        List.Subset.refl _, le_rfl, id, rfl⟩

/-- The last file is closed and nothing is left pending. -/
structure Settled (s : State) : Prop where
  hunk : s.hunk = none
  file : s.file = {}
  pendingOldMarker : s.pendingOldMarker = false
  pendingGitHeader : s.pendingGitHeader = none
  pendingRenameFrom : s.pendingRenameFrom = none
  renameFromForHeader : s.renameFromForHeader = none
  stopped : s.stoppedForBudget = false

theorem Settled.keepFile (h : Settled s) : s.keepFile = s := by
  rw [State.keepFile, h.file, if_neg (by simp)]

theorem Settled.closeFile (h : Settled s) : Diff.closeFile p s = .ok s := by
  rw [closeFile_none h.hunk, h.keepFile]

/-- What a Git header does once the file before it is closed. -/
theorem gitHeaderLine_settled (h : Settled s) :
    gitHeaderLine p line s =
      if maxGitHeaderBytes < utf8Size line then
        .error "diff Git header exceeds the configured size limit"
      else do
        let header ← splitGitHeader line
        let s ← selectGitHeader p header s.enterFile.sawOne
        return .next (s.underHeader.appendFileLine line) := by
  have hstart : startFile p s = .ok s.enterFile := by
    unfold startFile
    rw [h.closeFile]
    rfl
  unfold gitHeaderLine
  rw [finish_none h.hunk]
  change (if s.pendingOldMarker = true then _ else if s.pendingGitHeader.isSome = true then _ else
    if (s.pendingRenameFrom.isSome || s.renameFromForHeader.isSome) = true then _ else _) = _
  rw [h.pendingOldMarker, h.pendingGitHeader, h.pendingRenameFrom, h.renameFromForHeader, hstart]
  rfl

/-- Keeping the file leaves what is pending. -/
theorem keepFile_pending (s : State) :
    s.keepFile.pendingOldMarker = s.pendingOldMarker ∧
      s.keepFile.pendingGitHeader = s.pendingGitHeader ∧
      s.keepFile.pendingRenameFrom = s.pendingRenameFrom ∧
      s.keepFile.renameFromForHeader = s.renameFromForHeader ∧
      s.keepFile.stoppedForBudget = s.stoppedForBudget := by
  unfold State.keepFile
  split <;> exact ⟨rfl, rfl, rfl, rfl, rfl⟩

theorem closeFile_strict (hp : p.allowIncomplete = false) (h : closeFile p s = .ok s') :
    ∃ s₁, finish p s = .ok s₁ ∧ s' = s₁.keepFile := by
  obtain ⟨s₁, hclose, hs'⟩ := bind_ok h
  rw [hp] at hclose
  exact ⟨s₁, hclose, (Except.ok.inj hs').symm⟩

/-- A Git header acts on the closed file before it. -/
theorem gitHeaderLine_closed (hp : p.allowIncomplete = false) (hclose : closeFile p s = .ok s')
    (h : Settled s') : gitHeaderLine p line s = gitHeaderLine p line s' := by
  obtain ⟨s₁, hfinish, rfl⟩ := closeFile_strict hp hclose
  have hnone : s₁.hunk = none := closeHunk_closed hfinish
  obtain ⟨hold, hpending, hfrom, hheader, _⟩ := keepFile_pending s₁
  have hstart : startFile p s₁ = .ok s₁.keepFile.enterFile := by
    unfold startFile
    rw [closeFile_none hnone]
    rfl
  rw [gitHeaderLine_settled h]
  unfold gitHeaderLine
  rw [hfinish]
  change (if s₁.pendingOldMarker = true then _ else if s₁.pendingGitHeader.isSome = true then _ else
    if (s₁.pendingRenameFrom.isSome || s₁.renameFromForHeader.isSome) = true then _ else _) = _
  rw [← hold, ← hpending, ← hfrom, ← hheader, h.pendingOldMarker, h.pendingGitHeader,
    h.pendingRenameFrom, h.renameFromForHeader, hstart]
  rfl

/-- A Git header is read only where the file before it can be closed. -/
theorem gitHeaderLine_settles (hp : p.allowIncomplete = false) {r : Step}
    (hstopped : s.stoppedForBudget = false) (hin : s.file.inFile = true)
    (h : gitHeaderLine p line s = .ok r) :
    ∃ s', closeFile p s = .ok s' ∧ Settled s' := by
  obtain ⟨s₁, s₂, hfinish, hold, hpending, hfrom, hheader, _, _⟩ := gitHeaderLine_ok h
  have hclose : closeFile p s = .ok s₁.keepFile := by
    unfold closeFile
    rw [hp]
    exact congrArg (· >>= _) hfinish
  have hcarried := finish_carries hfinish
  obtain ⟨hold', hpending', hfrom', hheader', hstopped'⟩ := keepFile_pending s₁
  have hin₁ : s₁.file.inFile = true := hcarried.inFile.trans hin
  refine ⟨s₁.keepFile, hclose, ?_, ?_, hold'.trans hold, hpending'.trans hpending,
    hfrom'.trans hfrom, hheader'.trans hheader, (hstopped'.trans hcarried.stopped).trans hstopped⟩
  · have hnone : s₁.hunk = none := closeHunk_closed hfinish
    rw [State.keepFile, if_pos hin₁]
    exact hnone
  · rw [State.keepFile, if_pos hin₁]

/-- The state without the marks a Git header overwrites. -/
def State.unmarked (s : State) : State :=
  { s with currentPath := none, currentOldPath := none, matchedFileMarker := false }

theorem recordPath_unmarked (path : Option Path) (s : State) :
    recordPath p path s.unmarked = (recordPath p path s).map (Prod.map id State.unmarked) := by
  cases path with
  | none => rfl
  | some q =>
    unfold recordPath
    change (if q ∈ s.paths then _ else if p.fileLimit ≤ s.paths.length then _ else _) = _
    dsimp only
    split
    · rfl
    · split
      · split <;> rfl
      · rfl

theorem commitGitHeader_unmarked (candidate : Option Path × Option Path) (s : State) :
    commitGitHeader p candidate s.unmarked =
      (commitGitHeader p candidate s).map State.unmarked := by
  unfold commitGitHeader
  rw [recordPath_unmarked]
  cases recordPath p candidate.1 s with
  | error e => rfl
  | ok r =>
    change (recordPath p candidate.2 r.2.unmarked >>= _) = Except.map _ (recordPath p _ r.2 >>= _)
    rw [recordPath_unmarked]
    cases recordPath p candidate.2 r.2 <;> rfl

/-- What was current or selected before a Git header does not matter to it. -/
theorem selectGitHeader_unmarked (header : GitHeader) (s : State) :
    (selectGitHeader p header { s.unmarked with selectedGitHeader := none }).map
        State.underHeader = (selectGitHeader p header s).map State.underHeader := by
  cases header with
  | unresolvedUnquoted rest => rfl
  | fields old new =>
    unfold selectGitHeader
    dsimp only
    cases decodeGitHeaderFields p.rules old new with
    | error e => rfl
    | ok selected =>
      have hcommit := commitGitHeader_unmarked (p := p) selected
        { s with selectedGitHeader := some selected }
      change Except.map _ (commitGitHeader p selected
        (State.unmarked { s with selectedGitHeader := some selected }) >>= _) =
          Except.map _ (commitGitHeader p selected
            { s with selectedGitHeader := some selected } >>= _)
      rw [hcommit]
      cases commitGitHeader p selected { s with selectedGitHeader := some selected } <;> rfl

/-- The second pass is nearer to no ceiling than the first. -/
structure Behind (p : Parser) (s t : State) : Prop where
  room : s.paths.length ≤ p.fileLimit
  fewer : t.paths ⊆ s.paths
  nodup : t.paths.Nodup
  count : t.hunkCount ≤ s.hunkCount

theorem Twin.behind (h : Twin p s t) : Behind p s t := ⟨h.room, h.fewer, h.nodup, h.count⟩

/-- Between two files the past is all that tells two states apart. -/
theorem Behind.twin (h : Behind p s t) (hs : Settled s) (ht : Settled t) :
    Twin p { s.enterFile.sawOne.unmarked with selectedGitHeader := none }
      { t.enterFile.sawOne.unmarked with selectedGitHeader := none } := by
  refine ⟨⟨⟨t.changed, t.deleted, t.paths, t.binaryPaths, t.renamedPairs, t.hunkRecords,
    t.fileRecords, t.hunkCount, t.enumerationComplete⟩, [], 0, ?_, ?_⟩, h.room, h.fewer, h.nodup,
    h.count⟩
  · simp only [State.withPast, State.enterFile, State.sawOne, State.unmarked, hs.hunk, ht.hunk,
      hs.file, ht.file, hs.pendingOldMarker, ht.pendingOldMarker, hs.pendingGitHeader,
      ht.pendingGitHeader, hs.pendingRenameFrom, ht.pendingRenameFrom, hs.renameFromForHeader,
      ht.renameFromForHeader, hs.stopped, ht.stopped, Option.map_none]
  · change List.map DiffHunk.content [] = List.map DiffHunk.content s.file.hunks
    rw [hs.file]

theorem step_gitHeader (hline : starts "diff --git " line = true) (s : State) :
    step p line s = gitHeaderLine p line s := by
  have hkind : lineKind s.hunk.isSome line = .gitHeader := by simp [lineKind, hline]
  rw [step, hkind]

/-- A Git header starts two settled passes as twins. -/
theorem Behind.gitHeaderLine (hp : p.allowIncomplete = false) (h : Behind p s t)
    (hs : Settled s) (ht : Settled t) :
    Follows (TwinStep p) (gitHeaderLine p line s) (gitHeaderLine p line t) := by
  rw [gitHeaderLine_settled hs, gitHeaderLine_settled ht]
  refine .guard id fun _ => .bind_same fun header _ => ?_
  have hselect := (((h.twin hs ht).selectGitHeader hp header).map fun _ _ h₁ => h₁.underHeader)
  rw [selectGitHeader_unmarked, selectGitHeader_unmarked] at hselect
  have hnext := hselect.bind (Q := TwinStep p)
    (f := fun s => Except.ok (Step.next (s.appendFileLine line)))
    (g := fun t => Except.ok (Step.next (t.appendFileLine line)))
    fun _ _ h₂ => h₂.appendFileLine.next
  have hmap (x : Except String State) :
      (x.map State.underHeader >>= fun s => Except.ok (Step.next (s.appendFileLine line))) =
        (do let s ← x; return .next (s.underHeader.appendFileLine line)) := by
    cases x <;> rfl
  rw [hmap, hmap] at hnext
  exact hnext

/-- The lines of one file: a Git header and what follows it up to the next. -/
def Segment (seg : List Text) : Prop :=
  ∃ g body, seg = g :: body ∧ starts "diff --git " g = true ∧
    ∀ l ∈ body, starts "diff --git " l = false

theorem exists_segments (ls : List Text) :
    ∃ (first : List Text) (segs : List (List Text)), ls = first ++ segs.flatten ∧ (∀ l ∈ first, starts "diff --git " l = false) ∧
      ∀ seg ∈ segs, Segment seg := by
  induction ls with
  | nil => exact ⟨[], [], rfl, nofun, nofun⟩
  | cons l ls ih =>
    obtain ⟨first, segs, rfl, hfirst, hsegs⟩ := ih
    cases hl : starts "diff --git " l with
    | true =>
      refine ⟨[], (l :: first) :: segs, rfl, nofun, ?_⟩
      intro seg hseg
      rcases List.mem_cons.mp hseg with rfl | hmem
      · exact ⟨l, first, rfl, hl, hfirst⟩
      · exact hsegs seg hmem
    | false =>
      refine ⟨l :: first, segs, rfl, ?_, hsegs⟩
      intro l' hl'
      rcases List.mem_cons.mp hl' with rfl | hmem
      · exact hl
      · exact hfirst l' hmem

/-- Lines that begin with a Git header are the lines of files. -/
theorem segments_of_header {g : Text} {ls : List Text} (hg : starts "diff --git " g = true) :
    ∃ segs : List (List Text), g :: ls = segs.flatten ∧ segs ≠ [] ∧ ∀ seg ∈ segs, Segment seg := by
  obtain ⟨first, segs, rfl, hfirst, hsegs⟩ := exists_segments ls
  refine ⟨(g :: first) :: segs, rfl, by simp, ?_⟩
  intro seg hseg
  rcases List.mem_cons.mp hseg with rfl | hmem
  · exact ⟨g, first, rfl, hg, hfirst⟩
  · exact hsegs seg hmem

/-- A strict pass does not stop early, so it can be cut anywhere. -/
theorem run_append (hp : p.allowIncomplete = false) (hs : Twin p s s) (ls ls' : List Text) :
    run p (ls ++ ls') s = run p ls s >>= run p ls' := by
  induction ls generalizing s with
  | nil => rfl
  | cons l ls ih =>
    rw [List.cons_append]
    unfold run
    cases hstep : step p l s with
    | error e => rfl
    | ok r =>
      obtain ⟨r', hr', s₁, t₁, rfl, rfl, h₁⟩ := hs.step hp l r hstep
      obtain rfl := Step.next.inj (Except.ok.inj (hstep.symm.trans hr'))
      exact ih h₁

/-- A state that is its own twin stays so. -/
theorem Twin.run_self (hp : p.allowIncomplete = false) (hs : Twin p s s) {ls : List Text}
    (h : Diff.run p ls s = .ok s') : Twin p s' s' := by
  obtain ⟨t', ht', htwin⟩ := hs.run hp ls s' h
  obtain rfl := Except.ok.inj (h.symm.trans ht')
  exact htwin

/-- What the lines of a file's body do to what has been filed. -/
structure Extends (ls : List Text) (s s' : State) : Prop where
  inFile : s'.file.inFile = true
  lines : s'.file.lines = s.file.lines ++ ls
  closed : ∃ ks, s'.hunkRecords = s.hunkRecords ++ ks ∧ s'.file.hunks = s.file.hunks ++ ks
  fileRecords : s'.fileRecords = s.fileRecords
  paths : s.paths ⊆ s'.paths
  hunkCount : s.hunkCount ≤ s'.hunkCount
  sawStructure : s.sawStructure = true → s'.sawStructure = true
  stopped : s'.stoppedForBudget = s.stoppedForBudget

theorem Carries.extends {s₁ : State} (l : Text) (hin : s.file.inFile = true) (h : Carries s s₁) :
    Extends [l] s (s₁.appendFileLine l) := by
  have hin₁ : s₁.file.inFile = true := h.inFile.trans hin
  unfold State.appendFileLine
  rw [if_pos hin₁]
  refine ⟨hin₁, ?_, h.closed, h.fileRecords, h.paths, h.hunkCount, h.sawStructure, h.stopped⟩
  change s₁.file.lines ++ [l] = s.file.lines ++ [l]
  rw [h.lines]

theorem Extends.trans {ls ls' : List Text} {s₁ s₂ s₃ : State} (h : Extends ls s₁ s₂)
    (h' : Extends ls' s₂ s₃) : Extends (ls ++ ls') s₁ s₃ := by
  obtain ⟨ks, hrecords, hhunks⟩ := h.closed
  obtain ⟨ks', hrecords', hhunks'⟩ := h'.closed
  refine ⟨h'.inFile, ?_, ⟨ks ++ ks', ?_, ?_⟩, h'.fileRecords.trans h.fileRecords,
    List.Subset.trans h.paths h'.paths, h.hunkCount.trans h'.hunkCount,
    h'.sawStructure ∘ h.sawStructure, h'.stopped.trans h.stopped⟩
  · rw [h'.lines, h.lines, List.append_assoc]
  · rw [hrecords', hrecords, List.append_assoc]
  · rw [hhunks', hhunks, List.append_assoc]

theorem run_extends (hp : p.allowIncomplete = false) (hs : Twin p s s)
    (hin : s.file.inFile = true) {ls : List Text}
    (hls : ∀ l ∈ ls, starts "diff --git " l = false) (h : run p ls s = .ok s') :
    Extends ls s s' := by
  induction ls generalizing s with
  | nil =>
    obtain rfl := Except.ok.inj h
    exact ⟨hin, by simp, ⟨[], by simp⟩, rfl, List.Subset.refl _, le_rfl, id, rfl⟩
  | cons l ls ih =>
    unfold run at h
    cases hstep : step p l s with
    | error e =>
      rw [hstep] at h
      cases h
    | ok r =>
      obtain ⟨r', hr', s₁, t₁, rfl, rfl, h₁⟩ := hs.step hp l r hstep
      obtain rfl := Step.next.inj (Except.ok.inj (hstep.symm.trans hr'))
      rw [hstep] at h
      obtain ⟨s₂, hcarries, rfl⟩ := (step_effect hin (hls l List.mem_cons_self) hstep).carries
      have hone := hcarries.extends l hin
      exact hone.trans (ih h₁ hone.inFile (fun l' hl' => hls l' (List.mem_cons_of_mem _ hl')) h)

/-- The pass over the lines of one file, from one settled state to the next, files one record. -/
def ReadsFile (p : Parser) (seg : List Text) (s s' : State) (f : DiffFileRecord) : Prop :=
  ∃ s₁ s₂, run p seg s = .ok s₁ ∧ finish p s₁ = .ok s₂ ∧ s₂.file.inFile = true ∧
    s' = s₂.keepFile ∧ f = s₂.file.record s₂.currentOldPath s₂.currentPath ∧ Settled s'

variable {seg : List Text} {f : DiffFileRecord}

/-- The Git header of a file has been read. -/
structure Entered (line : Text) (s s' : State) : Prop where
  inFile : s'.file.inFile = true
  lines : s'.file.lines = [line]
  headerLines : s'.file.headerLines = [line]
  hunks : s'.file.hunks = []
  seenHunk : s'.file.seenHunk = false
  hunk : s'.hunk = none
  hunkRecords : s'.hunkRecords = s.hunkRecords
  fileRecords : s'.fileRecords = s.fileRecords
  paths : s.paths ⊆ s'.paths
  hunkCount : s'.hunkCount = s.hunkCount
  sawStructure : s'.sawStructure = true
  stopped : s'.stoppedForBudget = false

theorem gitHeaderLine_entered (hs : Settled s) (h : gitHeaderLine p line s = .ok (.next s')) :
    Entered line s s' := by
  obtain ⟨s₁, s₂, hfinish, _, _, _, _, hreg, hr⟩ := gitHeaderLine_ok h
  rw [finish_none hs.hunk] at hfinish
  obtain rfl := Except.ok.inj hfinish
  rw [hs.keepFile] at hreg
  obtain rfl := Step.next.inj hr
  obtain ⟨⟨paths, complete, pending, selected, rfl⟩, hgrown⟩ := hreg
  have hfile := hs.file
  dsimp only [State.underHeader, State.appendFileLine, State.enterFile]
  rw [hfile]
  exact ⟨rfl, rfl, rfl, rfl, rfl, hs.hunk, rfl, rfl, hgrown, rfl, rfl, hs.stopped⟩

/-- The lines of a file have been read, and the file is still open. -/
structure Covered (seg : List Text) (s s' : State) : Prop where
  inFile : s'.file.inFile = true
  lines : s'.file.lines = seg
  hunkRecords : s'.hunkRecords = s.hunkRecords ++ s'.file.hunks
  fileRecords : s'.fileRecords = s.fileRecords
  paths : s.paths ⊆ s'.paths
  hunkCount : s.hunkCount ≤ s'.hunkCount
  sawStructure : s'.sawStructure = true
  stopped : s'.stoppedForBudget = false

theorem Entered.extends {ls : List Text} {s₁ : State} (h : Entered line s s₁)
    (hext : Extends ls s₁ s') : Covered (line :: ls) s s' := by
  obtain ⟨ks, hrecords, hhunks⟩ := hext.closed
  refine ⟨hext.inFile, ?_, ?_, hext.fileRecords.trans h.fileRecords,
    List.Subset.trans h.paths hext.paths, h.hunkCount ▸ hext.hunkCount,
    hext.sawStructure h.sawStructure, hext.stopped.trans h.stopped⟩
  · rw [hext.lines, h.lines, List.singleton_append]
  · rw [hrecords, hhunks, h.hunkRecords, h.hunks, List.nil_append]

/-- Lines that begin with a Git header are read alike after any two settled pasts. -/
theorem Behind.run (hp : p.allowIncomplete = false) (h : Behind p s t) (hs : Settled s)
    (ht : Settled t) {g : Text} (hg : starts "diff --git " g = true) (ls : List Text) :
    Follows (Twin p) (Diff.run p (g :: ls) s) (Diff.run p (g :: ls) t) := by
  unfold Diff.run
  rw [step_gitHeader hg, step_gitHeader hg]
  intro s' hs'
  cases hstep : Diff.gitHeaderLine p g s with
  | error e =>
    rw [hstep] at hs'
    cases hs'
  | ok r =>
    obtain ⟨r', hr', s₁, t₁, rfl, rfl, h₁⟩ := h.gitHeaderLine hp hs ht r hstep
    rw [hstep] at hs'
    rw [hr']
    exact h₁.run hp ls s' hs'

/-- The Git header of a run that begins with one has been read. -/
theorem run_entered (hp : p.allowIncomplete = false) (hs : Settled s) (hself : Twin p s s)
    {g : Text} (hg : starts "diff --git " g = true) {ls : List Text}
    (h : run p (g :: ls) s = .ok s') :
    ∃ s₁, Entered g s s₁ ∧ Twin p s₁ s₁ ∧ run p [g] s = .ok s₁ ∧ run p ls s₁ = .ok s' := by
  unfold run at h
  rw [step_gitHeader hg] at h
  cases hstep : gitHeaderLine p g s with
  | error e =>
    rw [hstep] at h
    cases h
  | ok r =>
    obtain ⟨r', hr', s₁, t₁, rfl, rfl, h₁⟩ := hself.behind.gitHeaderLine hp hs hs r hstep
    obtain rfl := Step.next.inj (Except.ok.inj (hstep.symm.trans hr'))
    rw [hstep] at h
    refine ⟨s₁, gitHeaderLine_entered hs hstep, h₁, ?_, h⟩
    unfold run
    rw [step_gitHeader hg, hstep]
    rfl

/-- After the lines of a file the file is open and holds them. -/
theorem run_segment (hp : p.allowIncomplete = false) (hseg : Segment seg) (hs : Settled s)
    (hself : Twin p s s) (h : run p seg s = .ok s') : Covered seg s s' := by
  obtain ⟨g, body, rfl, hg, hbody⟩ := hseg
  obtain ⟨s₁, hentered, h₁, _, hrest⟩ := run_entered hp hs hself hg h
  exact hentered.extends (run_extends hp h₁ hentered.inFile hbody hrest)

theorem readsFile_of_run (hp : p.allowIncomplete = false) (hseg : Segment seg) (hs : Settled s)
    (hself : Twin p s s) {s₁ : State} (h : run p seg s = .ok s₁)
    (hclose : closeFile p s₁ = .ok s') (hs' : Settled s') : ∃ f, ReadsFile p seg s s' f := by
  obtain ⟨s₂, hfinish, rfl⟩ := closeFile_strict hp hclose
  have hin := (run_segment hp hseg hs hself h).inFile
  exact ⟨_, s₁, s₂, h, hfinish, (finish_carries hfinish).inFile.trans hin, rfl, rfl, hs'⟩

/-- What a file's lines leave behind. -/
structure Filed (p : Parser) (seg : List Text) (s s' : State) (f : DiffFileRecord) : Prop where
  text : f.text = joined seg
  fileRecords : s'.fileRecords = s.fileRecords ++ [f]
  hunkRecords : s'.hunkRecords = s.hunkRecords ++ f.hunks
  paths : s.paths ⊆ s'.paths
  hunkCount : s.hunkCount ≤ s'.hunkCount
  self : Twin p s' s'
  settled : Settled s'
  sawStructure : s'.sawStructure = true

theorem Twin.finish_self (hp : p.allowIncomplete = false) (hs : Twin p s s)
    (h : Diff.finish p s = .ok s') : Twin p s' s' := by
  obtain ⟨t', ht', htwin⟩ := hs.finish hp s' h
  obtain rfl := Except.ok.inj (h.symm.trans ht')
  exact htwin

theorem ReadsFile.filed (hp : p.allowIncomplete = false) (hseg : Segment seg) (hs : Settled s)
    (hself : Twin p s s) (h : ReadsFile p seg s s' f) : Filed p seg s s' f := by
  obtain ⟨s₁, s₂, hrun, hfinish, hin, rfl, rfl, hs'⟩ := h
  have hcovered := run_segment hp hseg hs hself hrun
  have hself₂ : Twin p s₂ s₂ := (hself.run_self hp hrun).finish_self hp hfinish
  have hcarries := finish_carries hfinish
  obtain ⟨ks, hrecords, hhunks⟩ := hcarries.closed
  have hkeep : s₂.keepFile = { s₂ with
      fileRecords := s₂.fileRecords ++ [s₂.file.record s₂.currentOldPath s₂.currentPath]
      file := {} } := by
    rw [State.keepFile, if_pos hin]
  refine ⟨?_, ?_, ?_, ?_, ?_, hself₂.keepFile, hs', ?_⟩
  · change joined s₂.file.lines = joined seg
    rw [hcarries.lines, hcovered.lines]
  · rw [hkeep]
    change s₂.fileRecords ++ [_] = s.fileRecords ++ [_]
    rw [hcarries.fileRecords, hcovered.fileRecords]
  · rw [hkeep]
    change s₂.hunkRecords = s.hunkRecords ++ s₂.file.hunks
    rw [hrecords, hhunks, hcovered.hunkRecords, List.append_assoc]
  · rw [hkeep]
    exact List.Subset.trans hcovered.paths hcarries.paths
  · rw [hkeep]
    exact hcovered.hunkCount.trans hcarries.hunkCount
  · rw [hkeep]
    exact hcarries.sawStructure hcovered.sawStructure

/-- Twins file the same record, but for the numbers of its hunks. -/
theorem Twin.record {s t : State} (h : Twin p s t) :
    (t.file.record t.currentOldPath t.currentPath).content =
      (s.file.record s.currentOldPath s.currentPath).content := by
  obtain ⟨g, hunks, index, rfl, hh⟩ := h.inside
  unfold DiffFileRecord.content FileState.record State.withPast
  dsimp only
  rw [hh]

/-- The same lines after another past give the same record. -/
theorem ReadsFile.twin (hp : p.allowIncomplete = false) (hseg : Segment seg) (hs : Settled s)
    (ht : Settled t) (hbehind : Behind p s t) (h : ReadsFile p seg s s' f) :
    ∃ t' f', ReadsFile p seg t t' f' ∧ f'.content = f.content ∧ Behind p s' t' := by
  obtain ⟨s₁, s₂, hrun, hfinish, hin, rfl, rfl, hs'⟩ := h
  obtain ⟨g, body, rfl, hg, hbody⟩ := hseg
  obtain ⟨t₁, htrun, h₁⟩ := hbehind.run hp hs ht hg body s₁ hrun
  obtain ⟨t₂, hfinish', h₂⟩ := h₁.finish hp s₂ hfinish
  have hin' : t₂.file.inFile = true := h₂.marks.inFile.trans hin
  have hsettled : Settled t₂.keepFile := by
    have hmarks := h₂.keepFile.marks
    have hstopped : t₂.keepFile.stoppedForBudget = s₂.keepFile.stoppedForBudget := by
      obtain ⟨g, hunks, index, hinside, _⟩ := h₂.keepFile.inside
      rw [hinside]
      rfl
    refine ⟨h₂.keepFile.hunk_none hs'.hunk, ?_, hmarks.pendingOldMarker.trans hs'.pendingOldMarker,
      hmarks.pendingGitHeader.trans hs'.pendingGitHeader,
      hmarks.pendingRenameFrom.trans hs'.pendingRenameFrom,
      hmarks.renameFromForHeader.trans hs'.renameFromForHeader, hstopped.trans hs'.stopped⟩
    rw [State.keepFile, if_pos hin']
  exact ⟨_, _, ⟨t₁, t₂, htrun, hfinish', hin', rfl, rfl, hsettled⟩, h₂.record,
    h₂.keepFile.behind⟩

end ReviewSensei.Diff
