import ReviewSensei.DiffParser
import ReviewSensei.SessionSteps
import Mathlib.Data.List.Pairwise

/-! What each line can do to the parser's state, and which hunks a pass has accounted for. -/
namespace ReviewSensei.Diff
open Session (bind_ok)

variable {p : Parser} {s s' : State} {line : Text} {r : Step}

theorem closeHunk_none {b : Bool} (hs : s.hunk = none) : closeHunk p b s = .ok s := by
  simp [closeHunk, hs]

theorem closeFile_none (hs : s.hunk = none) : closeFile p s = .ok s.keepFile := by
  simp only [closeFile, closeHunk_none hs]
  rfl

theorem abandonFile_none (hs : s.hunk = none) : abandonFile p s = .ok s.dropFile := by
  simp only [abandonFile, closeHunk_none hs]
  rfl

theorem closeHunk_ok {b : Bool} (h : closeHunk p b s = .ok s') :
    (s.hunk = none ∧ s' = s) ∨
    (∃ k, s.hunk = some k ∧ k.satisfied ∧ s' = s.keepHunk k) ∨
    (∃ k, s.hunk = some k ∧ ¬ k.satisfied ∧ p.allowIncomplete = true ∧ b = false ∧
      s' = { s with hunk := none }) := by
  unfold closeHunk at h
  split at h
  · next hs => exact .inl ⟨hs, (Except.ok.inj h).symm⟩
  · next k hk =>
    split at h
    · next hsat => exact .inr (.inl ⟨k, hk, hsat, (Except.ok.inj h).symm⟩)
    · next hsat =>
      split at h
      · next hmode =>
        rw [Bool.and_eq_true, Bool.not_eq_true'] at hmode
        exact .inr (.inr ⟨k, hk, hsat, hmode.1, hmode.2, (Except.ok.inj h).symm⟩)
      · cases h

theorem closeHunk_closed {b : Bool} (h : closeHunk p b s = .ok s') : s'.hunk = none := by
  rcases closeHunk_ok h with ⟨hs, rfl⟩ | ⟨k, _, _, rfl⟩ | ⟨k, _, _, _, _, rfl⟩
  · exact hs
  · rfl
  · rfl

theorem finish_ok (h : finish p s = .ok s') :
    (s.hunk = none ∧ s' = s) ∨ ∃ k, s.hunk = some k ∧ k.satisfied ∧ s' = s.keepHunk k := by
  rcases closeHunk_ok h with hnone | hkept | ⟨_, _, _, _, hb, _⟩
  · exact .inl hnone
  · exact .inr hkept
  · cases hb

/-- Registering paths and headers touches four fields, and the inventory only grows. -/
structure Registered (s s' : State) : Prop where
  fields : ∃ paths complete pending selected, s' = { s with
    paths := paths
    enumerationComplete := complete
    pendingGitHeader := pending
    selectedGitHeader := selected }
  grown : s.paths ⊆ s'.paths

theorem Registered.refl (s : State) : Registered s s :=
  ⟨⟨s.paths, s.enumerationComplete, s.pendingGitHeader, s.selectedGitHeader, rfl⟩,
    List.Subset.refl _⟩

theorem Registered.trans {s₁ s₂ s₃ : State} (h₁ : Registered s₁ s₂) (h₂ : Registered s₂ s₃) :
    Registered s₁ s₃ := by
  obtain ⟨⟨paths, complete, pending, selected, rfl⟩, hgrown⟩ := h₁
  obtain ⟨⟨paths', complete', pending', selected', rfl⟩, hgrown'⟩ := h₂
  exact ⟨⟨paths', complete', pending', selected', rfl⟩, List.Subset.trans hgrown hgrown'⟩

theorem recordPath_ok {path : Option Path} {kept : Bool} (h : recordPath p path s = .ok (kept, s')) :
    Registered s s' ∧ (kept = true → ∀ q ∈ path, q ∈ s'.paths) := by
  unfold recordPath at h
  split at h
  · cases h
    exact ⟨.refl s, fun _ q hq => by cases hq⟩
  · next q =>
    split at h
    · next hmem =>
      cases h
      exact ⟨.refl s, fun _ q' hq' => by cases hq'; exact hmem⟩
    · split at h
      · split at h
        · cases h
          exact ⟨⟨⟨s.paths, false, s.pendingGitHeader, s.selectedGitHeader, rfl⟩,
            List.Subset.refl _⟩, nofun⟩
        · cases h
      · cases h
        refine ⟨⟨⟨s.paths ++ [q], s.enumerationComplete, s.pendingGitHeader,
          s.selectedGitHeader, rfl⟩, List.subset_append_left _ _⟩, fun _ q' hq' => ?_⟩
        cases hq'
        exact List.mem_append_right _ List.mem_cons_self

theorem recordBoth_ok {old new : Option Path} {kept : Bool}
    (h : recordBoth p old new s = .ok (kept, s')) :
    Registered s s' ∧ (kept = true → (∀ q ∈ old, q ∈ s'.paths) ∧ ∀ q ∈ new, q ∈ s'.paths) := by
  obtain ⟨⟨first, s₁⟩, h₁, h⟩ := bind_ok h
  obtain ⟨hreg, hold⟩ := recordPath_ok h₁
  cases first with
  | false =>
    cases h
    exact ⟨hreg, nofun⟩
  | true =>
    obtain ⟨hreg', hnew⟩ := recordPath_ok h
    exact ⟨hreg.trans hreg', fun hk => ⟨fun q hq => hreg'.grown (hold rfl q hq), hnew hk⟩⟩

theorem commitGitHeader_ok {candidate : Option Path × Option Path}
    (h : commitGitHeader p candidate s = .ok s') : Registered s s' := by
  obtain ⟨⟨_, s₁⟩, h₁, h⟩ := bind_ok h
  obtain ⟨⟨_, s₂⟩, h₂, h⟩ := bind_ok h
  cases h
  exact (recordPath_ok h₁).1.trans (recordPath_ok h₂).1

/-- Selecting a header and dropping the pending one around the registration of its paths. -/
theorem commitSelected_ok {selected : Option Path × Option Path} {s₁ : State}
    (h : commitGitHeader p selected { s with selectedGitHeader := some selected } = .ok s₁) :
    Registered s { s₁ with pendingGitHeader := none } := by
  obtain ⟨⟨paths, complete, pending, selected, rfl⟩, hgrown⟩ := commitGitHeader_ok h
  exact ⟨⟨paths, complete, none, selected, rfl⟩, hgrown⟩

theorem selectGitHeader_ok {header : GitHeader} (h : selectGitHeader p header s = .ok s') :
    Registered s s' := by
  cases header with
  | unresolvedUnquoted rest =>
    cases h
    exact ⟨⟨s.paths, s.enumerationComplete, some rest, none, rfl⟩, List.Subset.refl _⟩
  | fields old new =>
    obtain ⟨selected, _, h⟩ := bind_ok h
    obtain ⟨s₁, h₁, h⟩ := bind_ok h
    cases h
    exact commitSelected_ok h₁

theorem resolveAs_ok {pending : Text} {old new : Path} (h : resolveAs p pending old new s = .ok s') :
    Registered s s' := by
  unfold resolveAs at h
  split at h
  · cases h
  · obtain ⟨s₁, h₁, h⟩ := bind_ok h
    cases h
    exact commitSelected_ok h₁

theorem resolvePendingGitHeader_ok {old new : Option Path}
    (h : resolvePendingGitHeader p old new s = .ok s') : Registered s s' := by
  unfold resolvePendingGitHeader at h
  split at h
  · cases h
    exact .refl s
  · split at h
    · cases h
    · exact resolveAs_ok h
    · exact resolveAs_ok h
    · exact resolveAs_ok h

theorem stopForBudget_ok (hs : s.hunk = none) (h : stopForBudget p s = .ok r) :
    r = .stop ({ s with stoppedForBudget := true } : State).dropFile := by
  have hs' : ({ s with stoppedForBudget := true } : State).hunk = none := hs
  unfold stopForBudget at h
  rw [abandonFile_none hs'] at h
  exact (Except.ok.inj h).symm

/-- The state in which a file has just been started. -/
def State.enterFile (s : State) : State := { s with file := { s.file with inFile := true } }

theorem startFile_ok (hs : s.hunk = none) (h : startFile p s = .ok s') :
    s' = s.keepFile.enterFile := by
  unfold startFile at h
  rw [closeFile_none hs] at h
  exact (Except.ok.inj h).symm

theorem ensureFile_ok (hs : s.hunk = none) (h : ensureFile p s = .ok s') : s' = s.enterFile := by
  unfold ensureFile at h
  split at h
  · next hin =>
    obtain rfl := Except.ok.inj h
    rw [State.enterFile, ← hin]
  · next hout =>
    rw [startFile_ok hs h, State.keepFile, if_neg hout]

def Step.state : Step → State
  | .next s => s
  | .stop s => s

theorem finish_none (hs : s.hunk = none) : finish p s = .ok s := closeHunk_none hs

theorem gitHeaderLine_ok (h : gitHeaderLine p line s = .ok r) :
    ∃ s₁ s₂, finish p s = .ok s₁ ∧ s₁.pendingOldMarker = false ∧ s₁.pendingGitHeader = none ∧
      s₁.pendingRenameFrom = none ∧ s₁.renameFromForHeader = none ∧
      Registered { s₁.keepFile.enterFile with sawStructure := true } s₂ ∧
      r = .next (s₂.underHeader.appendFileLine line) := by
  obtain ⟨s₁, hfinish, h⟩ := bind_ok h
  split at h
  · cases h
  next hold =>
  split at h
  · cases h
  next hpending =>
  split at h
  · cases h
  next hrename =>
  obtain ⟨s₂, hstart, h⟩ := bind_ok h
  split at h
  · cases h
  obtain ⟨header, _, h⟩ := bind_ok h
  obtain ⟨s₃, hselect, h⟩ := bind_ok h
  have hr := (Except.ok.inj h).symm
  have hreg := selectGitHeader_ok hselect
  rw [startFile_ok (closeHunk_closed hfinish) hstart] at hreg
  simp only [Bool.or_eq_true, not_or, Option.isSome_iff_ne_none, ne_eq, not_not] at hpending hrename
  exact ⟨s₁, s₃, hfinish, by simpa using hold, hpending, hrename.1, hrename.2, hreg,
    hr⟩

theorem oldMarkerLine_ok (hs : s.hunk = none) (h : oldMarkerLine p line s = .ok r) :
    s.pendingOldMarker = false ∧ ∃ path, decodeMarker p.rules line = .ok path ∧
      r = .next (State.appendFileLine { s.enterFile with
        sawStructure := true
        currentPath := path
        currentOldPath := path
        pendingOldMarker := true } line) := by
  obtain ⟨s₁, hfinish, h⟩ := bind_ok h
  rw [finish_none hs] at hfinish
  obtain rfl := Except.ok.inj hfinish
  split at h
  · cases h
  next hold =>
  obtain ⟨s₂, hensure, h⟩ := bind_ok h
  obtain ⟨path, hpath, h⟩ := bind_ok h
  have hs₂ := ensureFile_ok (s := { s with sawStructure := true }) hs hensure
  subst hs₂
  exact ⟨by simpa using hold, path, hpath, (Except.ok.inj h).symm⟩

theorem matchMarkers_ok {path : Option Path} (hs : s.hunk = none)
    (h : matchMarkers p line path s = .ok r) :
    ∃ s₁, Registered s s₁ ∧
      ((r = .next ((s₁.matchMarker path).appendFileLine line) ∧
          (∀ q ∈ s₁.currentOldPath, q ∈ s₁.paths) ∧ ∀ q ∈ path, q ∈ s₁.paths) ∨
        r = .stop ({ s₁ with stoppedForBudget := true } : State).dropFile) := by
  obtain ⟨⟨kept, s₁⟩, hboth, h⟩ := bind_ok h
  obtain ⟨hreg, hkept⟩ := recordBoth_ok hboth
  have hs₁ : s₁.hunk = none := by
    obtain ⟨⟨_, _, _, _, rfl⟩, _⟩ := hreg
    exact hs
  have hold : s₁.currentOldPath = s.currentOldPath := by
    obtain ⟨⟨_, _, _, _, rfl⟩, _⟩ := hreg
    rfl
  refine ⟨s₁, hreg, ?_⟩
  cases kept with
  | false => exact .inr (stopForBudget_ok hs₁ h)
  | true => exact .inl ⟨(Except.ok.inj h).symm, hold ▸ (hkept rfl).1, (hkept rfl).2⟩

theorem newMarkerLine_ok (hs : s.hunk = none) (h : newMarkerLine p line s = .ok r) :
    s.pendingOldMarker = true ∧ s.pendingRenameFrom = none ∧
      ∃ path s₁, decodeMarker p.rules line = .ok path ∧
        resolvePendingGitHeader p s.currentOldPath path { s with sawStructure := true } = .ok s₁ ∧
        conflictsWithHeader s₁ path = false ∧ matchMarkers p line path s₁ = .ok r := by
  obtain ⟨s₁, hfinish, h⟩ := bind_ok h
  rw [finish_none hs] at hfinish
  obtain rfl := Except.ok.inj hfinish
  split at h
  · cases h
  next hold =>
  obtain ⟨path, hpath, h⟩ := bind_ok h
  split at h
  · cases h
  next hrename =>
  obtain ⟨s₁, hresolve, h⟩ := bind_ok h
  split at h
  · cases h
  next hconflict =>
  exact ⟨by simpa using hold, by simpa using hrename, path, s₁, hpath, hresolve,
    by simpa using hconflict, h⟩

theorem renameFromLine_ok (h : renameFromLine p line s = .ok r) :
    ∃ s₁ path, finish p s = .ok s₁ ∧ s₁.pendingOldMarker = false ∧
      renameFromPath p line path { s₁ with sawStructure := true } = .ok r := by
  obtain ⟨s₁, hfinish, h⟩ := bind_ok h
  split at h
  · cases h
  next hold =>
  obtain ⟨path, _, h⟩ := bind_ok h
  exact ⟨s₁, path, hfinish, by simpa using hold, h⟩

theorem renameToLine_ok (h : renameToLine p line s = .ok r) :
    ∃ s₁ path, finish p s = .ok s₁ ∧ s₁.pendingOldMarker = false ∧
      renameToPath p line path { s₁ with sawStructure := true } = .ok r := by
  obtain ⟨s₁, hfinish, h⟩ := bind_ok h
  split at h
  · cases h
  next hold =>
  obtain ⟨path, _, h⟩ := bind_ok h
  exact ⟨s₁, path, hfinish, by simpa using hold, h⟩

/-- A rename line keeps the state up to its registrations, its pairs and its two pending fields;
where it stops, the file is dropped. -/
def RenameEffect (line : Text) (s : State) (r : Step) : Prop :=
  ∃ s₁ pairs source ofHeader, Registered s s₁ ∧
    (r = .next (State.appendFileLine { s₁ with
        renamedPairs := pairs
        pendingRenameFrom := source
        renameFromForHeader := ofHeader } line) ∨
      r = .stop ({ s₁ with stoppedForBudget := true } : State).dropFile)

theorem Registered.hunk_eq (h : Registered s s') : s'.hunk = s.hunk := by
  obtain ⟨⟨_, _, _, _, rfl⟩, _⟩ := h
  rfl

theorem renameWithoutHeader_ok {path : Option Path} (hs : s.hunk = none)
    (h : renameWithoutHeader p line path s = .ok r) : RenameEffect line s r := by
  obtain ⟨⟨kept, s₁⟩, hrecord, h⟩ := bind_ok h
  obtain ⟨hreg, _⟩ := recordPath_ok hrecord
  refine ⟨s₁, s₁.renamedPairs, s₁.pendingRenameFrom, s₁.renameFromForHeader, hreg, ?_⟩
  cases kept with
  | false => exact .inr (stopForBudget_ok (hreg.hunk_eq.trans hs) h)
  | true => exact .inl (Except.ok.inj h).symm

theorem renameFromPath_ok {path : Option Path} (hs : s.hunk = none)
    (h : renameFromPath p line path s = .ok r) : RenameEffect line s r := by
  unfold renameFromPath at h
  split at h
  · split at h
    · cases h
    · exact ⟨s, s.renamedPairs, path, s.renameFromForHeader, .refl s, .inl (Except.ok.inj h).symm⟩
  · split at h
    · split at h
      · cases h
      · exact ⟨s, s.renamedPairs, s.pendingRenameFrom, path, .refl s,
          .inl (Except.ok.inj h).symm⟩
    · exact renameWithoutHeader_ok hs h

theorem renameResolving_ok {source : Path} {path : Option Path} (hs : s.hunk = none)
    (h : renameResolving p line source path s = .ok r) : RenameEffect line s r := by
  obtain ⟨s₁, hresolve, h⟩ := bind_ok h
  obtain ⟨⟨kept, s₂⟩, hboth, h⟩ := bind_ok h
  have hreg := (resolvePendingGitHeader_ok hresolve).trans (recordBoth_ok hboth).1
  refine ⟨s₂, s₂.renamedPairs ++ path.toList.map (fun q => (source, q)), none,
    s₂.renameFromForHeader, hreg, ?_⟩
  cases kept with
  | false => exact .inr (stopForBudget_ok (hreg.hunk_eq.trans hs) h)
  | true => exact .inl (Except.ok.inj h).symm

theorem renameToPath_ok {path : Option Path} (hs : s.hunk = none)
    (h : renameToPath p line path s = .ok r) : RenameEffect line s r := by
  unfold renameToPath at h
  split at h
  · split at h
    · cases h
    · exact renameResolving_ok hs h
  · split at h
    · next selected _ =>
      unfold renameOfHeader at h
      split at h
      · cases h
      · exact ⟨s, _, s.pendingRenameFrom, none, .refl s, .inl (Except.ok.inj h).symm⟩
    · exact renameWithoutHeader_ok hs h

theorem hunkHeaderLine_ok (h : hunkHeaderLine p line s = .ok r) :
    ∃ s₁ range, finish p s = .ok s₁ ∧ s₁.pendingOldMarker = false ∧
      s₁.matchedFileMarker = true ∧ hunkRange p.maxLineNumber line = .ok range ∧
      admitHunk p line range { s₁ with sawStructure := true } = .ok r := by
  obtain ⟨s₁, hfinish, h⟩ := bind_ok h
  split at h
  · cases h
  next hold =>
  split at h
  · cases h
  next hmatched =>
  obtain ⟨range, hrange, h⟩ := bind_ok h
  exact ⟨s₁, range, hfinish, by simpa using hold, by simpa using hmatched, hrange, h⟩

theorem admitHunk_ok {range : HunkRange} (hs : s.hunk = none)
    (h : admitHunk p line range s = .ok r) :
    (s.hunkCount < p.hunkLimit ∧
      r = .next (State.appendFileLine (State.openHunk { s with hunkCount := s.hunkCount + 1 }
        (range.open (s.hunkCount + 1) line)) line)) ∨
    (p.hunkLimit ≤ s.hunkCount ∧ p.allowIncomplete = true ∧
      r = .stop ({ s with
        hunkCount := s.hunkCount + 1
        enumerationComplete := false
        stoppedForBudget := true } : State).keepFile) := by
  unfold admitHunk at h
  dsimp only at h
  split at h
  · next hlimit =>
    split at h
    · next hmode =>
      rw [closeFile_none (by exact hs)] at h
      exact .inr ⟨Nat.lt_succ_iff.mp hlimit, hmode, (Except.ok.inj h).symm⟩
    · cases h
  · next hlimit => exact .inl ⟨Nat.not_lt.mp hlimit, (Except.ok.inj h).symm⟩

/-- A line of the body has been read: the hunk has moved on and is no longer than its header. -/
structure Pushed (line : Text) (k : OpenHunk) (s s' : State) : Prop where
  kind : bodyKind line ≠ .trailing
  hunk : ∃ k' s₁, s' = s₁.pushLine k' line ∧
    ((bodyKind line = .noNewline ∧ k' = k ∧ s₁ = s) ∨
      (bodyKind line = .added ∧ k' = k.addedLine s.currentPath.isSome ∧
        s₁ = s.addedLine (orOne k.newLine)) ∨
      (bodyKind line = .deleted ∧ k' = k.deletedLine (k.deletedIn s.currentOldPath).isSome ∧
        s₁ = s.deletedLine (k.deletedIn s.currentOldPath) (orOne k.oldLine)) ∨
      (bodyKind line = .context ∧ k' = k.contextLine ∧ s₁ = s))

theorem countLine_ok {k : OpenHunk} (h : countLine p line k s = .ok s') :
    k.oldSeen ≤ k.oldCount ∧ k.newSeen ≤ k.newCount ∧ s' = s.pushLine k line := by
  unfold countLine at h
  split at h
  · cases h
  · split at h
    · cases h
    · next hcounts =>
      rw [not_or, Nat.not_lt, Nat.not_lt] at hcounts
      exact ⟨hcounts.1, hcounts.2, (Except.ok.inj h).symm⟩

theorem trailingLine_ok {k : OpenHunk} (hk : s.hunk = some k)
    (h : trailingLine p line k s = .ok s') :
    k.satisfied ∧ s' = (s.keepHunk k).appendFileLine line := by
  unfold trailingLine at h
  split at h
  · obtain ⟨s₁, hfinish, h⟩ := bind_ok h
    rcases finish_ok hfinish with ⟨hnone, _⟩ | ⟨k', hk', hsat, rfl⟩
    · rw [hk] at hnone
      cases hnone
    · obtain rfl := Option.some.inj (hk.symm.trans hk')
      exact ⟨hsat, (Except.ok.inj h).symm⟩
  · cases h

theorem bodyLine_ok {k : OpenHunk} (hk : s.hunk = some k) (h : bodyLine p line k s = .ok s') :
    (bodyKind line = .trailing ∧ k.satisfied ∧ s' = (s.keepHunk k).appendFileLine line) ∨
      Pushed line k s s' := by
  unfold bodyLine at h
  cases hkind : bodyKind line with
  | trailing =>
    rw [hkind] at h
    exact .inl ⟨rfl, trailingLine_ok hk h⟩
  | noNewline =>
    rw [hkind] at h
    dsimp only at h
    split at h
    · exact .inr ⟨by simp [hkind], k, s, (Except.ok.inj h).symm, .inl ⟨hkind, rfl, rfl⟩⟩
    · cases h
  | added =>
    rw [hkind] at h
    dsimp only at h
    split at h
    · cases h
    · exact .inr ⟨by simp [hkind], _, _, (countLine_ok h).2.2,
        .inr (.inl ⟨hkind, rfl, rfl⟩)⟩
  | deleted =>
    rw [hkind] at h
    dsimp only at h
    split at h
    · cases h
    · exact .inr ⟨by simp [hkind], _, _, (countLine_ok h).2.2,
        .inr (.inr (.inl ⟨hkind, rfl, rfl⟩))⟩
  | context =>
    rw [hkind] at h
    dsimp only at h
    split at h
    · cases h
    · exact .inr ⟨by simp [hkind], _, _, (countLine_ok h).2.2,
        .inr (.inr (.inr ⟨hkind, rfl, rfl⟩))⟩

theorem otherLine_ok (h : otherLine p line s = .ok r) :
    (s.hunk = none ∧ r = .next (outsideLine line s)) ∨
    (∃ k, s.hunk = some k ∧ k.satisfied ∧ bodyKind line = .trailing ∧
      r = .next ((s.keepHunk k).appendFileLine line)) ∨
    (∃ k s', s.hunk = some k ∧ Pushed line k s s' ∧ r = .next s') := by
  unfold otherLine at h
  split at h
  · next hs => exact .inl ⟨hs, (Except.ok.inj h).symm⟩
  · next k hk =>
    obtain ⟨s', hbody, h⟩ := bind_ok h
    have hr := (Except.ok.inj h).symm
    rcases bodyLine_ok hk hbody with ⟨hkind, hsat, rfl⟩ | hpushed
    · exact .inr (.inl ⟨k, hk, hsat, hkind, hr⟩)
    · exact .inr (.inr ⟨k, s', hk, hpushed, hr⟩)

@[simp] theorem keepFile_hunkRecords (s : State) : s.keepFile.hunkRecords = s.hunkRecords := by
  unfold State.keepFile
  split <;> rfl

@[simp] theorem keepFile_hunk (s : State) : s.keepFile.hunk = s.hunk := by
  unfold State.keepFile
  split <;> rfl

@[simp] theorem dropFile_hunkRecords (s : State) : s.dropFile.hunkRecords = s.hunkRecords := by
  unfold State.dropFile
  split <;> rfl

@[simp] theorem dropFile_hunk (s : State) : s.dropFile.hunk = s.hunk := by
  unfold State.dropFile
  split <;> rfl

@[simp] theorem appendFileLine_hunkRecords (s : State) :
    (s.appendFileLine line).hunkRecords = s.hunkRecords := by
  unfold State.appendFileLine
  split <;> rfl

@[simp] theorem appendFileLine_hunk (s : State) : (s.appendFileLine line).hunk = s.hunk := by
  unfold State.appendFileLine
  split <;> rfl

theorem lineKind_outside {inHunk : Bool} (h : lineKind inHunk line = .oldMarker ∨
    lineKind inHunk line = .newMarker ∨ lineKind inHunk line = .badMarker) : inHunk = false := by
  cases inHunk with
  | false => rfl
  | true => grind [lineKind]

end ReviewSensei.Diff
