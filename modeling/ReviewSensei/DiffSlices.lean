import ReviewSensei.ChangePlan
import ReviewSensei.DiffRecords

/-! A hunk is read again from its own lines after any header that leaves the same two paths, so a
record's header with some of its hunks gives those hunks. -/
namespace ReviewSensei.Diff
open Session (bind_ok)
open Planning (sliceRecord)

variable {p : Parser} {s s' u u₁ : State} {line : Text}

/-- A hunk header may come: the state is between hunks, once the open one is closed. -/
structure Ready (p : Parser) (old new : Option Path) (u u₁ : State) : Prop where
  self : Twin p u u
  finished : finish p u = .ok u₁
  matched : u₁.matchedFileMarker = true
  pending : u₁.pendingOldMarker = false
  old : u₁.currentOldPath = old
  new : u₁.currentPath = new
  sawStructure : u₁.sawStructure = true
  room : u₁.hunkCount < p.hunkLimit

/-- What the lines of a hunk leave alone. -/
def State.aside (s : State) :=
  (s.file.hunks, s.file.inFile, s.matchedFileMarker, s.pendingOldMarker, s.currentOldPath,
    s.currentPath, s.pendingGitHeader, s.pendingRenameFrom, s.renameFromForHeader,
    s.stoppedForBudget, s.sawStructure, s.fileRecords)

theorem appendFileLine_aside (s : State) : (s.appendFileLine line).aside = s.aside := by
  unfold State.appendFileLine
  split <;> rfl

theorem appendFileLine_hunkCount (s : State) :
    (s.appendFileLine line).hunkCount = s.hunkCount := by
  unfold State.appendFileLine
  split <;> rfl

/-- The lines of the open hunk open it again wherever a hunk header may come. -/
def ReplaysOpen (p : Parser) (k : OpenHunk) (old new : Option Path) : Prop :=
  ∀ u u₁, Ready p old new u u₁ → ∃ u', run p k.lines u = .ok u' ∧
    u'.hunk = some { k with index := u₁.hunkCount + 1 } ∧ u'.hunkCount = u₁.hunkCount + 1 ∧
    u'.aside = u₁.aside

/-- A closed hunk is read again from its own lines. -/
def Replays (p : Parser) (k : DiffHunk) : Prop :=
  ∃ o : OpenHunk, o.satisfied ∧ k = o.record k.oldPath k.newPath ∧ Unbroken o.lines ∧
    ReplaysOpen p o k.oldPath k.newPath

theorem lineKind_hunkHeader {b : Bool} :
    lineKind b line = .hunkHeader ↔ starts "@@" line = true := by
  constructor
  · intro h
    unfold lineKind at h
    grind
  · intro h
    obtain ⟨rest, rfl⟩ := List.isPrefixOf_iff_prefix.mp h
    simp [lineKind, starts]

theorem run_singleton {s' : State} (h : step p line s = .ok (.next s')) :
    run p [line] s = .ok s' := by
  unfold run
  rw [h]
  rfl

/-- The header line of a hunk opens it. -/
theorem replaysOpen_header {b : Bool} {range : HunkRange} {index : Nat}
    (hkind : lineKind b line = .hunkHeader) (hrange : hunkRange p.maxLineNumber line = .ok range)
    (old new : Option Path) : ReplaysOpen p (range.open index line) old new := by
  intro u u₁ hready
  have hstep : step p line u = .ok (.next ((State.openHunk
      { u₁.sawOne with hunkCount := u₁.hunkCount + 1 }
      (range.open (u₁.hunkCount + 1) line)).appendFileLine line)) := by
    unfold step
    rw [lineKind_hunkHeader.mpr (lineKind_hunkHeader.mp hkind)]
    change hunkHeaderLine p line u = _
    unfold hunkHeaderLine
    rw [hready.finished]
    change (if u₁.pendingOldMarker = true then _ else if (!u₁.matchedFileMarker) = true then _
      else _) = _
    rw [if_neg (by rw [hready.pending]; exact Bool.false_ne_true),
      if_neg (by rw [hready.matched]; exact Bool.false_ne_true), hrange]
    change admitHunk p line range u₁.sawOne = _
    have hroom : ¬ p.hunkLimit < u₁.sawOne.hunkCount + 1 := Nat.not_lt.mpr hready.room
    unfold admitHunk
    dsimp only
    rw [if_neg hroom]
    rfl
  refine ⟨_, run_singleton hstep, ?_, ?_, ?_⟩
  · rw [appendFileLine_hunk]
    rfl
  · rw [appendFileLine_hunkCount]
    rfl
  · rw [appendFileLine_aside]
    have hsaw := hready.sawStructure
    change State.aside { u₁ with sawStructure := true } = u₁.aside
    rw [← hsaw]

theorem countLine_replay {k : OpenHunk} {s₁ : State} (h : countLine p line k s = .ok s₁)
    (i : Nat) (u : State) :
    s₁ = s.pushLine k line ∧
      countLine p line { k with index := i } u = .ok (u.pushLine { k with index := i } line) := by
  unfold countLine at h ⊢
  split at h
  · cases h
  · next hlimit =>
    split at h
    · cases h
    · next hcounts =>
      rw [if_neg hlimit, if_neg hcounts]
      exact ⟨(Except.ok.inj h).symm, rfl⟩

/-- A line of a body is read alike into any state with the same two paths. -/
theorem bodyLine_replay {k : OpenHunk} {s₁ : State} (hkind : bodyKind line ≠ .trailing)
    (h : bodyLine p line k s = .ok s₁) (hold : u.currentOldPath = s.currentOldPath)
    (hnew : u.currentPath = s.currentPath) (i : Nat) :
    ∃ (k' : OpenHunk) (u₀ : State), s₁.hunk = some k' ∧ k'.lines = k.lines ++ [line] ∧
      bodyLine p line { k with index := i } u =
        .ok (u₀.appendFileLine line) ∧ u₀.hunk = some { k' with index := i } ∧
      u₀.aside = u.aside ∧ u₀.hunkCount = u.hunkCount := by
  unfold bodyLine at h ⊢
  rw [hold, hnew]
  cases hbody : bodyKind line with
  | trailing => exact absurd hbody hkind
  | noNewline =>
    rw [hbody] at h
    dsimp only at h ⊢
    split at h
    · next hmark =>
      obtain rfl := Except.ok.inj h
      rw [if_pos hmark]
      exact ⟨_, _, by rw [State.pushLine, appendFileLine_hunk], rfl, rfl, rfl, rfl, rfl⟩
    · cases h
  | added =>
    rw [hbody] at h
    dsimp only at h ⊢
    split at h
    · cases h
    · next hlimit =>
      obtain ⟨rfl, hcount⟩ := countLine_replay h i (u.addedLine (orOne k.newLine))
      rw [if_neg hlimit]
      exact ⟨_, _, by rw [State.pushLine, appendFileLine_hunk], rfl, hcount, rfl, rfl, rfl⟩
  | deleted =>
    rw [hbody] at h
    dsimp only at h ⊢
    split at h
    · cases h
    · next hlimit =>
      obtain ⟨rfl, hcount⟩ := countLine_replay h i
        (u.deletedLine (k.deletedIn s.currentOldPath) (orOne k.oldLine))
      rw [if_neg hlimit]
      exact ⟨_, _, by rw [State.pushLine, appendFileLine_hunk], rfl, hcount, rfl, rfl, rfl⟩
  | context =>
    rw [hbody] at h
    dsimp only at h ⊢
    split at h
    · cases h
    · next hlimit =>
      obtain ⟨rfl, hcount⟩ := countLine_replay h i u
      rw [if_neg hlimit]
      exact ⟨_, _, by rw [State.pushLine, appendFileLine_hunk], rfl, hcount, rfl, rfl, rfl⟩

theorem step_body {k : OpenHunk} (hkind : lineKind true line = .other) (hs : s.hunk = some k)
    (h : bodyLine p line k s = .ok s') : step p line s = .ok (.next s') := by
  unfold step otherLine
  rw [hs, Option.isSome_some, hkind]
  change (bodyLine p line k s >>= _) = _
  rw [h]
  rfl

/-- One line more of the body. -/
theorem ReplaysOpen.push (hp : p.allowIncomplete = false) {k : OpenHunk}
    (h : ReplaysOpen p k s.currentOldPath s.currentPath) (hkind : lineKind true line = .other)
    (hbody : bodyKind line ≠ .trailing) (hread : bodyLine p line k s = .ok s') :
    ∃ k', s'.hunk = some k' ∧ k'.lines = k.lines ++ [line] ∧
      ReplaysOpen p k' s.currentOldPath s.currentPath := by
  obtain ⟨k', _, hk', hlines, _⟩ := bodyLine_replay (u := s) hbody hread rfl rfl 0
  refine ⟨k', hk', hlines, ?_⟩
  intro u u₁ hready
  obtain ⟨u', hrun, hopen, hcount, haside⟩ := h u u₁ hready
  have hold : u'.currentOldPath = s.currentOldPath := by
    have := congrArg (fun x => x.2.2.2.2.1) haside
    exact this.trans hready.old
  have hnew : u'.currentPath = s.currentPath := by
    have := congrArg (fun x => x.2.2.2.2.2.1) haside
    exact this.trans hready.new
  obtain ⟨k'', u₀, hk'', _, hagain, hopen', haside', hcount'⟩ :=
    bodyLine_replay hbody hread hold hnew (u₁.hunkCount + 1)
  obtain rfl := Option.some.inj (hk'.symm.trans hk'')
  refine ⟨u₀.appendFileLine line, ?_, ?_, ?_, ?_⟩
  · rw [hlines, run_append hp hready.self, hrun]
    exact run_singleton (step_body hkind hopen hagain)
  · rw [appendFileLine_hunk]
    exact hopen'
  · rw [appendFileLine_hunkCount, hcount', hcount]
  · rw [appendFileLine_aside, haside', haside]

theorem finish_open {k : OpenHunk} (hs : s.hunk = some k) (hk : k.satisfied) :
    finish p s = .ok (s.keepHunk k) := by
  simp only [finish, closeHunk, hs, if_pos hk]

/-- What no hunk of a slice touches. -/
def State.around (s : State) :=
  (s.file.inFile, s.pendingGitHeader, s.pendingRenameFrom, s.renameFromForHeader,
    s.stoppedForBudget, s.sawStructure, s.fileRecords)

/-- Hunks of one pair of paths are read again, one after the other. -/
theorem replay_all (hp : p.allowIncomplete = false) {old new : Option Path} {ks : List DiffHunk}
    (hks : ∀ k ∈ ks, Replays p k) (hpaths : ∀ k ∈ ks, k.oldPath = old ∧ k.newPath = new)
    {u u₁ : State} (hself : Twin p u u) (hfinish : finish p u = .ok u₁)
    (hmatched : u₁.matchedFileMarker = true) (hpending : u₁.pendingOldMarker = false)
    (hold : u₁.currentOldPath = old) (hnew : u₁.currentPath = new)
    (hsaw : u₁.sawStructure = true) (hroom : u₁.hunkCount + ks.length ≤ p.hunkLimit) :
    ∃ u' u₂ read, run p (ks.flatMap (fun k => lines k.text)) u = .ok u' ∧
      finish p u' = .ok u₂ ∧ u₂.file.hunks = u₁.file.hunks ++ read ∧
      read.map DiffHunk.content = ks.map DiffHunk.content ∧ u₂.around = u₁.around ∧
      u₂.pendingOldMarker = false ∧ u₂.currentOldPath = old ∧ u₂.currentPath = new := by
  induction ks generalizing u u₁ with
  | nil => exact ⟨u, u₁, [], rfl, hfinish, by simp, rfl, rfl, hpending, hold, hnew⟩
  | cons k ks ih =>
    rw [List.length_cons] at hroom
    obtain ⟨hkold, hknew⟩ := hpaths k List.mem_cons_self
    obtain ⟨o, hsat, hk, hbroken, hreplay⟩ := hks k List.mem_cons_self
    rw [hkold, hknew] at hk hreplay
    obtain ⟨u', hrun, hopen, hcount, haside⟩ :=
      hreplay u u₁ ⟨hself, hfinish, hmatched, hpending, hold, hnew, hsaw, by omega⟩
    have hself' := hself.run_self hp hrun
    have hfinish' : finish p u' = .ok (u'.keepHunk { o with index := u₁.hunkCount + 1 }) :=
      finish_open hopen hsat
    simp only [State.aside, Prod.mk.injEq] at haside
    obtain ⟨hhunks, hin, hmatched', hpending', hold', hnew', hgit, hfrom, hheader, hstopped,
      hsaw', hfiles⟩ := haside
    obtain ⟨v, v₂, read, hrest, hclosed, hread, hcontent, haround, hpending₂, hold₂, hnew₂⟩ :=
      ih (fun k' hk' => hks k' (List.mem_cons_of_mem _ hk'))
        (fun k' hk' => hpaths k' (List.mem_cons_of_mem _ hk')) hself' hfinish'
        (hmatched'.trans hmatched) (hpending'.trans hpending) (hold'.trans hold)
        (hnew'.trans hnew) (hsaw'.trans hsaw) (by change u'.hunkCount + _ ≤ _; omega)
    have htext : lines k.text = o.lines := by
      rw [hk]
      exact lines_joined hbroken
    refine ⟨v, v₂, OpenHunk.record { o with index := u₁.hunkCount + 1 } u'.currentOldPath
      u'.currentPath :: read, ?_, hclosed, ?_, ?_, ?_, hpending₂, hold₂, hnew₂⟩
    · rw [List.flatMap_cons, run_append hp hself, htext, hrun]
      exact hrest
    · rw [hread]
      change (u'.file.hunks ++ [_]) ++ read = _
      rw [hhunks, List.append_assoc, List.singleton_append]
    · rw [List.map_cons, List.map_cons, hcontent, hold', hnew', hold, hnew, hk]
      rfl
    · rw [haround]
      change (u'.file.inFile, u'.pendingGitHeader, u'.pendingRenameFrom, u'.renameFromForHeader,
        u'.stoppedForBudget, u'.sawStructure, u'.fileRecords) = u₁.around
      rw [hin, hgit, hfrom, hheader, hstopped, hsaw', hfiles]
      rfl

/-- The hunks of the file so far, the open one among them. -/
def State.allHunks (s : State) : List DiffHunk :=
  s.file.hunks ++ (s.hunk.map (fun k => k.record s.currentOldPath s.currentPath)).toList

def State.openLines (s : State) : List Text := (s.hunk.map OpenHunk.lines).getD []

/-- Every hunk of the file so far is read again from its own lines, and the first of them has the
paths that the header `u` leaves. -/
structure HunksReplay (p : Parser) (u s : State) : Prop where
  closed : ∀ k ∈ s.file.hunks, Replays p k
  opened : ∀ o, s.hunk = some o → ReplaysOpen p o s.currentOldPath s.currentPath
  first : ∃ k rest, s.allHunks = k :: rest ∧ k.oldPath = u.currentOldPath ∧
    k.newPath = u.currentPath
  listed : (s.file.headerLines ++ s.file.hunks.flatMap (fun k => lines k.text) ++
    s.openLines).Sublist s.file.lines
  count : u.hunkCount + s.allHunks.length ≤ s.hunkCount
  room : s.hunkCount ≤ p.hunkLimit
  seenHunk : s.file.seenHunk = true
  inFile : s.file.inFile = true

theorem HunksReplay.finish (h : HunksReplay p u s) (hbroken : Unbroken s.file.lines)
    (hfinish : Diff.finish p s = .ok s') :
    HunksReplay p u s' ∧ s'.file.lines = s.file.lines ∧
      s'.file.headerLines = s.file.headerLines ∧ s'.hunk = none := by
  rcases finish_ok hfinish with ⟨hnone, rfl⟩ | ⟨o, ho, hsat, rfl⟩
  · exact ⟨h, rfl, rfl, hnone⟩
  · have hlines : s.openLines = o.lines := by simp [State.openLines, ho]
    have hlisted := h.listed
    rw [hlines] at hlisted
    have hbroken' : Unbroken o.lines := fun l hl =>
      hbroken l (hlisted.subset (List.mem_append_right _ hl))
    have htext : lines (o.record s.currentOldPath s.currentPath).text = o.lines :=
      lines_joined hbroken'
    have hall : (s.keepHunk o).allHunks = s.allHunks := by
      simp [State.allHunks, State.keepHunk, ho]
    refine ⟨⟨?_, nofun, hall ▸ h.first, ?_, hall ▸ h.count, h.room, h.seenHunk, h.inFile⟩, rfl, rfl,
      rfl⟩
    · intro k hk
      rcases List.mem_append.mp hk with hold | hnew
      · exact h.closed k hold
      · obtain rfl := List.mem_singleton.mp hnew
        exact ⟨o, hsat, rfl, hbroken', h.opened o ho⟩
    · change (s.file.headerLines ++ (s.file.hunks ++ [_]).flatMap _ ++ []).Sublist s.file.lines
      rw [List.flatMap_append, List.append_nil, ← List.append_assoc]
      simpa [htext] using hlisted

/-- A line outside the hunks only stands in the file's text. -/
theorem HunksReplay.outside (h : HunksReplay p u s) (line : Text) (hnone : s.hunk = none)
    (hout : Outside s s') :
    HunksReplay p u (s'.appendFileLine line) := by
  obtain ⟨binary, hfile⟩ := hout.file
  have hin : s'.file.inFile = true := by rw [hfile]; exact h.inFile
  have hseen : s'.file.seenHunk = true := by rw [hfile]; exact h.seenHunk
  have hnone' := hout.hunk hnone
  have hafter : s'.appendFileLine line = { s' with
      file := { s'.file with lines := s'.file.lines ++ [line] } } := by
    rw [State.appendFileLine, if_pos hin, if_pos hseen]
  have hall : (s'.appendFileLine line).allHunks = s.allHunks := by
    rw [hafter]
    simp [State.allHunks, hnone', hnone, hfile]
  have hopen : (s'.appendFileLine line).openLines = s.openLines := by
    rw [hafter]
    simp [State.openLines, hnone', hnone]
  refine ⟨?_, ?_, hall ▸ h.first, ?_, ?_, ?_, ?_, ?_⟩
  · rw [hafter]
    change ∀ k ∈ s'.file.hunks, Replays p k
    rw [hfile]
    exact h.closed
  · intro o ho
    rw [appendFileLine_hunk, hnone'] at ho
    cases ho
  · rw [hopen, hafter]
    change (s'.file.headerLines ++ s'.file.hunks.flatMap _ ++ _).Sublist (s'.file.lines ++ [line])
    rw [hfile]
    exact h.listed.trans (List.sublist_append_left _ _)
  · rw [hall, appendFileLine_hunkCount, hout.hunkCount]
    exact h.count
  · rw [appendFileLine_hunkCount, hout.hunkCount]
    exact h.room
  · rw [hafter]
    exact hseen
  · rw [hafter]
    exact hin

/-- The state in which a hunk has just been opened. -/
def State.opening (s : State) (range : HunkRange) (line : Text) : State :=
  (State.openHunk { s.sawOne with hunkCount := s.hunkCount + 1 }
    (range.open (s.hunkCount + 1) line)).appendFileLine line

theorem opening_eq (hin : s.file.inFile = true) (range : HunkRange) :
    s.opening range line = { s with
      sawStructure := true
      hunkCount := s.hunkCount + 1
      hunk := some (range.open (s.hunkCount + 1) line)
      file := { s.file with seenHunk := true, lines := s.file.lines ++ [line] } } := by
  unfold State.opening State.appendFileLine State.openHunk State.sawOne
  dsimp only
  rw [if_pos hin, if_pos rfl]

/-- One hunk more. -/
theorem HunksReplay.opening (h : HunksReplay p u s) (hnone : s.hunk = none) {b : Bool}
    {range : HunkRange} (hkind : lineKind b line = .hunkHeader)
    (hrange : hunkRange p.maxLineNumber line = .ok range) (hroom : s.hunkCount < p.hunkLimit) :
    HunksReplay p u (s.opening range line) := by
  have hall : (s.opening range line).allHunks =
      s.allHunks ++ [(range.open (s.hunkCount + 1) line).record s.currentOldPath s.currentPath] := by
    rw [opening_eq h.inFile]
    simp [State.allHunks, hnone]
  have hlisted := h.listed
  have hopen : s.openLines = [] := by simp [State.openLines, hnone]
  rw [hopen, List.append_nil] at hlisted
  rw [opening_eq h.inFile] at hall ⊢
  refine ⟨h.closed, ?_, ?_, hlisted.append (List.Sublist.refl [line]), ?_, hroom, rfl, h.inFile⟩
  · intro o ho
    obtain rfl := Option.some.inj ho
    exact replaysOpen_header hkind hrange _ _
  · obtain ⟨k, rest, hfirst, hold, hnew⟩ := h.first
    rw [hall, hfirst]
    exact ⟨k, _, rfl, hold, hnew⟩
  · rw [hall, List.length_append, List.length_singleton]
    have hcount := h.count
    change _ ≤ s.hunkCount + 1
    omega

/-- The lines before a file's first hunk. -/
structure InHeader (p : Parser) (s₀ s : State) : Prop where
  run : run p s.file.lines s₀ = .ok s
  segment : Segment s.file.lines
  headerLines : s.file.headerLines = s.file.lines
  hunk : s.hunk = none
  hunks : s.file.hunks = []
  seenHunk : s.file.seenHunk = false
  inFile : s.file.inFile = true

/-- The header has ended with a hunk, and a hunk header may come after it. -/
structure PastHeader (p : Parser) (s₀ u s : State) : Prop where
  header : InHeader p s₀ u
  headerLines : s.file.headerLines = u.file.headerLines
  matched : u.matchedFileMarker = true
  pending : u.pendingOldMarker = false
  replay : HunksReplay p u s

/-- The first hunk of a file. -/
theorem InHeader.opening {s₀ : State} (h : InHeader p s₀ s) {b : Bool} {range : HunkRange}
    (hmatched : s.matchedFileMarker = true) (hpending : s.pendingOldMarker = false)
    (hkind : lineKind b line = .hunkHeader)
    (hrange : hunkRange p.maxLineNumber line = .ok range) (hroom : s.hunkCount < p.hunkLimit) :
    PastHeader p s₀ s (s.opening range line) := by
  have hall : (s.opening range line).allHunks =
      [(range.open (s.hunkCount + 1) line).record s.currentOldPath s.currentPath] := by
    rw [opening_eq h.inFile]
    simp [State.allHunks, h.hunks]
  refine ⟨h, by rw [opening_eq h.inFile], hmatched, hpending, ?_⟩
  rw [opening_eq h.inFile] at hall ⊢
  refine ⟨?_, ?_, ⟨_, _, hall, rfl, rfl⟩, ?_, ?_, hroom, rfl, h.inFile⟩
  · change ∀ k ∈ s.file.hunks, Replays p k
    rw [h.hunks]
    exact nofun
  · intro o ho
    obtain rfl := Option.some.inj ho
    exact replaysOpen_header hkind hrange _ _
  · change (s.file.headerLines ++ s.file.hunks.flatMap _ ++ [line]).Sublist (s.file.lines ++ [line])
    rw [h.hunks, h.headerLines, List.flatMap_nil, List.append_nil]
  · rw [hall]
    exact le_rfl

/-- Where a line of a body stands once it is read. -/
theorem Pushed.after {k : OpenHunk} (h : Pushed line k s s') (hin : s.file.inFile = true)
    (hseen : s.file.seenHunk = true) :
    s'.file.lines = s.file.lines ++ [line] ∧ s'.file.headerLines = s.file.headerLines ∧
      s'.file.hunks = s.file.hunks ∧ s'.file.seenHunk = true ∧ s'.file.inFile = true ∧
      s'.hunkCount = s.hunkCount ∧ s'.currentOldPath = s.currentOldPath ∧
      s'.currentPath = s.currentPath := by
  obtain ⟨_, k', s₁, rfl, hcases⟩ := h
  have hafter {v : State} (hvin : v.file.inFile = true) (hvseen : v.file.seenHunk = true) :
      v.pushLine k' line = { v with
        hunk := some { k' with lines := k'.lines ++ [line] }
        file := { v.file with lines := v.file.lines ++ [line] } } := by
    unfold State.pushLine State.appendFileLine
    dsimp only
    rw [if_pos hvin, if_pos hvseen]
  rcases hcases with ⟨_, _, rfl⟩ | ⟨_, _, rfl⟩ | ⟨_, _, rfl⟩ | ⟨_, _, rfl⟩ <;>
    (rw [hafter (by exact hin) (by exact hseen)]
     exact ⟨rfl, rfl, rfl, hseen, hin, rfl, rfl, rfl⟩)

theorem HunksReplay.body (hp : p.allowIncomplete = false) (h : HunksReplay p u s)
    {k : OpenHunk} (hk : s.hunk = some k) (hkind : lineKind true line = .other)
    (hread : bodyLine p line k s = .ok s') (hpushed : Pushed line k s s') :
    HunksReplay p u s' ∧ s'.file.headerLines = s.file.headerLines := by
  obtain ⟨hlines, hheader, hhunks, hseen, hin, hcount, hold, hnew⟩ :=
    hpushed.after h.inFile h.seenHunk
  obtain ⟨k', hk', hklines, hreplay⟩ := (h.opened k hk).push hp hkind hpushed.kind hread
  have hall : s.allHunks = s.file.hunks ++ [k.record s.currentOldPath s.currentPath] := by
    simp [State.allHunks, hk]
  have hall' : s'.allHunks = s.file.hunks ++ [k'.record s.currentOldPath s.currentPath] := by
    simp [State.allHunks, hk', hhunks, hold, hnew]
  refine ⟨⟨hhunks ▸ h.closed, ?_, ?_, ?_, ?_, hcount ▸ h.room, hseen, hin⟩, hheader⟩
  · intro o ho
    obtain rfl := Option.some.inj (ho.symm.trans hk')
    rw [hold, hnew]
    exact hreplay
  · obtain ⟨first, rest, hfirst, hfold, hfnew⟩ := h.first
    rw [hall']
    rw [hall] at hfirst
    cases hh : s.file.hunks with
    | nil =>
      rw [hh, List.nil_append] at hfirst
      obtain ⟨rfl, rfl⟩ := List.cons.inj hfirst
      exact ⟨_, _, rfl, hfold, hfnew⟩
    | cons first' rest' =>
      rw [hh, List.cons_append] at hfirst
      obtain ⟨rfl, rfl⟩ := List.cons.inj hfirst
      exact ⟨_, _, rfl, hfold, hfnew⟩
  · have hlisted := h.listed
    have hopen : s.openLines = k.lines := by simp [State.openLines, hk]
    have hopen' : s'.openLines = k.lines ++ [line] := by simp [State.openLines, hk', hklines]
    rw [hopen] at hlisted
    rw [hopen', hheader, hhunks, hlines, ← List.append_assoc]
    exact hlisted.append (List.Sublist.refl [line])
  · have hlength : s'.allHunks.length = s.allHunks.length := by
      rw [hall, hall']
      simp
    rw [hlength, hcount]
    exact h.count

/-- A file whose lines have been read up to here: in its header, or past it. -/
def Underway (p : Parser) (s₀ s : State) : Prop :=
  InHeader p s₀ s ∨ ∃ u, PastHeader p s₀ u s

theorem InHeader.step {s₀ : State} (hp : p.allowIncomplete = false) (hself : Twin p s₀ s₀)
    (h : InHeader p s₀ s) (hline : starts "diff --git " line = false)
    (hstep : Diff.step p line s = .ok (.next s')) (heffect : LineEffect p line s s') :
    Underway p s₀ s' := by
  cases heffect with
  | outside s₁ s₂ hfinish hout hafter =>
    rw [finish_none h.hunk] at hfinish
    obtain rfl := Except.ok.inj hfinish
    obtain ⟨binary, hfile⟩ := hout.file
    have hin : s₂.file.inFile = true := by rw [hfile]; exact h.inFile
    have hseen : s₂.file.seenHunk = false := by rw [hfile]; exact h.seenHunk
    have hafter' : s' = { s₂ with file := { s₂.file with
        lines := s₂.file.lines ++ [line], headerLines := s₂.file.headerLines ++ [line] } } := by
      rw [hafter, State.appendFileLine, if_pos hin, hseen, if_neg Bool.false_ne_true]
    have hlines : s'.file.lines = s.file.lines ++ [line] := by rw [hafter', hfile]
    have hseg : Segment (s.file.lines ++ [line]) := by
      obtain ⟨g, body, hg, hgit, hbody⟩ := h.segment
      refine ⟨g, body ++ [line], by rw [hg, List.cons_append], hgit, ?_⟩
      intro l hl
      rcases List.mem_append.mp hl with hold | hnew
      · exact hbody l hold
      · obtain rfl := List.mem_singleton.mp hnew
        exact hline
    refine .inl ⟨?_, hlines ▸ hseg, ?_, ?_, ?_, ?_, ?_⟩
    · rw [hlines, run_append hp hself, h.run]
      exact run_singleton hstep
    · rw [hafter', hfile]
      change s.file.headerLines ++ [line] = s.file.lines ++ [line]
      rw [h.headerLines]
    · rw [hafter']
      exact hout.hunk h.hunk
    · rw [hafter', hfile]
      exact h.hunks
    · rw [hafter']
      exact hseen
    · rw [hafter']
      exact hin
  | header s₁ range hkind hfinish hpending hmatched hrange hroom hafter =>
    rw [finish_none h.hunk] at hfinish
    obtain rfl := Except.ok.inj hfinish
    rw [hafter]
    exact .inr ⟨s, h.opening hmatched hpending hkind hrange hroom⟩
  | body k hk _ _ _ =>
    rw [h.hunk] at hk
    cases hk

theorem PastHeader.step {s₀ : State} (hp : p.allowIncomplete = false) (h : PastHeader p s₀ u s)
    (hbroken : Unbroken s.file.lines) (heffect : LineEffect p line s s') :
    PastHeader p s₀ u s' := by
  cases heffect with
  | outside s₁ s₂ hfinish hout hafter =>
    obtain ⟨h₁, _, hheader, hnone⟩ := h.replay.finish hbroken hfinish
    have h₂ := h₁.outside line hnone hout
    rw [← hafter] at h₂
    refine ⟨h.header, ?_, h.matched, h.pending, h₂⟩
    obtain ⟨binary, hfile⟩ := hout.file
    have hin : s₂.file.inFile = true := by rw [hfile]; exact h₁.inFile
    have hseen : s₂.file.seenHunk = true := by rw [hfile]; exact h₁.seenHunk
    rw [hafter, State.appendFileLine, if_pos hin, if_pos hseen]
    change s₂.file.headerLines = _
    rw [hfile]
    exact hheader.trans h.headerLines
  | header s₁ range hkind hfinish _ _ hrange hroom hafter =>
    obtain ⟨h₁, _, hheader, hnone⟩ := h.replay.finish hbroken hfinish
    rw [hafter]
    refine ⟨h.header, ?_, h.matched, h.pending, h₁.opening hnone hkind hrange hroom⟩
    change (s₁.opening range line).file.headerLines = _
    rw [opening_eq h₁.inFile]
    exact hheader.trans h.headerLines
  | body k hk hkind hread hpushed =>
    obtain ⟨h₁, hheader⟩ := h.replay.body hp hk hkind hread hpushed
    exact ⟨h.header, hheader.trans h.headerLines, h.matched, h.pending, h₁⟩

/-- Reading on through a file's body. -/
theorem Underway.run {s₀ : State} (hp : p.allowIncomplete = false) (hself₀ : Twin p s₀ s₀)
    (h : Underway p s₀ s) (hself : Twin p s s) (hin : s.file.inFile = true) {ls : List Text}
    (hls : ∀ l ∈ ls, starts "diff --git " l = false) (hbroken : Unbroken (s.file.lines ++ ls))
    (hrun : Diff.run p ls s = .ok s') : Underway p s₀ s' := by
  induction ls generalizing s with
  | nil =>
    obtain rfl := Except.ok.inj hrun
    exact h
  | cons l ls ih =>
    unfold Diff.run at hrun
    cases hstep : Diff.step p l s with
    | error e =>
      rw [hstep] at hrun
      cases hrun
    | ok r =>
      obtain ⟨r', hr', s₁, t₁, rfl, rfl, h₁⟩ := hself.step hp l r hstep
      obtain rfl := Step.next.inj (Except.ok.inj (hstep.symm.trans hr'))
      rw [hstep] at hrun
      have hl := hls l List.mem_cons_self
      have heffect := step_effect hin hl hstep
      have hnext : Underway p s₀ s₁ := by
        rcases h with hheader | ⟨u, hpast⟩
        · exact hheader.step hp hself₀ hl hstep heffect
        · exact .inr ⟨u, hpast.step hp
            (fun l' hl' => hbroken l' (List.mem_append_left _ hl')) heffect⟩
      obtain ⟨s₂, hcarries, rfl⟩ := heffect.carries
      have hext := hcarries.extends l hin
      refine ih hnext h₁ hext.inFile (fun l' hl' => hls l' (List.mem_cons_of_mem _ hl')) ?_ hrun
      rw [hext.lines, List.append_assoc]
      exact hbroken

/-- A file record with hunks, and the state `u` that its header leaves. -/
structure Sliceable (p : Parser) (seg : List Text) (s₀ : State) (f : DiffFileRecord)
    (u : State) : Prop where
  header : InHeader p s₀ u
  headerText : f.header = joined u.file.lines
  matched : u.matchedFileMarker = true
  pending : u.pendingOldMarker = false
  replay : ∀ k ∈ f.hunks, Replays p k
  first : ∃ k rest, f.hunks = k :: rest ∧ k.oldPath = u.currentOldPath ∧
    k.newPath = u.currentPath
  listed : (u.file.lines ++ f.hunks.flatMap (fun k => lines k.text)).Sublist seg
  room : u.hunkCount + f.hunks.length ≤ p.hunkLimit

theorem ReadsFile.sliceable (hp : p.allowIncomplete = false) {seg : List Text}
    {f : DiffFileRecord} (hseg : Segment seg) (hs : Settled s) (hself : Twin p s s)
    (hbroken : Unbroken seg) (h : ReadsFile p seg s s' f) (hne : f.hunks ≠ []) :
    ∃ u, Sliceable p seg s f u := by
  obtain ⟨s₁, s₂, hrun, hfinish, hin, rfl, rfl, hs'⟩ := h
  obtain ⟨g, body, rfl, hg, hbody⟩ := hseg
  obtain ⟨s₀, hentered, h₀, hone, hrest⟩ := run_entered hp hs hself hg hrun
  have hstart : InHeader p s s₀ := by
    refine ⟨by rw [hentered.lines]; exact hone, ?_, ?_, hentered.hunk, hentered.hunks,
      hentered.seenHunk, hentered.inFile⟩
    · rw [hentered.lines]
      exact ⟨g, [], rfl, hg, nofun⟩
    · rw [hentered.headerLines, hentered.lines]
  have hlines₀ : s₀.file.lines ++ body = g :: body := by
    rw [hentered.lines, List.singleton_append]
  have hlines₁ : s₁.file.lines = g :: body := by
    rw [(run_extends hp h₀ hentered.inFile hbody hrest).lines, hlines₀]
  have hunder : Underway p s s₁ :=
    Underway.run hp hself (.inl hstart) h₀ hentered.inFile hbody (by rw [hlines₀]; exact hbroken)
      hrest
  rcases hunder with hheader | ⟨u, hpast⟩
  · -- without a hunk the record has none
    rw [finish_none hheader.hunk] at hfinish
    obtain rfl := Except.ok.inj hfinish
    exact absurd hheader.hunks hne
  · obtain ⟨hreplay, hlines, hheaderLines, hnone⟩ :=
      hpast.replay.finish (by rw [hlines₁]; exact hbroken) hfinish
    have hall : s₂.allHunks = s₂.file.hunks := by simp [State.allHunks, hnone]
    have hopen : s₂.openLines = [] := by simp [State.openLines, hnone]
    have hheader : s₂.file.headerLines = u.file.lines :=
      hheaderLines.trans (hpast.headerLines.trans hpast.header.headerLines)
    have hlisted := hreplay.listed
    rw [hopen, List.append_nil, hheader, hlines, hlines₁] at hlisted
    have hfirst := hreplay.first
    rw [hall] at hfirst
    refine ⟨u, hpast.header, ?_, hpast.matched, hpast.pending, hreplay.closed, hfirst, hlisted, ?_⟩
    · change joined s₂.file.headerLines = _
      rw [hheader]
    · have hcount := hreplay.count
      rw [hall] at hcount
      exact hcount.trans hreplay.room

theorem Reads.file {segs : List (List Text)} {fs : List DiffFileRecord} {f : DiffFileRecord}
    (hp : p.allowIncomplete = false) (h : Reads p segs s s' fs)
    (hsegs : ∀ seg ∈ segs, Segment seg) (hs : Settled s) (hself : Twin p s s) (hf : f ∈ fs) :
    ∃ seg s₀ s₁, seg ∈ segs ∧ Settled s₀ ∧ Twin p s₀ s₀ ∧ ReadsFile p seg s₀ s₁ f := by
  induction h with
  | nil s => cases hf
  | @cons seg segs s s₁ s' f' fs first rest ih =>
    rcases List.mem_cons.mp hf with rfl | hmem
    · exact ⟨seg, s, s₁, List.mem_cons_self, hs, hself, first⟩
    · have hfiled := first.filed hp (hsegs seg List.mem_cons_self) hs hself
      obtain ⟨seg', s₀, s₂, hmem', hrest⟩ :=
        ih (fun seg' h' => hsegs seg' (List.mem_cons_of_mem _ h')) hfiled.settled hfiled.self hmem
      exact ⟨seg', s₀, s₂, List.mem_cons_of_mem _ hmem', hrest⟩

theorem Replays.joined_lines {k : DiffHunk} (h : Replays p k) : joined (lines k.text) = k.text := by
  obtain ⟨o, _, hk, hbroken, _⟩ := h
  rw [hk]
  change joined (lines (joined o.lines)) = joined o.lines
  rw [lines_joined hbroken]

theorem texts_joined {ks : List DiffHunk} (h : ∀ k ∈ ks, Replays p k) :
    ks.flatMap DiffHunk.text = joined (ks.flatMap fun k => lines k.text) := by
  induction ks with
  | nil => rfl
  | cons k ks ih =>
    have hrest : ∀ k ∈ ks, Replays p k := fun k' hk' => h k' (List.mem_cons_of_mem _ hk')
    rw [List.flatMap_cons, List.flatMap_cons, joined_append,
      (h k List.mem_cons_self).joined_lines, ih hrest]

section
variable {seg : List Text} {s₀ u : State} {f : DiffFileRecord} {ks : List DiffHunk}

/-- The lines of a slice. -/
def sliceLines (u : State) (ks : List DiffHunk) : List Text :=
  u.file.lines ++ ks.flatMap fun k => lines k.text

theorem Sliceable.sliceText (h : Sliceable p seg s₀ f u) (hks : ks.Sublist f.hunks) :
    (sliceRecord f ks).text = joined (sliceLines u ks) := by
  change f.header ++ ks.flatMap DiffHunk.text = _
  rw [sliceLines, joined_append, h.headerText,
    texts_joined fun k hk => h.replay k (hks.subset hk)]

theorem Sliceable.sliceLines_sublist (h : Sliceable p seg s₀ f u) (hks : ks.Sublist f.hunks) :
    (sliceLines u ks).Sublist seg :=
  ((List.Sublist.refl _).append (hks.flatMap _)).trans h.listed

/-- The header read from the start, as the twin of the header in the diff. -/
theorem Sliceable.twin (hp : p.allowIncomplete = false) (h : Sliceable p seg s₀ f u)
    (hs : Settled s₀) (hself : Twin p s₀ s₀) :
    ∃ v, run p u.file.lines {} = .ok v ∧ Twin p u v ∧ Twin p v v ∧ v.hunk = none ∧
      v.file.hunks = [] ∧ Covered u.file.lines {} v := by
  obtain ⟨g, hd, hg, hgit, _⟩ := h.header.segment
  have hbehind : Behind p s₀ {} :=
    ⟨hself.room, List.nil_subset _, List.nodup_nil, Nat.zero_le _⟩
  have hurun := h.header.run
  rw [hg] at hurun
  obtain ⟨v, hvrun, htwin⟩ := hbehind.run hp hs settled_start hgit hd u hurun
  rw [← hg] at hvrun
  refine ⟨v, hvrun, htwin, twin_start.run_self hp hvrun, htwin.hunk_none h.header.hunk, ?_,
    run_segment hp h.header.segment settled_start twin_start hvrun⟩
  obtain ⟨_, hunks, _, hinside, hh⟩ := htwin.inside
  rw [h.header.hunks, List.map_nil, List.map_eq_nil_iff] at hh
  rw [hinside, hh]
  rfl

/-- The hunks of a slice, read after its header. -/
theorem Sliceable.replay_slice (hp : p.allowIncomplete = false) (h : Sliceable p seg s₀ f u)
    {v : State} (htwin : Twin p u v) (hvself : Twin p v v) (hvnone : v.hunk = none)
    (hsaw : v.sawStructure = true) (hks : ks.Sublist f.hunks)
    (hpaths : ∀ k ∈ ks, ∀ k₀ ∈ f.hunks.head?, k.oldPath = k₀.oldPath ∧ k.newPath = k₀.newPath) :
    ∃ u' u₂ read, run p (ks.flatMap (fun k => lines k.text)) v = .ok u' ∧
      finish p u' = .ok u₂ ∧ u₂.file.hunks = v.file.hunks ++ read ∧
      read.map DiffHunk.content = ks.map DiffHunk.content ∧ u₂.around = v.around ∧
      u₂.pendingOldMarker = false := by
  obtain ⟨k₀, rest₀, hk₀, hold₀, hnew₀⟩ := h.first
  have hmarks := htwin.marks
  have hroom : v.hunkCount + ks.length ≤ p.hunkLimit := by
    have hcount := htwin.count
    have hlength := hks.length_le
    have hlimit := h.room
    omega
  have hsame : ∀ k ∈ ks, k.oldPath = u.currentOldPath ∧ k.newPath = u.currentPath := by
    intro k hk
    have hfirst := hpaths k hk k₀ (by rw [hk₀]; exact rfl)
    exact ⟨hfirst.1.trans hold₀, hfirst.2.trans hnew₀⟩
  obtain ⟨u', u₂, read, hrun, hfinish, hread, hcontent, haround, hpending, _, _⟩ :=
    replay_all hp (fun k hk => h.replay k (hks.subset hk)) hsame hvself (finish_none hvnone)
      (hmarks.matchedFileMarker.trans h.matched) (hmarks.pendingOldMarker.trans h.pending)
      hmarks.currentOldPath hmarks.currentPath hsaw hroom
  exact ⟨u', u₂, read, hrun, hfinish, hread, hcontent, haround, hpending⟩

end

section
variable {rules : UnicodeRules} {limits : ReviewLimits} {inventory : Inventory} {diff : Text}
  {a : DiffAnalysis} {f : DiffFileRecord} {ks : List DiffHunk}

/-- The hunks of an accepted diff are those of its file records. -/
theorem hunkRecords_eq (h : analyzeDiff rules limits false inventory diff = .ok a)
    (hfirst : starts "diff --git " ((lines diff).headD []) = true) :
    a.hunkRecords = a.fileRecords.flatMap DiffFileRecord.hunks := by
  obtain ⟨s', haccepts, rfl⟩ := analyzeDiff_strict.mp h
  obtain ⟨segs, fs, _, _, hall, hreads, hrecords, _⟩ := haccepts.reads hfirst
  have hfiled := hreads.filed rfl hall settled_start twin_start
  change s'.hunkRecords = s'.fileRecords.flatMap DiffFileRecord.hunks
  rw [hrecords, hfiled.hunkRecords]
  rfl

/-- Nothing is pending after a header that is accepted on its own. -/
theorem header_pending {hs : List Text} {v : State} (hbroken : Unbroken hs)
    (hrun : run (parser rules limits false {}) hs {} = .ok v) (hnone : v.hunk = none)
    (hstopped : v.stoppedForBudget = false)
    (h : analyzeDiff rules limits false inventory (joined hs) = .ok a) :
    v.pendingGitHeader = none ∧ v.pendingRenameFrom = none ∧ v.renameFromForHeader = none := by
  obtain ⟨s', haccepts, _⟩ := analyzeDiff_strict.mp h
  obtain ⟨v', hrun', hclose⟩ := haccepts.run
  rw [lines_joined hbroken, hrun] at hrun'
  obtain rfl := Except.ok.inj hrun'
  rw [closeFile_none hnone] at hclose
  obtain rfl := Except.ok.inj hclose
  obtain ⟨_, hgit, hfrom, hheader, hstopped'⟩ := keepFile_pending v
  have hcheck := haccepts.check
  rw [checkEnd_ok (hstopped'.trans hstopped), hgit, hfrom, hheader] at hcheck
  exact ⟨hcheck.2.1, hcheck.2.2.1, hcheck.2.2.2.1⟩

/-- A record's header with some of its hunks gives exactly those hunks. -/
theorem slice_records (h : analyzeDiff rules limits false inventory diff = .ok a)
    (hfirst : starts "diff --git " ((lines diff).headD []) = true) (hf : f ∈ a.fileRecords)
    (hks : ks.Sublist f.hunks) (hne : ks ≠ [])
    (hpaths : ∀ k ∈ ks, ∀ k₀ ∈ f.hunks.head?, k.oldPath = k₀.oldPath ∧ k.newPath = k₀.newPath)
    (hheader : ∃ b, analyzeDiff rules limits false inventory f.header = .ok b)
    (hbytes : utf8Size (sliceRecord f ks).text ≤ limits.maxDiffBytes) :
    ∃ a' f', analyzeDiff rules limits false inventory (sliceRecord f ks).text = .ok a' ∧
      starts "diff --git " ((lines (sliceRecord f ks).text).headD []) = true ∧
      a'.fileRecords = [f'] ∧ f'.hunks.map DiffHunk.content = ks.map DiffHunk.content := by
  obtain ⟨s', haccepts, rfl⟩ := analyzeDiff_strict.mp h
  obtain ⟨segs, fs, hlines, _, hall, hreads, rfl, _⟩ := haccepts.reads hfirst
  obtain ⟨seg, s₀, s₁, hmem, hs₀, hself₀, hread⟩ :=
    hreads.file rfl hall settled_start twin_start hf
  have hsegsub : seg.Sublist (lines diff) := by
    rw [hlines]
    exact List.sublist_flatten_of_mem hmem
  have hbroken : Unbroken seg := fun l hl => unbroken_lines diff l (hsegsub.subset hl)
  have hhunks : f.hunks ≠ [] := fun hnil => hne (List.sublist_nil.mp (hnil ▸ hks))
  obtain ⟨u, hu⟩ := hread.sliceable rfl (hall seg hmem) hs₀ hself₀ hbroken hhunks
  obtain ⟨v, hvrun, htwin, hvself, hvnone, hvhunks, hcovered⟩ := hu.twin rfl hs₀ hself₀
  obtain ⟨u', u₂, read, hrun, hfinish, hread', hcontent, haround, hpending₂⟩ :=
    hu.replay_slice rfl htwin hvself hvnone hcovered.sawStructure hks hpaths
  have hsub := hu.sliceLines_sublist hks
  have hslice := hu.sliceText hks
  have hslicelines : lines (sliceRecord f ks).text = sliceLines u ks := by
    rw [hslice]
    exact lines_joined fun l hl => hbroken l (hsub.subset hl)
  obtain ⟨b, hb⟩ := hheader
  rw [hu.headerText] at hb
  obtain ⟨hvgit, hvfrom, hvheader⟩ := header_pending
    (fun l hl => hbroken l (hsub.subset (List.mem_append_left _ hl))) hvrun hvnone
    hcovered.stopped hb
  simp only [State.around, Prod.mk.injEq] at haround
  obtain ⟨hin₂, hgit₂, hfrom₂, hheader₂, hstopped₂, hsaw₂, hfiles₂⟩ := haround
  have hkeep : u₂.keepFile = { u₂ with
      fileRecords := u₂.fileRecords ++ [u₂.file.record u₂.currentOldPath u₂.currentPath]
      file := {} } := by
    rw [State.keepFile, if_pos (hin₂.trans hcovered.inFile)]
  have hacceptss : Accepts rules limits (sliceRecord f ks).text u₂.keepFile := by
    refine ⟨?_, hbytes, ?_, ⟨u', ?_, ?_⟩, ?_⟩
    · obtain ⟨g, hd, hg, hgit, _⟩ := hu.header.segment
      rw [hslice, sliceLines, hg]
      exact joined_header_strip hgit
    · rw [hslicelines]
      exact (hsub.trans hsegsub).length_le.trans haccepts.count
    · rw [hslicelines, sliceLines, run_append rfl twin_start, hvrun]
      exact hrun
    · unfold closeFile
      change (finish _ u' >>= _) = _
      rw [hfinish]
      rfl
    · rw [hkeep]
      refine (checkEnd_ok (hstopped₂.trans hcovered.stopped)).mpr ⟨hpending₂, ?_, ?_, ?_, ?_⟩
      · exact hgit₂.trans hvgit
      · exact hfrom₂.trans hvfrom
      · exact hheader₂.trans hvheader
      · exact hsaw₂.trans hcovered.sawStructure
  refine ⟨_, u₂.file.record u₂.currentOldPath u₂.currentPath,
    analyzeDiff_strict.mpr ⟨_, hacceptss, rfl⟩, ?_, ?_, ?_⟩
  · obtain ⟨g, hd, hg, hgit, _⟩ := hu.header.segment
    rw [hslicelines, sliceLines, hg]
    exact hgit
  · change u₂.keepFile.fileRecords = _
    rw [hkeep, hfiles₂, hcovered.fileRecords]
    rfl
  · change u₂.file.hunks.map DiffHunk.content = _
    rw [hread', hvhunks, List.nil_append, hcontent]

/-- The records of an accepted diff of Git headers spell it; any of them make a diff, within the
byte limit, with the same records; and a record's header with some hunks of the paths it leaves
makes a diff of these hunks, where the header leaves no rename open. -/
theorem records_reparse (h : analyzeDiff rules limits false inventory diff = .ok a)
    (hfirst : starts "diff --git " ((lines diff).headD []) = true) :
    a.fileRecords.flatMap DiffFileRecord.text = terminated diff ∧
    (∀ chosen : List DiffFileRecord, chosen.Sublist a.fileRecords → chosen ≠ [] →
      ((∃ a', analyzeDiff rules limits false inventory
            (chosen.flatMap DiffFileRecord.text) = .ok a' ∧
          a'.fileRecords.map DiffFileRecord.content = chosen.map DiffFileRecord.content) ↔
        utf8Size (chosen.flatMap DiffFileRecord.text) ≤ limits.maxDiffBytes)) ∧
    ∀ f ∈ a.fileRecords, ∀ ks : List DiffHunk, ks.Sublist f.hunks → ks ≠ [] →
      (∀ k ∈ ks, ∀ k₀ ∈ f.hunks.head?, k.oldPath = k₀.oldPath ∧ k.newPath = k₀.newPath) →
      (∃ b, analyzeDiff rules limits false inventory f.header = .ok b) →
      utf8Size (sliceRecord f ks).text ≤ limits.maxDiffBytes →
      ∃ a', analyzeDiff rules limits false inventory (sliceRecord f ks).text = .ok a' ∧
        a'.fileRecords.length = 1 ∧
        a'.hunkRecords.map DiffHunk.content = ks.map DiffHunk.content := by
  refine ⟨records_spell h hfirst, ?_, ?_⟩
  · intro chosen hchosen hne
    constructor
    · intro hagain
      obtain ⟨a', ha', _⟩ := hagain
      obtain ⟨s', haccepts, _⟩ := analyzeDiff_strict.mp ha'
      exact haccepts.bytes
    · exact chosen_records h hfirst hchosen hne
  · intro f hf ks hks hne hpaths hheader hbytes
    obtain ⟨a', f', ha', hfirst', hrecords, hcontent⟩ :=
      slice_records h hfirst hf hks hne hpaths hheader hbytes
    refine ⟨a', ha', by rw [hrecords]; rfl, ?_⟩
    rw [hunkRecords_eq ha' hfirst', hrecords]
    simpa using hcontent

end

/-- Tables in which every text is NFC and no character is forbidden. -/
def plainRules : UnicodeRules where
  nfc := fun _ => true
  forbidden := fun _ => false

def oneFile : Text := text "diff --git a/x b/x\n--- a/x\n+++ b/x\n@@ -1 +1 @@\n-a\n+b\n"

theorem oneFile_spelled : ∃ a, analyzeDiff plainRules {} false {} oneFile = .ok a ∧
    a.fileRecords.flatMap DiffFileRecord.text = terminated oneFile := by
  have hok : (analyzeDiff plainRules {} false {} oneFile).toOption.isSome = true := by
    decide +kernel
  cases h : analyzeDiff plainRules {} false {} oneFile with
  | error e =>
    rw [h] at hok
    cases hok
  | ok a => exact ⟨a, rfl, (records_reparse h (by decide +kernel)).1⟩

/-- Under one Git header the file is changed, and then a part of it is deleted. -/
def twoPairs : Text :=
  text ("diff --git a/x b/x\n--- a/x\n+++ b/x\n@@ -1 +1 @@\n-a\n+b\n\n" ++
    "--- a/x\n+++ /dev/null\n@@ -3 +0,0 @@\n-c\n")

/-- The hunks of the records of `diff` that their slices do not give again. -/
def lostHunks (diff : Text) : List DiffHunk :=
  match analyzeDiff plainRules {} false {} diff with
  | .error _ => []
  | .ok a => a.fileRecords.flatMap fun f => f.hunks.filter fun k =>
    match analyzeDiff plainRules {} false {} (sliceRecord f [k]).text with
    | .error _ => true
    | .ok a' => decide (a'.hunkRecords.map DiffHunk.content ≠ [k.content])

theorem exists_lost {diff : Text} (hlost : (lostHunks diff).isEmpty = false) :
    ∃ a, analyzeDiff plainRules {} false {} diff = .ok a ∧ ∃ f ∈ a.fileRecords, ∃ k ∈ f.hunks,
      ¬ ∃ a', analyzeDiff plainRules {} false {} (sliceRecord f [k]).text = .ok a' ∧
        a'.hunkRecords.map DiffHunk.content = [k].map DiffHunk.content := by
  obtain ⟨k, hk⟩ := List.exists_mem_of_ne_nil _ (List.isEmpty_eq_false_iff.mp hlost)
  unfold lostHunks at hk
  split at hk
  · cases hk
  · next a ha =>
    obtain ⟨f, hf, hk⟩ := List.mem_flatMap.mp hk
    obtain ⟨hmem, hbad⟩ := List.mem_filter.mp hk
    refine ⟨a, ha, f, hf, k, hmem, ?_⟩
    intro hagain
    obtain ⟨a', ha', hsame⟩ := hagain
    rw [ha'] at hbad
    exact of_decide_eq_true hbad hsame

/-- The rename that the header begins ends after the hunk. -/
def openRename : Text :=
  text ("diff --git a/x b/y\nrename from x\n--- a/x\n+++ b/y\n@@ -1 +1 @@\n-a\n+b\n\n" ++
    "rename to y\n")

/-- A limit that the text fills before its final LF is added. -/
def tightLimits : ReviewLimits := { maxDiffBytes := 52 }

/-- A slice with other paths than the header's, a slice whose header leaves a rename open, and the
records of a text that fills the byte limit without a final LF. -/
theorem reparse_fails :
    (∃ a, analyzeDiff plainRules {} false {} twoPairs = .ok a ∧
      ∃ f ∈ a.fileRecords, ∃ k ∈ f.hunks,
        ¬ ∃ a', analyzeDiff plainRules {} false {} (sliceRecord f [k]).text = .ok a' ∧
          a'.hunkRecords.map DiffHunk.content = [k].map DiffHunk.content) ∧
    (∃ a, analyzeDiff plainRules {} false {} openRename = .ok a ∧
      ∃ f ∈ a.fileRecords, ∃ k ∈ f.hunks,
        ¬ ∃ a', analyzeDiff plainRules {} false {} (sliceRecord f [k]).text = .ok a' ∧
          a'.hunkRecords.map DiffHunk.content = [k].map DiffHunk.content) ∧
    ∃ a, analyzeDiff plainRules tightLimits false {} oneFile.dropLast = .ok a ∧
      ¬ ∃ a', analyzeDiff plainRules tightLimits false {}
        (a.fileRecords.flatMap DiffFileRecord.text) = .ok a' := by
  refine ⟨exists_lost (by decide +kernel), exists_lost (by decide +kernel), ?_⟩
  have hok : (analyzeDiff plainRules tightLimits false {} oneFile.dropLast).toOption.isSome =
      true := by
    decide +kernel
  cases h : analyzeDiff plainRules tightLimits false {} oneFile.dropLast with
  | error e =>
    rw [h] at hok
    cases hok
  | ok a =>
    refine ⟨a, rfl, ?_⟩
    intro hagain
    obtain ⟨a', ha'⟩ := hagain
    obtain ⟨s', haccepts, _⟩ := analyzeDiff_strict.mp ha'
    have hbytes := haccepts.bytes
    rw [records_spell h (by decide +kernel)] at hbytes
    exact absurd hbytes (by decide +kernel)

end ReviewSensei.Diff
