import ReviewSensei.DiffTracking
import ReviewSensei.Follows

/-! Two passes over the same lines that entered the file with different pasts: what the parser does
inside a file depends on nothing that earlier files left behind, except through the ceilings. -/
namespace ReviewSensei.Diff
open Session (bind_ok)

/-- A hunk without its place in the numbering. -/
def DiffHunk.content (k : DiffHunk) : DiffHunk := { k with index := 0 }

/-- A file record without the numbering of its hunks. -/
def DiffFileRecord.content (f : DiffFileRecord) : DiffFileRecord :=
  { f with hunks := f.hunks.map DiffHunk.content }

/-- What a pass gathers over all files. -/
structure Gathered where
  changed : Dict Path (Finset Nat)
  deleted : Dict Path (Finset Nat)
  paths : List Path
  binaryPaths : List Path
  renamedPairs : List (Path × Path)
  hunkRecords : List DiffHunk
  fileRecords : List DiffFileRecord
  hunkCount : Nat
  enumerationComplete : Bool

/-- The state with another past: what was gathered, the numbers of the file's closed hunks and the
number of the open one. -/
def State.withPast (s : State) (g : Gathered) (hunks : List DiffHunk) (index : Nat) : State :=
  { s with
    changed := g.changed
    deleted := g.deleted
    paths := g.paths
    binaryPaths := g.binaryPaths
    renamedPairs := g.renamedPairs
    hunkRecords := g.hunkRecords
    fileRecords := g.fileRecords
    hunkCount := g.hunkCount
    enumerationComplete := g.enumerationComplete
    hunk := s.hunk.map (fun k => { k with index := index })
    file := { s.file with hunks := hunks } }

/-- The second state stands where the first does, and nearer to no ceiling. -/
structure Twin (p : Parser) (s t : State) : Prop where
  inside : ∃ g hunks index, t = s.withPast g hunks index ∧
    hunks.map DiffHunk.content = s.file.hunks.map DiffHunk.content
  room : s.paths.length ≤ p.fileLimit
  fewer : t.paths ⊆ s.paths
  nodup : t.paths.Nodup
  count : t.hunkCount ≤ s.hunkCount

/-- Both passes read on, as twins. -/
def TwinStep (p : Parser) (r r' : Step) : Prop :=
  ∃ s t, r = .next s ∧ r' = .next t ∧ Twin p s t

/-- Both registrations found a place. -/
def TwinKept (p : Parser) (r r' : Bool × State) : Prop :=
  r.1 = true ∧ r'.1 = true ∧ Twin p r.2 r'.2

variable {p : Parser} {s t : State} {line : Text}

theorem Twin.next (h : Twin p s t) :
    Follows (TwinStep p) (.ok (.next s) : Except String Step)
      (.ok (.next t) : Except String Step) :=
  .ok ⟨s, t, rfl, rfl, h⟩

/-- A change of fields that both states share, at most the ceilings' fields apart. -/
theorem Twin.change {s' t' : State} (h : Twin p s t)
    (inside : ∀ g hunks index, t = s.withPast g hunks index →
      hunks.map DiffHunk.content = s.file.hunks.map DiffHunk.content →
      ∃ g' hunks' index', t' = s'.withPast g' hunks' index' ∧
        hunks'.map DiffHunk.content = s'.file.hunks.map DiffHunk.content)
    (paths : s'.paths = s.paths) (paths' : t'.paths = t.paths)
    (count : t'.hunkCount ≤ s'.hunkCount) : Twin p s' t' := by
  obtain ⟨g, hunks, index, ht, hh⟩ := h.inside
  exact ⟨inside g hunks index ht hh, paths ▸ h.room, paths ▸ paths' ▸ h.fewer,
    paths' ▸ h.nodup, count⟩

theorem Twin.appendFileLine (h : Twin p s t) :
    Twin p (s.appendFileLine line) (t.appendFileLine line) := by
  obtain ⟨⟨g, hunks, index, rfl, hh⟩, hroom, hfewer, hnodup, hcount⟩ := h
  cases hin : s.file.inFile with
  | false =>
    have hs : s.appendFileLine line = s := by simp [State.appendFileLine, hin]
    have ht : (s.withPast g hunks index).appendFileLine line = s.withPast g hunks index := by
      simp [State.appendFileLine, State.withPast, hin]
    rw [hs, ht]
    exact ⟨⟨g, hunks, index, rfl, hh⟩, hroom, hfewer, hnodup, hcount⟩
  | true =>
    refine ⟨⟨g, hunks, index, ?_, ?_⟩, ?_, ?_, ?_, ?_⟩
    · simp [State.appendFileLine, State.withPast, hin]
    all_goals simp only [State.appendFileLine, State.withPast, hin, if_true] at *
    · exact hh
    · exact hroom
    · exact hfewer
    · exact hnodup
    · exact hcount

theorem Twin.keepHunk (h : Twin p s t) {k : OpenHunk} (hk : s.hunk = some k) :
    ∃ index, t.hunk = some { k with index := index } ∧
      Twin p (s.keepHunk k) (t.keepHunk { k with index := index }) := by
  obtain ⟨⟨g, hunks, index, rfl, hh⟩, hroom, hfewer, hnodup, hcount⟩ := h
  have ht : (s.withPast g hunks index).hunk = some { k with index := index } := by
    simp [State.withPast, hk]
  refine ⟨index, ht, ⟨{ g with hunkRecords := g.hunkRecords ++
    [OpenHunk.record { k with index := index } s.currentOldPath s.currentPath] }, hunks ++
      [OpenHunk.record { k with index := index } s.currentOldPath s.currentPath], index, rfl, ?_⟩,
    hroom, hfewer, hnodup, hcount⟩
  change List.map DiffHunk.content (hunks ++ [_]) = List.map DiffHunk.content (s.file.hunks ++ [_])
  rw [List.map_append, List.map_append, hh]
  rfl

theorem Twin.closeHunk {b : Bool} (hp : p.allowIncomplete = false) (h : Twin p s t) :
    Follows (Twin p) (closeHunk p b s) (closeHunk p b t) := by
  intro s' hs'
  rcases closeHunk_ok hs' with ⟨hnone, rfl⟩ | ⟨k, hk, hsat, rfl⟩ | ⟨_, _, _, hmode, _⟩
  · obtain ⟨g, hunks, index, rfl, _⟩ := h.inside
    exact ⟨_, closeHunk_none (by simp [State.withPast, hnone]), h⟩
  · obtain ⟨index, ht, htwin⟩ := h.keepHunk hk
    refine ⟨_, ?_, htwin⟩
    have hsat' : OpenHunk.satisfied { k with index := index } := hsat
    simp only [Diff.closeHunk, ht, if_pos hsat']
  · rw [hp] at hmode
    cases hmode

theorem Twin.finish (hp : p.allowIncomplete = false) (h : Twin p s t) :
    Follows (Twin p) (finish p s) (finish p t) := h.closeHunk hp

/-- The fields a line handler tests are the same on both sides. -/
structure SameMarks (s t : State) : Prop where
  pendingOldMarker : t.pendingOldMarker = s.pendingOldMarker
  matchedFileMarker : t.matchedFileMarker = s.matchedFileMarker
  pendingGitHeader : t.pendingGitHeader = s.pendingGitHeader
  pendingRenameFrom : t.pendingRenameFrom = s.pendingRenameFrom
  selectedGitHeader : t.selectedGitHeader = s.selectedGitHeader
  renameFromForHeader : t.renameFromForHeader = s.renameFromForHeader
  currentPath : t.currentPath = s.currentPath
  currentOldPath : t.currentOldPath = s.currentOldPath
  inFile : t.file.inFile = s.file.inFile

theorem Twin.marks (h : Twin p s t) : SameMarks s t := by
  obtain ⟨g, hunks, index, rfl, _⟩ := h.inside
  exact ⟨rfl, rfl, rfl, rfl, rfl, rfl, rfl, rfl, rfl⟩

/-- The state with one path more. -/
def State.addPath (s : State) (q : Path) : State := { s with paths := s.paths ++ [q] }

theorem Twin.addPath (h : Twin p s t) {q : Path} (hroom : s.paths.length < p.fileLimit)
    (hq : q ∉ t.paths) : Twin p (s.addPath q) (t.addPath q) := by
  obtain ⟨g, hunks, index, rfl, hh⟩ := h.inside
  refine ⟨⟨{ g with paths := g.paths ++ [q] }, hunks, index, rfl, hh⟩, ?_, ?_, ?_, h.count⟩
  · change (s.paths ++ [q]).length ≤ p.fileLimit
    rw [List.length_append, List.length_singleton]
    omega
  · exact List.append_subset.mpr ⟨List.Subset.trans h.fewer (List.subset_append_left _ _),
      List.subset_append_right _ _⟩
  · refine List.nodup_append.mpr ⟨h.nodup, List.nodup_singleton q, ?_⟩
    intro a ha b hb
    obtain rfl := List.mem_singleton.mp hb
    intro hab
    exact hq (hab ▸ ha)

/-- The first pass already has the path: the second still has a place for it. -/
theorem Twin.catchUp (h : Twin p s t) {q : Path} (hq : q ∈ s.paths) (hq' : q ∉ t.paths) :
    t.paths.length < p.fileLimit ∧ Twin p s (t.addPath q) := by
  have hnodup : (t.paths ++ [q]).Nodup := by
    refine List.nodup_append.mpr ⟨h.nodup, List.nodup_singleton q, ?_⟩
    intro a ha b hb
    obtain rfl := List.mem_singleton.mp hb
    intro hab
    exact hq' (hab ▸ ha)
  have hsub : t.paths ++ [q] ⊆ s.paths :=
    List.append_subset.mpr ⟨h.fewer, List.cons_subset.mpr ⟨hq, List.nil_subset _⟩⟩
  have hlength := (hnodup.subperm hsub).length_le
  rw [List.length_append, List.length_singleton] at hlength
  obtain ⟨g, hunks, index, rfl, hh⟩ := h.inside
  refine ⟨Nat.lt_of_lt_of_le hlength h.room,
    ⟨{ g with paths := g.paths ++ [q] }, hunks, index, rfl, hh⟩, h.room, hsub, hnodup, h.count⟩

theorem Twin.recordPath (hp : p.allowIncomplete = false) (h : Twin p s t) (path : Option Path) :
    Follows (TwinKept p) (recordPath p path s) (recordPath p path t) := by
  cases path with
  | none => exact .ok ⟨rfl, rfl, h⟩
  | some q =>
    intro r hr
    by_cases hs : q ∈ s.paths
    · simp only [Diff.recordPath, if_pos hs] at hr
      obtain rfl := Except.ok.inj hr
      by_cases ht : q ∈ t.paths
      · exact ⟨(true, t), by simp [Diff.recordPath, ht], rfl, rfl, h⟩
      · obtain ⟨hlt, htwin⟩ := h.catchUp hs ht
        refine ⟨(true, t.addPath q), ?_, rfl, rfl, htwin⟩
        simp only [Diff.recordPath, if_neg ht, if_neg (Nat.not_le.mpr hlt)]
        rfl
    · have ht : q ∉ t.paths := fun hmem => hs (h.fewer hmem)
      by_cases hlimit : p.fileLimit ≤ s.paths.length
      · simp [Diff.recordPath, hs, hlimit, hp] at hr
      · simp only [Diff.recordPath, if_neg hs, if_neg hlimit] at hr
        obtain rfl := Except.ok.inj hr
        have hle := (h.nodup.subperm h.fewer).length_le
        refine ⟨(true, t.addPath q), ?_, rfl, rfl, h.addPath (Nat.not_le.mp hlimit) ht⟩
        simp only [Diff.recordPath, if_neg ht]
        rw [if_neg (by omega)]
        rfl

theorem Twin.recordBoth (hp : p.allowIncomplete = false) (h : Twin p s t)
    (old new : Option Path) :
    Follows (TwinKept p) (recordBoth p old new s) (recordBoth p old new t) := by
  refine (h.recordPath hp old).bind ?_
  rintro ⟨b, s₁⟩ ⟨b', t₁⟩ ⟨hb, hb', h₁⟩
  obtain rfl : b = true := hb
  obtain rfl : b' = true := hb'
  exact h₁.recordPath hp new

/-- The header is selected and none is pending. -/
theorem Twin.commitSelected (hp : p.allowIncomplete = false) (h : Twin p s t)
    (selected : Option Path × Option Path) :
    Follows (Twin p)
      (do
        let s ← commitGitHeader p selected { s with selectedGitHeader := some selected }
        return { s with pendingGitHeader := none })
      (do
        let t ← commitGitHeader p selected { t with selectedGitHeader := some selected }
        return { t with pendingGitHeader := none }) := by
  have h₀ : Twin p { s with selectedGitHeader := some selected }
      { t with selectedGitHeader := some selected } := by
    refine h.change ?_ rfl rfl h.count
    rintro g hunks index rfl hh
    exact ⟨g, hunks, index, rfl, hh⟩
  have hcommit : Follows (Twin p)
      (commitGitHeader p selected { s with selectedGitHeader := some selected })
      (commitGitHeader p selected { t with selectedGitHeader := some selected }) := by
    refine (h₀.recordPath hp selected.1).bind ?_
    intro r₁ r₁' h₁
    refine (h₁.2.2.recordPath hp selected.2).bind ?_
    intro r₂ r₂' h₂
    exact .ok h₂.2.2
  refine hcommit.bind ?_
  intro s₁ t₁ h₁
  refine .ok (h₁.change ?_ rfl rfl h₁.count)
  rintro g hunks index rfl hh
  exact ⟨g, hunks, index, rfl, hh⟩

theorem Twin.selectGitHeader (hp : p.allowIncomplete = false) (h : Twin p s t)
    (header : GitHeader) :
    Follows (Twin p) (selectGitHeader p header s) (selectGitHeader p header t) := by
  cases header with
  | unresolvedUnquoted rest =>
    refine .ok (h.change ?_ rfl rfl h.count)
    rintro g hunks index rfl hh
    exact ⟨g, hunks, index, rfl, hh⟩
  | fields old new => exact .bind_same fun selected _ => h.commitSelected hp selected

theorem Twin.resolveAs (hp : p.allowIncomplete = false) (h : Twin p s t) (pending : Text)
    (old new : Path) :
    Follows (Twin p) (resolveAs p pending old new s) (resolveAs p pending old new t) :=
  .guard id fun _ => h.commitSelected hp (some old, some new)

theorem Twin.resolvePendingGitHeader (hp : p.allowIncomplete = false) (h : Twin p s t)
    (old new : Option Path) :
    Follows (Twin p) (resolvePendingGitHeader p old new s)
      (resolvePendingGitHeader p old new t) := by
  unfold Diff.resolvePendingGitHeader
  rw [h.marks.pendingGitHeader]
  cases s.pendingGitHeader with
  | none => exact .ok h
  | some pending =>
    cases old with
    | none =>
      cases new with
      | none => exact .error
      | some q => exact h.resolveAs hp pending q q
    | some o =>
      cases new with
      | none => exact h.resolveAs hp pending o o
      | some q => exact h.resolveAs hp pending o q

theorem Twin.enterFile (h : Twin p s t) : Twin p s.enterFile t.enterFile := by
  refine h.change ?_ rfl rfl h.count
  rintro g hunks index rfl hh
  exact ⟨g, hunks, index, rfl, hh⟩

/-- A supported line has been seen. -/
def State.sawOne (s : State) : State := { s with sawStructure := true }

theorem Twin.sawOne (h : Twin p s t) : Twin p s.sawOne t.sawOne := by
  refine h.change ?_ rfl rfl h.count
  rintro g hunks index rfl hh
  exact ⟨g, hunks, index, rfl, hh⟩

theorem Twin.hunk_none (h : Twin p s t) (hs : s.hunk = none) : t.hunk = none := by
  obtain ⟨g, hunks, index, rfl, _⟩ := h.inside
  simp [State.withPast, hs]

theorem Twin.underHeader (h : Twin p s t) : Twin p s.underHeader t.underHeader := by
  refine h.change ?_ rfl rfl h.count
  rintro g hunks index rfl hh
  exact ⟨g, hunks, index, rfl, hh⟩

theorem Twin.keepFile (h : Twin p s t) : Twin p s.keepFile t.keepFile := by
  have hin := h.marks.inFile
  cases hs : s.file.inFile with
  | false => simpa [State.keepFile, hs, hin ▸ hs] using h
  | true =>
    have ht : t.file.inFile = true := hin.trans hs
    simp only [State.keepFile, hs, ht, if_true]
    refine h.change ?_ rfl rfl h.count
    rintro g hunks index rfl hh
    exact ⟨{ g with fileRecords := _ }, [], index, rfl, rfl⟩

theorem Twin.closeFile (hp : p.allowIncomplete = false) (h : Twin p s t) :
    Follows (Twin p) (closeFile p s) (closeFile p t) :=
  (h.closeHunk hp).bind fun _ _ h₁ => .ok h₁.keepFile

theorem Twin.startFile (hp : p.allowIncomplete = false) (h : Twin p s t) :
    Follows (Twin p) (startFile p s) (startFile p t) :=
  (h.closeFile hp).bind fun _ _ h₁ => .ok h₁.enterFile

theorem Twin.ensureFile (hp : p.allowIncomplete = false) (h : Twin p s t) :
    Follows (Twin p) (ensureFile p s) (ensureFile p t) := by
  unfold Diff.ensureFile
  rw [h.marks.inFile]
  exact .ite (fun _ => .ok h) (fun _ => h.startFile hp)

theorem Twin.gitHeaderLine (hp : p.allowIncomplete = false) (h : Twin p s t) :
    Follows (TwinStep p) (gitHeaderLine p line s) (gitHeaderLine p line t) := by
  refine (h.finish hp).bind ?_
  intro s₁ t₁ h₁
  rw [h₁.marks.pendingOldMarker, h₁.marks.pendingGitHeader, h₁.marks.pendingRenameFrom,
    h₁.marks.renameFromForHeader]
  refine .guard id fun _ => .guard id fun _ => .guard id fun _ => ?_
  refine (h₁.startFile hp).bind ?_
  intro s₂ t₂ h₂
  refine .guard id fun _ => .bind_same fun header _ => ?_
  refine (h₂.sawOne.selectGitHeader hp header).bind ?_
  intro s₃ t₃ h₃
  exact h₃.underHeader.appendFileLine.next

theorem Twin.oldMarkerLine (hp : p.allowIncomplete = false) (h : Twin p s t) :
    Follows (TwinStep p) (oldMarkerLine p line s) (oldMarkerLine p line t) := by
  refine (h.finish hp).bind ?_
  intro s₁ t₁ h₁
  refine .guard (by rw [h₁.marks.pendingOldMarker]; exact id) fun _ => ?_
  refine (h₁.sawOne.ensureFile hp).bind ?_
  intro s₂ t₂ h₂
  refine .bind_same fun path _ => Twin.next (Twin.appendFileLine (h₂.change ?_ rfl rfl h₂.count))
  rintro g hunks index rfl hh
  exact ⟨g, hunks, index, rfl, hh⟩

theorem Twin.matchMarker (h : Twin p s t) (path : Option Path) :
    Twin p (s.matchMarker path) (t.matchMarker path) := by
  refine h.change ?_ rfl rfl h.count
  rintro g hunks index rfl hh
  exact ⟨{ g with renamedPairs := _, changed := _ }, hunks, index, rfl, hh⟩

/-- A path that has found its place does not stop the pass. -/
theorem TwinKept.next {r r' : Bool × State} {f : State → State} {e e' : Except String Step}
    (h : TwinKept p r r') (hf : ∀ s t, Twin p s t → Twin p (f s) (f t)) :
    Follows (TwinStep p) (if r.1 then .ok (.next (f r.2)) else e)
      (if r'.1 then .ok (.next (f r'.2)) else e') := by
  rw [h.1, h.2.1]
  exact (hf _ _ h.2.2).next

theorem Twin.matchMarkers (hp : p.allowIncomplete = false) (h : Twin p s t)
    (path : Option Path) :
    Follows (TwinStep p) (matchMarkers p line path s) (matchMarkers p line path t) := by
  unfold Diff.matchMarkers
  rw [h.marks.currentOldPath]
  refine (h.recordBoth hp s.currentOldPath path).bind ?_
  rintro ⟨b, s₁⟩ ⟨b', t₁⟩ hr
  exact hr.next fun _ _ h₂ => (h₂.matchMarker path).appendFileLine

theorem Twin.newMarkerLine (hp : p.allowIncomplete = false) (h : Twin p s t) :
    Follows (TwinStep p) (newMarkerLine p line s) (newMarkerLine p line t) := by
  refine (h.finish hp).bind ?_
  intro s₁ t₁ h₁
  refine .guard (by rw [h₁.marks.pendingOldMarker]; exact id) fun _ => .bind_same fun path _ => ?_
  refine .guard (by rw [h₁.marks.pendingRenameFrom]; exact id) fun _ => ?_
  have hresolve : Follows (Twin p)
      (Diff.resolvePendingGitHeader p s₁.currentOldPath path s₁.sawOne)
      (Diff.resolvePendingGitHeader p t₁.currentOldPath path t₁.sawOne) := by
    rw [h₁.marks.currentOldPath]
    exact h₁.sawOne.resolvePendingGitHeader hp s₁.currentOldPath path
  refine hresolve.bind ?_
  intro s₂ t₂ h₂
  refine .guard ?_ fun _ => h₂.matchMarkers hp path
  intro hs
  unfold conflictsWithHeader at *
  rw [h₂.marks.pendingGitHeader, h₂.marks.selectedGitHeader, h₂.marks.currentOldPath]
  exact hs

theorem Twin.renameWithoutHeader (hp : p.allowIncomplete = false) (h : Twin p s t)
    (path : Option Path) :
    Follows (TwinStep p) (renameWithoutHeader p line path s)
      (renameWithoutHeader p line path t) :=
  (h.recordPath hp path).bind fun _ _ hr => hr.next fun _ _ h₁ => h₁.appendFileLine

theorem Twin.renameFromPath (hp : p.allowIncomplete = false) (h : Twin p s t)
    (path : Option Path) :
    Follows (TwinStep p) (renameFromPath p line path s) (renameFromPath p line path t) := by
  unfold Diff.renameFromPath
  rw [h.marks.pendingGitHeader, h.marks.pendingRenameFrom, h.marks.selectedGitHeader,
    h.marks.renameFromForHeader]
  refine .ite (fun _ => .guard id fun _ => ?_) (fun _ => .ite (fun _ => .guard id fun _ => ?_)
    (fun _ => h.renameWithoutHeader hp path))
  all_goals
    refine Twin.next (Twin.appendFileLine (h.change ?_ rfl rfl h.count))
    rintro g hunks index rfl hh
    exact ⟨g, hunks, index, rfl, hh⟩

theorem Twin.renameFromLine (hp : p.allowIncomplete = false) (h : Twin p s t) :
    Follows (TwinStep p) (renameFromLine p line s) (renameFromLine p line t) := by
  refine (h.finish hp).bind ?_
  intro s₁ t₁ h₁
  exact .guard (by rw [h₁.marks.pendingOldMarker]; exact id) fun _ =>
    .bind_same fun path _ => h₁.sawOne.renameFromPath hp path

theorem Twin.renameResolving (hp : p.allowIncomplete = false) (h : Twin p s t) (source : Path)
    (path : Option Path) :
    Follows (TwinStep p) (renameResolving p line source path s)
      (renameResolving p line source path t) := by
  refine (h.resolvePendingGitHeader hp (some source) path).bind ?_
  intro s₁ t₁ h₁
  refine (h₁.recordBoth hp (some source) path).bind ?_
  rintro ⟨b, s₂⟩ ⟨b', t₂⟩ hr
  refine TwinKept.next (f := fun s => State.appendFileLine { s with
    renamedPairs := s.renamedPairs ++ path.toList.map (fun q => (source, q))
    pendingRenameFrom := none } line) hr ?_
  intro s₃ t₃ h₃
  refine Twin.appendFileLine (h₃.change ?_ rfl rfl h₃.count)
  rintro g hunks index rfl hh
  exact ⟨{ g with renamedPairs := _ }, hunks, index, rfl, hh⟩

theorem Twin.renameOfHeader (h : Twin p s t) (selected : Option Path × Option Path)
    (path : Option Path) :
    Follows (TwinStep p) (renameOfHeader line selected path s)
      (renameOfHeader line selected path t) := by
  unfold Diff.renameOfHeader
  rw [h.marks.renameFromForHeader]
  refine .guard id fun _ => Twin.next (Twin.appendFileLine (h.change ?_ rfl rfl h.count))
  rintro g hunks index rfl hh
  exact ⟨{ g with renamedPairs := _ }, hunks, index, rfl, hh⟩

theorem Twin.renameToPath (hp : p.allowIncomplete = false) (h : Twin p s t)
    (path : Option Path) :
    Follows (TwinStep p) (renameToPath p line path s) (renameToPath p line path t) := by
  unfold Diff.renameToPath
  rw [h.marks.pendingGitHeader, h.marks.pendingRenameFrom, h.marks.selectedGitHeader]
  refine .ite (fun _ => ?_) (fun _ => ?_)
  · cases s.pendingRenameFrom with
    | none => exact .error
    | some source => exact h.renameResolving hp source path
  · cases s.selectedGitHeader with
    | none => exact h.renameWithoutHeader hp path
    | some selected => exact h.renameOfHeader selected path

theorem Twin.renameToLine (hp : p.allowIncomplete = false) (h : Twin p s t) :
    Follows (TwinStep p) (renameToLine p line s) (renameToLine p line t) := by
  refine (h.finish hp).bind ?_
  intro s₁ t₁ h₁
  exact .guard (by rw [h₁.marks.pendingOldMarker]; exact id) fun _ =>
    .bind_same fun path _ => h₁.sawOne.renameToPath hp path

theorem Twin.admitHunk (hp : p.allowIncomplete = false) (h : Twin p s t) (r : HunkRange) :
    Follows (TwinStep p) (admitHunk p line r s) (admitHunk p line r t) := by
  unfold Diff.admitHunk
  simp only [hp, if_neg Bool.false_ne_true]
  refine .guard (fun hs => ?_) fun _ => Twin.next (Twin.appendFileLine (h.change ?_ rfl rfl ?_))
  · have := h.count
    omega
  · rintro g hunks index rfl hh
    exact ⟨{ g with hunkCount := g.hunkCount + 1 }, hunks, g.hunkCount + 1, rfl, hh⟩
  · exact Nat.succ_le_succ h.count

theorem Twin.hunkHeaderLine (hp : p.allowIncomplete = false) (h : Twin p s t) :
    Follows (TwinStep p) (hunkHeaderLine p line s) (hunkHeaderLine p line t) := by
  refine (h.finish hp).bind ?_
  intro s₁ t₁ h₁
  exact .guard (by rw [h₁.marks.pendingOldMarker]; exact id) fun _ =>
    .guard (by rw [h₁.marks.matchedFileMarker]; exact id) fun _ =>
      .bind_same fun r _ => h₁.sawOne.admitHunk hp r

theorem Twin.outsideLine (h : Twin p s t) :
    Twin p (Diff.outsideLine line s) (Diff.outsideLine line t) := by
  unfold Diff.outsideLine
  refine Twin.appendFileLine ?_
  by_cases hbinary : (starts "Binary files " line || starts "GIT binary patch" line) = true
  · rw [if_pos hbinary, if_pos hbinary]
    refine h.change ?_ rfl rfl h.count
    rintro g hunks index rfl hh
    exact ⟨{ g with binaryPaths := _ }, hunks, index, rfl, hh⟩
  · rw [if_neg hbinary, if_neg hbinary]
    exact h

theorem Twin.pushLine (h : Twin p s t) (k : OpenHunk) (index : Nat) :
    Twin p (s.pushLine k line) (t.pushLine { k with index := index } line) := by
  refine Twin.appendFileLine (h.change ?_ rfl rfl h.count)
  rintro g hunks i rfl hh
  exact ⟨g, hunks, index, rfl, hh⟩

theorem Twin.addedLine (h : Twin p s t) (n : Nat) : Twin p (s.addedLine n) (t.addedLine n) := by
  refine h.change ?_ rfl rfl h.count
  rintro g hunks index rfl hh
  exact ⟨{ g with changed := _ }, hunks, index, rfl, hh⟩

theorem Twin.deletedLine (h : Twin p s t) (path : Option Path) (n : Nat) :
    Twin p (s.deletedLine path n) (t.deletedLine path n) := by
  refine h.change ?_ rfl rfl h.count
  rintro g hunks index rfl hh
  exact ⟨{ g with deleted := _ }, hunks, index, rfl, hh⟩

theorem Twin.countLine (h : Twin p s t) (k : OpenHunk) (index : Nat) :
    Follows (Twin p) (countLine p line k s) (countLine p line { k with index := index } t) :=
  .guard id fun _ => .guard id fun _ => .ok (h.pushLine k index)

theorem Twin.trailingLine (hp : p.allowIncomplete = false) (h : Twin p s t) (k : OpenHunk)
    (index : Nat) :
    Follows (Twin p) (trailingLine p line k s) (trailingLine p line { k with index := index } t) :=
  .ite (fun _ => (h.finish hp).bind fun _ _ h₁ => .ok h₁.appendFileLine) (fun _ => .error)

theorem Twin.bodyLine (hp : p.allowIncomplete = false) (h : Twin p s t) (k : OpenHunk)
    (index : Nat) :
    Follows (Twin p) (bodyLine p line k s) (bodyLine p line { k with index := index } t) := by
  unfold Diff.bodyLine
  rw [h.marks.currentPath, h.marks.currentOldPath]
  cases bodyKind line with
  | noNewline => exact .ite (fun _ => .ok (h.pushLine k index)) (fun _ => .error)
  | trailing => exact h.trailingLine hp k index
  | added => exact .guard id fun _ => (h.addedLine _).countLine (k.addedLine _) index
  | deleted =>
    exact .guard id fun _ => (h.deletedLine _ _).countLine (k.deletedLine _) index
  | context => exact .guard id fun _ => h.countLine k.contextLine index

theorem Twin.otherLine (hp : p.allowIncomplete = false) (h : Twin p s t) :
    Follows (TwinStep p) (otherLine p line s) (otherLine p line t) := by
  unfold Diff.otherLine
  cases hs : s.hunk with
  | none =>
    rw [h.hunk_none hs]
    exact h.outsideLine.next
  | some k =>
    obtain ⟨index, ht, _⟩ := h.keepHunk hs
    rw [ht]
    exact (h.bodyLine hp k index).bind fun _ _ h₁ => h₁.next

/-- One line keeps the states twins, and no ceiling ends a strict pass early. -/
theorem Twin.step (hp : p.allowIncomplete = false) (h : Twin p s t) (line : Text) :
    Follows (TwinStep p) (step p line s) (step p line t) := by
  have hhunk : t.hunk.isSome = s.hunk.isSome := by
    obtain ⟨g, hunks, index, rfl, _⟩ := h.inside
    simp [State.withPast]
  unfold Diff.step
  rw [hhunk]
  cases lineKind s.hunk.isSome line with
  | gitHeader => exact h.gitHeaderLine hp
  | oldMarker => exact h.oldMarkerLine hp
  | newMarker => exact h.newMarkerLine hp
  | badMarker => exact .error
  | renameFrom => exact h.renameFromLine hp
  | renameTo => exact h.renameToLine hp
  | hunkHeader => exact h.hunkHeaderLine hp
  | other => exact h.otherLine hp

theorem Twin.run (hp : p.allowIncomplete = false) (h : Twin p s t) (records : List Text) :
    Follows (Twin p) (run p records s) (run p records t) := by
  induction records generalizing s t with
  | nil => exact .ok h
  | cons line rest ih =>
    intro s' hs'
    unfold Diff.run at hs' ⊢
    cases hstep : Diff.step p line s with
    | error e =>
      rw [hstep] at hs'
      cases hs'
    | ok r =>
      obtain ⟨r', ht, s₁, t₁, rfl, rfl, h₁⟩ := h.step hp line r hstep
      rw [hstep] at hs'
      rw [ht]
      exact ih h₁ s' hs'

/-- A state is its own twin while the inventory is in order. -/
theorem Twin.refl (s : State) (hroom : s.paths.length ≤ p.fileLimit) (hnodup : s.paths.Nodup) :
    Twin p s s := by
  have hhunk : s.hunk.map (fun k => { k with index := (s.hunk.map OpenHunk.index).getD 0 }) =
      s.hunk := by
    cases s.hunk <;> rfl
  refine ⟨⟨⟨s.changed, s.deleted, s.paths, s.binaryPaths, s.renamedPairs, s.hunkRecords,
    s.fileRecords, s.hunkCount, s.enumerationComplete⟩, s.file.hunks, (s.hunk.map OpenHunk.index).getD 0, ?_, rfl⟩,
    hroom, List.Subset.refl _, hnodup, le_rfl⟩
  rw [State.withPast, hhunk]

end ReviewSensei.Diff
