import ReviewSensei.GitHeaders
import ReviewSensei.DiffReplay

/-! Which extended Git headers the parser reads back as the paths they were written for. -/
namespace ReviewSensei.Diff
open Session (isPythonSpace stripBy bind_ok)

/-- The extended header of a renamed file, or of one that keeps its path. -/
def extendedHeader (p q : Path) : List Text :=
  headerLine p q :: if p = q then [] else
    [text "similarity index 100%", text "rename from " ++ gitSpelling p,
      text "rename to " ++ gitSpelling q]

/-- The header is accepted, and its paths are reported for the one file it begins. -/
def ReadBack (rules : UnicodeRules) (p q : Path) : Prop :=
  ∃ a record, analyzeDiff rules {} false {} (joined (extendedHeader p q)) = .ok a ∧
    a.changedPaths = insertNew [p] q ∧ a.fileRecords = [record] ∧
    record.oldPath = some p ∧ record.newPath = some q

variable {rules : UnicodeRules} {p q : Path} {r : Parser} {s s' : State}

theorem lineKind_renameFrom (b : Bool) (t : Text) :
    lineKind b (text "rename from " ++ t) = .renameFrom := by
  cases b <;> rfl

theorem lineKind_renameTo (b : Bool) (t : Text) :
    lineKind b (text "rename to " ++ t) = .renameTo := by
  cases b <;> rfl

theorem lineKind_headerLine (b : Bool) (p q : Path) : lineKind b (headerLine p q) = .gitHeader := by
  cases b <;> rfl

/-- The state under a header whose paths are known, after some lines of it. -/
def under (selected : Option Path × Option Path) (paths : List Path) (ls : List Text)
    (renameFrom : Option Path) (pairs : List (Path × Path)) : State where
  paths := paths
  sawStructure := true
  selectedGitHeader := some selected
  currentOldPath := selected.1
  currentPath := selected.2
  renameFromForHeader := renameFrom
  renamedPairs := pairs
  file := { inFile := true, lines := ls, headerLines := ls }

/-- The state after a header whose paths are still open. -/
def waiting (pending line : Text) : State where
  sawStructure := true
  pendingGitHeader := some pending
  file := { inFile := true, lines := [line], headerLines := [line] }

abbrev strict (rules : UnicodeRules) : Parser := parser rules {} false {}

/-- What the first line of a diff does, once it is found short enough. -/
theorem gitHeaderLine_first {line : Text} (hsize : utf8Size line ≤ maxGitHeaderBytes) :
    gitHeaderLine (strict rules) line {} = (do
      let header ← splitGitHeader line
      let s ← selectGitHeader (strict rules) header
        { sawStructure := true, file := { inFile := true } }
      return .next (s.underHeader.appendFileLine line)) := by
  have hstart : startFile (strict rules) {} = .ok { file := { inFile := true } } := rfl
  unfold gitHeaderLine
  change (do
    let s ← startFile (strict rules) {}
    if maxGitHeaderBytes < utf8Size line then .error _ else _) = _
  rw [hstart]
  change (if maxGitHeaderBytes < utf8Size line then _ else _) = _
  rw [if_neg (Nat.not_lt.mpr hsize)]
  rfl

theorem commitGitHeader_first (s : State) (hs : s.paths = []) (p q : Path) :
    commitGitHeader (strict rules) (some p, some q) s =
      .ok { s with paths := insertNew [p] q } := by
  have hfirst : recordPath (strict rules) (some p) s = .ok (true, { s with paths := [p] }) := by
    unfold recordPath
    dsimp only
    rw [hs, if_neg List.not_mem_nil, if_neg (by change ¬ 500 ≤ 0; omega), List.nil_append]
  have hsecond : recordPath (strict rules) (some q) { s with paths := [p] } =
      .ok (true, { s with paths := insertNew [p] q }) := by
    unfold recordPath insertNew
    dsimp only
    split
    · rfl
    · rw [if_neg (by simp [parser, ceiling])]
  unfold commitGitHeader
  rw [hfirst]
  change (recordPath (strict rules) (some q) { s with paths := [p] }).bind (fun r => .ok r.2) = _
  rw [hsecond]
  rfl

/-- The paths of a header find room in an inventory that is empty. -/
theorem commitGitHeader_total (selected : Option Path × Option Path) :
    ∃ paths, ∀ s : State, s.paths = [] → commitGitHeader (strict rules) selected s =
      .ok { s with paths := paths } := by
  obtain ⟨old, new⟩ := selected
  have hone (q : Path) (s : State) (hs : s.paths = []) :
      recordPath (strict rules) (some q) s = .ok (true, { s with paths := [q] }) := by
    unfold recordPath
    dsimp only
    rw [hs, if_neg List.not_mem_nil, if_neg (by change ¬ 500 ≤ 0; omega), List.nil_append]
  cases old with
  | none =>
    cases new with
    | none => exact ⟨[], fun s hs => by rw [← hs]; rfl⟩
    | some q =>
      refine ⟨[q], fun s hs => ?_⟩
      unfold commitGitHeader
      change (recordPath (strict rules) (some q) s).bind (fun r => .ok r.2) = _
      rw [hone q s hs]
      rfl
  | some p =>
    cases new with
    | none =>
      refine ⟨[p], fun s hs => ?_⟩
      unfold commitGitHeader
      rw [hone p s hs]
      rfl
    | some q => exact ⟨_, fun s hs => commitGitHeader_first s hs p q⟩

theorem gitHeaderLine_selected {line old new : Text} {selected : Option Path × Option Path}
    {paths : List Path} (hsize : utf8Size line ≤ maxGitHeaderBytes)
    (hsplit : splitGitHeader line = .ok (.fields old new))
    (hdecode : decodeGitHeaderFields rules old new = .ok selected)
    (hcommit : ∀ s : State, s.paths = [] → commitGitHeader (strict rules) selected s =
      .ok { s with paths := paths }) :
    gitHeaderLine (strict rules) line {} = .ok (.next (under selected paths [line] none [])) := by
  rw [gitHeaderLine_first hsize, hsplit]
  change (do
    let s ← selectGitHeader (strict rules) (.fields old new) _
    return Step.next (s.underHeader.appendFileLine line)) = _
  have hselected : decodeGitHeaderFields (strict rules).rules old new = _ := hdecode
  unfold selectGitHeader
  dsimp only
  rw [hselected]
  change (do
    let s ← (do
      let s ← commitGitHeader (strict rules) selected _
      return { s with pendingGitHeader := none })
    return Step.next (s.underHeader.appendFileLine line)) = _
  rw [hcommit _ rfl]
  rfl

theorem gitHeaderLine_waiting {line pending : Text} (hsize : utf8Size line ≤ maxGitHeaderBytes)
    (hsplit : splitGitHeader line = .ok (.unresolvedUnquoted pending)) :
    gitHeaderLine (strict rules) line {} = .ok (.next (waiting pending line)) := by
  rw [gitHeaderLine_first hsize, hsplit]
  rfl

theorem run_next {line : Text} {rest : List Text} (h : step r line s = .ok (.next s')) :
    run r (line :: rest) s = run r rest s' := by
  rw [run, h]

theorem run_error {line : Text} {rest : List Text} {e : String} (h : step r line s = .error e) :
    run r (line :: rest) s = .error e := by
  rw [run, h]

theorem step_similarity (selected : Option Path × Option Path) (paths : List Path)
    (ls : List Text) : step (strict rules) (text "similarity index 100%")
      (under selected paths ls none []) =
        .ok (.next (under selected paths (ls ++ [text "similarity index 100%"]) none [])) := rfl

theorem step_renameFrom (hp : ValidPath rules p) (selected : Option Path × Option Path)
    (paths : List Path) (ls : List Text) :
    step (strict rules) (text "rename from " ++ gitSpelling p) (under selected paths ls none []) =
      .ok (.next (under selected paths (ls ++ [text "rename from " ++ gitSpelling p])
        (some p) [])) := by
  unfold step
  rw [lineKind_renameFrom]
  change (do
    let path ← decodeRenamePath rules "rename from " (text "rename from " ++ gitSpelling p)
    renameFromPath (strict rules) _ path _) = _
  rw [decodeRenamePath_spelling hp]
  rfl

theorem step_renameTo (hq : ValidPath rules q) (selected : Option Path × Option Path)
    (paths : List Path) (ls : List Text) (source : Option Path) :
    step (strict rules) (text "rename to " ++ gitSpelling q) (under selected paths ls source []) =
      if source ≠ selected.1 ∨ some q ≠ selected.2 then
        .error "diff rename metadata conflicts with the Git header"
      else .ok (.next (under selected paths (ls ++ [text "rename to " ++ gitSpelling q]) none
        (renamedPair source (some q)))) := by
  unfold step
  rw [lineKind_renameTo]
  change (do
    let path ← decodeRenamePath rules "rename to " (text "rename to " ++ gitSpelling q)
    renameToPath (strict rules) _ path _) = _
  rw [decodeRenamePath_spelling hq]
  rfl

/-- The lines of a rename under a header that is known: they agree with it, or are refused. -/
theorem run_rename (hp : ValidPath rules p) (hq : ValidPath rules q)
    (selected : Option Path × Option Path) (paths : List Path) (line : Text) :
    (selected = (some p, some q) → ∃ ls, run (strict rules) [text "similarity index 100%",
      text "rename from " ++ gitSpelling p, text "rename to " ++ gitSpelling q]
      (under selected paths [line] none []) =
        .ok (under selected paths ls none (renamedPair (some p) (some q)))) ∧
    (selected.1 ≠ some p → ∃ e, run (strict rules) [text "similarity index 100%",
      text "rename from " ++ gitSpelling p, text "rename to " ++ gitSpelling q]
      (under selected paths [line] none []) = .error e) := by
  have hlast : run (strict rules) [text "similarity index 100%",
      text "rename from " ++ gitSpelling p, text "rename to " ++ gitSpelling q]
      (under selected paths [line] none []) =
      run (strict rules) [text "rename to " ++ gitSpelling q] (under selected paths
        ([line] ++ [text "similarity index 100%"] ++ [text "rename from " ++ gitSpelling p])
        (some p) []) :=
    (run_next (step_similarity _ _ _)).trans (run_next (step_renameFrom hp _ _ _))
  have hto := step_renameTo hq selected paths
    ([line] ++ [text "similarity index 100%"] ++ [text "rename from " ++ gitSpelling p]) (some p)
  rw [hlast]
  constructor
  · rintro rfl
    rw [if_neg (by simp)] at hto
    exact ⟨_, run_next hto⟩
  · intro hne
    rw [if_pos (.inl (Ne.symm hne))] at hto
    exact ⟨_, run_error hto⟩

/-- Under a header whose paths are open, the lines of a rename leave the file without a path. -/
theorem run_waiting (hp : ValidPath rules p) {pending line : Text}
    (h : run (strict rules) [text "similarity index 100%", text "rename from " ++ gitSpelling p,
      text "rename to " ++ gitSpelling q] (waiting pending line) = .ok s) :
    s.currentOldPath = none ∧ s.fileRecords = [] ∧ s.hunk = none := by
  have hsimilarity : step (strict rules) (text "similarity index 100%") (waiting pending line) =
      .ok (.next ((waiting pending line).appendFileLine (text "similarity index 100%"))) := rfl
  have hfrom : step (strict rules) (text "rename from " ++ gitSpelling p)
      ((waiting pending line).appendFileLine (text "similarity index 100%")) =
      .ok (.next (State.appendFileLine
        { (waiting pending line).appendFileLine (text "similarity index 100%") with
          pendingRenameFrom := some p } (text "rename from " ++ gitSpelling p))) := by
    unfold step
    rw [lineKind_renameFrom]
    change (do
      let path ← decodeRenamePath rules "rename from " (text "rename from " ++ gitSpelling p)
      renameFromPath (strict rules) _ path _) = _
    rw [decodeRenamePath_spelling hp]
    rfl
  rw [run_next hsimilarity, run_next hfrom] at h
  generalize hlast : State.appendFileLine _ (text "rename from " ++ gitSpelling p) = s₂ at h
  have hs₂ : s₂.currentOldPath = none ∧ s₂.fileRecords = [] ∧ s₂.hunk = none := by
    rw [← hlast]
    exact ⟨rfl, rfl, rfl⟩
  -- the resolved header fills the inventory, not the paths of the file
  cases hstep : step (strict rules) (text "rename to " ++ gitSpelling q) s₂ with
  | error e =>
    rw [run_error hstep] at h
    cases h
  | ok r =>
    have hstate : s = r.state := by
      unfold run at h
      rw [hstep] at h
      cases r <;> exact (Except.ok.inj h).symm
    unfold step at hstep
    rw [lineKind_renameTo] at hstep
    obtain ⟨s₁, path, hfinish, _, hpath⟩ := renameToLine_ok hstep
    rw [finish_none hs₂.2.2] at hfinish
    obtain rfl := Except.ok.inj hfinish
    obtain ⟨s₃, pairs, source, ofHeader, ⟨⟨paths, complete, pending', selected, rfl⟩, _⟩, hr⟩ :=
      renameToPath_ok (by exact hs₂.2.2) hpath
    rw [hstate]
    rcases hr with rfl | rfl
    · unfold State.appendFileLine
      split <;> exact hs₂
    · unfold State.dropFile
      split <;> exact hs₂

theorem unbroken_extendedHeader (p q : Path) : Unbroken (extendedHeader p q) := by
  have hspelled := newline_not_mem_spelling
  have hheader : '\n' ∉ headerLine p q := by
    unfold headerLine headerSides
    simp only [List.mem_append, List.mem_cons, not_or]
    exact ⟨by decide, hspelled _, by decide, hspelled _⟩
  have hfrom : '\n' ∉ text "rename from " ++ gitSpelling p := by
    rw [List.mem_append, not_or]
    exact ⟨by decide, hspelled _⟩
  have hto : '\n' ∉ text "rename to " ++ gitSpelling q := by
    rw [List.mem_append, not_or]
    exact ⟨by decide, hspelled _⟩
  intro l hl
  unfold extendedHeader at hl
  rcases List.mem_cons.mp hl with rfl | hl
  · exact hheader
  split at hl
  · cases hl
  · simp only [List.mem_cons, List.not_mem_nil, or_false] at hl
    rcases hl with rfl | rfl | rfl
    · decide
    · exact hfrom
    · exact hto

theorem utf8Size_headerLine (hp : ValidPath rules p) (hq : ValidPath rules q) :
    utf8Size (headerLine p q) ≤ maxGitHeaderBytes := by
  have hside (c : Char) (hc : c.utf8Size = 1) (t : Text) :
      utf8Size (c :: '/' :: t) = utf8Size t + 2 := by
    have hsep : '/'.utf8Size = 1 := by decide
    simp only [utf8Size, List.map_cons, List.sum_cons]
    omega
  have hold := utf8Size_spelling_le ('a' :: '/' :: p)
  have hnew := utf8Size_spelling_le ('b' :: '/' :: q)
  rw [hside 'a' (by decide)] at hold
  rw [hside 'b' (by decide)] at hnew
  have hhead : utf8Size (text "diff --git ") = 11 := by decide
  have hblank (t : Text) : utf8Size (' ' :: t) = utf8Size t + 1 := by
    have hone : ' '.utf8Size = 1 := by decide
    simp only [utf8Size, List.map_cons, List.sum_cons]
    omega
  have hpsize : utf8Size p ≤ 4096 := hp.size
  have hqsize : utf8Size q ≤ 4096 := hq.size
  have hmax : maxGitHeaderBytes = 32832 := rfl
  unfold headerLine headerSides
  rw [utf8Size_append, utf8Size_append, hblank, hhead, hmax]
  omega

theorem utf8Size_extendedHeader (hp : ValidPath rules p) (hq : ValidPath rules q) :
    utf8Size (joined (extendedHeader p q)) ≤ 1048576 := by
  have hjoined (ls : List Text) :
      utf8Size (joined ls) = (ls.map (fun l => utf8Size l + 1)).sum := by
    induction ls with
    | nil => rfl
    | cons l ls ih =>
      have hcons : joined (l :: ls) = (l ++ ['\n']) ++ joined ls := rfl
      have hone : utf8Size ['\n'] = 1 := by decide
      rw [hcons, utf8Size_append, utf8Size_append, ih, hone, List.map_cons, List.sum_cons]
  have hheader := utf8Size_headerLine hp hq
  have hmax : maxGitHeaderBytes = 32832 := rfl
  have hold := utf8Size_spelling_le p
  have hnew := utf8Size_spelling_le q
  have hpsize : utf8Size p ≤ 4096 := hp.size
  have hqsize : utf8Size q ≤ 4096 := hq.size
  have hsimilarity : utf8Size (text "similarity index 100%") = 21 := by decide
  have hfrom : utf8Size (text "rename from ") = 12 := by decide
  have hto : utf8Size (text "rename to ") = 10 := by decide
  unfold extendedHeader
  rw [hjoined, List.map_cons, List.sum_cons]
  split
  · simp only [List.map_nil, List.sum_nil]
    omega
  · simp only [List.map_cons, List.map_nil, List.sum_cons, List.sum_nil, utf8Size_append]
    omega

/-- What is reported is read off the end of the pass over the lines of the header. -/
theorem readBack_iff (hp : ValidPath rules p) (hq : ValidPath rules q) :
    ReadBack rules p q ↔ ∃ s s', run (strict rules) (extendedHeader p q) {} = .ok s ∧
      closeFile (strict rules) s = .ok s' ∧ checkEnd s' = .ok () ∧
      s'.paths = insertNew [p] q ∧ ∃ record, s'.fileRecords = [record] ∧
        record.oldPath = some p ∧ record.newPath = some q := by
  have hlines := lines_joined (unbroken_extendedHeader p q)
  constructor
  · rintro ⟨a, record, ha, hpaths, hrecords, hnames⟩
    obtain ⟨s', haccepts, rfl⟩ := analyzeDiff_strict.mp ha
    obtain ⟨s, hrun, hclose⟩ := haccepts.run
    rw [hlines] at hrun
    exact ⟨s, s', hrun, hclose, haccepts.check, hpaths, record, hrecords, hnames⟩
  · rintro ⟨s, s', hrun, hclose, hcheck, hpaths, record, hrecords, hnames⟩
    have hcount : (lines (joined (extendedHeader p q))).length ≤ 50000 := by
      rw [hlines]
      unfold extendedHeader
      split <;> simp
    have haccepts : Accepts rules {} (joined (extendedHeader p q)) s' := by
      refine ⟨?_, utf8Size_extendedHeader hp hq, hcount, ⟨s, hlines.symm ▸ hrun, hclose⟩, hcheck⟩
      exact joined_header_strip rfl
    exact ⟨_, record, analyzeDiff_strict.mpr ⟨s', haccepts, rfl⟩, hpaths, hrecords, hnames⟩

theorem step_headerLine (s : State) :
    step r (headerLine p q) s = gitHeaderLine r (headerLine p q) s := by
  unfold step
  rw [lineKind_headerLine]

/-- Two separable and short sides are reported as the paths they were written for. -/
theorem readBack_of_separable (hlaws : rules.Lawful) (hp : ValidPath rules p)
    (hq : ValidPath rules q) (hsides : Separable p q)
    (hpsize : utf8Size p + 2 ≤ maxRepositoryPathBytes)
    (hqsize : utf8Size q + 2 ≤ maxRepositoryPathBytes) : ReadBack rules p q := by
  have hdecode : decodeGitHeaderFields rules (gitSpelling ('a' :: '/' :: p))
      (gitSpelling ('b' :: '/' :: q)) = .ok (some p, some q) := by
    unfold decodeGitHeaderFields
    rw [(decode_side hp hlaws (c := 'a') (by simp)).1 hpsize,
      (decode_side hq hlaws (c := 'b') (by simp)).1 hqsize]
    rfl
  have hfirst := gitHeaderLine_selected (utf8Size_headerLine hp hq)
    (splitGitHeader_separable hsides) hdecode fun s hs => commitGitHeader_first s hs p q
  rw [← step_headerLine] at hfirst
  have hrun : ∃ ls pairs, run (strict rules) (extendedHeader p q) {} =
      .ok (under (some p, some q) (insertNew [p] q) ls none pairs) := by
    unfold extendedHeader
    rw [run_next hfirst]
    split
    · exact ⟨_, [], rfl⟩
    · obtain ⟨ls, hls⟩ := (run_rename hp hq _ (insertNew [p] q) (headerLine p q)).1 rfl
      exact ⟨ls, _, hls⟩
  obtain ⟨ls, pairs, hrun⟩ := hrun
  exact (readBack_iff hp hq).mpr ⟨_, _, hrun, rfl, rfl, rfl, _, rfl, rfl, rfl⟩

/-- One side of a header that the midpoint splits wrongly names another path. -/
theorem decode_other {x : Text} (hx : x ≠ p) {old new : Option Path}
    (h : decodeGitHeaderFields rules ('a' :: '/' :: x) ('b' :: '/' :: x) = .ok (old, new)) :
    old ≠ some p := by
  obtain ⟨old', hold, h⟩ := bind_ok h
  obtain ⟨new', _, h⟩ := bind_ok h
  obtain ⟨rfl, -⟩ := Prod.mk.inj (Except.ok.inj h)
  unfold decodePathField at hold
  have hdev : 'a' :: '/' :: x ≠ text "/dev/null" :=
    fun heq => absurd (List.cons.inj heq).1 (by decide)
  rw [if_neg hdev] at hold
  obtain ⟨decoded, hdecoded, hold⟩ := bind_ok hold
  have hsame : decoded = 'a' :: '/' :: x := by
    unfold decodeGitCQuotedPath at hdecoded
    rw [if_pos (by simp)] at hdecoded
    obtain ⟨_, _, hdecoded⟩ := bind_ok hdecoded
    exact (Except.ok.inj hdecoded).symm
  subst hsame
  change (if x = text "/dev/null" then _ else _) = _ at hold
  split at hold
  · rw [← Except.ok.inj hold]
    exact (Option.some_ne_none p).symm
  · obtain ⟨_, _, hold⟩ := bind_ok hold
    rw [← Except.ok.inj hold]
    exact fun heq => hx (Option.some.inj heq)

/-- A header that is read wrongly, or not at all, is not reported as its paths. -/
theorem not_readBack_of_refused (hp : ValidPath rules p) (hq : ValidPath rules q)
    (h : ∀ s s', run (strict rules) (extendedHeader p q) {} = .ok s →
      closeFile (strict rules) s = .ok s' → ∀ record ∈ s'.fileRecords, record.oldPath ≠ some p) :
    ¬ ReadBack rules p q := by
  intro hread
  obtain ⟨s, s', hrun, hclose, _, _, record, hrecords, hold, _⟩ := (readBack_iff hp hq).mp hread
  exact h s s' hrun hclose record (by rw [hrecords]; exact List.mem_singleton_self _) hold

/-- The first line is refused where its fields are decoded to no paths. -/
theorem gitHeaderLine_refused {line old new : Text} {e : String}
    (hsize : utf8Size line ≤ maxGitHeaderBytes)
    (hsplit : splitGitHeader line = .ok (.fields old new))
    (hdecode : decodeGitHeaderFields rules old new = .error e) :
    gitHeaderLine (strict rules) line {} = .error e := by
  have hselected : decodeGitHeaderFields (strict rules).rules old new = _ := hdecode
  rw [gitHeaderLine_first hsize, hsplit]
  change (do
    let s ← selectGitHeader (strict rules) (.fields old new) _
    return Step.next (s.underHeader.appendFileLine line)) = _
  unfold selectGitHeader
  dsimp only
  rw [hselected]
  rfl

/-- What Git writes for two paths is read back as these paths exactly where the header can be told
apart and both paths leave room for the two characters of their sides. -/
theorem git_header_read_back (rules : UnicodeRules) (hlaws : rules.Lawful) (p q : Path)
    (hp : validateRepositoryPath rules "repository path" true p = .ok ())
    (hq : validateRepositoryPath rules "repository path" true q = .ok ()) :
    ReadBack rules p q ↔ Separable p q ∧ utf8Size p + 2 ≤ maxRepositoryPathBytes ∧
      utf8Size q + 2 ≤ maxRepositoryPathBytes := by
  rw [validateRepositoryPath_iff] at hp hq
  constructor
  · intro hread
    by_contra hno
    have hsize := utf8Size_headerLine hp hq
    refine absurd hread (not_readBack_of_refused hp hq ?_)
    intro s s' hrun hclose
    -- a first line that is refused ends the pass
    have hrefused {e : String} (hstep : gitHeaderLine (strict rules) (headerLine p q) {} =
        .error e) : ∀ record ∈ s'.fileRecords, record.oldPath ≠ some p := by
      rw [← step_headerLine] at hstep
      rw [extendedHeader, run_error hstep] at hrun
      cases hrun
    by_cases hsides : Separable p q
    · have hlong : maxRepositoryPathBytes < utf8Size p + 2 ∨
          maxRepositoryPathBytes < utf8Size q + 2 := by
        by_contra hshort
        rw [not_or, Nat.not_lt, Nat.not_lt] at hshort
        exact hno ⟨hsides, hshort⟩
      have hdecode : ∃ e, decodeGitHeaderFields rules (gitSpelling ('a' :: '/' :: p))
          (gitSpelling ('b' :: '/' :: q)) = .error e := by
        unfold decodeGitHeaderFields
        cases hold : decodePathField rules "diff Git path" true (gitSpelling ('a' :: '/' :: p)) with
        | error e => exact ⟨e, rfl⟩
        | ok old =>
          have hpshort : ¬ maxRepositoryPathBytes < utf8Size p + 2 := by
            intro hlt
            obtain ⟨e, he⟩ := (decode_side hp hlaws (c := 'a') (by simp)).2 hlt
            exact absurd (hold.symm.trans he) (by simp)
          obtain ⟨e, he⟩ : ∃ e, decodePathField rules "diff Git path" true
              (gitSpelling ('b' :: '/' :: q)) = .error e :=
            (decode_side hq hlaws (by simp)).2 (hlong.resolve_left hpshort)
          rw [he]
          exact ⟨e, rfl⟩
      obtain ⟨e, he⟩ := hdecode
      exact hrefused (gitHeaderLine_refused hsize (splitGitHeader_separable hsides) he)
    · have hne : p ≠ q := by
        rintro rfl
        refine hsides ?_
        unfold Separable
        split
        · next hquote =>
          have hquote' := or_self_iff.mp hquote
          rw [hquote']
          exact ⟨nofun, nofun⟩
        · exact .inl rfl
      have hconfused := splitGitHeader_confused hp.stripped hq.stripped hsides
      generalize hsplit : splitGitHeader (headerLine p q) = header at hconfused
      rw [extendedHeader, if_neg hne] at hrun
      cases hconfused with
      | refused e =>
        apply hrefused
        rw [gitHeaderLine_first hsize, hsplit]
        rfl
      | unresolved =>
        have hfirst := @gitHeaderLine_waiting rules _ _ hsize hsplit
        rw [← step_headerLine] at hfirst
        rw [run_next hfirst] at hrun
        obtain ⟨hold, hrecords, hnone⟩ := run_waiting hp hrun
        rw [closeFile_none hnone] at hclose
        rw [← Except.ok.inj hclose, State.keepFile]
        intro record hrecord
        split at hrecord
        · change record ∈ s.fileRecords ++ [_] at hrecord
          rw [hrecords, List.nil_append, List.mem_singleton] at hrecord
          rw [hrecord]
          change s.currentOldPath ≠ some p
          rw [hold]
          exact (Option.some_ne_none p).symm
        · rw [hrecords] at hrecord
          cases hrecord
      | other x hx =>
        cases hdecode : decodeGitHeaderFields rules ('a' :: '/' :: x) ('b' :: '/' :: x) with
        | error e => exact hrefused (gitHeaderLine_refused hsize hsplit hdecode)
        | ok selected =>
          obtain ⟨paths, hcommit⟩ := @commitGitHeader_total rules selected
          have hfirst := gitHeaderLine_selected hsize hsplit hdecode hcommit
          rw [← step_headerLine] at hfirst
          obtain ⟨e, he⟩ := (run_rename hp hq selected paths (headerLine p q)).2
            (decode_other hx hdecode)
          rw [run_next hfirst, he] at hrun
          cases hrun
  · rintro ⟨hsides, hpsize, hqsize⟩
    exact readBack_of_separable hlaws hp hq hsides hpsize hqsize

instance (p q : Path) : Decidable (Separable p q) := inferInstanceAs (Decidable (ite _ _ _))

theorem lawful_anyText : anyText.Lawful := ⟨fun _ _ _ _ => rfl, fun _ _ => rfl⟩

/-- A file with blanks in its old and in its new name. -/
theorem blanks_read_back : ReadBack anyText (text "old name.py") (text "src/new name.py") :=
  (git_header_read_back anyText lawful_anyText (text "old name.py") (text "src/new name.py")
    (by decide) (by decide)).mpr (by decide)

/-- The paths that an analysis of the header reports, if it is accepted. -/
def reportedPaths (p q : Path) : Option (List Path × List (Option Path × Option Path)) :=
  match analyzeDiff anyText {} false {} (joined (extendedHeader p q)) with
  | .error _ => none
  | .ok a => some (a.changedPaths, a.fileRecords.map fun f => (f.oldPath, f.newPath))

theorem ReadBack.reported {p q : Path} (h : ReadBack anyText p q) :
    reportedPaths p q = some (insertNew [p] q, [(some p, some q)]) := by
  obtain ⟨a, record, ha, hpaths, hrecords, hold, hnew⟩ := h
  unfold reportedPaths
  rw [ha]
  dsimp only
  rw [hpaths, hrecords, List.map_cons, List.map_nil, hold, hnew]

/-- A rename whose old path holds a boundary, and one with a blank beside a quoted side. -/
theorem headers_not_read_back :
    (validateRepositoryPath anyText "repository path" true (text "x b/y") = .ok () ∧
      validateRepositoryPath anyText "repository path" true (text "z") = .ok () ∧
      ¬ ReadBack anyText (text "x b/y") (text "z")) ∧
    validateRepositoryPath anyText "repository path" true (text "café") = .ok () ∧
      validateRepositoryPath anyText "repository path" true (text "tea time") = .ok () ∧
      ¬ ReadBack anyText (text "café") (text "tea time") := by
  refine ⟨⟨by decide, by decide, fun h => ?_⟩, by decide,
    by decide, fun h => ?_⟩
  · exact absurd h.reported (by decide)
  · exact absurd h.reported (by decide)

end ReviewSensei.Diff
