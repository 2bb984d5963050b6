import ReviewSensei.DiffSegments
import Mathlib.Data.List.Flatten
import Mathlib.Data.List.TakeWhile

/-! The records of a diff spell the diff, and any of them are read again from their own text. -/
namespace ReviewSensei.Diff
open Session (bind_ok)

variable {p : Parser} {s s' t : State} {segs : List (List Text)} {fs : List DiffFileRecord}

/-- Files read one after the other. -/
inductive Reads (p : Parser) : List (List Text) → State → State → List DiffFileRecord → Prop
  | nil (s : State) : Reads p [] s s []
  | cons {seg : List Text} {segs : List (List Text)} {s s₁ s' : State} {f : DiffFileRecord}
      {fs : List DiffFileRecord} (first : ReadsFile p seg s s₁ f) (rest : Reads p segs s₁ s' fs) :
      Reads p (seg :: segs) s s' (f :: fs)

/-- A pass over the lines of files that closes well is a pass file by file. -/
theorem reads_of_run (hp : p.allowIncomplete = false) (hsegs : ∀ seg ∈ segs, Segment seg)
    (hs : Settled s) (hself : Twin p s s) {s₁ : State} (h : run p segs.flatten s = .ok s₁)
    (hclose : closeFile p s₁ = .ok s') (hs' : Settled s') : ∃ fs, Reads p segs s s' fs := by
  induction segs generalizing s with
  | nil =>
    obtain rfl := Except.ok.inj h
    rw [hs.closeFile] at hclose
    obtain rfl := Except.ok.inj hclose
    exact ⟨[], .nil s⟩
  | cons seg segs ih =>
    have hseg := hsegs seg List.mem_cons_self
    have hrest : ∀ seg ∈ segs, Segment seg := fun seg' h' => hsegs seg' (List.mem_cons_of_mem _ h')
    rw [List.flatten_cons, run_append hp hself] at h
    obtain ⟨s₂, hfirst, h⟩ := bind_ok h
    have hcovered := run_segment hp hseg hs hself hfirst
    cases segs with
    | nil =>
      obtain rfl := Except.ok.inj h
      obtain ⟨f, hf⟩ := readsFile_of_run hp hseg hs hself hfirst hclose hs'
      exact ⟨[f], .cons hf (.nil _)⟩
    | cons seg' segs =>
      obtain ⟨g, body, rfl, hg, _⟩ := hrest seg' List.mem_cons_self
      -- the next Git header finds the file closed
      rw [List.flatten_cons, List.cons_append] at h
      have hnext := h
      unfold run at h
      rw [step_gitHeader hg] at h
      cases hstep : gitHeaderLine p g s₂ with
      | error e =>
        rw [hstep] at h
        cases h
      | ok r =>
        obtain ⟨s₃, hclose₂, hs₃⟩ := gitHeaderLine_settles hp hcovered.stopped hcovered.inFile hstep
        obtain ⟨f, hf⟩ := readsFile_of_run hp hseg hs hself hfirst hclose₂ hs₃
        have hself₃ := (hf.filed hp hseg hs hself).self
        have hagain : run p ((g :: body) :: segs).flatten s₃ = .ok s₁ := by
          rw [List.flatten_cons, List.cons_append]
          unfold run
          rw [step_gitHeader hg, ← gitHeaderLine_closed hp hclose₂ hs₃, hstep]
          rw [hstep] at h
          exact h
        obtain ⟨fs, hfs⟩ := ih hrest hs₃ hself₃ hagain
        exact ⟨f :: fs, .cons hf hfs⟩

/-- Files read one after the other are one pass over all their lines. -/
theorem Reads.run (hp : p.allowIncomplete = false) (h : Reads p segs s s' fs)
    (hsegs : ∀ seg ∈ segs, Segment seg) (hs : Settled s) (hself : Twin p s s) :
    ∃ s₁, Diff.run p segs.flatten s = .ok s₁ ∧ closeFile p s₁ = .ok s' := by
  induction h with
  | nil s => exact ⟨s, rfl, hs.closeFile⟩
  | @cons seg segs s s₁ s' f fs first rest ih =>
    have hseg := hsegs seg List.mem_cons_self
    have hrest : ∀ seg ∈ segs, Segment seg := fun seg' h' => hsegs seg' (List.mem_cons_of_mem _ h')
    have hfiled := first.filed hp hseg hs hself
    obtain ⟨s₂, hagain, hclose⟩ := ih hrest hfiled.settled hfiled.self
    obtain ⟨s₃, s₄, hfirst, hfinish, _, hkeep, _, _⟩ := first
    have hclose₃ : closeFile p s₃ = .ok s₁ := by
      unfold closeFile
      rw [hp]
      change (finish p s₃ >>= _) = _
      rw [hfinish, hkeep]
      rfl
    rw [List.flatten_cons, run_append hp hself, hfirst]
    cases segs with
    | nil =>
      obtain rfl := Except.ok.inj hagain
      rw [hfiled.settled.closeFile] at hclose
      obtain rfl := Except.ok.inj hclose
      exact ⟨s₃, rfl, hclose₃⟩
    | cons seg' segs =>
      obtain ⟨g, body, rfl, hg, _⟩ := hrest seg' List.mem_cons_self
      refine ⟨s₂, ?_, hclose⟩
      rw [List.flatten_cons, List.cons_append] at hagain ⊢
      unfold Diff.run at hagain
      change Diff.run p (g :: (body ++ segs.flatten)) s₃ = _
      unfold Diff.run
      rw [step_gitHeader hg] at hagain ⊢
      rw [gitHeaderLine_closed hp hclose₃ hfiled.settled]
      exact hagain

/-- What a run over files leaves behind. -/
structure AllFiled (p : Parser) (segs : List (List Text)) (s s' : State)
    (fs : List DiffFileRecord) : Prop where
  text : fs.flatMap DiffFileRecord.text = joined segs.flatten
  fileRecords : s'.fileRecords = s.fileRecords ++ fs
  hunkRecords : s'.hunkRecords = s.hunkRecords ++ fs.flatMap DiffFileRecord.hunks
  paths : s.paths ⊆ s'.paths
  hunkCount : s.hunkCount ≤ s'.hunkCount
  self : Twin p s' s'
  settled : Settled s'
  sawStructure : segs ≠ [] → s'.sawStructure = true

theorem Reads.filed (hp : p.allowIncomplete = false) (h : Reads p segs s s' fs)
    (hsegs : ∀ seg ∈ segs, Segment seg) (hs : Settled s) (hself : Twin p s s) :
    AllFiled p segs s s' fs := by
  induction h with
  | nil s =>
    exact ⟨rfl, by simp, by simp, List.Subset.refl _, le_rfl, hself, hs, fun hne => absurd rfl hne⟩
  | @cons seg segs s s₁ s' f fs first rest ih =>
    have hseg := hsegs seg List.mem_cons_self
    have hrest : ∀ seg ∈ segs, Segment seg := fun seg' h' => hsegs seg' (List.mem_cons_of_mem _ h')
    have hfiled := first.filed hp hseg hs hself
    have hall := ih hrest hfiled.settled hfiled.self
    refine ⟨?_, ?_, ?_, List.Subset.trans hfiled.paths hall.paths,
      hfiled.hunkCount.trans hall.hunkCount, hall.self, hall.settled, fun _ => ?_⟩
    · rw [List.flatMap_cons, List.flatten_cons, joined_append, hfiled.text, hall.text]
    · rw [hall.fileRecords, hfiled.fileRecords, List.append_assoc, List.singleton_append]
    · rw [hall.hunkRecords, hfiled.hunkRecords, List.append_assoc, List.flatMap_cons]
    · cases rest with
      | nil => exact hfiled.sawStructure
      | cons first' rest' => exact hall.sawStructure (by simp)

/-- What is left out of a pass makes no difference to the rest. -/
theorem Reads.chosen (hp : p.allowIncomplete = false) (h : Reads p segs s s' fs)
    (hsegs : ∀ seg ∈ segs, Segment seg) (hs : Settled s) (hself : Twin p s s) (ht : Settled t)
    (htself : Twin p t t) (hbehind : Behind p s t) {chosen : List DiffFileRecord}
    (hchosen : chosen.Sublist fs) :
    ∃ segs' t' fs', Reads p segs' t t' fs' ∧ segs'.Sublist segs ∧
      fs'.map DiffFileRecord.content = chosen.map DiffFileRecord.content ∧
      joined segs'.flatten = chosen.flatMap DiffFileRecord.text := by
  induction h generalizing t chosen with
  | nil s =>
    obtain rfl := List.sublist_nil.mp hchosen
    exact ⟨[], t, [], .nil t, List.Sublist.refl _, rfl, rfl⟩
  | @cons seg segs s s₁ s' f fs first rest ih =>
    have hseg := hsegs seg List.mem_cons_self
    have hrest : ∀ seg ∈ segs, Segment seg := fun seg' h' => hsegs seg' (List.mem_cons_of_mem _ h')
    have hfiled := first.filed hp hseg hs hself
    cases hchosen with
    | cons _ hchosen =>
      -- the second pass skips this file
      have hbehind₁ : Behind p s₁ t := ⟨hfiled.self.room,
        List.Subset.trans hbehind.fewer hfiled.paths, hbehind.nodup,
        hbehind.count.trans hfiled.hunkCount⟩
      obtain ⟨segs', t', fs', hreads, hsub, hcontent, htext⟩ :=
        ih hrest hfiled.settled hfiled.self ht htself hbehind₁ hchosen
      exact ⟨segs', t', fs', hreads, hsub.cons seg, hcontent, htext⟩
    | @cons_cons chosen _ _ hchosen =>
      obtain ⟨t₁, f', hfirst', hcontent', hbehind₁⟩ := first.twin hp hseg hs ht hbehind
      have hfiled' := hfirst'.filed hp hseg ht htself
      obtain ⟨segs', t', fs', hreads, hsub, hcontent, htext⟩ :=
        ih hrest hfiled.settled hfiled.self hfiled'.settled hfiled'.self hbehind₁ hchosen
      refine ⟨seg :: segs', t', f' :: fs', .cons hfirst' hreads, hsub.cons_cons seg, ?_, ?_⟩
      · rw [List.map_cons, List.map_cons, hcontent', hcontent]
      · rw [List.flatten_cons, joined_append, htext, List.flatMap_cons, hfiled.text]

section
variable {rules : UnicodeRules} {limits : ReviewLimits} {inventory : Inventory} {diff : Text}
  {a : DiffAnalysis}

/-- What a strict pass accepts, and the end of the pass that accepts it. -/
structure Accepts (rules : UnicodeRules) (limits : ReviewLimits) (diff : Text)
    (s' : State) : Prop where
  nonempty : Session.stripBy Session.isPythonSpace diff ≠ []
  bytes : utf8Size diff ≤ limits.maxDiffBytes
  count : (lines diff).length ≤ limits.maxDiffLines
  run : ∃ s, run (parser rules limits false {}) (lines diff) {} = .ok s ∧
    closeFile (parser rules limits false {}) s = .ok s'
  check : checkEnd s' = .ok ()

theorem endOfInput_strict {truncated : Bool} (hp : p.allowIncomplete = false) :
    endOfInput p truncated s = closeFile p s := by
  unfold endOfInput
  rw [hp, Bool.and_false, if_neg Bool.false_ne_true]
  cases hclose : closeHunk p (!false) s with
  | error e =>
    unfold closeFile
    rw [hp, hclose]
    rfl
  | ok s₁ =>
    unfold closeFile
    have hagain : closeHunk p (!p.allowIncomplete) s₁ = .ok s₁ :=
      closeHunk_none (closeHunk_closed hclose)
    rw [hp] at hagain ⊢
    rw [hclose]
    change (closeHunk p (!false) s₁ >>= _) = _
    rw [hagain]

theorem analyzeDiff_strict :
    analyzeDiff rules limits false inventory diff = .ok a ↔
      ∃ s', Accepts rules limits diff s' ∧ a = s'.analysis (utf8Size diff) (lines diff).length := by
  constructor
  · intro h
    have hparse := analyzeDiff_ok h
    unfold analyzeDiff at h
    simp only [ceiling, if_neg Bool.false_ne_true, Bool.not_false, Bool.true_and] at h hparse
    split at h
    · cases h
    next hnonempty =>
    split at h
    · cases h
    next hbytes =>
    split at h
    · cases h
    next hcount =>
    rw [decide_eq_true_eq, Nat.not_lt] at hbytes hcount
    obtain ⟨s, s', hrun, hend, hcheck, rfl⟩ := parseRecords_ok hparse
    rw [endOfInput_strict rfl] at hend
    rw [List.take_of_length_le hcount, decide_eq_true hbytes,
      decide_eq_false (Nat.not_lt.mpr hcount)] at hrun
    exact ⟨s', ⟨hnonempty, hbytes, hcount, ⟨s, hrun, hend⟩, hcheck⟩, rfl⟩
  · intro h
    obtain ⟨s', ⟨hnonempty, hbytes, hcount, ⟨s, hrun, hend⟩, hcheck⟩, rfl⟩ := h
    unfold analyzeDiff
    simp only [ceiling, if_neg Bool.false_ne_true, Bool.not_false, Bool.true_and]
    rw [if_neg hnonempty, if_neg (by simpa using hbytes), if_neg (by simpa using hcount)]
    unfold parseRecords
    dsimp only
    rw [List.take_of_length_le hcount, decide_eq_true hbytes,
      decide_eq_false (Nat.not_lt.mpr hcount)]
    change (Diff.run (parser rules limits false {}) (lines diff) {} >>= _) = _
    rw [hrun]
    change (endOfInput (parser rules limits false {}) false s >>= _) = _
    rw [endOfInput_strict rfl, hend]
    change (checkEnd s' >>= _) = _
    rw [hcheck]
    rfl

/-- The end of a pass that stopped for no ceiling is accepted where nothing is left pending. -/
theorem checkEnd_ok (hstopped : s.stoppedForBudget = false) :
    checkEnd s = .ok () ↔ s.pendingOldMarker = false ∧ s.pendingGitHeader = none ∧
      s.pendingRenameFrom = none ∧ s.renameFromForHeader = none ∧ s.sawStructure = true := by
  unfold checkEnd
  rw [hstopped]
  cases s.pendingOldMarker <;> cases s.pendingGitHeader <;> cases s.pendingRenameFrom <;>
    cases s.renameFromForHeader <;> cases s.sawStructure <;> simp

theorem settled_start : Settled {} := ⟨rfl, rfl, rfl, rfl, rfl, rfl, rfl⟩

theorem twin_start : Twin p {} {} := Twin.refl _ (Nat.zero_le _) List.nodup_nil

/-- A file is open throughout, and no ceiling stops a strict pass. -/
theorem run_stopped (hp : p.allowIncomplete = false) (hs : Twin p s s)
    (hin : s.file.inFile = true) {ls : List Text} (h : run p ls s = .ok s') :
    s'.file.inFile = true ∧ s'.stoppedForBudget = s.stoppedForBudget := by
  induction ls generalizing s with
  | nil =>
    obtain rfl := Except.ok.inj h
    exact ⟨hin, rfl⟩
  | cons l ls ih =>
    unfold run at h
    cases hstep : step p l s with
    | error e =>
      rw [hstep] at h
      cases h
    | ok r =>
      obtain ⟨r', hr', s₁, t₁, rfl, rfl, h₁⟩ := hs.step hp l r hstep
      obtain rfl := Step.next.inj (Except.ok.inj (hstep.symm.trans hr'))
      rw [hstep] at h
      have hone : s₁.file.inFile = true ∧ s₁.stoppedForBudget = s.stoppedForBudget := by
        cases hl : starts "diff --git " l with
        | false =>
          obtain ⟨s₂, hcarries, rfl⟩ := (step_effect hin hl hstep).carries
          have hext := hcarries.extends l hin
          exact ⟨hext.inFile, hext.stopped⟩
        | true =>
          rw [step_gitHeader hl] at hstep
          obtain ⟨s₂, s₃, hfinish, _, _, _, _, hreg, hr⟩ := gitHeaderLine_ok hstep
          obtain rfl := Step.next.inj hr
          obtain ⟨⟨paths, complete, pending, selected, rfl⟩, _⟩ := hreg
          have hkeep := (keepFile_pending s₂).2.2.2.2
          exact ⟨rfl, hkeep.trans (finish_carries hfinish).stopped⟩
      obtain ⟨hin', hstopped'⟩ := ih h₁ hone.1 h
      exact ⟨hin', hstopped'.trans hone.2⟩

/-- The files of an accepted diff whose first line is a Git header. -/
theorem Accepts.reads {s' : State} (h : Accepts rules limits diff s')
    (hfirst : starts "diff --git " ((lines diff).headD []) = true) :
    ∃ segs fs, lines diff = segs.flatten ∧ segs ≠ [] ∧ (∀ seg ∈ segs, Segment seg) ∧
      Reads (parser rules limits false {}) segs {} s' fs ∧ s'.fileRecords = fs ∧ Settled s' := by
  obtain ⟨s, hrun, hclose⟩ := h.run
  cases hlines : lines diff with
  | nil =>
    rw [hlines] at hfirst
    cases hfirst
  | cons g ls =>
    rw [hlines] at hfirst hrun
    have hg : starts "diff --git " g = true := hfirst
    obtain ⟨segs, hsegs, hne, hall⟩ := segments_of_header hg
    -- the pass ends inside the last file, and no ceiling has stopped it
    have hend : s.file.inFile = true ∧ s.stoppedForBudget = false := by
      obtain ⟨s₁, hentered, h₁, _, hrest⟩ := run_entered rfl settled_start twin_start hg hrun
      obtain ⟨hin, hstopped⟩ := run_stopped rfl h₁ hentered.inFile hrest
      exact ⟨hin, hstopped.trans hentered.stopped⟩
    obtain ⟨s₂, hfinish, rfl⟩ := closeFile_strict rfl hclose
    have hcarries := finish_carries hfinish
    have hin₂ : s₂.file.inFile = true := hcarries.inFile.trans hend.1
    have hstopped : s₂.keepFile.stoppedForBudget = false :=
      (keepFile_pending s₂).2.2.2.2.trans (hcarries.stopped.trans hend.2)
    obtain ⟨hold, hpending, hfrom, hheader, _⟩ := (checkEnd_ok hstopped).mp h.check
    have hnone : s₂.hunk = none := closeHunk_closed hfinish
    have hsettled : Settled s₂.keepFile := by
      refine ⟨?_, ?_, hold, hpending, hfrom, hheader, hstopped⟩ <;>
        rw [State.keepFile, if_pos hin₂]
      exact hnone
    rw [hsegs] at hrun
    obtain ⟨fs, hreads⟩ := reads_of_run rfl hall settled_start twin_start hrun hclose hsettled
    exact ⟨segs, fs, hsegs, hne, hall, hreads,
      (hreads.filed rfl hall settled_start twin_start).fileRecords, hsettled⟩

theorem nonempty_of_strip (h : Session.stripBy Session.isPythonSpace diff ≠ []) : diff ≠ [] :=
  fun hnil => h (by rw [hnil]; rfl)

/-- A text that holds a character that is no white space is not empty once stripped. -/
theorem strip_ne_nil {t : Text} {c : Char} (hc : c ∈ t) (hspace : Session.isPythonSpace c = false) :
    Session.stripBy Session.isPythonSpace t ≠ [] := by
  have hkept {u : Text} (hu : c ∈ u) : c ∈ u.dropWhile Session.isPythonSpace := by
    rw [← List.takeWhile_append_dropWhile (p := Session.isPythonSpace) (l := u)] at hu
    rcases List.mem_append.mp hu with hleft | hright
    · rw [List.mem_takeWhile_imp hleft] at hspace
      cases hspace
    · exact hright
  have hstripped : c ∈ Session.stripBy Session.isPythonSpace t := by
    unfold Session.stripBy
    exact List.mem_reverse.mpr (hkept (List.mem_reverse.mpr (hkept hc)))
  exact List.ne_nil_of_mem hstripped

theorem joined_header_strip {g : Text} {ls : List Text} (hg : starts "diff --git " g = true) :
    Session.stripBy Session.isPythonSpace (joined (g :: ls)) ≠ [] := by
  have hmem : 'd' ∈ g := by
    obtain ⟨rest, rfl⟩ := List.isPrefixOf_iff_prefix.mp hg
    simp
  have hjoined : 'd' ∈ joined (g :: ls) := by
    simp only [joined, List.flatMap_cons, List.mem_append]
    exact .inl (.inl hmem)
  exact strip_ne_nil hjoined (by decide)

/-- The texts of the records, in order, spell the diff. -/
theorem records_spell (h : analyzeDiff rules limits false inventory diff = .ok a)
    (hfirst : starts "diff --git " ((lines diff).headD []) = true) :
    a.fileRecords.flatMap DiffFileRecord.text = terminated diff := by
  obtain ⟨s', haccepts, rfl⟩ := analyzeDiff_strict.mp h
  obtain ⟨segs, fs, hlines, _, hall, hreads, hrecords, _⟩ := haccepts.reads hfirst
  have hfiled := hreads.filed rfl hall settled_start twin_start
  change s'.fileRecords.flatMap DiffFileRecord.text = terminated diff
  calc s'.fileRecords.flatMap DiffFileRecord.text
      = fs.flatMap DiffFileRecord.text := by rw [hrecords]
    _ = joined segs.flatten := hfiled.text
    _ = joined (lines diff) := by rw [hlines]
    _ = terminated diff := joined_lines (nonempty_of_strip haccepts.nonempty)

/-- Files that are read from the start make an accepted diff, within the byte limit. -/
theorem Reads.accepts {segs : List (List Text)} {fs : List DiffFileRecord} {s' : State}
    (h : Reads (parser rules limits false {}) segs {} s' fs) (hall : ∀ seg ∈ segs, Segment seg)
    (hne : segs ≠ []) (hbroken : Unbroken segs.flatten)
    (hcount : segs.flatten.length ≤ limits.maxDiffLines)
    (hbytes : utf8Size (joined segs.flatten) ≤ limits.maxDiffBytes) :
    Accepts rules limits (joined segs.flatten) s' := by
  obtain ⟨s, hrun, hclose⟩ := h.run rfl hall settled_start twin_start
  have hfiled := h.filed rfl hall settled_start twin_start
  have hlines := lines_joined hbroken
  refine ⟨?_, hbytes, by rw [hlines]; exact hcount, ⟨s, by rw [hlines]; exact hrun, hclose⟩, ?_⟩
  · obtain ⟨seg, segs, rfl⟩ := List.exists_cons_of_ne_nil hne
    obtain ⟨g, body, rfl, hg, _⟩ := hall seg List.mem_cons_self
    exact joined_header_strip hg
  · have hs' := hfiled.settled
    exact (checkEnd_ok hs'.stopped).mpr ⟨hs'.pendingOldMarker, hs'.pendingGitHeader,
      hs'.pendingRenameFrom, hs'.renameFromForHeader, hfiled.sawStructure hne⟩

/-- Any of the records are read again, as they are, from their own texts. -/
theorem chosen_records (h : analyzeDiff rules limits false inventory diff = .ok a)
    (hfirst : starts "diff --git " ((lines diff).headD []) = true) {chosen : List DiffFileRecord}
    (hchosen : chosen.Sublist a.fileRecords) (hne : chosen ≠ [])
    (hbytes : utf8Size (chosen.flatMap DiffFileRecord.text) ≤ limits.maxDiffBytes) :
    ∃ a', analyzeDiff rules limits false inventory (chosen.flatMap DiffFileRecord.text) = .ok a' ∧
      a'.fileRecords.map DiffFileRecord.content = chosen.map DiffFileRecord.content := by
  obtain ⟨s', haccepts, rfl⟩ := analyzeDiff_strict.mp h
  obtain ⟨segs, fs, hlines, _, hall, hreads, rfl, _⟩ := haccepts.reads hfirst
  obtain ⟨segs', t', fs', hreads', hsub, hcontent, htext⟩ :=
    hreads.chosen rfl hall settled_start twin_start settled_start twin_start twin_start.behind
      hchosen
  have hall' : ∀ seg ∈ segs', Segment seg := fun seg hseg => hall seg (hsub.subset hseg)
  have hsublist : segs'.flatten.Sublist (lines diff) := by
    rw [hlines]
    exact hsub.flatten
  have hne' : segs' ≠ [] := by
    intro hnil
    subst hnil
    cases hreads'
    exact hne (List.map_eq_nil_iff.mp hcontent.symm)
  have hbroken : Unbroken segs'.flatten := fun l hl => unbroken_lines diff l (hsublist.subset hl)
  rw [← htext] at hbytes ⊢
  have haccepts' := hreads'.accepts hall' hne' hbroken
    (hsublist.length_le.trans haccepts.count) hbytes
  refine ⟨_, analyzeDiff_strict.mpr ⟨t', haccepts', rfl⟩, ?_⟩
  have hrecords := (hreads'.filed rfl hall' settled_start twin_start).fileRecords
  change t'.fileRecords.map DiffFileRecord.content = _
  rw [hrecords]
  exact hcontent

end

end ReviewSensei.Diff
