import ReviewSensei.DiffTracking
import ReviewSensei.DiffLines
import Mathlib.Data.Finset.Card
import Mathlib.Data.List.Induction

/-! The line numbers that a hunk records against a replay of its body. -/
namespace ReviewSensei.Diff
open Session (bind_ok)

/-- Where a replay of a hunk body stands, and the numbers it has met on each side. -/
structure Replay where
  old : Nat
  new : Nat
  added : List Nat := []
  deleted : List Nat := []

/-- Context lines move both cursors on; a line without a mark moves none. -/
def Replay.line (r : Replay) (l : Text) : Replay :=
  match l.head? with
  | some '+' => { r with new := r.new + 1, added := r.added ++ [r.new] }
  | some '-' => { r with old := r.old + 1, deleted := r.deleted ++ [r.old] }
  | some ' ' => { r with old := r.old + 1, new := r.new + 1 }
  | _ => r

def replay (oldStart newStart : Nat) (body : List Text) : Replay :=
  body.foldl Replay.line ⟨oldStart, newStart, [], []⟩

/-- How many lines of the body carry one of the marks. -/
def countMarked (marks : List Char) (body : List Text) : Nat :=
  body.countP (fun l => l.head?.any (fun c => decide (c ∈ marks)))

/-- The lines of a hunk after its header line, as its text spells them. -/
def DiffHunk.body (h : DiffHunk) : List Text := (lines h.text).drop 1

/-- What the numbers of a hunk say of its body. A side without a path has no lines recorded. -/
structure DiffHunk.Replayed (maxLineNumber : Nat) (h : DiffHunk) : Prop where
  added : h.addedLines =
    if h.newPath.isSome then (replay h.oldStart h.newStart h.body).added.toFinset else ∅
  deleted : h.deletedLines =
    if h.oldPath.isSome then (replay h.oldStart h.newStart h.body).deleted.toFinset else ∅
  addedCount : h.newPath.isSome → h.addedLines.card = countMarked ['+'] h.body
  deletedCount : h.oldPath.isSome → h.deletedLines.card = countMarked ['-'] h.body
  oldCount : h.oldCount = countMarked [' ', '-'] h.body
  newCount : h.newCount = countMarked [' ', '+'] h.body
  bounded : ∀ n, n ∈ h.addedLines ∨ n ∈ h.deletedLines → n ≤ maxLineNumber

section replay
variable (oldStart newStart : Nat)

theorem replay_append (body : List Text) (l : Text) :
    replay oldStart newStart (body ++ [l]) = (replay oldStart newStart body).line l := by
  unfold replay
  rw [List.foldl_append, List.foldl_cons, List.foldl_nil]

theorem countMarked_append (marks : List Char) (body : List Text) (l : Text) :
    countMarked marks (body ++ [l]) =
      countMarked marks body + if l.head?.any (fun c => decide (c ∈ marks)) then 1 else 0 := by
  unfold countMarked
  rw [List.countP_append, List.countP_singleton]

/-- The numbers of one side: ascending, as many as the marked lines, between start and cursor. -/
structure Numbers (start cursor : Nat) (numbers : List Nat) (count : Nat) : Prop where
  sorted : numbers.Pairwise (· < ·)
  length : numbers.length = count
  inside : ∀ n ∈ numbers, start ≤ n ∧ n < cursor
  reached : start ≤ cursor

theorem Numbers.grow {start cursor count : Nat} {numbers : List Nat}
    (h : Numbers start cursor numbers count) :
    Numbers start (cursor + 1) (numbers ++ [cursor]) (count + 1) := by
  refine ⟨?_, by rw [List.length_append, h.length]; rfl, ?_, Nat.le_succ_of_le h.reached⟩
  · rw [List.pairwise_append]
    refine ⟨h.sorted, List.pairwise_singleton _ _, fun a ha b hb => ?_⟩
    rw [List.mem_singleton.mp hb]
    exact (h.inside a ha).2
  · intro n hn
    rcases List.mem_append.mp hn with hold | hnew
    · have := h.inside n hold
      omega
    · have := h.reached
      rw [List.mem_singleton.mp hnew]
      omega

theorem Numbers.move {start cursor count : Nat} {numbers : List Nat}
    (h : Numbers start cursor numbers count) : Numbers start (cursor + 1) numbers count :=
  ⟨h.sorted, h.length, fun n hn => ⟨(h.inside n hn).1, Nat.lt_succ_of_lt (h.inside n hn).2⟩,
    Nat.le_succ_of_le h.reached⟩

theorem Numbers.card {start cursor count : Nat} {numbers : List Nat}
    (h : Numbers start cursor numbers count) : numbers.toFinset.card = count := by
  have hnodup : numbers.Nodup := h.sorted.imp Nat.ne_of_lt
  rw [List.toFinset_card_of_nodup hnodup, h.length]

/-- The cursors stand after as many lines as each side has. -/
structure Replay.Ok (r : Replay) (oldStart newStart : Nat) (body : List Text) : Prop where
  old : r.old = oldStart + countMarked [' ', '-'] body
  new : r.new = newStart + countMarked [' ', '+'] body
  added : Numbers newStart r.new r.added (countMarked ['+'] body)
  deleted : Numbers oldStart r.old r.deleted (countMarked ['-'] body)

theorem replay_ok (body : List Text) :
    (replay oldStart newStart body).Ok oldStart newStart body := by
  induction body using List.reverseRecOn with
  | nil => exact ⟨rfl, rfl, ⟨.nil, rfl, nofun, Nat.le_refl _⟩, ⟨.nil, rfl, nofun, Nat.le_refl _⟩⟩
  | append_singleton body l ih =>
    rw [replay_append]
    unfold Replay.line
    split
    · next hl =>
      refine ⟨?_, ?_, ?_, ?_⟩
      · simp [countMarked_append, hl, ih.old]
      · simp [countMarked_append, hl, ih.new, Nat.add_assoc]
      · simpa [countMarked_append, hl] using ih.added.grow
      · simpa [countMarked_append, hl] using ih.deleted
    · next hl =>
      refine ⟨?_, ?_, ?_, ?_⟩
      · simp [countMarked_append, hl, ih.old, Nat.add_assoc]
      · simp [countMarked_append, hl, ih.new]
      · simpa [countMarked_append, hl] using ih.added
      · simpa [countMarked_append, hl] using ih.deleted.grow
    · next hl =>
      refine ⟨?_, ?_, ?_, ?_⟩
      · simp [countMarked_append, hl, ih.old, Nat.add_assoc]
      · simp [countMarked_append, hl, ih.new, Nat.add_assoc]
      · simpa [countMarked_append, hl] using ih.added.move
      · simpa [countMarked_append, hl] using ih.deleted.move
    · next hplus hminus hspace =>
      have hnone : ∀ marks, marks ⊆ [' ', '+', '-'] →
          l.head?.any (fun c => decide (c ∈ marks)) = false := by
        intro marks hmarks
        cases hl : l.head? with
        | none => rfl
        | some c =>
          rw [Option.any_some, decide_eq_false_iff_not]
          intro hc
          have hmem := hmarks hc
          simp only [List.mem_cons, List.not_mem_nil, or_false] at hmem
          rcases hmem with rfl | rfl | rfl
          · exact hspace hl
          · exact hplus hl
          · exact hminus hl
      have hsame : ∀ marks, marks ⊆ [' ', '+', '-'] →
          countMarked marks (body ++ [l]) = countMarked marks body := by
        intro marks hmarks
        rw [countMarked_append, hnone marks hmarks]
        simp
      refine ⟨?_, ?_, ?_, ?_⟩
      · rw [hsame [' ', '-'] (by simp)]
        exact ih.old
      · rw [hsame [' ', '+'] (by simp)]
        exact ih.new
      · rw [hsame ['+'] (by simp)]
        exact ih.added
      · rw [hsame ['-'] (by simp)]
        exact ih.deleted

end replay

variable {p : Parser} {s s' : State} {line : Text} {r : Step}

/-- A hunk that is being read, beside the replay of what has been read of its body. -/
structure Reading (maxLineNumber : Nat) (oldPath newPath : Option Path) (k : OpenHunk)
    (body : List Text) : Prop where
  lines : ∃ header, k.lines = header :: body
  unbroken : Unbroken k.lines
  oldLine : k.oldLine = (replay k.oldStart k.newStart body).old
  newLine : k.newLine = (replay k.oldStart k.newStart body).new
  oldSeen : k.oldSeen = countMarked [' ', '-'] body
  newSeen : k.newSeen = countMarked [' ', '+'] body
  added : k.added =
    if newPath.isSome then (replay k.oldStart k.newStart body).added.toFinset else ∅
  deleted : k.deleted =
    if oldPath.isSome then (replay k.oldStart k.newStart body).deleted.toFinset else ∅
  oldStart : k.oldCount ≠ 0 → k.oldStart ≠ 0
  newStart : k.newCount ≠ 0 → k.newStart ≠ 0
  oldEnd : rangeEnd k.oldStart k.oldCount ≤ maxLineNumber
  newEnd : rangeEnd k.newStart k.newCount ≤ maxLineNumber

theorem checkRange_ok {maxLineNumber : Nat} {range range' : HunkRange}
    (h : checkRange maxLineNumber range = .ok range') : range' = range ∧
      (range.oldCount ≠ 0 → range.oldStart ≠ 0) ∧ (range.newCount ≠ 0 → range.newStart ≠ 0) ∧
      rangeEnd range.oldStart range.oldCount ≤ maxLineNumber ∧
      rangeEnd range.newStart range.newCount ≤ maxLineNumber := by
  unfold checkRange at h
  split at h
  · cases h
  next hzero =>
  split at h
  · cases h
  split at h
  · cases h
  split at h
  · cases h
  next hend =>
  rw [not_or, Nat.not_lt, Nat.not_lt] at hend
  exact ⟨(Except.ok.inj h).symm, fun hne h0 => hzero (.inl ⟨h0, hne⟩),
    fun hne h0 => hzero (.inr ⟨h0, hne⟩), hend⟩

theorem hunkRange_ok {maxLineNumber : Nat} {range : HunkRange}
    (h : hunkRange maxLineNumber line = .ok range) :
    (range.oldCount ≠ 0 → range.oldStart ≠ 0) ∧ (range.newCount ≠ 0 → range.newStart ≠ 0) ∧
      rangeEnd range.oldStart range.oldCount ≤ maxLineNumber ∧
      rangeEnd range.newStart range.newCount ≤ maxLineNumber := by
  unfold hunkRange at h
  split at h
  · split at h
    · cases h
    · obtain ⟨rfl, hrange⟩ := checkRange_ok h
      exact hrange
  · cases h

theorem Reading.open {maxLineNumber index : Nat} {range : HunkRange} (oldPath newPath : Option Path)
    (hrange : hunkRange maxLineNumber line = .ok range) (hline : '\n' ∉ line) :
    Reading maxLineNumber oldPath newPath (range.open index line) [] := by
  obtain ⟨hold, hnew, holdEnd, hnewEnd⟩ := hunkRange_ok hrange
  refine ⟨⟨line, rfl⟩, ?_, rfl, rfl, rfl, rfl, ?_, ?_, hold, hnew, holdEnd, hnewEnd⟩
  · intro l hl
    rw [List.mem_singleton.mp hl]
    exact hline
  · simp [HunkRange.open, replay]
  · simp [HunkRange.open, replay]

/-- A hunk that is as long as its header says is replayed by its record. -/
theorem Reading.record {maxLineNumber : Nat} {oldPath newPath : Option Path} {k : OpenHunk}
    {body : List Text} (h : Reading maxLineNumber oldPath newPath k body) (hsat : k.satisfied) :
    (k.record oldPath newPath).Replayed maxLineNumber := by
  obtain ⟨header, hlines⟩ := h.lines
  have hbody : (k.record oldPath newPath).body = body := by
    unfold DiffHunk.body OpenHunk.record
    rw [lines_joined h.unbroken, hlines]
    rfl
  have hreplay := replay_ok k.oldStart k.newStart body
  refine ⟨?_, ?_, ?_, ?_, ?_, ?_, ?_⟩
  · rw [hbody]
    exact h.added
  · rw [hbody]
    exact h.deleted
  · intro (hpath : newPath.isSome)
    rw [hbody]
    change k.added.card = _
    rw [h.added, if_pos hpath]
    exact hreplay.added.card
  · intro (hpath : oldPath.isSome)
    rw [hbody]
    change k.deleted.card = _
    rw [h.deleted, if_pos hpath]
    exact hreplay.deleted.card
  · rw [hbody]
    exact hsat.1.symm.trans h.oldSeen
  · rw [hbody]
    exact hsat.2.symm.trans h.newSeen
  · intro n hn
    have hcounts : k.oldSeen = k.oldCount ∧ k.newSeen = k.newCount := hsat
    have hold := h.oldEnd
    have hnew := h.newEnd
    unfold rangeEnd at hold hnew
    rcases hn with hn | hn
    · change n ∈ k.added at hn
      rw [h.added] at hn
      split at hn
      · have hin := hreplay.added.inside n (List.mem_toFinset.mp hn)
        rw [hreplay.new, ← h.newSeen, hcounts.2] at hin
        split at hnew <;> omega
      · cases hn
    · change n ∈ k.deleted at hn
      rw [h.deleted] at hn
      split at hn
      · have hin := hreplay.deleted.inside n (List.mem_toFinset.mp hn)
        rw [hreplay.old, ← h.oldSeen, hcounts.1] at hin
        split at hold <;> omega
      · cases hn

theorem head_of_bodyKind {c : Char} (h : bodyKind line = bodyKind [c])
    (hc : c = '+' ∨ c = '-' ∨ c = ' ' ∨ c = '\\') : line.head? = some c := by
  unfold bodyKind at h
  rcases hc with rfl | rfl | rfl | rfl <;> split at h <;> simp_all

theorem orOne_eq {n : Nat} (h : n ≠ 0) : orOne n = n := if_neg h

/-- The line numbers of one side go on where the replay stands. -/
theorem Reading.newLine_eq {maxLineNumber : Nat} {oldPath newPath : Option Path} {k : OpenHunk}
    {body : List Text} (h : Reading maxLineNumber oldPath newPath k body)
    (hseen : k.newSeen + 1 ≤ k.newCount) :
    orOne k.newLine = (replay k.oldStart k.newStart body).new := by
  have hstart := h.newStart (by omega)
  have hcursor := (replay_ok k.oldStart k.newStart body).new
  rw [← h.newLine] at hcursor ⊢
  exact orOne_eq (by omega)

theorem Reading.oldLine_eq {maxLineNumber : Nat} {oldPath newPath : Option Path} {k : OpenHunk}
    {body : List Text} (h : Reading maxLineNumber oldPath newPath k body)
    (hseen : k.oldSeen + 1 ≤ k.oldCount) :
    orOne k.oldLine = (replay k.oldStart k.newStart body).old := by
  have hstart := h.oldStart (by omega)
  have hcursor := (replay_ok k.oldStart k.newStart body).old
  rw [← h.oldLine] at hcursor ⊢
  exact orOne_eq (by omega)

theorem insertIf_toFinset (b : Bool) (numbers : List Nat) (n : Nat) :
    insertIf b n (if b then numbers.toFinset else ∅) =
      if b then (numbers ++ [n]).toFinset else ∅ := by
  cases b with
  | false => rfl
  | true =>
    ext m
    simp [insertIf]

/-- Only the lines and the gathered numbers differ once a line of the body has been read. -/
theorem Reading.push {maxLineNumber : Nat} {oldPath newPath : Option Path} {k k' : OpenHunk}
    {body : List Text} (h : Reading maxLineNumber oldPath newPath k body) (hline : '\n' ∉ line)
    (hlines : k'.lines = k.lines ++ [line])
    (hrange : k'.oldStart = k.oldStart ∧ k'.oldCount = k.oldCount ∧ k'.newStart = k.newStart ∧
      k'.newCount = k.newCount)
    (holdLine : k'.oldLine = ((replay k.oldStart k.newStart body).line line).old)
    (hnewLine : k'.newLine = ((replay k.oldStart k.newStart body).line line).new)
    (hadded : k'.added = if newPath.isSome then
      ((replay k.oldStart k.newStart body).line line).added.toFinset else ∅)
    (hdeleted : k'.deleted = if oldPath.isSome then
      ((replay k.oldStart k.newStart body).line line).deleted.toFinset else ∅)
    (holdSeen : k'.oldSeen = countMarked [' ', '-'] (body ++ [line]))
    (hnewSeen : k'.newSeen = countMarked [' ', '+'] (body ++ [line])) :
    Reading maxLineNumber oldPath newPath k' (body ++ [line]) := by
  obtain ⟨hos, hoc, hns, hnc⟩ := hrange
  obtain ⟨header, hheader⟩ := h.lines
  rw [← replay_append, ← hos, ← hns] at holdLine hnewLine hadded hdeleted
  refine ⟨⟨header, by rw [hlines, hheader]; rfl⟩, ?_, holdLine, hnewLine, holdSeen, hnewSeen,
    hadded, hdeleted, ?_, ?_, ?_, ?_⟩
  · intro l hl
    rw [hlines] at hl
    rcases List.mem_append.mp hl with hold | hnew
    · exact h.unbroken l hold
    · exact List.mem_singleton.mp hnew ▸ hline
  · rw [hos, hoc]
    exact h.oldStart
  · rw [hns, hnc]
    exact h.newStart
  · rw [hos, hoc]
    exact h.oldEnd
  · rw [hns, hnc]
    exact h.newEnd

/-- A line of the body is read as the replay reads it. -/
theorem Reading.bodyLine {maxLineNumber : Nat} {k : OpenHunk} {body : List Text}
    (h : Reading maxLineNumber s.currentOldPath s.currentPath k body) (hline : '\n' ∉ line)
    (hkind : bodyKind line ≠ .trailing) (hread : bodyLine p line k s = .ok s') :
    ∃ k', s'.hunk = some k' ∧ s'.hunkRecords = s.hunkRecords ∧
      Reading maxLineNumber s'.currentOldPath s'.currentPath k' (body ++ [line]) := by
  have hpushed (s₁ : State) (k' : OpenHunk) :
      (s₁.pushLine k' line).hunk = some { k' with lines := k'.lines ++ [line] } ∧
      (s₁.pushLine k' line).hunkRecords = s₁.hunkRecords ∧
      (s₁.pushLine k' line).currentOldPath = s₁.currentOldPath ∧
      (s₁.pushLine k' line).currentPath = s₁.currentPath := by
    unfold State.pushLine State.appendFileLine
    split <;> exact ⟨rfl, rfl, rfl, rfl⟩
  unfold Diff.bodyLine at hread
  cases hcase : bodyKind line with
  | trailing => exact absurd hcase hkind
  | noNewline =>
    rw [hcase] at hread
    dsimp only at hread
    split at hread
    · obtain rfl := Except.ok.inj hread
      obtain ⟨hhunk, hrecords, hold, hnew⟩ := hpushed s k
      have hhead : line.head? = some '\\' := head_of_bodyKind hcase (by simp)
      refine ⟨_, hhunk, hrecords, ?_⟩
      rw [hold, hnew]
      refine h.push hline ?_ ?_ ?_ ?_ ?_ ?_ ?_ ?_
      · rfl
      · exact ⟨rfl, rfl, rfl, rfl⟩
      · simpa [Replay.line, hhead] using h.oldLine
      · simpa [Replay.line, hhead] using h.newLine
      · simpa [Replay.line, hhead] using h.added
      · simpa [Replay.line, hhead] using h.deleted
      · simpa [countMarked_append, hhead] using h.oldSeen
      · simpa [countMarked_append, hhead] using h.newSeen
    · cases hread
  | added =>
    rw [hcase] at hread
    dsimp only at hread
    split at hread
    · cases hread
    obtain ⟨_, hseen, rfl⟩ := countLine_ok hread
    obtain ⟨hhunk, hrecords, hold, hnew⟩ := hpushed (s.addedLine (orOne k.newLine))
      (k.addedLine s.currentPath.isSome)
    have hhead : line.head? = some '+' := head_of_bodyKind hcase (by simp)
    have hcursor := h.newLine_eq hseen
    refine ⟨_, hhunk, hrecords, ?_⟩
    rw [hold, hnew]
    refine h.push hline ?_ ?_ ?_ ?_ ?_ ?_ ?_ ?_
    · rfl
    · exact ⟨rfl, rfl, rfl, rfl⟩
    · simpa [Replay.line, hhead, OpenHunk.addedLine] using h.oldLine
    · simpa [Replay.line, hhead, OpenHunk.addedLine] using hcursor
    · simp only [OpenHunk.addedLine, hcursor, h.added, Replay.line, hhead]
      exact insertIf_toFinset _ _ _
    · simpa [Replay.line, hhead, OpenHunk.addedLine] using h.deleted
    · simpa [countMarked_append, hhead, OpenHunk.addedLine] using h.oldSeen
    · simpa [countMarked_append, hhead, OpenHunk.addedLine] using h.newSeen
  | deleted =>
    rw [hcase] at hread
    dsimp only at hread
    split at hread
    · cases hread
    obtain ⟨hseen, _, rfl⟩ := countLine_ok hread
    have hcount : k.oldSeen + 1 ≤ k.oldCount := hseen
    have hpath : k.deletedIn s.currentOldPath = s.currentOldPath :=
      if_pos (Nat.lt_of_lt_of_le (Nat.succ_pos _) hcount)
    rw [hpath]
    obtain ⟨hhunk, hrecords, hold, hnew⟩ :=
      hpushed (s.deletedLine s.currentOldPath (orOne k.oldLine))
        (k.deletedLine s.currentOldPath.isSome)
    have hhead : line.head? = some '-' := head_of_bodyKind hcase (by simp)
    have hcursor := h.oldLine_eq hcount
    refine ⟨_, hhunk, hrecords, ?_⟩
    rw [hold, hnew]
    refine h.push hline ?_ ?_ ?_ ?_ ?_ ?_ ?_ ?_
    · rfl
    · exact ⟨rfl, rfl, rfl, rfl⟩
    · simpa [Replay.line, hhead, OpenHunk.deletedLine] using hcursor
    · simpa [Replay.line, hhead, OpenHunk.deletedLine] using h.newLine
    · simpa [Replay.line, hhead, OpenHunk.deletedLine] using h.added
    · simp only [OpenHunk.deletedLine, hcursor, h.deleted, Replay.line, hhead]
      exact insertIf_toFinset _ _ _
    · simpa [countMarked_append, hhead, OpenHunk.deletedLine] using h.oldSeen
    · simpa [countMarked_append, hhead, OpenHunk.deletedLine] using h.newSeen
  | context =>
    rw [hcase] at hread
    dsimp only at hread
    split at hread
    · cases hread
    obtain ⟨hseenOld, hseenNew, rfl⟩ := countLine_ok hread
    obtain ⟨hhunk, hrecords, hold, hnew⟩ := hpushed s k.contextLine
    have hhead : line.head? = some ' ' := head_of_bodyKind hcase (by simp)
    have hcursorOld := h.oldLine_eq hseenOld
    have hcursorNew := h.newLine_eq hseenNew
    refine ⟨_, hhunk, hrecords, ?_⟩
    rw [hold, hnew]
    refine h.push hline ?_ ?_ ?_ ?_ ?_ ?_ ?_ ?_
    · rfl
    · exact ⟨rfl, rfl, rfl, rfl⟩
    · simpa [Replay.line, hhead, OpenHunk.contextLine] using hcursorOld
    · simpa [Replay.line, hhead, OpenHunk.contextLine] using hcursorNew
    · simpa [Replay.line, hhead, OpenHunk.contextLine] using h.added
    · simpa [Replay.line, hhead, OpenHunk.contextLine] using h.deleted
    · simpa [countMarked_append, hhead, OpenHunk.contextLine] using h.oldSeen
    · simpa [countMarked_append, hhead, OpenHunk.contextLine] using h.newSeen

/-- Between two lines: the hunks that are kept are replayed, and the open one is being read. -/
structure Following (maxLineNumber : Nat) (s : State) : Prop where
  records : ∀ h ∈ s.hunkRecords, h.Replayed maxLineNumber
  opened : ∀ k, s.hunk = some k →
    ∃ body, Reading maxLineNumber s.currentOldPath s.currentPath k body

section following
variable {maxLineNumber : Nat}

theorem Following.closed (hrecords : ∀ h ∈ s.hunkRecords, h.Replayed maxLineNumber)
    (hnone : s.hunk = none) : Following maxLineNumber s :=
  ⟨hrecords, fun k hk => absurd (hk.symm.trans hnone) (Option.some_ne_none k)⟩

theorem Following.keepHunk (hs : Following maxLineNumber s) {k : OpenHunk} (hk : s.hunk = some k)
    (hsat : k.satisfied) : ∀ h ∈ (s.keepHunk k).hunkRecords, h.Replayed maxLineNumber := by
  obtain ⟨body, hreading⟩ := hs.opened k hk
  intro h hh
  rcases List.mem_append.mp hh with hold | hnew
  · exact hs.records h hold
  · rw [List.mem_singleton.mp hnew]
    exact hreading.record hsat

theorem Following.closeHunk {b : Bool} (hs : Following maxLineNumber s)
    (h : closeHunk p b s = .ok s') : ∀ h ∈ s'.hunkRecords, h.Replayed maxLineNumber := by
  rcases closeHunk_ok h with ⟨_, rfl⟩ | ⟨k, hk, hsat, rfl⟩ | ⟨k, _, _, _, _, rfl⟩
  · exact hs.records
  · exact hs.keepHunk hk hsat
  · exact hs.records

theorem Registered.hunkRecords_eq (h : Registered s s') : s'.hunkRecords = s.hunkRecords := by
  obtain ⟨⟨_, _, _, _, rfl⟩, _⟩ := h
  rfl

/-- No hunk is open after the line, and none has been kept by it. -/
structure Kept (s : State) (r : Step) : Prop where
  records : r.state.hunkRecords = s.hunkRecords
  hunk : r.state.hunk = none

theorem Kept.following (h : Kept s r) (hs : ∀ h ∈ s.hunkRecords, h.Replayed maxLineNumber) :
    Following maxLineNumber r.state :=
  .closed (h.records ▸ hs) h.hunk

theorem gitHeaderLine_kept (h : gitHeaderLine p line s = .ok r) :
    ∃ s₁, finish p s = .ok s₁ ∧ Kept s₁ r := by
  obtain ⟨s₁, s₂, hfinish, _, _, _, _, hreg, rfl⟩ := gitHeaderLine_ok h
  refine ⟨s₁, hfinish, ?_, ?_⟩
  · change (s₂.underHeader.appendFileLine line).hunkRecords = _
    rw [appendFileLine_hunkRecords]
    exact hreg.hunkRecords_eq.trans (keepFile_hunkRecords s₁)
  · change (s₂.underHeader.appendFileLine line).hunk = _
    rw [appendFileLine_hunk]
    exact hreg.hunk_eq.trans ((keepFile_hunk s₁).trans (closeHunk_closed hfinish))

theorem matchMarkers_kept {path : Option Path} (hnone : s.hunk = none)
    (h : matchMarkers p line path s = .ok r) : Kept s r := by
  obtain ⟨s₁, hreg, ⟨rfl, _, _⟩ | rfl⟩ := matchMarkers_ok hnone h
  · exact ⟨(appendFileLine_hunkRecords _).trans hreg.hunkRecords_eq,
      (appendFileLine_hunk _).trans (hreg.hunk_eq.trans hnone)⟩
  · exact ⟨(dropFile_hunkRecords _).trans hreg.hunkRecords_eq,
      (dropFile_hunk _).trans (hreg.hunk_eq.trans hnone)⟩

theorem RenameEffect.kept (hnone : s.hunk = none) (h : RenameEffect line s r) : Kept s r := by
  obtain ⟨s₁, pairs, source, ofHeader, hreg, rfl | rfl⟩ := h
  · exact ⟨(appendFileLine_hunkRecords _).trans hreg.hunkRecords_eq,
      (appendFileLine_hunk _).trans (hreg.hunk_eq.trans hnone)⟩
  · exact ⟨(dropFile_hunkRecords _).trans hreg.hunkRecords_eq,
      (dropFile_hunk _).trans (hreg.hunk_eq.trans hnone)⟩

theorem Following.hunkHeaderLine (hs : Following p.maxLineNumber s) (hline : '\n' ∉ line)
    (h : hunkHeaderLine p line s = .ok r) : Following p.maxLineNumber r.state := by
  obtain ⟨s₁, range, hfinish, _, _, hrange, hadmit⟩ := hunkHeaderLine_ok h
  have hrecords := hs.closeHunk hfinish
  have hnone : s₁.hunk = none := closeHunk_closed hfinish
  rcases admitHunk_ok (by exact hnone) hadmit with ⟨_, rfl⟩ | ⟨_, _, rfl⟩
  · refine ⟨?_, fun k hk => ⟨[], ?_⟩⟩
    · change ∀ h ∈ (State.appendFileLine _ line).hunkRecords, _
      rw [appendFileLine_hunkRecords]
      exact hrecords
    · change (State.appendFileLine _ line).hunk = some k at hk
      rw [appendFileLine_hunk] at hk
      rw [← Option.some.inj hk]
      exact Reading.open _ _ hrange hline
  · refine .closed ?_ ?_
    · change ∀ h ∈ (State.keepFile _).hunkRecords, _
      rw [keepFile_hunkRecords]
      exact hrecords
    · exact (keepFile_hunk _).trans hnone

theorem Following.otherLine (hs : Following maxLineNumber s) (hline : '\n' ∉ line)
    (h : otherLine p line s = .ok r) : Following maxLineNumber r.state := by
  unfold Diff.otherLine at h
  split at h
  · next hnone =>
    obtain rfl := Except.ok.inj h
    have hout : (outsideLine line s).hunkRecords = s.hunkRecords ∧
        (outsideLine line s).hunk = s.hunk := by
      unfold outsideLine
      rw [appendFileLine_hunkRecords, appendFileLine_hunk]
      split <;> exact ⟨rfl, rfl⟩
    exact .closed (hout.1 ▸ hs.records) (hout.2.trans hnone)
  · next k hk =>
    obtain ⟨s', hbody, h⟩ := bind_ok h
    obtain rfl := Except.ok.inj h
    change Following maxLineNumber s'
    rcases bodyLine_ok hk hbody with ⟨_, hsat, rfl⟩ | hpushed
    · -- text after a whole hunk closes it
      exact .closed (by rw [appendFileLine_hunkRecords]; exact hs.keepHunk hk hsat)
        (by rw [appendFileLine_hunk]; rfl)
    · obtain ⟨body, hreading⟩ := hs.opened k hk
      obtain ⟨k', hhunk, hrecords, hnext⟩ := hreading.bodyLine hline hpushed.kind hbody
      refine ⟨hrecords ▸ hs.records, fun k₁ hk₁ => ⟨body ++ [line], ?_⟩⟩
      rw [← Option.some.inj (hhunk.symm.trans hk₁)]
      exact hnext

/-- One line keeps the invariant. -/
theorem Following.step (hs : Following p.maxLineNumber s) (hline : '\n' ∉ line)
    (h : step p line s = .ok r) : Following p.maxLineNumber r.state := by
  unfold Diff.step at h
  have hout (hkind : lineKind s.hunk.isSome line = .oldMarker ∨
      lineKind s.hunk.isSome line = .newMarker) : s.hunk = none := by
    simpa using lineKind_outside (hkind.imp_right Or.inl)
  cases hkind : lineKind s.hunk.isSome line with
  | gitHeader =>
    rw [hkind] at h
    obtain ⟨s₁, hfinish, hkept⟩ := gitHeaderLine_kept h
    exact hkept.following (hs.closeHunk hfinish)
  | oldMarker =>
    rw [hkind] at h
    have hnone := hout (.inl hkind)
    obtain ⟨_, path, _, rfl⟩ := oldMarkerLine_ok hnone h
    refine .closed ?_ ((appendFileLine_hunk _).trans hnone)
    change ∀ h ∈ (State.appendFileLine _ line).hunkRecords, _
    rw [appendFileLine_hunkRecords]
    exact hs.records
  | newMarker =>
    rw [hkind] at h
    have hnone := hout (.inr hkind)
    obtain ⟨_, _, path, s₁, _, hresolve, _, hmatch⟩ := newMarkerLine_ok hnone h
    have hreg := resolvePendingGitHeader_ok hresolve
    refine (matchMarkers_kept (hreg.hunk_eq.trans hnone) hmatch).following ?_
    rw [hreg.hunkRecords_eq]
    exact hs.records
  | badMarker =>
    rw [hkind] at h
    cases h
  | renameFrom =>
    rw [hkind] at h
    obtain ⟨s₁, path, hfinish, _, h⟩ := renameFromLine_ok h
    have hnone : s₁.hunk = none := closeHunk_closed hfinish
    have hrecords := hs.closeHunk hfinish
    have hkept := (renameFromPath_ok (by exact hnone) h).kept (by exact hnone)
    exact hkept.following hrecords
  | renameTo =>
    rw [hkind] at h
    obtain ⟨s₁, path, hfinish, _, h⟩ := renameToLine_ok h
    have hnone : s₁.hunk = none := closeHunk_closed hfinish
    have hrecords := hs.closeHunk hfinish
    have hkept := (renameToPath_ok (by exact hnone) h).kept (by exact hnone)
    exact hkept.following hrecords
  | hunkHeader =>
    rw [hkind] at h
    exact hs.hunkHeaderLine hline h
  | other =>
    rw [hkind] at h
    exact hs.otherLine hline h

theorem Following.run {records : List Text} (hs : Following p.maxLineNumber s)
    (hrecords : Unbroken records) (h : run p records s = .ok s') :
    Following p.maxLineNumber s' := by
  induction records generalizing s with
  | nil =>
    obtain rfl := Except.ok.inj h
    exact hs
  | cons line rest ih =>
    have hline := hrecords line List.mem_cons_self
    have hrest : Unbroken rest := fun l hl => hrecords l (List.mem_cons_of_mem _ hl)
    unfold Diff.run at h
    split at h
    · cases h
    · next s₁ hstep => exact ih (hs.step hline hstep) hrest h
    · next s₁ hstep =>
      obtain rfl := Except.ok.inj h
      exact hs.step hline hstep

theorem Following.endOfInput {truncated : Bool} (hs : Following maxLineNumber s)
    (h : endOfInput p truncated s = .ok s') : ∀ h ∈ s'.hunkRecords, h.Replayed maxLineNumber := by
  have hfile (s₁ s₂ : State) (hnone : s₁.hunk = none) (hclose : closeFile p s₁ = .ok s₂) :
      s₂.hunkRecords = s₁.hunkRecords := by
    rw [closeFile_none hnone] at hclose
    rw [← Except.ok.inj hclose, keepFile_hunkRecords]
  unfold Diff.endOfInput at h
  split at h
  · obtain ⟨s₁, hclose, h⟩ := bind_ok h
    obtain ⟨s₂, htruncated, h⟩ := bind_ok h
    have hmarked : Following maxLineNumber
        { s with enumerationComplete := false, stoppedForBudget := true } :=
      ⟨hs.records, hs.opened⟩
    have hrecords := hmarked.closeHunk hclose
    have hnone := closeHunk_closed hclose
    have hsame : s₂.hunkRecords = s₁.hunkRecords := by
      unfold closeTruncated at htruncated
      split at htruncated
      · rw [← Except.ok.inj htruncated]
      · split at htruncated
        · exact hfile s₁ s₂ hnone htruncated
        · rw [abandonFile_none hnone] at htruncated
          rw [← Except.ok.inj htruncated, dropFile_hunkRecords]
    obtain rfl := Except.ok.inj h
    exact fun k hk => hrecords k (hsame ▸ hk)
  · obtain ⟨s₁, hclose, h⟩ := bind_ok h
    rw [hfile s₁ s' (closeHunk_closed hclose) h]
    exact hs.closeHunk hclose

end following

/-- The hunks of an analysis, and those its file records hold. -/
def DiffAnalysis.allHunks (a : DiffAnalysis) : List DiffHunk :=
  a.hunkRecords ++ a.fileRecords.flatMap DiffFileRecord.hunks

/-- Every hunk of an accepted diff records the numbers that a replay of its body meets. -/
theorem hunk_numbers_replayed (rules : UnicodeRules) (limits : ReviewLimits)
    (allowIncomplete : Bool) (inventory : Inventory) (diff : Text) (a : DiffAnalysis)
    (h : analyzeDiff rules limits allowIncomplete inventory diff = .ok a) :
    ∀ k ∈ a.allHunks, k.Replayed limits.maxLineNumber := by
  obtain ⟨s, s', hrun, hend, _, rfl⟩ := parseRecords_ok (analyzeDiff_ok h)
  have hinit (complete : Bool) : Following limits.maxLineNumber
      { enumerationComplete := complete } := .closed nofun rfl
  have hunbroken := unbroken_lines diff
  have hs : Following limits.maxLineNumber s := by
    refine Following.run (p := parser rules limits allowIncomplete inventory) (hinit _) ?_ hrun
    exact fun l hl => hunbroken l (List.mem_of_mem_take hl)
  have hrecords := hs.endOfInput hend
  have hfiled := (analyzeDiff_accounted h).filed
  intro k hk
  rcases List.mem_append.mp hk with hrecord | hfile
  · exact hrecords k hrecord
  · exact hrecords k (hfiled.subset hfile)

/-- Every text is its own NFC form, and no character is refused. -/
def anyText : UnicodeRules where
  nfc := fun _ => true
  forbidden := fun _ => false

/-- A file with a context line, a changed line and a last line without a line end. -/
def endsWithoutNewline : Text :=
  text ("diff --git a/x b/x\n--- a/x\n+++ b/x\n@@ -3,2 +3,2 @@\n a\n-b\n+c\n" ++
    "\\ No newline at end of file\n")

theorem endsWithoutNewline_replayed :
    ∃ a, analyzeDiff anyText {} false {} endsWithoutNewline = .ok a ∧
      ∀ k ∈ a.allHunks, k.Replayed 2147483647 := by
  have hok : (analyzeDiff anyText {} false {} endsWithoutNewline).toOption.isSome = true := by
    decide
  cases h : analyzeDiff anyText {} false {} endsWithoutNewline with
  | error e =>
    rw [h] at hok
    cases hok
  | ok a => exact ⟨a, rfl, hunk_numbers_replayed anyText {} false {} endsWithoutNewline a h⟩

/-- The hunks of a diff whose recorded numbers are not those of the replay. -/
def unreplayed (diff : Text) : List DiffHunk :=
  match analyzeDiff anyText {} false {} diff with
  | .error _ => []
  | .ok a => a.hunkRecords.filter fun k =>
    decide (k.addedLines ≠ (replay k.oldStart k.newStart k.body).added.toFinset ∨
      k.deletedLines ≠ (replay k.oldStart k.newStart k.body).deleted.toFinset)

theorem exists_unreplayed {diff : Text} (h : (unreplayed diff).isEmpty = false) :
    ∃ a, analyzeDiff anyText {} false {} diff = .ok a ∧ ∃ k ∈ a.hunkRecords,
      k.addedLines ≠ (replay k.oldStart k.newStart k.body).added.toFinset ∨
      k.deletedLines ≠ (replay k.oldStart k.newStart k.body).deleted.toFinset := by
  obtain ⟨k, hk⟩ := List.exists_mem_of_ne_nil _ (List.isEmpty_eq_false_iff.mp h)
  unfold unreplayed at hk
  split at hk
  · cases hk
  · next a ha =>
    obtain ⟨hmem, hbad⟩ := List.mem_filter.mp hk
    exact ⟨a, ha, k, hmem, of_decide_eq_true hbad⟩

/-- An added line of a deleted file, and a deleted line of a new file, are not recorded. -/
theorem line_without_path_unrecorded :
    (∃ a, analyzeDiff anyText {} false {} (text "--- a/x\n+++ /dev/null\n@@ -1 +1 @@\n-a\n+b\n") =
      .ok a ∧ ∃ k ∈ a.hunkRecords,
        k.addedLines ≠ (replay k.oldStart k.newStart k.body).added.toFinset ∨
        k.deletedLines ≠ (replay k.oldStart k.newStart k.body).deleted.toFinset) ∧
    ∃ a, analyzeDiff anyText {} false {} (text "--- /dev/null\n+++ b/x\n@@ -1 +1 @@\n-a\n+b\n") =
      .ok a ∧ ∃ k ∈ a.hunkRecords,
        k.addedLines ≠ (replay k.oldStart k.newStart k.body).added.toFinset ∨
        k.deletedLines ≠ (replay k.oldStart k.newStart k.body).deleted.toFinset :=
  ⟨exists_unreplayed (by decide), exists_unreplayed (by decide)⟩

end ReviewSensei.Diff
