import ReviewSensei.DiffPaths
import ReviewSensei.Dict
import Mathlib.Data.Finset.Basic

/-! The one-pass parser of unified and Git diffs, in its strict and its tolerant mode. -/
namespace ReviewSensei.Diff

/-- The fields of `ReviewLimits` a diff is held to. -/
structure ReviewLimits where
  maxDiffBytes : Nat := 1048576
  maxDiffLines : Nat := 50000
  maxDiffFiles : Nat := 500
  maxDiffHunks : Nat := 5000
  maxLineNumber : Nat := 2147483647
  deriving DecidableEq

structure DiffHunk where
  index : Nat
  oldPath : Option Path
  newPath : Option Path
  oldStart : Nat
  oldCount : Nat
  newStart : Nat
  newCount : Nat
  text : Text
  addedLines : Finset Nat
  deletedLines : Finset Nat
  deriving DecidableEq

structure DiffFileRecord where
  oldPath : Option Path
  newPath : Option Path
  text : Text
  header : Text
  addedLines : Finset Nat
  deletedLines : Finset Nat
  hunks : List DiffHunk
  binary : Bool
  deriving DecidableEq

/-- A path is never the empty text, so the source's truth tests are tests for `None`. -/
def DiffFileRecord.coveragePaths (r : DiffFileRecord) : List Path :=
  match r.oldPath, r.newPath with
  | some old, some new => if new = old then [old] else [old, new]
  | some old, none => [old]
  | none, some new => [new]
  | none, none => []

def DiffFileRecord.canonicalPath (r : DiffFileRecord) : Option Path :=
  if r.newPath.isSome then r.newPath else r.oldPath

def DiffFileRecord.hunkIndexes (r : DiffFileRecord) : List Nat := r.hunks.map DiffHunk.index

/-- `hunk.new_path or hunk.old_path`. -/
def DiffHunk.path (h : DiffHunk) : Option Path := h.newPath.or h.oldPath

structure DiffAnalysis where
  changedLines : Dict Path (Finset Nat)
  changedPaths : List Path
  diffBytes : Nat
  diffFiles : Nat
  diffHunks : Nat
  diffLines : Nat
  deletedLines : Dict Path (Finset Nat)
  binaryPaths : List Path
  renamedPaths : List (Path × Path)
  hunkRecords : List DiffHunk
  fileRecords : List DiffFileRecord
  enumerationComplete : Bool
  deriving DecidableEq

/-- A hunk whose body is being read, with what the loop gathers for it. -/
structure OpenHunk where
  oldStart : Nat
  oldCount : Nat
  newStart : Nat
  newCount : Nat
  index : Nat
  oldSeen : Nat
  newSeen : Nat
  oldLine : Nat
  newLine : Nat
  lines : List Text
  added : Finset Nat
  deleted : Finset Nat
  deriving DecidableEq

/-- What `_reset_file_state` clears. -/
structure FileState where
  inFile : Bool := false
  binary : Bool := false
  lines : List Text := []
  headerLines : List Text := []
  hunks : List DiffHunk := []
  added : Finset Nat := ∅
  deleted : Finset Nat := ∅
  seenHunk : Bool := false
  deriving DecidableEq

structure State where
  changed : Dict Path (Finset Nat) := []
  deleted : Dict Path (Finset Nat) := []
  paths : List Path := []
  binaryPaths : List Path := []
  renamedPairs : List (Path × Path) := []
  hunkRecords : List DiffHunk := []
  fileRecords : List DiffFileRecord := []
  currentPath : Option Path := none
  currentOldPath : Option Path := none
  pendingOldMarker : Bool := false
  matchedFileMarker : Bool := false
  hunkCount : Nat := 0
  sawStructure : Bool := false
  stoppedForBudget : Bool := false
  enumerationComplete : Bool := true
  hunk : Option OpenHunk := none
  pendingGitHeader : Option Text := none
  pendingRenameFrom : Option Path := none
  selectedGitHeader : Option (Option Path × Option Path) := none
  renameFromForHeader : Option Path := none
  file : FileState := {}
  deriving DecidableEq

/-- The mode and the ceilings one pass runs under. -/
structure Parser where
  rules : UnicodeRules
  allowIncomplete : Bool
  fileLimit : Nat
  hunkLimit : Nat
  maxLineNumber : Nat

/-- The hunk is as long as its header says. -/
def OpenHunk.satisfied (h : OpenHunk) : Prop := h.oldSeen = h.oldCount ∧ h.newSeen = h.newCount

instance (h : OpenHunk) : Decidable h.satisfied := inferInstanceAs (Decidable (_ ∧ _))

def OpenHunk.record (h : OpenHunk) (oldPath newPath : Option Path) : DiffHunk where
  index := h.index
  oldPath := oldPath
  newPath := newPath
  oldStart := h.oldStart
  oldCount := h.oldCount
  newStart := h.newStart
  newCount := h.newCount
  text := joined h.lines
  addedLines := h.added
  deletedLines := h.deleted

def FileState.record (f : FileState) (oldPath newPath : Option Path) : DiffFileRecord where
  oldPath := oldPath
  newPath := newPath
  text := joined f.lines
  header := joined f.headerLines
  addedLines := f.added
  deletedLines := f.deleted
  hunks := f.hunks
  binary := f.binary

namespace State

def keepHunk (s : State) (h : OpenHunk) : State :=
  let record := h.record s.currentOldPath s.currentPath
  { s with
    hunkRecords := s.hunkRecords ++ [record]
    file := { s.file with hunks := s.file.hunks ++ [record] }
    hunk := none }

def keepFile (s : State) : State :=
  if s.file.inFile then
    { s with
      fileRecords := s.fileRecords ++ [s.file.record s.currentOldPath s.currentPath]
      file := {} }
  else s

def dropFile (s : State) : State :=
  if s.file.inFile then { s with file := {} } else s

def appendFileLine (s : State) (line : Text) : State :=
  if s.file.inFile then
    { s with
      file := { s.file with
        lines := s.file.lines ++ [line]
        headerLines := if s.file.seenHunk then s.file.headerLines
          else s.file.headerLines ++ [line] } }
  else s

end State

variable (p : Parser)

def closeHunk (requireComplete : Bool) (s : State) : Except String State :=
  match s.hunk with
  | none => .ok s
  | some h =>
    if h.satisfied then .ok (s.keepHunk h)
    else if p.allowIncomplete && !requireComplete then .ok { s with hunk := none }
    else .error "diff hunk body does not match its header"

def finish (s : State) : Except String State := closeHunk p true s

def abandonFile (s : State) : Except String State := do
  let s ← closeHunk p (!p.allowIncomplete) s
  return s.dropFile

def closeFile (s : State) : Except String State := do
  let s ← closeHunk p (!p.allowIncomplete) s
  return s.keepFile

def startFile (s : State) : Except String State := do
  let s ← closeFile p s
  return { s with file := { s.file with inFile := true } }

/-- Whether the path has a place in the inventory; without one the inventory is incomplete. -/
def recordPath (path : Option Path) (s : State) : Except String (Bool × State) :=
  match path with
  | none => .ok (true, s)
  | some q =>
    if q ∈ s.paths then .ok (true, s)
    else if p.fileLimit ≤ s.paths.length then
      if p.allowIncomplete then .ok (false, { s with enumerationComplete := false })
      else .error "diff contains too many files"
    else .ok (true, { s with paths := s.paths ++ [q] })

/-- `record_path(old) and record_path(new)`. -/
def recordBoth (old new : Option Path) (s : State) : Except String (Bool × State) := do
  let (kept, s) ← recordPath p old s
  if kept then recordPath p new s else return (false, s)

def commitGitHeader (candidate : Option Path × Option Path) (s : State) : Except String State := do
  let (_, s) ← recordPath p candidate.1 s
  let (_, s) ← recordPath p candidate.2 s
  return s

def selectGitHeader (header : GitHeader) (s : State) : Except String State :=
  match header with
  | .unresolvedUnquoted rest =>
    .ok { s with pendingGitHeader := some rest, selectedGitHeader := none }
  | .fields old new => do
    let selected ← decodeGitHeaderFields p.rules old new
    let s ← commitGitHeader p selected { s with selectedGitHeader := some selected }
    return { s with pendingGitHeader := none }

/-- The header the two paths of an unresolved line spell. -/
def expectedHeader (old new : Path) : Text := text "a/" ++ old ++ text " b/" ++ new

def resolveAs (pending : Text) (old new : Path) (s : State) : Except String State :=
  if pending ≠ expectedHeader old new then .error "diff Git header could not be resolved"
  else do
    let selected := (some old, some new)
    let s ← commitGitHeader p selected { s with selectedGitHeader := some selected }
    return { s with pendingGitHeader := none }

def resolvePendingGitHeader (old new : Option Path) (s : State) : Except String State :=
  match s.pendingGitHeader with
  | none => .ok s
  | some pending =>
    match old, new with
    | none, none => .error "diff Git header could not be resolved"
    | some q, none => resolveAs p pending q q s
    | none, some q => resolveAs p pending q q s
    | some old, some new => resolveAs p pending old new s

inductive Step
  | next (s : State)
  /-- The loop ends here: a ceiling is reached. -/
  | stop (s : State)
  deriving DecidableEq

def stopForBudget (s : State) : Except String Step := do
  let s ← abandonFile p { s with stoppedForBudget := true }
  return .stop s

def maxGitHeaderBytes : Nat := maxRepositoryPathBytes * 4 * 2 + 64

/-- The state after a Git header is selected or left pending. -/
def State.underHeader (s : State) : State :=
  { s with
    renameFromForHeader := none
    currentOldPath := s.selectedGitHeader.bind Prod.fst
    currentPath := s.selectedGitHeader.bind Prod.snd
    pendingOldMarker := false
    matchedFileMarker := false }

def gitHeaderLine (line : Text) (s : State) : Except String Step := do
  let s ← finish p s
  if s.pendingOldMarker then .error "diff contains an unmatched file marker"
  else if s.pendingGitHeader.isSome then .error "diff Git header could not be resolved"
  else if s.pendingRenameFrom.isSome || s.renameFromForHeader.isSome then
    .error "diff contains an unmatched rename marker"
  else do
    let s ← startFile p s
    if maxGitHeaderBytes < utf8Size line then
      .error "diff Git header exceeds the configured size limit"
    else do
      let header ← splitGitHeader line
      let s ← selectGitHeader p header { s with sawStructure := true }
      return .next (s.underHeader.appendFileLine line)

def ensureFile (s : State) : Except String State :=
  if s.file.inFile then .ok s else startFile p s

def oldMarkerLine (line : Text) (s : State) : Except String Step := do
  let s ← finish p s
  if s.pendingOldMarker then .error "diff contains an unmatched file marker"
  else do
    let s ← ensureFile p { s with sawStructure := true }
    let oldPath ← decodeMarker p.rules line
    let s := { s with
      currentPath := oldPath
      currentOldPath := oldPath
      pendingOldMarker := true }
    return .next (s.appendFileLine line)

/-- Both markers name a path and the Git header names others. -/
def conflictsWithHeader (s : State) (newPath : Option Path) : Bool :=
  s.pendingGitHeader.isNone && s.currentOldPath.isSome && newPath.isSome &&
    s.selectedGitHeader.any (fun selected => decide (selected ≠ (s.currentOldPath, newPath)))

/-- The pair of a rename, if both sides are paths and they differ. -/
def renamedPair (old new : Option Path) : List (Path × Path) :=
  match old, new with
  | some a, some b => if a ≠ b then [(a, b)] else []
  | _, _ => []

def touch (d : Dict Path (Finset Nat)) (path : Option Path) : Dict Path (Finset Nat) :=
  match path with
  | none => d
  | some q => d.setDefault q ∅

def State.matchMarker (s : State) (newPath : Option Path) : State :=
  { s with
    renamedPairs := s.renamedPairs ++ renamedPair s.currentOldPath newPath
    currentPath := newPath
    pendingOldMarker := false
    changed := touch s.changed newPath
    matchedFileMarker := true }

def matchMarkers (line : Text) (newPath : Option Path) (s : State) : Except String Step := do
  let (kept, s) ← recordBoth p s.currentOldPath newPath s
  if kept then return .next ((s.matchMarker newPath).appendFileLine line)
  else stopForBudget p s

def newMarkerLine (line : Text) (s : State) : Except String Step := do
  let s ← finish p s
  if !s.pendingOldMarker then .error "diff contains an unmatched file marker"
  else do
    let newPath ← decodeMarker p.rules line
    if s.pendingRenameFrom.isSome then .error "diff contains conflicting rename metadata"
    else do
      let s ← resolvePendingGitHeader p s.currentOldPath newPath { s with sawStructure := true }
      if conflictsWithHeader s newPath then
        .error "diff file markers conflict with the Git header"
      else matchMarkers p line newPath s

/-- A rename line without a Git header to belong to. -/
def renameWithoutHeader (line : Text) (path : Option Path) (s : State) : Except String Step := do
  let (kept, s) ← recordPath p path s
  if kept then return .next (s.appendFileLine line) else stopForBudget p s

def renameFromPath (line : Text) (path : Option Path) (s : State) : Except String Step :=
  if s.pendingGitHeader.isSome then
    if s.pendingRenameFrom.isSome then .error "diff contains duplicate rename metadata"
    else .ok (.next (State.appendFileLine { s with pendingRenameFrom := path } line))
  else if s.selectedGitHeader.isSome then
    if s.renameFromForHeader.isSome then .error "diff contains duplicate rename metadata"
    else .ok (.next (State.appendFileLine { s with renameFromForHeader := path } line))
  else renameWithoutHeader p line path s

def renameFromLine (line : Text) (s : State) : Except String Step := do
  let s ← finish p s
  if s.pendingOldMarker then .error "diff contains an unmatched file marker"
  else do
    let path ← decodeRenamePath p.rules "rename from " line
    renameFromPath p line path { s with sawStructure := true }

/-- The rename that resolves a pending header; here both sides may be equal. -/
def renameResolving (line : Text) (source : Path) (path : Option Path) (s : State) :
    Except String Step := do
  let s ← resolvePendingGitHeader p (some source) path s
  let (kept, s) ← recordBoth p (some source) path s
  if kept then
    let s := { s with
      renamedPairs := s.renamedPairs ++ path.toList.map (fun q => (source, q))
      pendingRenameFrom := none }
    return .next (s.appendFileLine line)
  else stopForBudget p s

def renameOfHeader (line : Text) (selected : Option Path × Option Path) (path : Option Path)
    (s : State) : Except String Step :=
  if s.renameFromForHeader ≠ selected.1 ∨ path ≠ selected.2 then
    .error "diff rename metadata conflicts with the Git header"
  else
    .ok (.next (State.appendFileLine { s with
      renamedPairs := s.renamedPairs ++ renamedPair s.renameFromForHeader path
      renameFromForHeader := none } line))

def renameToPath (line : Text) (path : Option Path) (s : State) : Except String Step :=
  if s.pendingGitHeader.isSome then
    match s.pendingRenameFrom with
    | none => .error "diff contains an unmatched rename marker"
    | some source => renameResolving p line source path s
  else
    match s.selectedGitHeader with
    | some selected => renameOfHeader line selected path s
    | none => renameWithoutHeader p line path s

def renameToLine (line : Text) (s : State) : Except String Step := do
  let s ← finish p s
  if s.pendingOldMarker then .error "diff contains an unmatched file marker"
  else do
    let path ← decodeRenamePath p.rules "rename to " line
    renameToPath p line path { s with sawStructure := true }

def isAsciiDigit (c : Char) : Bool := '0' ≤ c && c ≤ '9'

/-- One side of a hunk header: the start and, after a comma, the count. -/
def parseRange (t : Text) : Option ((Text × Text) × Text) :=
  let start := t.takeWhile isAsciiDigit
  if start = [] then none
  else
    match t.dropWhile isAsciiDigit with
    | ',' :: rest =>
      let count := rest.takeWhile isAsciiDigit
      if count = [] then none else some ((start, count), rest.dropWhile isAsciiDigit)
    | rest => some ((start, ['1']), rest)

/-- The four numbers of a header line, as digits. -/
def parseHunkHeader (line : Text) : Option (List Text) :=
  if !starts "@@ -" line then none
  else do
    let (old, rest) ← parseRange (line.drop 4)
    if !starts " +" rest then none
    else do
      let (new, rest) ← parseRange (rest.drop 2)
      if starts " @@" rest then some [old.1, old.2, new.1, new.2] else none

def number (digits : Text) : Nat := digits.foldl (fun n c => 10 * n + (c.toNat - '0'.toNat)) 0

structure HunkRange where
  oldStart : Nat
  oldCount : Nat
  newStart : Nat
  newCount : Nat
  deriving DecidableEq

def rangeEnd (start count : Nat) : Nat := if count = 0 then start else start + count - 1

def checkRange (maxLineNumber : Nat) (r : HunkRange) : Except String HunkRange :=
  if (r.oldStart = 0 ∧ r.oldCount ≠ 0) ∨ (r.newStart = 0 ∧ r.newCount ≠ 0) then
    .error "diff hunk header contains an invalid zero line range"
  else if r.oldCount = 0 ∧ r.newCount = 0 then
    .error "diff hunk header must describe at least one line"
  else if maxLineNumber < r.oldStart ∨ maxLineNumber < r.newStart ∨
      maxLineNumber < r.oldCount ∨ maxLineNumber < r.newCount then
    .error "diff hunk header exceeds the line limit"
  else if maxLineNumber < rangeEnd r.oldStart r.oldCount ∨
      maxLineNumber < rangeEnd r.newStart r.newCount then
    .error "diff hunk header exceeds the line limit"
  else .ok r

def hunkRange (maxLineNumber : Nat) (line : Text) : Except String HunkRange :=
  match parseHunkHeader line with
  | some [a, b, c, d] =>
    if [a, b, c, d].any
        (fun digits => decide ((Nat.toDigits 10 maxLineNumber).length < digits.length)) then
      .error "diff hunk header exceeds the line limit"
    else checkRange maxLineNumber ⟨number a, number b, number c, number d⟩
  | _ => .error "diff contains an invalid hunk header"

def HunkRange.open (r : HunkRange) (index : Nat) (line : Text) : OpenHunk where
  oldStart := r.oldStart
  oldCount := r.oldCount
  newStart := r.newStart
  newCount := r.newCount
  index := index
  oldSeen := 0
  newSeen := 0
  oldLine := r.oldStart
  newLine := r.newStart
  lines := [line]
  added := ∅
  deleted := ∅

def State.openHunk (s : State) (h : OpenHunk) : State :=
  { s with hunk := some h, file := { s.file with seenHunk := true } }

/-- The count is raised first, also for the hunk that is one too many. -/
def admitHunk (line : Text) (r : HunkRange) (s : State) : Except String Step :=
  let s := { s with hunkCount := s.hunkCount + 1 }
  if p.hunkLimit < s.hunkCount then
    if p.allowIncomplete then do
      let s ← closeFile p { s with enumerationComplete := false, stoppedForBudget := true }
      return .stop s
    else .error "diff contains too many hunks"
  else .ok (.next ((s.openHunk (r.open s.hunkCount line)).appendFileLine line))

def hunkHeaderLine (line : Text) (s : State) : Except String Step := do
  let s ← finish p s
  if s.pendingOldMarker then .error "diff contains an unmatched file marker"
  else if !s.matchedFileMarker then .error "diff hunk has no matched file marker"
  else do
    let r ← hunkRange p.maxLineNumber line
    admitHunk p line r { s with sawStructure := true }

def insertNew {α : Type} [DecidableEq α] (xs : List α) (x : α) : List α :=
  if x ∈ xs then xs else xs ++ [x]

/-- A line between hunks: extended headers, binary markers, text nobody reads. -/
def outsideLine (line : Text) (s : State) : State :=
  let s := if starts "Binary files " line || starts "GIT binary patch" line then
      { s with
        file := { s.file with binary := true }
        binaryPaths := (s.currentOldPath.toList ++ s.currentPath.toList).foldl insertNew
          s.binaryPaths }
    else s
  s.appendFileLine line

inductive BodyKind
  | noNewline
  | added
  | deleted
  | context
  | trailing
  deriving DecidableEq

def bodyKind : Text → BodyKind
  | '\\' :: _ => .noNewline
  | '+' :: _ => .added
  | '-' :: _ => .deleted
  | ' ' :: _ => .context
  | _ => .trailing

/-- `line or 1`. -/
def orOne (n : Nat) : Nat := if n = 0 then 1 else n

def addLine (d : Dict Path (Finset Nat)) (path : Option Path) (n : Nat) :
    Dict Path (Finset Nat) :=
  match path with
  | none => d
  | some q => d.set q (insert n ((d.get? q).getD ∅))

def insertIf (b : Bool) (n : Nat) (lines : Finset Nat) : Finset Nat :=
  if b then insert n lines else lines

def OpenHunk.addedLine (h : OpenHunk) (counted : Bool) : OpenHunk :=
  { h with
    newSeen := h.newSeen + 1
    newLine := orOne h.newLine + 1
    added := insertIf counted (orOne h.newLine) h.added }

def OpenHunk.deletedLine (h : OpenHunk) (counted : Bool) : OpenHunk :=
  { h with
    oldSeen := h.oldSeen + 1
    oldLine := orOne h.oldLine + 1
    deleted := insertIf counted (orOne h.oldLine) h.deleted }

def OpenHunk.contextLine (h : OpenHunk) : OpenHunk :=
  { h with
    oldSeen := h.oldSeen + 1
    newSeen := h.newSeen + 1
    oldLine := orOne h.oldLine + 1
    newLine := orOne h.newLine + 1 }

def State.addedLine (s : State) (n : Nat) : State :=
  { s with
    changed := addLine s.changed s.currentPath n
    file := { s.file with added := insertIf s.currentPath.isSome n s.file.added } }

def State.deletedLine (s : State) (path : Option Path) (n : Nat) : State :=
  { s with
    deleted := addLine s.deleted path n
    file := { s.file with deleted := insertIf path.isSome n s.file.deleted } }

def State.pushLine (s : State) (h : OpenHunk) (line : Text) : State :=
  State.appendFileLine { s with hunk := some { h with lines := h.lines ++ [line] } } line

/-- What the loop checks after it has counted a line of the body. -/
def countLine (line : Text) (h : OpenHunk) (s : State) : Except String State :=
  if p.maxLineNumber + 1 < h.newLine then .error "diff hunk exceeds the line limit"
  else if h.oldCount < h.oldSeen ∨ h.newCount < h.newSeen then
    .error "diff hunk body exceeds its header"
  else .ok (s.pushLine h line)

def trailingLine (line : Text) (h : OpenHunk) (s : State) : Except String State :=
  if h.oldCount ≤ h.oldSeen ∧ h.newCount ≤ h.newSeen then do
    let s ← finish p s
    return s.appendFileLine line
  else .error "diff hunk contains an invalid line"

/-- Deleted lines count only where the hunk has an old side. -/
def OpenHunk.deletedIn (h : OpenHunk) (path : Option Path) : Option Path :=
  if 0 < h.oldCount then path else none

def bodyLine (line : Text) (h : OpenHunk) (s : State) : Except String State :=
  match bodyKind line with
  | .noNewline =>
    if starts "\\ No newline at end of file" line then .ok (s.pushLine h line)
    else .error "diff contains an invalid hunk marker"
  | .trailing => trailingLine p line h s
  | .added =>
    if p.maxLineNumber < orOne h.newLine then .error "diff hunk exceeds the line limit"
    else countLine p line (h.addedLine s.currentPath.isSome) (s.addedLine (orOne h.newLine))
  | .deleted =>
    if p.maxLineNumber < orOne h.oldLine then .error "diff hunk exceeds the line limit"
    else
      let path := h.deletedIn s.currentOldPath
      countLine p line (h.deletedLine path.isSome) (s.deletedLine path (orOne h.oldLine))
  | .context =>
    if p.maxLineNumber < orOne h.newLine ∨ p.maxLineNumber < orOne h.oldLine then
      .error "diff hunk exceeds the line limit"
    else countLine p line h.contextLine s

inductive LineKind
  | gitHeader
  | oldMarker
  | newMarker
  | badMarker
  | renameFrom
  | renameTo
  | hunkHeader
  | other
  deriving DecidableEq

/-- Inside a hunk a line that starts with `--- ` or `+++ ` belongs to its body. -/
def lineKind (inHunk : Bool) (line : Text) : LineKind :=
  if starts "diff --git " line then .gitHeader
  else if !inHunk && starts "--- " line then .oldMarker
  else if !inHunk && starts "+++ " line then .newMarker
  else if !inHunk && (starts "---" line || starts "+++" line) then .badMarker
  else if starts "rename from " line then .renameFrom
  else if starts "rename to " line then .renameTo
  else if starts "@@" line then .hunkHeader
  else .other

def otherLine (line : Text) (s : State) : Except String Step :=
  match s.hunk with
  | none => .ok (.next (outsideLine line s))
  | some h => do
    let s ← bodyLine p line h s
    return .next s

def step (line : Text) (s : State) : Except String Step :=
  match lineKind s.hunk.isSome line with
  | .gitHeader => gitHeaderLine p line s
  | .oldMarker => oldMarkerLine p line s
  | .newMarker => newMarkerLine p line s
  | .badMarker => .error "diff contains an invalid file marker"
  | .renameFrom => renameFromLine p line s
  | .renameTo => renameToLine p line s
  | .hunkHeader => hunkHeaderLine p line s
  | .other => otherLine p line s

/-- The loop over the records of the diff. -/
def run : List Text → State → Except String State
  | [], s => .ok s
  | line :: rest, s =>
    match step p line s with
    | .error e => .error e
    | .ok (.next s') => run rest s'
    | .ok (.stop s') => .ok s'

def closeTruncated (s : State) : Except String State :=
  if !s.file.inFile then .ok s
  else if s.file.hunks ≠ [] then closeFile p s
  else abandonFile p s

def State.forgetPending (s : State) : State :=
  { s with
    pendingOldMarker := false
    pendingGitHeader := none
    pendingRenameFrom := none
    renameFromForHeader := none }

/-- What follows the loop; `truncated` when lines beyond the ceiling were left out. -/
def endOfInput (truncated : Bool) (s : State) : Except String State :=
  if truncated && p.allowIncomplete then do
    let s ← closeHunk p false { s with enumerationComplete := false, stoppedForBudget := true }
    let s ← closeTruncated p s
    return s.forgetPending
  else do
    let s ← closeHunk p (!p.allowIncomplete) s
    closeFile p s

def checkEnd (s : State) : Except String Unit :=
  if !s.stoppedForBudget && s.pendingOldMarker then
    .error "diff contains an unmatched file marker"
  else if !s.stoppedForBudget &&
      (s.pendingGitHeader.isSome || s.pendingRenameFrom.isSome ||
        s.renameFromForHeader.isSome) then
    .error "diff Git header could not be resolved"
  else if !s.sawStructure then .error "diff contains no supported diff records"
  else .ok ()

def State.analysis (s : State) (byteCount totalLines : Nat) : DiffAnalysis where
  changedLines := s.changed
  changedPaths := s.paths
  diffBytes := byteCount
  diffFiles := s.paths.length
  diffHunks := s.hunkCount
  diffLines := totalLines
  deletedLines := s.deleted
  binaryPaths := s.binaryPaths
  renamedPaths := s.renamedPairs.foldl insertNew []
  hunkRecords := s.hunkRecords
  fileRecords := s.fileRecords
  enumerationComplete := s.enumerationComplete

/-- The optional ceilings of a tolerant pass. -/
structure Inventory where
  maxBytes : Option Nat := none
  maxLines : Option Nat := none
  maxFiles : Option Nat := none
  maxHunks : Option Nat := none

def ceiling (allowIncomplete : Bool) (given : Option Nat) (limit : Nat) : Nat :=
  if allowIncomplete then given.getD limit else limit

variable (rules : UnicodeRules)

def parser (limits : ReviewLimits) (allowIncomplete : Bool) (inventory : Inventory) : Parser where
  rules := rules
  allowIncomplete := allowIncomplete
  fileLimit := ceiling allowIncomplete inventory.maxFiles limits.maxDiffFiles
  hunkLimit := ceiling allowIncomplete inventory.maxHunks limits.maxDiffHunks
  maxLineNumber := limits.maxLineNumber

/-- The pass over the records that the line ceiling leaves. -/
def parseRecords (byteLimit lineLimit : Nat) (diff : Text) : Except String DiffAnalysis := do
  let records := lines diff
  let truncated := decide (lineLimit < records.length)
  let complete := decide (utf8Size diff ≤ byteLimit) && !truncated
  let s ← run p (records.take lineLimit) { enumerationComplete := complete }
  let s ← endOfInput p truncated s
  checkEnd s
  return s.analysis (utf8Size diff) records.length

def analyzeDiff (limits : ReviewLimits) (allowIncomplete : Bool) (inventory : Inventory)
    (diff : Text) : Except String DiffAnalysis :=
  let byteLimit := ceiling allowIncomplete inventory.maxBytes limits.maxDiffBytes
  let lineLimit := ceiling allowIncomplete inventory.maxLines limits.maxDiffLines
  if Session.stripBy Session.isPythonSpace diff = [] then
    .error "diff must be a non-empty string"
  else if !allowIncomplete && decide (byteLimit < utf8Size diff) then
    .error "diff exceeds the configured byte limit"
  else if !allowIncomplete && decide (lineLimit < (lines diff).length) then
    .error "diff exceeds the configured line limit"
  else parseRecords (parser rules limits allowIncomplete inventory) byteLimit lineLimit diff

end ReviewSensei.Diff
