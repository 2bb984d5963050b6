import ReviewSensei.DiffPaths
import ReviewSensei.SessionSteps

/-! Discovery of context documents: segment-wise patterns and the pruned directory traversal. -/
namespace ReviewSensei.Discovery
open Diff (Text UnicodeRules text validateRepositoryPath)
open Session (bind_ok)

/-- The names of a path, by `PurePosixPath(value).parts`. -/
def parts (value : Text) : List Text :=
  let names := (value.splitOn '/').filter (fun s => s ≠ [] ∧ s ≠ ['.'])
  match value with
  | '/' :: '/' :: '/' :: _ => text "/" :: names
  | '/' :: '/' :: _ => text "//" :: names
  | '/' :: _ => text "/" :: names
  | _ => names

section Fnmatch

/-- What one element of a shell pattern matches. -/
inductive Token
  | star
  | any
  | one (c : Char)
  /-- A bracket: the characters between the bounds, or those outside. -/
  | among (negated : Bool) (ranges : List (Char × Char))
  deriving DecidableEq

/-- What a bracket holds before the one that closes it. -/
def bracket (after : Text) : Option Text :=
  let bang := if after.head? = some '!' then 1 else 0
  let first := if (after.drop bang).head? = some ']' then bang + 1 else bang
  let stuff := after.take first ++ (after.drop first).takeWhile (· ≠ ']')
  if stuff.length < after.length then some stuff else none

/-- The chunks between the hyphens that make ranges; a range takes one character on each side. -/
def chunks : Text → Nat → Text → List Text
  | chunk, _, [] => [chunk]
  | chunk, 0, '-' :: rest =>
    if rest = [] then [chunk ++ ['-']] else chunk :: chunks [] 2 rest
  | chunk, 0, c :: rest => chunks (chunk ++ [c]) 0 rest
  | chunk, held + 1, c :: rest => chunks (chunk ++ [c]) held rest

/-- Ranges without characters are removed, from the last one on. -/
def dropEmpty : List Text → List Text
  | [] => []
  | chunk :: rest =>
    match dropEmpty rest with
    | [] => [chunk]
    | next :: others =>
      match chunk.getLast?, next.head? with
      | some low, some high =>
        if high < low then (chunk.dropLast ++ next.drop 1) :: others
        else chunk :: next :: others
      | _, _ => chunk :: next :: others

/-- The characters of a chunk, and the range from its last one to the next chunk. -/
def rangesOf : Text → List Text → List (Char × Char)
  | chunk, [] => chunk.map (fun c => (c, c))
  | chunk, next :: others =>
    chunk.map (fun c => (c, c)) ++
      (match chunk.getLast?, next.head? with
        | some low, some high => [(low, high)]
        | none, _ => [('-', '-')]
        | _, none => []) ++ rangesOf next others

def bracketToken (stuff : Text) : Token :=
  let held := if stuff.head? = some '!' then 2 else 1
  match dropEmpty (if stuff.contains '-' then chunks [] held stuff else [stuff]) with
  | ('!' :: chunk) :: others => .among true (rangesOf chunk others)
  | chunk :: others => .among false (rangesOf chunk others)
  | [] => .among false []

/-- `fnmatch.translate`, past the characters of a bracket it has read. -/
def tokens : Nat → Text → List Token
  | _, [] => []
  | skipped + 1, _ :: rest => tokens skipped rest
  | 0, '*' :: rest => .star :: tokens 0 rest
  | 0, '?' :: rest => .any :: tokens 0 rest
  | 0, '[' :: rest =>
    match bracket rest with
    | some stuff => bracketToken stuff :: tokens (stuff.length + 1) rest
    | none => .one '[' :: tokens 0 rest
  | 0, c :: rest => .one c :: tokens 0 rest

def Token.accepts (c : Char) : Token → Bool
  | .star | .any => true
  | .one d => c = d
  | .among negated ranges => ranges.any (fun r => r.1 ≤ c && c ≤ r.2) != negated

def matchTokens : List Token → Text → Bool
  | [], name => name.isEmpty
  | .star :: rest, name => name.tails.any (matchTokens rest)
  | token :: rest, name =>
    match name with
    | [] => false
    | c :: name => token.accepts c && matchTokens rest name

/-- `fnmatch.fnmatchcase`. -/
def fnmatchcase (name pattern : Text) : Bool := matchTokens (tokens 0 pattern) name

example : ["a.md", "b.md", "-.md", "c.md", "a.txt"].filter
    (fun name => fnmatchcase (text name) (text "[!ac-d]*.md")) = ["b.md", "-.md"] := by decide

end Fnmatch

section Matching

def globstar : Text := text "**"

/-- The indices up to the length of the pattern that a set leaves out. -/
def missing (patternParts : List Text) (states : List Nat) : Nat :=
  ((List.range (patternParts.length + 1)).filter (fun i => !states.contains i)).length

theorem missing_insert {patternParts : List Text} {states : List Nat} {index : Nat}
    (hindex : index < patternParts.length + 1) (hnew : index ∉ states) :
    missing patternParts (index :: states) < missing patternParts states := by
  unfold missing
  have hsplit : (List.range (patternParts.length + 1)).filter
        (fun i => !(index :: states).contains i) =
      ((List.range (patternParts.length + 1)).filter (fun i => !states.contains i)).filter
        (· ≠ index) := by
    rw [List.filter_filter]
    refine List.filter_congr fun i _ => ?_
    by_cases hi : i = index <;> simp [hi]
  rw [hsplit]
  refine List.length_filter_lt_length_iff_exists.mpr ⟨index, ?_, by simp⟩
  exact List.mem_filter.mpr ⟨List.mem_range.mpr hindex, by simpa using hnew⟩

/-- The loop of `globstar_closure`. -/
def closeStates (patternParts : List Text) (closed pending : List Nat) : List Nat :=
  match pending with
  | [] => closed
  | index :: pending =>
    if hopen : patternParts[index]? = some globstar ∧ index + 1 ∉ closed then
      closeStates patternParts ((index + 1) :: closed) ((index + 1) :: pending)
    else closeStates patternParts closed pending
  termination_by (missing patternParts closed, pending.length)
  decreasing_by
    · have hlt : index < patternParts.length := (List.getElem?_eq_some_iff.mp hopen.1).1
      exact Prod.Lex.left _ _ (missing_insert (by omega) hopen.2)
    · exact Prod.Lex.right _ (Nat.lt_succ_self _)

def globstarClosure (patternParts : List Text) (states : List Nat) : List Nat :=
  closeStates patternParts states states

/-- The states after one name of the path. -/
def nextStates (patternParts : List Text) (pathPart : Text) (states : List Nat) : List Nat :=
  states.flatMap fun index =>
    match patternParts[index]? with
    | none => []
    | some patternPart =>
      if patternPart = globstar then [index]
      else if fnmatchcase pathPart patternPart then [index + 1]
      else []

/-- The loop over the names of the path. -/
def runStates (patternParts : List Text) (states : List Nat) : List Text → Bool
  | [] => (globstarClosure patternParts states).contains patternParts.length
  | pathPart :: rest =>
    let reached := globstarClosure patternParts (nextStates patternParts pathPart states)
    if reached = [] then false else runStates patternParts reached rest

/-- `_matches`. -/
def matchesPattern (path pattern : Text) : Bool :=
  runStates (parts pattern) (globstarClosure (parts pattern) [0]) (parts path)

/-- `"/".join(names)`. -/
def joinNames (names : List Text) : Text := ['/'].intercalate names

/-- `_may_contain_document_match`. The parts of a pattern are not empty. -/
def mayContainDocumentMatch (path : Text) (patterns : List Text) : Bool :=
  patterns.any fun pattern =>
    let patternParts := parts pattern
    let stop := if patternParts.getLast? = some globstar then patternParts.length + 1
      else patternParts.length
    (List.range' 1 (stop - 1)).any fun index =>
      matchesPattern path (joinNames (patternParts.take index))

end Matching

/-- A declared source: the patterns pass the check of repository patterns. -/
structure ContextDocumentSource (rules : UnicodeRules) where
  includes : List Text
  excludes : List Text
  required : Bool
  includes_ne_nil : includes ≠ []
  patterns_valid : ∀ pattern ∈ includes ++ excludes,
    validateRepositoryPath rules "context document pattern" true pattern = .ok ()

/-- A name of a directory entry. -/
abbrev Name := {name : Text // name ≠ [] ∧ '/' ∉ name ∧ name ≠ text "." ∧ name ≠ text ".."}

/-- The entries of a directory, in the order the system lists them. -/
inductive Entries
  | nil
  | file (name : Name) (rest : Entries)
  | directory (name : Name) (children rest : Entries)

/-- A path below the source, from the top. -/
abbrev RelativePath := List Name

namespace Entries

/-- All files, below a directory of the given path. -/
def files (path : RelativePath) : Entries → List RelativePath
  | nil => []
  | file name rest => (path ++ [name]) :: files path rest
  | directory name children rest => files (path ++ [name]) children ++ files path rest

/-- The number of entries of a tree. -/
def count : Entries → Nat
  | nil => 0
  | file _ rest => count rest + 1
  | directory _ children rest => count children + count rest + 1

end Entries

def relativeName (path : RelativePath) : Text := joinNames (path.map (·.val))

def maxDocumentDiscoveryEntries : Nat := 16384
def maxDocumentCandidates : Nat := 4096

section Traversal
variable {rules : UnicodeRules} (source : ContextDocumentSource rules)

def subtreeExcluded (relative : Text) : Bool :=
  (source.excludes.filter (fun p => p = globstar ∨ (text "/**").isSuffixOf p)).any fun pattern =>
    matchesPattern relative
      (if (text "/**").isSuffixOf pattern then pattern.take (pattern.length - 3) else pattern)

def canDescend (path : RelativePath) : Bool :=
  !subtreeExcluded source (relativeName path) &&
    mayContainDocumentMatch (relativeName path) source.includes

def fileMatches (path : RelativePath) : Bool :=
  source.includes.any (matchesPattern (relativeName path)) &&
    !source.excludes.any (matchesPattern (relativeName path))

/-- The variables of the traversal; the last of `directories` is on top. -/
structure Walk where
  visited : Nat
  directories : List (RelativePath × Entries)
  candidates : List RelativePath

def Walk.visit (w : Walk) : Except String Walk :=
  if maxDocumentDiscoveryEntries < w.visited + 1 then
    .error "context discovery entry budget exhausted; narrow document sources"
  else .ok { w with visited := w.visited + 1 }

def Walk.add (w : Walk) (path : RelativePath) : Except String Walk :=
  if maxDocumentCandidates < (w.candidates ++ [path]).length then
    .error "context discovery candidate budget exhausted; narrow document sources"
  else .ok { w with candidates := w.candidates ++ [path] }

/-- What a file entry adds. -/
def Walk.consider (w : Walk) (path : RelativePath) : Except String Walk :=
  if fileMatches source path then w.add path else .ok w

/-- The loop over the entries of one directory. -/
def scanDirectory (directory : RelativePath) : Entries → Walk → Except String Walk
  | .nil, w => .ok w
  | .file name rest, w => do
    let w ← w.visit
    let w ← w.consider source (directory ++ [name])
    scanDirectory directory rest w
  | .directory name children rest, w => do
    let w ← w.visit
    if canDescend source (directory ++ [name]) then
      scanDirectory directory rest
        { w with directories := (directory ++ [name], children) :: w.directories }
    else scanDirectory directory rest w

/-- The number of entries of the directories still to be scanned, and of these directories. -/
def Walk.pending (w : Walk) : Nat := (w.directories.map (fun d => d.2.count + 1)).sum

theorem visit_ok {w w' : Walk} (h : w.visit = .ok w') :
    w.visited + 1 ≤ maxDocumentDiscoveryEntries ∧ w' = { w with visited := w.visited + 1 } := by
  unfold Walk.visit at h
  split at h
  · cases h
  · next hroom => exact ⟨Nat.not_lt.mp hroom, (Except.ok.inj h).symm⟩

theorem add_ok {w w' : Walk} {path : RelativePath} (h : w.add path = .ok w') :
    w' = { w with candidates := w.candidates ++ [path] } := by
  unfold Walk.add at h
  split at h
  · cases h
  · exact (Except.ok.inj h).symm

/-- A file adds itself or nothing. -/
theorem consider_ok {w w' : Walk} {path : RelativePath} (h : w.consider source path = .ok w') :
    w' = { w with candidates := w.candidates ++ [path].filter (fileMatches source) } := by
  unfold Walk.consider at h
  split at h
  · next hmatch => rw [add_ok h, List.filter_cons_of_pos hmatch, List.filter_nil]
  · next hmiss =>
    rw [← Except.ok.inj h, List.filter_cons_of_neg hmiss, List.filter_nil, List.append_nil]

/-- Scanning a directory leaves fewer entries to scan than it has. -/
theorem scanDirectory_pending {directory : RelativePath} {entries : Entries} {w w' : Walk}
    (h : scanDirectory source directory entries w = .ok w') :
    w'.pending ≤ w.pending + entries.count := by
  induction entries generalizing w with
  | nil =>
    obtain rfl : w = w' := Except.ok.inj h
    exact Nat.le_refl _
  | file name rest ih =>
    obtain ⟨seen, hseen, h⟩ := bind_ok h
    obtain ⟨added, hadded, h⟩ := bind_ok h
    have hle := ih h
    have hsame : added.pending = w.pending := by
      rw [consider_ok source hadded, (visit_ok hseen).2]
      rfl
    simp only [Entries.count]
    omega
  | directory name children rest _ ih =>
    obtain ⟨seen, hseen, h⟩ := bind_ok h
    have hsame : seen.pending = w.pending := by
      rw [(visit_ok hseen).2]
      rfl
    simp only [Entries.count]
    split at h
    · have hle := ih h
      have hpushed : Walk.pending { seen with
          directories := (directory ++ [name], children) :: seen.directories } =
          children.count + 1 + seen.pending := by
        simp [Walk.pending]
      omega
    · have hle := ih h
      omega

/-- The directory on top is left behind with fewer entries to scan. -/
theorem pending_lt {directory : RelativePath} {entries : Entries}
    {rest : List (RelativePath × Entries)} {w scanned : Walk}
    (hdirectories : w.directories = (directory, entries) :: rest)
    (hscan : scanDirectory source directory entries { w with directories := rest } =
      .ok scanned) : scanned.pending < w.pending := by
  have hle := scanDirectory_pending source hscan
  have hpending : w.pending = entries.count + 1 + Walk.pending { w with directories := rest } := by
    simp [Walk.pending, hdirectories]
  omega

/-- The loop over the directories. -/
def walkDirectories (w : Walk) : Except String Walk :=
  match hdirectories : w.directories with
  | [] => .ok w
  | (directory, entries) :: rest =>
    match hscan : scanDirectory source directory entries { w with directories := rest } with
    | .error message => .error message
    | .ok scanned =>
      have _ := pending_lt source hdirectories hscan
      walkDirectories scanned
  termination_by w.pending

/-- The traversal of a source that is a directory, after the entries other sources visited. -/
def discoverDirectory (visited : Nat) (tree : Entries) : Except String Walk := do
  let w ← walkDirectories source ⟨visited, [([], tree)], []⟩
  if source.required && w.candidates.isEmpty then
    .error "required context source did not match any files"
  else .ok w

end Traversal
end ReviewSensei.Discovery
