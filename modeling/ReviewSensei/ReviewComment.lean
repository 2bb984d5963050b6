import ReviewSensei.FindingSet
import ReviewSensei.Json
import ReviewSensei.SessionLedger

/-! Review comments, their identities, and the verdict that binds their admission. -/
namespace ReviewSensei.Review
open Session (isSha256 isPythonSpace strip bind_ok)
open Findings (LifecycleState)

inductive Side
  | left | right | file
  deriving DecidableEq, Repr

def Side.text : Side → String
  | .left => "LEFT"
  | .right => "RIGHT"
  | .file => "FILE"

/-- The fields of a comment that its document holds. -/
structure CommentFields where
  path : String
  line : Option Nat
  body : String
  blocking : Option Bool := none
  severity : Option String := none
  category : Option String := none
  fixEffort : Option String := none
  symbol : Option String := none
  defectKind : Option String := none
  evidenceId : Option String := none
  side : Side := .right
  /-- File comments, and only they, have no line. -/
  line_side : line = none ↔ side = .file
  deriving DecidableEq

/-- A line on the right side is a place of a comment. -/
theorem right_line : (some 1 : Option Nat) = none ↔ Side.right = Side.file := by decide

/-- A comment with its runtime admission. -/
structure ReviewComment extends CommentFields where
  effectiveBlocking : Option Bool := none
  needsHuman : Bool := false
  deriving DecidableEq

open Json (optional)

def lineJson : Option Nat → Json
  | none => .null
  | some line => .int line

/-- `ReviewComment.to_dict`: the runtime admission stays out. -/
def CommentFields.toDict (c : CommentFields) : Json :=
  .obj ([("path", .str c.path), ("body", .str c.body)] ++
    (match c.side with
      | .file => [("side", .str "FILE")]
      | .right => [("line", lineJson c.line)]
      | .left => [("line", lineJson c.line), ("side", .str "LEFT")]) ++
    optional "severity" (c.severity.map .str) ++ optional "fix_effort" (c.fixEffort.map .str) ++
    optional "category" (c.category.map .str) ++ optional "blocking" (c.blocking.map .bool) ++
    optional "symbol" (c.symbol.map .str) ++ optional "defect_kind" (c.defectKind.map .str) ++
    optional "evidence_id" (c.evidenceId.map .str))

section Document
variable {c d : CommentFields}

/-- A field of a comment's document, as a reader finds it. -/
theorem toDict_get (c : CommentFields) :
    c.toDict.get? "path" = some (.str c.path) ∧ c.toDict.get? "body" = some (.str c.body) ∧
      c.toDict.get? "line" = c.line.map (fun n => .int n) ∧
      c.toDict.get? "side" = (if c.side = .right then none else some (.str c.side.text)) ∧
      c.toDict.get? "severity" = c.severity.map .str ∧
      c.toDict.get? "fix_effort" = c.fixEffort.map .str ∧
      c.toDict.get? "category" = c.category.map .str ∧
      c.toDict.get? "blocking" = c.blocking.map .bool ∧
      c.toDict.get? "symbol" = c.symbol.map .str ∧
      c.toDict.get? "defect_kind" = c.defectKind.map .str ∧
      c.toDict.get? "evidence_id" = c.evidenceId.map .str := by
  have hline := c.line_side
  cases hside : c.side <;> cases hl : c.line <;>
    simp_all [CommentFields.toDict, Json.get?, lineJson, Side.text]

theorem optionalText_injective : Function.Injective (Option.map Json.str) :=
  Option.map_injective fun _ _ h => Json.str.inj h

theorem side_of_document (h : (if c.side = .right then none else some (Json.str c.side.text)) =
    if d.side = .right then none else some (Json.str d.side.text)) : c.side = d.side := by
  cases hc : c.side <;> cases hd : d.side <;> simp_all [Side.text]

/-- A comment's document has everything but its admission. -/
theorem toDict_injective (h : c.toDict = d.toDict) : c = d := by
  obtain ⟨hpath, hbody, hline, hside, hseverity, heffort, hcategory, hblocking, hsymbol, hkind,
    hevidence⟩ := toDict_get c
  obtain ⟨hpath', hbody', hline', hside', hseverity', heffort', hcategory', hblocking', hsymbol',
    hkind', hevidence'⟩ := toDict_get d
  rw [h] at hpath hbody hline hside hseverity heffort hcategory hblocking hsymbol hkind hevidence
  have hline_eq : c.line = d.line :=
    Option.map_injective (fun _ _ heq => Int.ofNat.inj (Json.int.inj heq))
      (hline.symm.trans hline')
  have hblocking_eq : c.blocking = d.blocking :=
    Option.map_injective (fun _ _ heq => Json.bool.inj heq) (hblocking.symm.trans hblocking')
  have htext {a b : Option String} {j : Option Json} (ha : j = a.map .str) (hb : j = b.map .str) :
      a = b := optionalText_injective (ha.symm.trans hb)
  obtain ⟨_, _, _, _, _, _, _, _, _, _, _, _⟩ := c
  obtain ⟨_, _, _, _, _, _, _, _, _, _, _, _⟩ := d
  rw [CommentFields.mk.injEq]
  exact ⟨Json.str.inj (Option.some.inj (hpath.symm.trans hpath')), hline_eq,
    Json.str.inj (Option.some.inj (hbody.symm.trans hbody')), hblocking_eq,
    htext hseverity hseverity', htext hcategory hcategory', htext heffort heffort',
    htext hsymbol hsymbol', htext hkind hkind', htext hevidence hevidence',
    side_of_document (hside.symm.trans hside')⟩

end Document

/-- The exact duplicate key. -/
structure FindingKey where
  path : String
  line : Option Nat
  side : Side
  body : String
  deriving DecidableEq

def CommentFields.key (c : CommentFields) : FindingKey := ⟨c.path, c.line, c.side, c.body⟩

def instanceJson (k : FindingKey) : Json :=
  .obj [("path", .str k.path), ("line", lineJson k.line), ("side", .str k.side.text),
    ("body", .str k.body)]

def findingInstanceFingerprint (c : CommentFields) : String :=
  sha256 ("reviewsensei:finding-instance:v1:" ++ (instanceJson c.key).canonical)

/-- `" ".join(text.split())`. -/
def collapse (text : String) : String :=
  " ".intercalate (((text.toList.splitOnP isPythonSpace).filter (· ≠ [])).map String.ofList)

/-- `comment_defect_kind`. -/
def commentDefectKind (c : CommentFields) : String :=
  let kind := strip (c.defectKind.getD "")
  if kind = "" then "unknown" else kind

/-- The fingerprint of `finding_lifecycle_for_comment`; `lower` is `str.lower`. -/
def lifecycleFingerprint (lower : String → String) (c : CommentFields) : String :=
  sha256 (Json.canonical (.obj
    [("evidence_id", .str (c.evidenceId.getD "")), ("path", .str c.path),
      ("symbol", .str (collapse (c.symbol.getD ""))),
      ("defect_kind", .str (collapse (lower (commentDefectKind c)))), ("evidence", .str "")]))

structure FindingLifecycleRecord where
  fingerprint : String
  state : LifecycleState
  deriving DecidableEq

def maxComments : Nat := 250

/-- `comment_selection_digest`. -/
def commentSelectionDigest (comments : List ReviewComment) : String :=
  sha256 (Json.canonical (.arr (comments.map (·.toDict))))

/-- The comment was admitted by the host, with at most one obligation. -/
def trustedAdmission (c : ReviewComment) : Bool :=
  c.effectiveBlocking.isSome && !(c.effectiveBlocking = some true && c.needsHuman)

def admissionLetter (c : ReviewComment) : Char :=
  if c.effectiveBlocking = some true then 'B' else if c.needsHuman then 'H' else 'A'

/-- `comment_admission`. -/
def commentAdmission (comments : List ReviewComment) : Except String String :=
  if comments.all trustedAdmission then .ok (String.ofList (comments.map admissionLetter))
  else .error "review verdict requires trusted finding admission"

structure ReviewVerdict where
  policyDigest : String
  selectedCommentsSha256 : String
  unselectedBlockingDefect : Bool := false
  unselectedHumanDecision : Bool := false
  selectedAdmission : String := ""
  deriving DecidableEq

/-- A policy, by what the verdict reads of it. -/
structure ConvergencePolicy where
  quality : String
  enforcement : String
  digest : String

namespace ReviewVerdict

def valid (v : ReviewVerdict) : Bool :=
  isSha256 v.policyDigest && isSha256 v.selectedCommentsSha256 &&
    decide (v.selectedAdmission.toList.length ≤ maxComments) &&
    v.selectedAdmission.toList.all (fun c => c = 'A' || c = 'B' || c = 'H')

def construct (v : ReviewVerdict) : Except String ReviewVerdict :=
  if v.valid then .ok v else .error "review verdict is invalid"

theorem construct_ok {v w : ReviewVerdict} (h : construct v = .ok w) : w = v := by
  unfold construct at h
  split at h
  · exact (Except.ok.inj h).symm
  · cases h

/-- `with_verified_comments`. -/
def withVerifiedComments (v : ReviewVerdict) (comments : List ReviewComment) :
    Except String ReviewVerdict := do
  let admission ← commentAdmission comments
  construct
    { v with
      selectedCommentsSha256 := commentSelectionDigest comments
      selectedAdmission := admission }

/-- One comment of `restore_comments`. -/
def restoreComment (c : ReviewComment) (state : Char) : ReviewComment :=
  { c with effectiveBlocking := some (state == 'B'), needsHuman := state == 'H' }

def restoreComments (v : ReviewVerdict) (comments : List ReviewComment) :
    Except String (List ReviewComment) :=
  if comments.length ≠ v.selectedAdmission.toList.length ∨
      commentSelectionDigest comments ≠ v.selectedCommentsSha256 then
    .error "review verdict selected comments conflict"
  else .ok (List.zipWith restoreComment comments v.selectedAdmission.toList)

def requirePolicy (v : ReviewVerdict) (policy : ConvergencePolicy) : Except String Unit :=
  if policy.quality ≠ "high-signal" ∨ policy.enforcement ≠ "publication" ∨
      policy.digest ≠ v.policyDigest then
    .error "review verdict policy conflicts"
  else .ok ()

end ReviewVerdict

/-- What `from_dict` reads of a comment's document: the admission is not in it. -/
def unadmitted (c : ReviewComment) : ReviewComment :=
  { c with effectiveBlocking := none, needsHuman := false }

theorem commentAdmission_ok {comments : List ReviewComment} {admission : String}
    (h : commentAdmission comments = .ok admission) :
    (∀ c ∈ comments, trustedAdmission c = true) ∧
      admission = String.ofList (comments.map admissionLetter) := by
  unfold commentAdmission at h
  split at h
  · next hall => exact ⟨List.all_eq_true.mp hall, (Except.ok.inj h).symm⟩
  · cases h

/-- The letter of a trusted comment restores its admission. -/
theorem restore_trusted {c : ReviewComment} (h : trustedAdmission c = true) :
    ReviewVerdict.restoreComment (unadmitted c) (admissionLetter c) = c := by
  obtain ⟨fields, effective, human⟩ := c
  cases effective with
  | none => cases h
  | some b =>
    cases b <;> cases human <;> first | rfl | cases h

/-- The digest of a selection does not see the admission. -/
theorem selectionDigest_unadmitted (comments : List ReviewComment) :
    commentSelectionDigest (comments.map unadmitted) = commentSelectionDigest comments := by
  unfold commentSelectionDigest
  rw [List.map_map]
  rfl

theorem restore_letters {comments : List ReviewComment}
    (h : ∀ c ∈ comments, trustedAdmission c = true) :
    List.zipWith ReviewVerdict.restoreComment (comments.map unadmitted)
      (comments.map admissionLetter) = comments := by
  induction comments with
  | nil => rfl
  | cons c rest ih =>
    have hc := restore_trusted (h c List.mem_cons_self)
    have hrest := ih fun d hd => h d (List.mem_cons_of_mem c hd)
    rw [List.map_cons, List.map_cons, List.zipWith_cons_cons, hc, hrest]

/-- Reading a bound selection back gives exactly its comments. -/
theorem restore_selection {v : ReviewVerdict} {comments restored : List ReviewComment}
    (hadmission : commentAdmission comments = .ok v.selectedAdmission)
    (h : v.restoreComments (comments.map unadmitted) = .ok restored) : restored = comments := by
  obtain ⟨htrusted, hletters⟩ := commentAdmission_ok hadmission
  unfold ReviewVerdict.restoreComments at h
  split at h
  · cases h
  · rw [← Except.ok.inj h, hletters, String.toList_ofList]
    exact restore_letters htrusted

end ReviewSensei.Review
