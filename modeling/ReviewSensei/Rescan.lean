import ReviewSensei.SessionLedger
import ReviewSensei.SessionSteps
import ReviewSensei.JsonFields
import ReviewSensei.JsonSchema
import Mathlib.Data.List.DropRight

/-! Authorized rescans: the stored state, one consumed request, and runs of requests. -/
namespace ReviewSensei.Session
open Schema (wholeLine)
open Sha256 (encode)

def maxWatermark : Nat := 9223372036854775807
def maxProgressUnits : Nat := 1000000

/-- `AuthorizedRescan.__post_init__`. -/
def AuthorizedRescan.check (q : AuthorizedRescan) : Except String Unit :=
  ensure ((0 < q.requestId ∧ q.requestId ≤ maxWatermark) ∧
      (0 < q.reviewId ∧ q.reviewId ≤ maxWatermark) ∧ q.source.phase = .publicationSucceeded)
    "explicit rescan authority is invalid"

/-- The schema's bounds on a stored proof of progress. -/
def RemainingProgress.schemaOk (p : RemainingProgress) : Bool :=
  wholeLine isSha256 p.parentDigest && wholeLine isSha256 p.childDigest &&
    decide (p.reviewedBefore ≤ maxProgressUnits) &&
    decide (1 ≤ p.reviewedAfter ∧ p.reviewedAfter ≤ maxProgressUnits)

def RescanReceipt.schemaOk (r : RescanReceipt) : Bool :=
  decide (1 ≤ r.requestId ∧ r.requestId ≤ maxWatermark) &&
    decide (1 ≤ r.reviewId ∧ r.reviewId ≤ maxWatermark) &&
    wholeLine isReservationId r.ordinaryReservation && wholeLine isReservationId r.reservation &&
    r.progress.all RemainingProgress.schemaOk

def RescanState.schemaOk (s : RescanState) : Bool :=
  decide (s.issueComment ≤ maxWatermark) && decide (s.workflowDispatch ≤ maxWatermark) &&
    !s.receipts.isEmpty && s.receipts.all RescanReceipt.schemaOk

def RescanReceipt.check (s : RescanState) (r : RescanReceipt) : Except String Unit := do
  let source ← ReviewTransaction.construct r.source
  ensure (source.phase = .publicationSucceeded) "rescan source must be published"
  ensure (r.requestId ≤ s.watermark r.kind) "rescan receipt exceeds replay watermark"
  ensure (∀ p ∈ r.progress, r.mode = .remaining ∧ some p.parentDigest = source.resultSha256 ∧
      p.reviewedBefore < p.reviewedAfter)
    "remaining progress receipt does not match source"

def validateRescanState (s : RescanState) : Except String RescanState := do
  ensure (s.receipts.length ≤ maxRescanReceipts) "rescan receipt bound was exceeded"
  ensure (s.schemaOk = true) "rescan-state document failed schema validation"
  s.receipts.forM (RescanReceipt.check s)
  return s

/-- What the record's constructor finds wrong with the rescan state. -/
def rescanRejection (f : SessionFields) : Option String :=
  f.rescanState.bind (fun state => match validateRescanState state with
    | .error e => some e
    | .ok s =>
      if s.receipts.all (fun r =>
          r.source.repository == f.repository && r.source.pullRequest == f.pullRequest) then none
      else some "rescan source does not match session identity")

/-- The rules of a record with the checks of its rescan state. -/
def rescanRules (rules : SessionRules) : SessionRules :=
  { rules with rejects := fun f => (rescanRejection f).or (rules.rejects f) }

/-- The text that a reservation of a rescan is the digest of. -/
def reservationText (record : SessionFields) (request : AuthorizedRescan)
    (headSha : Option String) : String :=
  (if request.mode = .remaining then "remaining" else "rescan") ++ ":" ++ record.repository ++
    ":" ++ toString record.pullRequest ++ ":" ++ headSha.getD "None" ++ ":" ++
    request.kind.text ++ ":" ++ toString request.requestId

variable {rules : SessionRules}

section State

theorem validateRescanState_ok {s t : RescanState} (h : validateRescanState s = .ok t) :
    t = s ∧ s.receipts.length ≤ maxRescanReceipts ∧ s.schemaOk = true ∧
      s.receipts.forM (RescanReceipt.check s) = .ok () := by
  obtain ⟨_, hlength, h⟩ := bind_ok h
  obtain ⟨_, hschema, h⟩ := bind_ok h
  obtain ⟨_, hreceipts, h⟩ := bind_ok h
  exact ⟨(Except.ok.inj h).symm, ensure_inv hlength, ensure_inv hschema, hreceipts⟩

/-- The state of an accepted record validates. -/
theorem SessionRecord.rescan_valid (r : SessionRecord (rescanRules rules)) {s : RescanState}
    (hs : r.rescanState = some s) : validateRescanState s = .ok s := by
  have haccepted := (Option.or_eq_none_iff.mp (Option.or_eq_none_iff.mp r.accepted).2).1
  rw [rescanRejection, hs, Option.bind_some] at haccepted
  split at haccepted
  · cases haccepted
  · next t ht => rw [ht, (validateRescanState_ok ht).1]

def retainedReceipts (f : SessionFields) : List RescanReceipt :=
  (f.rescanState.map RescanState.receipts).getD []

/-- The watermark of a kind; before the first request it is zero. -/
def watermark (f : SessionFields) (kind : RescanKind) : Nat :=
  (f.rescanState.map (fun s => s.watermark kind)).getD 0

theorem retained_length (r : SessionRecord (rescanRules rules)) :
    (retainedReceipts r.toSessionFields).length ≤ maxRescanReceipts := by
  unfold retainedReceipts
  cases hs : r.rescanState with
  | none => exact Nat.zero_le _
  | some s => exact (validateRescanState_ok (r.rescan_valid hs)).2.1

/-- The receipt that an accepted request leaves. -/
def AuthorizedRescan.receipt (q : AuthorizedRescan) (reservation : String) : RescanReceipt where
  mode := q.mode
  kind := q.kind
  requestId := q.requestId
  reviewId := q.reviewId
  source := q.source
  ordinaryReservation := (textOr q.ordinaryReservation (some q.source.reservationId)).getD ""
  reservation := reservation
  progress := none

theorem withRequest_receipts (s : RescanState) (q : AuthorizedRescan) (i : String) :
    (s.withRequest q i).receipts =
      (s.receipts ++ [q.receipt i]).rtake maxRescanReceipts := by
  have hwindow : s.receipts.drop (s.receipts.length - (maxRescanReceipts - 1)) =
      s.receipts.rtake (maxRescanReceipts - 1) := rfl
  have hpush := List.rtake_concat_succ s.receipts (maxRescanReceipts - 1) (q.receipt i)
  rw [show maxRescanReceipts = maxRescanReceipts - 1 + 1 from rfl, hpush, ← hwindow]
  obtain ⟨kind, _, _, _, _, _⟩ := q
  cases kind <;> rfl

theorem withRequest_watermark (s : RescanState) (q : AuthorizedRescan) (i : String)
    (kind : RescanKind) :
    (s.withRequest q i).watermark kind =
      if kind = q.kind then q.requestId else s.watermark kind := by
  obtain ⟨own, _, _, _, _, _⟩ := q
  cases own <;> cases kind <;> rfl

end State

section Step

variable {r r' : SessionRecord (rescanRules rules)} {q : AuthorizedRescan} {i : String}
  {wall : Time}

theorem replayedRescan_iff {f : SessionFields} :
    replayedRescan f q = true ↔ ∃ s ∈ f.rescanState, q.requestId ≤ s.watermark q.kind := by
  rw [replayedRescan, Option.any_eq_true]
  simp only [decide_eq_true_eq, Option.mem_def]

/-- What an accepted request found: it is new, and its source is the one of its head. -/
theorem consume_new (h : consumeRescanRequest r q i wall = .ok r') :
    replayedRescan r.toSessionFields q = false ∧
      ∃ source, rescanSource r.toSessionFields (some q.source.headSha) = some source ∧
        source.transactionId = q.source.transactionId ∧ source.headSha = q.source.headSha ∧
        source.repository = r.repository ∧ source.pullRequest = r.pullRequest := by
  unfold consumeRescanRequest at h
  split at h
  · cases h
  next hfresh =>
  have hfresh : replayedRescan r.toSessionFields q = false := by simpa using hfresh
  refine ⟨hfresh, ?_⟩
  obtain ⟨_, hreservation, _⟩ := bind_ok h
  unfold rescanReservation at hreservation
  dsimp only at hreservation
  split at hreservation
  · cases hreservation
  next hsource =>
  cases hfound : rescanSource r.toSessionFields (some q.source.headSha) with
  | none => simp [hfresh, hfound] at hsource
  | some source =>
    simp [hfresh, hfound] at hsource
    exact ⟨source, rfl, by simpa [and_assoc] using hsource⟩

theorem consume_reserves (h : consumeRescanRequest r q i wall = .ok r') :
    ∃ j, rescanReservation r.toSessionFields q (some q.source.headSha) = .ok j := by
  unfold consumeRescanRequest at h
  split at h
  · cases h
  obtain ⟨j, hj, _⟩ := bind_ok h
  exact ⟨j, hj⟩

/-- What it leaves: its receipt behind the newest ones, and its watermark. -/
theorem consume_ok (h : consumeRescanRequest r q i wall = .ok r') :
    r'.rescanState =
        some ((r.rescanState.getD ⟨0, 0, []⟩).withRequest q i) ∧
      r'.transaction = r.transaction ∧ r'.repository = r.repository ∧
      r'.pullRequest = r.pullRequest := by
  unfold consumeRescanRequest at h
  split at h
  · cases h
  obtain ⟨_, _, h⟩ := bind_ok h
  rw [SessionRecord.evolve_ok h]
  exact ⟨rfl, rfl, rfl, rfl⟩

theorem consume_retained (h : consumeRescanRequest r q i wall = .ok r') :
    retainedReceipts r'.toSessionFields =
      (retainedReceipts r.toSessionFields ++ [q.receipt i]).rtake maxRescanReceipts := by
  have hprior : (r.rescanState.getD ⟨0, 0, []⟩).receipts = retainedReceipts r.toSessionFields := by
    unfold retainedReceipts
    cases r.rescanState <;> rfl
  have hstate : retainedReceipts r'.toSessionFields =
      ((r.rescanState.getD ⟨0, 0, []⟩).withRequest q i).receipts := by
    rw [retainedReceipts, (consume_ok h).1]
    rfl
  rw [hstate, withRequest_receipts, hprior]

/-- The state of `g` has everything the state of `f` has already seen. -/
def Advanced (f g : SessionFields) : Prop :=
  ∀ s ∈ f.rescanState, ∃ t ∈ g.rescanState, ∀ kind, s.watermark kind ≤ t.watermark kind

theorem Advanced.refl (f : SessionFields) : Advanced f f :=
  fun s hs => ⟨s, hs, fun _ => le_rfl⟩

theorem Advanced.trans {f g k : SessionFields} (hfg : Advanced f g) (hgk : Advanced g k) :
    Advanced f k := by
  intro s hs
  obtain ⟨t, ht, hst⟩ := hfg s hs
  obtain ⟨u, hu, htu⟩ := hgk t ht
  exact ⟨u, hu, fun kind => (hst kind).trans (htu kind)⟩

theorem Advanced.watermark_le {f g : SessionFields} (h : Advanced f g) (kind : RescanKind) :
    watermark f kind ≤ watermark g kind := by
  unfold watermark
  cases hf : f.rescanState with
  | none => exact Nat.zero_le _
  | some s =>
    obtain ⟨t, ht, hst⟩ := h s hf
    rw [show g.rescanState = some t from ht]
    exact hst kind

theorem Advanced.replayed {f g : SessionFields} (h : Advanced f g)
    (hq : replayedRescan f q = true) : replayedRescan g q = true := by
  obtain ⟨s, hs, hle⟩ := replayedRescan_iff.mp hq
  obtain ⟨t, ht, hst⟩ := h s hs
  exact replayedRescan_iff.mpr ⟨t, ht, hle.trans (hst q.kind)⟩

theorem consume_advanced (h : consumeRescanRequest r q i wall = .ok r') :
    Advanced r.toSessionFields r'.toSessionFields ∧
      replayedRescan r'.toSessionFields q = true := by
  have hstate := (consume_ok h).1
  constructor
  · intro s hs
    have hs : r.rescanState = some s := hs
    refine ⟨_, hstate, ?_⟩
    intro kind
    rw [hs, Option.getD_some, withRequest_watermark]
    split
    · next hkind =>
      -- a request at or below the watermark would have been refused
      have hfresh := (consume_new h).1
      by_contra hle
      have hreplayed : replayedRescan r.toSessionFields q = true :=
        replayedRescan_iff.mpr ⟨s, hs, by rw [← hkind]; omega⟩
      rw [hfresh] at hreplayed
      cases hreplayed
    · exact le_rfl
  · refine replayedRescan_iff.mpr ⟨_, hstate, ?_⟩
    rw [withRequest_watermark, if_pos rfl]

theorem consume_refused (h : replayedRescan r.toSessionFields q = true) (j : String)
    (wall : Time) :
    consumeRescanRequest r q j wall = .error "explicit rescan request was already consumed" := by
  unfold consumeRescanRequest
  rw [if_pos h]

end Step

section Reservation

/-- A text parted at the last separator parts in one way. -/
theorem append_sep_inj {α : Type} {sep : α} {a b x y : List α} (hx : sep ∉ x) (hy : sep ∉ y)
    (h : a ++ sep :: x = b ++ sep :: y) : a = b ∧ x = y := by
  rcases List.append_eq_append_iff.mp h with ⟨t, rfl, ht⟩ | ⟨t, rfl, ht⟩
  · cases t with
    | nil => exact ⟨by simp, (List.cons.inj ht).2⟩
    | cons c t =>
      have hx' : x = t ++ sep :: y := (List.cons.inj ht).2
      exact absurd (hx' ▸ List.mem_append_right t List.mem_cons_self) hx
  · cases t with
    | nil => exact ⟨by simp, (List.cons.inj ht).2.symm⟩
    | cons c t =>
      have hy' : y = t ++ sep :: x := (List.cons.inj ht).2
      exact absurd (hy' ▸ List.mem_append_right t List.mem_cons_self) hy

theorem number_plain (n : Nat) : ':' ∉ (toString n).toList := by
  intro hmem
  rw [Nat.toString_eq_repr, Nat.toList_repr] at hmem
  have hdigit := Nat.isDigit_of_mem_toDigits (by decide) (by decide) hmem
  exact absurd hdigit (by decide)

theorem kind_plain (kind : RescanKind) : ':' ∉ kind.text.toList := by
  cases kind <;> decide

/-- The same for texts parted at a colon. -/
theorem append_colon_inj {s t x y : String} (hx : ':' ∉ x.toList) (hy : ':' ∉ y.toList)
    (h : s ++ ":" ++ x = t ++ ":" ++ y) : s = t ∧ x = y := by
  have hlists : s.toList ++ ':' :: x.toList = t.toList ++ ':' :: y.toList := by
    simpa using congrArg String.toList h
  obtain ⟨hfront, hback⟩ := append_sep_inj hx hy hlists
  exact ⟨String.toList_injective hfront, String.toList_injective hback⟩

theorem number_inj {m n : Nat} (h : toString m = toString n) : m = n := by
  have hdigits : Nat.toDigits 10 m = Nat.toDigits 10 n := by
    rw [← Nat.toList_repr, ← Nat.toList_repr, ← Nat.toString_eq_repr, ← Nat.toString_eq_repr, h]
  have hvalue := congrArg (fun l => Nat.ofDigitChars 10 l 0) hdigits
  simpa only [Nat.ofDigitChars_toDigits (by decide : 1 < 10) (by decide : 10 ≤ 10)] using hvalue

theorem kind_text_inj {a b : RescanKind} (h : a.text = b.text) : a = b := by
  cases a <;> cases b <;> first | rfl | exact absurd h (by decide)

/-- The text of a reservation tells the kind and the id of its request. -/
theorem reservationText_inj {f g : SessionFields} {q p : AuthorizedRescan} {a b : Option String}
    (h : reservationText f q a = reservationText g p b) :
    q.kind = p.kind ∧ q.requestId = p.requestId := by
  -- the last two pieces of the text are the kind and the number
  obtain ⟨hfront, hid⟩ := append_colon_inj (number_plain _) (number_plain _) h
  obtain ⟨_, hkind⟩ := append_colon_inj (kind_plain _) (kind_plain _) hfront
  exact ⟨kind_text_inj hkind, number_inj hid⟩

theorem rescanReservation_ok {f : SessionFields} {q : AuthorizedRescan} {head : Option String}
    {i : String} (h : rescanReservation f q head = .ok i) :
    i = sha256 (reservationText f q head) := by
  unfold rescanReservation at h
  dsimp only at h
  split at h
  · cases h
  · exact (Except.ok.inj h).symm

end Reservation

section Runs

/-- One call: a request, the reservation it is given, and the wall clock. -/
structure RescanCall where
  request : AuthorizedRescan
  reservation : String
  wall : Time

def RescanCall.head (c : RescanCall) : Option String := some c.request.source.headSha

def RescanCall.receipt (c : RescanCall) : RescanReceipt := c.request.receipt c.reservation

def RescanCall.run (c : RescanCall) (r : SessionRecord (rescanRules rules)) :
    Except String (SessionRecord (rescanRules rules)) :=
  consumeRescanRequest r c.request c.reservation c.wall

/-- The record after some calls; a refused call leaves it as it was. -/
def consumeCalls (r : SessionRecord (rescanRules rules)) :
    List RescanCall → SessionRecord (rescanRules rules)
  | [] => r
  | c :: calls =>
    match c.run r with
    | .ok r' => consumeCalls r' calls
    | .error _ => consumeCalls r calls

/-- The accepted calls, each with the record it was accepted on. -/
def acceptedCalls (r : SessionRecord (rescanRules rules)) :
    List RescanCall → List (SessionRecord (rescanRules rules) × RescanCall)
  | [] => []
  | c :: calls =>
    match c.run r with
    | .ok r' => (r, c) :: acceptedCalls r' calls
    | .error _ => acceptedCalls r calls

variable (r : SessionRecord (rescanRules rules))

theorem consumeCalls_frame (calls : List RescanCall) :
    Advanced r.toSessionFields (consumeCalls r calls).toSessionFields ∧
      (consumeCalls r calls).transaction = r.transaction ∧
      (consumeCalls r calls).repository = r.repository ∧
      (consumeCalls r calls).pullRequest = r.pullRequest := by
  induction calls generalizing r with
  | nil => exact ⟨Advanced.refl _, rfl, rfl, rfl⟩
  | cons c calls ih =>
    unfold consumeCalls
    split
    · next r' h =>
      obtain ⟨hadvanced, htransaction, hrepository, hpull⟩ := ih r'
      obtain ⟨_, htransaction', hrepository', hpull'⟩ := consume_ok h
      exact ⟨(consume_advanced h).1.trans hadvanced, htransaction.trans htransaction',
        hrepository.trans hrepository', hpull.trans hpull'⟩
    · exact ih r

/-- An accepted request is refused from then on. -/
theorem accepted_replayed (calls : List RescanCall) :
    ∀ entry ∈ acceptedCalls r calls,
      replayedRescan (consumeCalls r calls).toSessionFields entry.2.request = true := by
  induction calls generalizing r with
  | nil => exact fun entry hentry => absurd hentry List.not_mem_nil
  | cons c calls ih =>
    unfold consumeCalls acceptedCalls
    split
    · next r' h =>
      intro entry hentry
      rcases List.mem_cons.mp hentry with rfl | hentry
      · exact (consumeCalls_frame r' calls).1.replayed (consume_advanced h).2
      · exact ih r' entry hentry
    · exact ih r

/-- Each accepted call was new on a record that had seen everything `r` had. -/
theorem accepted_new (calls : List RescanCall) :
    ∀ entry ∈ acceptedCalls r calls, Advanced r.toSessionFields entry.1.toSessionFields ∧
      replayedRescan entry.1.toSessionFields entry.2.request = false ∧
      (∃ r', entry.2.run entry.1 = .ok r') ∧ entry.1.repository = r.repository ∧
      entry.1.pullRequest = r.pullRequest := by
  induction calls generalizing r with
  | nil => exact fun entry hentry => absurd hentry List.not_mem_nil
  | cons c calls ih =>
    unfold acceptedCalls
    split
    · next r' h =>
      intro entry hentry
      rcases List.mem_cons.mp hentry with rfl | hentry
      · exact ⟨Advanced.refl _, (consume_new h).1, ⟨r', h⟩, rfl, rfl⟩
      · obtain ⟨hadvanced, hfresh, hrun, hrepository, hpull⟩ := ih r' entry hentry
        obtain ⟨_, _, hrepository', hpull'⟩ := consume_ok h
        exact ⟨(consume_advanced h).1.trans hadvanced, hfresh, hrun,
          hrepository.trans hrepository', hpull.trans hpull'⟩
    · exact ih r

/-- No two accepted calls carry one request. -/
theorem accepted_pairwise (calls : List RescanCall) :
    (acceptedCalls r calls).Pairwise (fun earlier later =>
      ¬ (earlier.2.request.kind = later.2.request.kind ∧
        earlier.2.request.requestId = later.2.request.requestId)) := by
  induction calls generalizing r with
  | nil => exact List.Pairwise.nil
  | cons c calls ih =>
    unfold acceptedCalls
    split
    · next r' h =>
      refine List.Pairwise.cons ?_ (ih r')
      intro later hlater hsame
      obtain ⟨hadvanced, hfresh, _⟩ := accepted_new r' calls later hlater
      have hreplayed := hadvanced.replayed (consume_advanced h).2
      obtain ⟨s, hs, hle⟩ := replayedRescan_iff.mp hreplayed
      dsimp only at hsame
      have hagain : replayedRescan later.1.toSessionFields later.2.request = true :=
        replayedRescan_iff.mpr ⟨s, hs, hsame.1 ▸ hsame.2 ▸ hle⟩
      rw [hfresh] at hagain
      cases hagain
    · exact ih r

/-- A window of a window. -/
theorem rtake_rtake_append {α : Type} (l m : List α) (n : Nat) :
    (l.rtake n ++ m).rtake n = (l ++ m).rtake n := by
  have htake : (m.reverse ++ l.reverse.take n).take n = (m.reverse ++ l.reverse).take n := by
    rw [List.take_append, List.take_append, List.take_take, Nat.min_eq_left (Nat.sub_le _ _)]
  rw [List.rtake_eq_reverse_take_reverse, List.rtake_eq_reverse_take_reverse (l ++ m),
    List.rtake_eq_reverse_take_reverse l, List.reverse_append, List.reverse_reverse, htake,
    List.reverse_append]

/-- The retained receipts are the newest of the prior ones and the accepted ones. -/
theorem retained_run (calls : List RescanCall) :
    retainedReceipts (consumeCalls r calls).toSessionFields =
      (retainedReceipts r.toSessionFields ++
        (acceptedCalls r calls).map (fun entry => entry.2.receipt)).rtake maxRescanReceipts := by
  induction calls generalizing r with
  | nil =>
    have hshort := retained_length r
    have hwhole : (retainedReceipts r.toSessionFields).rtake maxRescanReceipts =
        retainedReceipts r.toSessionFields := by
      rw [List.rtake, Nat.sub_eq_zero_of_le hshort, List.drop_zero]
    simpa [acceptedCalls, consumeCalls] using hwhole.symm
  | cons c calls ih =>
    unfold consumeCalls acceptedCalls
    split
    · next r' h =>
      have hstep := consume_retained h
      rw [ih r', hstep, rtake_rtake_append, List.append_assoc]
      rfl
    · exact ih r

/-- Without a live transaction the source is that of the newest retained receipt of the head. -/
theorem rescanSource_retained {f : SessionFields} (hlive : f.transaction = none) (head : String) :
    rescanSource f (some head) =
      ((retainedReceipts f).reverse.find? (fun receipt => receipt.source.headSha = head)).map
        RescanReceipt.source := by
  have hheads : (fun receipt : RescanReceipt =>
      some head == none || some head == some receipt.source.headSha) =
      fun receipt => decide (receipt.source.headSha = head) := by
    funext receipt
    rw [Bool.eq_iff_iff, decide_eq_true_iff, Option.some_beq_none, Bool.false_or,
      Option.some_beq_some, beq_iff_eq]
    exact eq_comm
  rw [rescanSource, hlive]
  dsimp only
  rw [hheads]
  rfl

/-- A receipt with at most five behind it is still in the window. -/
theorem rtake_recent {α : Type} (l after : List α) (x : α) {n : Nat} (h : after.length < n) :
    ∃ before, (l ++ x :: after).rtake n = before ++ x :: after := by
  refine ⟨l.rtake (n - (after.length + 1)), ?_⟩
  have hlength : (l ++ x :: after).length - n = l.length - (n - (after.length + 1)) := by
    rw [List.length_append, List.length_cons]
    omega
  rw [List.rtake, List.rtake, hlength, List.drop_append_of_le_length (Nat.sub_le _ _)]

theorem find_recent {α : Type} (p : α → Bool) (l after : List α) (x : α) (hx : p x = true)
    (hafter : ∀ y ∈ after, p y = false) : (l ++ x :: after).reverse.find? p = some x := by
  have hnone : after.reverse.find? p = none := by
    rw [List.find?_eq_none]
    intro y hy
    simp [hafter y (List.mem_reverse.mp hy)]
  simp [List.find?_append, hnone, hx]

/-- The source of an accepted call answers for its head until six calls were accepted behind it,
or one of them names the head again. -/
theorem source_of_accepted (calls : List RescanCall) (hlive : r.transaction = none)
    {before after : List (SessionRecord (rescanRules rules) × RescanCall)}
    {entry : SessionRecord (rescanRules rules) × RescanCall}
    (hsplit : acceptedCalls r calls = before ++ entry :: after)
    (hrecent : after.length < maxRescanReceipts)
    (hlast : ∀ later ∈ after,
      later.2.request.source.headSha ≠ entry.2.request.source.headSha) :
    rescanSource (consumeCalls r calls).toSessionFields entry.2.head =
      some entry.2.request.source := by
  have hlive' := (consumeCalls_frame r calls).2.1.trans hlive
  have hretained := retained_run r calls
  rw [hsplit, List.map_append, List.map_cons, ← List.append_assoc] at hretained
  obtain ⟨front, hwindow⟩ := rtake_recent
    (retainedReceipts r.toSessionFields ++ before.map (fun entry => entry.2.receipt))
    (after.map (fun entry => entry.2.receipt)) entry.2.receipt
    (by rwa [List.length_map])
  have hfind := find_recent
    (fun receipt : RescanReceipt =>
      decide (receipt.source.headSha = entry.2.request.source.headSha))
    front (after.map (fun entry => entry.2.receipt)) entry.2.receipt (decide_eq_true rfl) (by
      intro receipt hreceipt
      obtain ⟨later, hlater, rfl⟩ := List.mem_map.mp hreceipt
      exact decide_eq_false (hlast later hlater))
  rw [RescanCall.head, rescanSource_retained hlive', hretained, hwindow, hfind]
  rfl

end Runs

end ReviewSensei.Session
