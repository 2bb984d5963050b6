import ReviewSensei.NativePromises

/-! A write that its promises cover is served, and takes exactly these promises. -/
namespace ReviewSensei.NativeCapacity
open Packed Slots

/-- The promises with other bounds for one surface. -/
def Promises.take (p : Promises) (s : Surface) (rest : List Nat) : Promises :=
  match s with
  | .issueComments =>
    { p with commentBounds := some rest, futureParts := rest.length, futureBytes := rest.sum }
  | .inlineReplies => { p with inlineBounds := rest }
  | .reviews => { p with reviewBounds := rest }
  | .checks => { p with checkBounds := rest }
  | .reactions => { p with reactionBounds := rest }
  | .threads => p

section Take
variable {p : Promises} {s t : Surface} {rest : List Nat}

theorem pending_take (hs : s ≠ .threads) : (p.take s rest).pending s = rest := by
  cases s <;> first | rfl | exact absurd rfl hs

theorem pending_take_other (hne : t ≠ s) (hroots : ¬(s = .inlineReplies ∧ t = .threads)) :
    (p.take s rest).pending t = p.pending t := by
  cases s <;> cases t <;> first | rfl | exact absurd rfl hne | exact absurd ⟨rfl, rfl⟩ hroots

theorem updates_take : (p.take s rest).issueUpdateBytes = p.issueUpdateBytes := by
  cases s <;> rfl

theorem coherent_take (h : p.Coherent) : (p.take s rest).Coherent := by
  cases s with
  | issueComments => exact ⟨rest, rfl, rfl, rfl⟩
  | _ => exact h

end Take

theorem same_withPromises (g : Guard) (p : Promises) : SameGuard g (g.withPromises p) where
  reserve := rfl
  outside := rfl
  profile := rfl
  cursor := rfl
  closure := rfl
  tail := rfl
  calls := rfl
  planned := rfl
  room plan hplan plan' hplan' := by
    obtain rfl : plan = plan' := Option.mem_unique hplan hplan'
    exact Nat.le_refl _

namespace Guard
variable {g : Guard} {w : Write} {rules : CapacityRules}

/-- The sizes a write needs promises for. -/
def Write.demand (w : Write) (s : Surface) : List Nat :=
  (if w.new = true ∧ s = w.surface then [w.objectWire] else []) ++
    if s = .inlineReplies then (w.comments.getD []).map wire else []

theorem objectWire_eq (h : w.surface ≠ .reviews) : w.objectWire = wire w.body := by
  unfold Write.objectWire Write.objectBody
  rw [if_neg h]

theorem comments_none (h : w.surface ≠ .reviews) : w.comments = none := by
  unfold Write.comments
  split
  · next hreviews _ => exact absurd hreviews h
  · rfl

theorem demand_own (hnew : w.new = true) : w.demand w.surface = [w.objectWire] := by
  unfold Write.demand
  rw [if_pos ⟨hnew, rfl⟩]
  by_cases hinline : w.surface = .inlineReplies
  · rw [comments_none (by rw [hinline]; decide), if_pos hinline]
    rfl
  · rw [if_neg hinline, List.append_nil]

theorem demand_other {s : Surface} (hs : s ≠ w.surface) (hnone : w.comments = none) :
    w.demand s = [] := by
  unfold Write.demand
  rw [if_neg (fun h => hs h.2), hnone]
  split <;> rfl

theorem demand_review {s : Surface} (hs : w.surface = .reviews) (hne : s ≠ .reviews) :
    w.demand s = if s = .inlineReplies then (w.comments.getD []).map wire else [] := by
  unfold Write.demand
  rw [if_neg (fun h => hne (h.2.trans hs)), List.nil_append]

theorem spendBound_ok {size : Nat} {bounds rest : List Nat} {error : String}
    {set : List Nat → Promises} (hcursor : g.cursor = true) (h : bestFit size bounds = some rest) :
    g.spendBound size bounds error set = (.ok (), g.withPromises (set rest)) := by
  unfold spendBound
  rw [if_pos hcursor, h]

/-- A create takes the smallest promise it fits. -/
theorem spend_eq {rest : List Nat} (hcursor : g.cursor = true) (hcoherent : g.promises.Coherent)
    (hnew : w.new = true)
    (h : bestFit w.objectWire (g.promises.pending w.surface) = some rest) :
    g.spend w = (.ok (), g.withPromises (g.promises.take w.surface rest)) := by
  obtain ⟨bounds, hbounds, _⟩ := hcoherent
  unfold spend
  dsimp only
  rw [if_neg (by rw [hnew]; decide)]
  have hthreads : w.surface ≠ .threads := w.target.surface_ok
  generalize hs : w.surface = s at h hthreads
  cases s with
  | issueComments =>
    rw [objectWire_eq (by rw [hs]; decide), Promises.pending, hbounds, Option.getD_some] at h
    unfold spendComment
    simp only [hbounds, h]
    rfl
  | inlineReplies =>
    rw [objectWire_eq (by rw [hs]; decide)] at h
    exact spendBound_ok hcursor h
  | reviews => exact spendBound_ok hcursor h
  | checks => exact spendBound_ok hcursor h
  | reactions =>
    rw [objectWire_eq (by rw [hs]; decide)] at h
    exact spendBound_ok hcursor h
  | threads => exact absurd rfl hthreads

/-- What one more inline comment takes and adds. -/
theorem absorbs_inline (stats : Stats) {size : Nat} {rest : List Nat}
    (hcoherent : g.promises.Coherent)
    (h : bestFit size g.promises.inlineBounds = some rest) :
    Absorbs g stats (g.withPromises (g.promises.take .inlineReplies rest))
      (addRoot stats (size + responseMetadataBytes)) := by
  obtain ⟨b, hsize, hperm, _⟩ := bestFit_least h
  refine absorbs_writes size (same_withPromises g _) hcoherent
    (coherent_take hcoherent) updates_take fun s => ?_
  unfold addRoot
  by_cases hs : s = .inlineReplies ∨ s = .threads
  · refine .inr ⟨⟨b, hsize, ?_⟩, .inr (if_pos hs)⟩
    rcases hs with rfl | rfl
    · exact hperm
    · exact hperm
  · refine .inl ⟨pending_take_other (fun hbad => hs (.inl hbad)) (fun hbad => hs (.inr hbad.2)), ?_⟩
    exact if_neg hs

/-- The comments of a review find promises one by one. -/
theorem addInline_ok (comments : List Json) (more : List Nat) (g : Guard) (stats : Stats)
    (hcoherent : g.promises.Coherent)
    (h : Dominates g.promises.inlineBounds (comments.map wire ++ more)) :
    ∃ rest stats', addInline true comments g.promises.inlineBounds stats = .ok (rest, stats') ∧
      Dominates rest more ∧ rest.length + comments.length = g.promises.inlineBounds.length ∧
      Shrinks g stats (g.withPromises (g.promises.take .inlineReplies rest)) stats' := by
  induction comments generalizing g stats with
  | nil => exact ⟨g.promises.inlineBounds, stats, rfl, h, rfl, .refl g stats⟩
  | cons comment comments ih =>
    obtain ⟨rest, hrest, hdominates⟩ := bestFit_dominates h
    obtain ⟨b, _, hperm, _⟩ := bestFit_least hrest
    have hlength : g.promises.inlineBounds.length = rest.length + 1 := hperm.length_eq
    have hstep := (absorbs_inline stats hcoherent hrest).shrinks
    obtain ⟨final, stats', hrun, hmore, htaken, hshrinks⟩ :=
      ih (g.withPromises (g.promises.take .inlineReplies rest))
        (addRoot stats (wire comment + responseMetadataBytes)) (coherent_take hcoherent) hdominates
    refine ⟨final, stats', ?_, hmore, ?_, hstep.trans hshrinks⟩
    · unfold addInline
      dsimp only
      rw [if_pos rfl, hrest]
      exact hrun
    · have htaken' : final.length + comments.length = rest.length := htaken
      rw [List.length_cons]
      omega

/-- The object of a create is absorbed by the promise it takes. -/
theorem absorbs_create {stats : Stats} {rest : List Nat} (hcoherent : g.promises.Coherent)
    (h : bestFit w.objectWire (g.promises.pending w.surface) = some rest)
    (hown : stats w.surface = (g.stats w.surface).add w.size)
    (hroots : stats .threads = g.stats .threads ∨
      (w.surface = .inlineReplies ∧ stats .threads = (g.stats .threads).add w.size))
    (hother : ∀ s, s ≠ w.surface → s ≠ .threads → stats s = g.stats s) :
    Absorbs g g.stats (g.withPromises (g.promises.take w.surface rest)) stats := by
  have hthreads : w.surface ≠ .threads := w.target.surface_ok
  obtain ⟨b, hsize, hperm, _⟩ := bestFit_least h
  refine absorbs_writes w.objectWire (same_withPromises g _) hcoherent
    (coherent_take hcoherent) updates_take fun s => ?_
  by_cases hs : s = w.surface
  · subst hs
    refine .inr ⟨⟨b, hsize, ?_⟩, .inr hown⟩
    rw [show (g.withPromises (g.promises.take w.surface rest)).promises.pending w.surface = rest
      from pending_take hthreads]
    exact hperm
  by_cases hroot : w.surface = .inlineReplies ∧ s = .threads
  · obtain ⟨hinline, rfl⟩ := hroot
    refine .inr ⟨⟨b, hsize, ?_⟩, ?_⟩
    · rw [hinline] at hperm ⊢
      exact hperm
    · exact hroots.imp id And.right
  · refine .inl ⟨pending_take_other hs hroot, ?_⟩
    by_cases hthread : s = .threads
    · subst hthread
      rcases hroots with hsame | ⟨hinline, _⟩
      · exact hsame
      · exact absurd ⟨hinline, rfl⟩ hroot
    · exact hother s hs hthread

/-- A write whose statistics have not outgrown what was certified is reserved. -/
theorem reserve_ok {charged : Guard} {stats : Stats} (old : Promises) (hcursor : g.cursor = true)
    (hrequire : ∃ cs, require rules g g.stats = .ok cs) (h : Shrinks g g.stats charged stats) :
    ∃ g', charged.reserveWrite rules old w stats = (.ok (), g') ∧
      g'.promises = charged.promises ∧ Shrinks g g.stats g' g'.stats := by
  obtain ⟨cs, hcs⟩ := hrequire
  obtain ⟨cs', hcs', _⟩ := require_mono h hcursor hcs
  refine ⟨{ charged with
    stats, objects := charged.remember w
    pendingCreate := if w.new then some (w.surface, w.objectWire, w.objectBody) else none },
    ?_, rfl, ?_⟩
  · unfold reserveWrite
    rw [hcs']
  · exact ⟨⟨h.same.reserve, h.same.outside, h.same.profile, h.same.cursor, h.same.closure,
      h.same.tail, h.same.calls, h.same.planned, h.same.room⟩, h.upper, h.checks, h.roots⟩

/-- What a write that is served leaves of the promises, for what still comes. -/
structure Served (g : Guard) (w : Write) (more : Surface → List Nat) (g' : Guard) : Prop where
  shrinks : Shrinks g g.stats g' g'.stats
  coherent : g'.promises.Coherent
  updates : g'.promises.issueUpdateBytes + (if updatesComment w then g.growth w else 0) =
    g.promises.issueUpdateBytes
  dominates : ∀ s, s ≠ .threads → Dominates (g'.promises.pending s) (more s)
  taken : ∀ s, s ≠ .threads →
    (g'.promises.pending s).length + (w.demand s).length = (g.promises.pending s).length

theorem create_not_update (hnew : w.new = true) : updatesComment w = false := by
  unfold updatesComment
  rw [hnew, Bool.not_true, Bool.and_false]

theorem record_create (hnew : w.new = true) :
    g.record w = (g.stats w.surface).add w.size := by
  unfold record
  simp only [hnew, if_true]
  rfl

/-- The statistics a create leads to, when it is no review with comments. -/
theorem candidate_plain (hnew : w.new = true) (hnone : w.comments = none) :
    ∃ stats, g.candidate w = (.ok stats, g) ∧
      stats w.surface = (g.stats w.surface).add w.size ∧
      (stats .threads = g.stats .threads ∨
        (w.surface = .inlineReplies ∧ stats .threads = (g.stats .threads).add w.size)) ∧
      ∀ s, s ≠ w.surface → s ≠ .threads → stats s = g.stats s := by
  have hthreads : Surface.threads ≠ w.surface := w.target.surface_ok.symm
  unfold candidate
  dsimp only
  rw [hnone]
  refine ⟨_, rfl, ?_, ?_, ?_⟩
  · rw [← record_create hnew]
    split
    · dsimp only
      rw [if_neg hthreads.symm, if_pos rfl]
    · exact if_pos rfl
  · split
    · next hopens =>
      refine .inr ⟨?_, ?_⟩
      · unfold Write.opensThread at hopens
        simp only [Bool.and_eq_true, beq_iff_eq] at hopens
        exact hopens.1.1.1
      · dsimp only
        rw [if_pos rfl, if_neg hthreads]
    · exact .inl (if_neg hthreads)
  · intro s hs hroot
    split
    · dsimp only
      rw [if_neg hroot, if_neg hs]
    · exact if_neg hs

/-- The statistics a review with comments leads to. -/
theorem candidate_review {comments : List Json} (more : List Nat) (hcursor : g.cursor = true)
    (hcoherent : g.promises.Coherent) (hcomments : w.comments = some comments)
    (h : Dominates g.promises.inlineBounds (comments.map wire ++ more)) :
    ∃ rest stats, g.candidate w =
        (.ok stats, g.withPromises (g.promises.take .inlineReplies rest)) ∧
      Dominates rest more ∧ rest.length + comments.length = g.promises.inlineBounds.length ∧
      Shrinks g (fun s => if s = w.surface then g.record w else g.stats s)
        (g.withPromises (g.promises.take .inlineReplies rest)) stats := by
  obtain ⟨rest, stats, hrun, hmore, htaken, hshrinks⟩ := addInline_ok comments more g
    (fun s => if s = w.surface then g.record w else g.stats s) hcoherent h
  refine ⟨rest, stats, ?_, hmore, htaken, hshrinks⟩
  unfold candidate
  dsimp only
  rw [hcomments]
  dsimp only
  rw [hcursor, hrun]
  rfl

theorem comments_some {comments : List Json} (h : w.comments = some comments) :
    w.surface = .reviews := by
  by_contra hne
  rw [comments_none hne] at h
  cases h

/-- What a request must satisfy beyond its promises: its operation text keeps its envelope, and an
update is one of a comment, within the closure bound and its admitted size. -/
structure Admissible (rules : CapacityRules) (g : Guard) (w : Write) : Prop where
  kind : w.new = true ∨ updatesComment w = true
  envelope : g.checkEnvelope rules w = .ok ()
  retained : g.checkRetained w = .ok ()
  closure : updatesComment w = true → wire w.body ≤ g.closureWire

variable {more : Surface → List Nat}

/-- What a surface has left for what still comes, after a write. -/
def LeftFor (g : Guard) (w : Write) (more : Surface → List Nat) (charged : Guard) (s : Surface) :
    Prop :=
  Dominates (charged.promises.pending s) (more s) ∧
    (charged.promises.pending s).length + (w.demand s).length = (g.promises.pending s).length

/-- The statistics and the promises a create leads to, once it has taken its own promise. -/
theorem candidate_create {rest : List Nat} (hcursor : g.cursor = true)
    (hcoherent : g.promises.Coherent) (hnew : w.new = true)
    (hcover : ∀ s, s ≠ .threads → Dominates (g.promises.pending s) (w.demand s ++ more s))
    (hrest : bestFit w.objectWire (g.promises.pending w.surface) = some rest)
    (hmore : Dominates rest (more w.surface)) :
    ∃ charged stats,
      (g.withPromises (g.promises.take w.surface rest)).candidate w = (.ok stats, charged) ∧
      Shrinks g g.stats charged stats ∧ charged.promises.Coherent ∧
      charged.promises.issueUpdateBytes = g.promises.issueUpdateBytes ∧
      ∀ s, s ≠ .threads → LeftFor g w more charged s := by
  have hthreads : w.surface ≠ .threads := w.target.surface_ok
  let spent := g.withPromises (g.promises.take w.surface rest)
  have hcoherent' : spent.promises.Coherent := coherent_take hcoherent
  have hpending {s : Surface} (hs : s ≠ .threads) (hne : s ≠ w.surface) :
      spent.promises.pending s = g.promises.pending s :=
    pending_take_other hne (fun hbad => hs hbad.2)
  have hown : LeftFor g w more spent w.surface := by
    unfold LeftFor
    obtain ⟨_, _, hperm, _⟩ := bestFit_least hrest
    rw [show spent.promises.pending w.surface = rest from pending_take hthreads,
      demand_own hnew, hperm.length_eq]
    exact ⟨hmore, rfl⟩
  cases hcomments : w.comments with
  | none =>
    obtain ⟨stats, hrun, hrecord, hroots, hother⟩ := candidate_plain (g := spent) hnew hcomments
    refine ⟨spent, stats, hrun, (absorbs_create hcoherent hrest hrecord hroots hother).shrinks,
      hcoherent', updates_take, fun s hs => ?_⟩
    by_cases hsurface : s = w.surface
    · rw [hsurface]
      exact hown
    · have hcovered := hcover s hs
      unfold LeftFor
      rw [demand_other hsurface hcomments] at hcovered ⊢
      rw [hpending hs hsurface]
      exact ⟨hcovered, rfl⟩
  | some comments =>
    have hreviews := comments_some hcomments
    have hcovered := hcover .inlineReplies (by decide)
    rw [demand_review hreviews (by decide), if_pos rfl, hcomments, Option.getD_some] at hcovered
    have hinline : spent.promises.inlineBounds = g.promises.inlineBounds :=
      hpending (s := .inlineReplies) (by decide) (by rw [hreviews]; decide)
    obtain ⟨inline, stats, hrun, hmoreInline, htaken, hshrinks⟩ :=
      candidate_review (g := spent) (more .inlineReplies) hcursor hcoherent' hcomments
        (by rw [hinline]; exact hcovered)
    have hbase : Shrinks g g.stats spent
        (fun s => if s = w.surface then spent.record w else spent.stats s) := by
      refine (absorbs_create hcoherent hrest ?_ (.inl ?_) ?_).shrinks
      · rw [if_pos rfl]
        exact record_create (g := spent) hnew
      · exact if_neg hthreads.symm
      · exact fun s hs _ => if_neg hs
    refine ⟨_, stats, hrun, hbase.trans hshrinks, coherent_take hcoherent',
      updates_take.trans updates_take, fun s hs => ?_⟩
    by_cases hroot : s = .inlineReplies
    · unfold LeftFor
      rw [hroot, demand_review hreviews (by decide), if_pos rfl, hcomments, Option.getD_some,
        List.length_map]
      rw [hinline] at htaken
      exact ⟨hmoreInline, htaken⟩
    have hkept : (spent.withPromises (spent.promises.take .inlineReplies inline)).promises.pending s
        = spent.promises.pending s := pending_take_other hroot (fun hbad => hs hbad.2)
    unfold LeftFor
    rw [hkept]
    by_cases hsurface : s = w.surface
    · rw [hsurface]
      exact hown
    · have hcovered := hcover s hs
      rw [demand_review hreviews (fun hbad => hsurface (hbad.trans hreviews.symm)),
        if_neg hroot] at hcovered ⊢
      rw [hpending hs hsurface]
      exact ⟨hcovered, rfl⟩

/-- A create that its promises cover is served. -/
theorem charge_create (hcursor : g.cursor = true) (hcoherent : g.promises.Coherent)
    (hrequire : ∃ cs, require rules g g.stats = .ok cs) (hadmissible : Admissible rules g w)
    (hnew : w.new = true)
    (hcover : ∀ s, s ≠ .threads → Dominates (g.promises.pending s) (w.demand s ++ more s)) :
    ∃ g', g.charge rules w = (.ok (), g') ∧ Served g w more g' := by
  have hown := hcover w.surface w.target.surface_ok
  rw [demand_own hnew] at hown
  obtain ⟨rest, hrest, hmore⟩ := bestFit_dominates hown
  have hspend := spend_eq hcursor hcoherent hnew hrest
  have hgrow (k : Guard) : k.grow w = (.ok (), k) := by
    unfold grow
    rw [create_not_update hnew, Bool.and_false]
    rfl
  obtain ⟨charged, stats, hrun, hshrinks, hcharged, hupdates, hafter⟩ :=
    candidate_create hcursor hcoherent hnew hcover hrest hmore
  obtain ⟨g', hreserve, hpromises, hfinal⟩ :=
    reserve_ok (w := w) g.promises hcursor hrequire hshrinks
  refine ⟨g', ?_, hfinal, ?_, ?_, fun s hs => ?_, fun s hs => ?_⟩
  · unfold charge
    simp only [Changed.andThen, hadmissible.envelope, hadmissible.retained, hspend, hgrow, hrun]
    exact hreserve
  · rw [hpromises]
    exact hcharged
  · rw [hpromises, create_not_update hnew]
    exact hupdates
  · rw [hpromises]
    exact (hafter s hs).1
  · rw [hpromises]
    exact (hafter s hs).2

theorem update_kind (h : updatesComment w = true) : w.surface = .issueComments ∧ w.new = false := by
  unfold updatesComment at h
  simpa using h

/-- The promises after an update that grows a comment. -/
def grown (g : Guard) (w : Write) : Guard :=
  g.withPromises { g.promises with
    issueUpdateBytes := g.promises.issueUpdateBytes - g.growth w }

theorem pending_grown (s : Surface) : (g.grown w).promises.pending s = g.promises.pending s := by
  cases s <;> rfl

/-- An update of a comment grows it by no more than the reserve it takes. -/
theorem absorbs_update (hcoherent : g.promises.Coherent) (h : updatesComment w = true)
    (hclosure : wire w.body ≤ g.closureWire) (hgrowth : g.growth w ≤ g.promises.issueUpdateBytes) :
    Absorbs g g.stats (g.grown w) (fun s => if s = w.surface then g.record w else g.stats s) := by
  obtain ⟨hsurface, hnew⟩ := update_kind h
  have hwire : w.objectWire = wire w.body := objectWire_eq (by rw [hsurface]; decide)
  have hrecord : g.record w = ⟨(g.stats .issueComments).count,
      (g.stats .issueComments).bytes + g.growth w,
      max (g.stats .issueComments).largest w.size⟩ := by
    unfold record growth
    simp only [hnew, hwire, hsurface, Bool.false_eq_true, if_false, Nat.add_zero]
  refine ⟨same_withPromises g _, hcoherent, hcoherent, fun s => ?_, fun s => ?_, fun s => ?_,
    fun s => ?_⟩
  · rw [pending_grown]
  · rw [pending_grown, hsurface, hrecord]
    split
    · next hs => rw [hs]
    · exact Nat.le_refl _
  · rw [pending_grown, hsurface, hrecord]
    unfold Promises.updates grown withPromises
    dsimp only
    split
    · next hs =>
      rw [hs]
      dsimp only
      omega
    · exact Nat.le_refl _
  · have hle : LargestWithin g g.stats s (g.upper g.stats s).largest :=
      (upper_largest hcoherent).mp (Nat.le_refl _)
    rw [hsurface, hrecord]
    split
    · next hs =>
      subst hs
      have hroom := hle.closure rfl
      have hsize : w.size = wire w.body + responseMetadataBytes := by
        unfold Write.size
        rw [hwire]
      exact max_le hle.current (by omega)
    · exact hle.current

/-- An update within the closure bound and the reserved growth is served. -/
theorem charge_update (hcursor : g.cursor = true) (hcoherent : g.promises.Coherent)
    (hrequire : ∃ cs, require rules g g.stats = .ok cs) (hadmissible : Admissible rules g w)
    (h : updatesComment w = true) (hgrowth : g.growth w ≤ g.promises.issueUpdateBytes)
    (hcover : ∀ s, s ≠ .threads → Dominates (g.promises.pending s) (w.demand s ++ more s)) :
    ∃ g', g.charge rules w = (.ok (), g') ∧ Served g w more g' := by
  obtain ⟨hsurface, hnew⟩ := update_kind h
  have hclosure := hadmissible.closure h
  have hnone : w.comments = none := comments_none (by rw [hsurface]; decide)
  have hdemand (s : Surface) : w.demand s = [] := by
    unfold Write.demand
    rw [if_neg (fun hbad => absurd (hnew.symm.trans hbad.1) (by decide)), hnone]
    split <;> rfl
  have hspend : g.spend w = (.ok (), g) := by
    unfold spend
    dsimp only
    rw [if_pos hnew]
  have hgrow : g.grow w = (.ok (), g.grown w) := by
    unfold grow
    rw [hcursor, h, Bool.and_self, if_pos rfl, if_neg (by omega)]
    rfl
  have hcandidate : (g.grown w).candidate w =
      (.ok (fun s => if s = w.surface then g.record w else g.stats s), g.grown w) := by
    have hopens : w.opensThread = false := by
      unfold Write.opensThread
      rw [hnew, Bool.and_false, Bool.false_and, Bool.false_and]
    unfold candidate
    simp only [hnone, hopens]
    rfl
  obtain ⟨g', hreserve, hpromises, hfinal⟩ := reserve_ok (w := w) g.promises hcursor hrequire
    (absorbs_update hcoherent h hclosure hgrowth).shrinks
  refine ⟨g', ?_, hfinal, ?_, ?_, fun s hs => ?_, fun s hs => ?_⟩
  · unfold charge
    simp only [Changed.andThen, hadmissible.envelope, hadmissible.retained, hspend, hgrow,
      hcandidate]
    exact hreserve
  · rw [hpromises]
    exact hcoherent
  · rw [hpromises, h, if_pos rfl]
    exact Nat.sub_add_cancel hgrowth
  · have hcovered := hcover s hs
    rw [hdemand, List.nil_append] at hcovered
    rw [hpromises, pending_grown]
    exact hcovered
  · rw [hpromises, hdemand, pending_grown]
    rfl

end Guard
end ReviewSensei.NativeCapacity
