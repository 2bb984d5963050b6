import ReviewSensei.NativeLoads

/-! What is promised on each surface, and that an object written within its promise is absorbed
by it. -/
namespace ReviewSensei.NativeCapacity
open Packed Slots

/-- The bounds still outstanding on a surface; an inline comment is also a thread. -/
def Promises.pending (p : Promises) : Surface → List Nat
  | .issueComments => p.commentBounds.getD []
  | s => p.tail s

/-- The counted comments are the bounded ones. -/
def Promises.Coherent (p : Promises) : Prop :=
  ∃ bounds, p.commentBounds = some bounds ∧ p.futureParts = bounds.length ∧
    p.futureBytes = bounds.sum

theorem largestOf_le {bounds : List Nat} {k : Nat} :
    largestOf bounds ≤ k ↔ ∀ b ∈ bounds, b ≤ k := by
  induction bounds with
  | nil => simp [largestOf]
  | cons first bounds ih =>
    have hcons : largestOf (first :: bounds) = max first (largestOf bounds) := rfl
    rw [hcons, max_le_iff, ih, List.forall_mem_cons]

section Upper
variable {g : Guard} {stats : Stats} {s : Surface}

theorem upper_count (h : g.promises.Coherent) :
    (g.upper stats s).count =
      (stats s).count + (g.reserve s).newObjects + (g.promises.pending s).length := by
  obtain ⟨bounds, hbounds, hparts, _⟩ := h
  cases s <;> simp [Guard.upper, Promises.comments, Promises.tail, Promises.pending, hbounds,
    hparts]

/-- The bytes reserved for updates belong to the comments. -/
def Promises.updates (p : Promises) (s : Surface) : Nat :=
  if s = .issueComments then p.issueUpdateBytes else 0

theorem upper_bytes (h : g.promises.Coherent) :
    (g.upper stats s).bytes = (stats s).bytes + ((g.promises.pending s).sum +
        (g.promises.pending s).length * responseMetadataBytes) + g.promises.updates s +
      ((g.reserve s).newWireBytes + (g.reserve s).positiveUpdateBytes +
        (g.reserve s).newObjects * responseMetadataBytes) := by
  obtain ⟨bounds, hbounds, hparts, hbytes⟩ := h
  cases s <;> simp [Guard.upper, Promises.comments, Promises.tail, Promises.pending,
    Promises.updates, hbounds, hparts, hbytes] <;> omega

/-- What the largest object of a surface can still be. -/
structure LargestWithin (g : Guard) (stats : Stats) (s : Surface) (k : Nat) : Prop where
  current : (stats s).largest ≤ k
  old : (g.reserve s).maxObjectWireBytes + responseMetadataBytes ≤ k
  metadata : responseMetadataBytes ≤ k
  closure : s = .issueComments → g.closureWire + responseMetadataBytes ≤ k
  pending : ∀ b ∈ g.promises.pending s, b + responseMetadataBytes ≤ k

theorem largest_tail {bounds : List Nat} {k : Nat} :
    largestOf bounds + responseMetadataBytes ≤ k ↔
      responseMetadataBytes ≤ k ∧ ∀ b ∈ bounds, b + responseMetadataBytes ≤ k := by
  constructor
  · intro h
    refine ⟨by omega, fun b hb => ?_⟩
    have hle := largestOf_le.mp (Nat.le_refl (largestOf bounds)) b hb
    omega
  · intro ⟨hmeta, h⟩
    have hle : largestOf bounds ≤ k - responseMetadataBytes :=
      largestOf_le.mpr (fun b hb => by have := h b hb; omega)
    omega

theorem largest_comments {p : Promises} {bounds : List Nat} {closureWire k : Nat}
    (hbounds : p.commentBounds = some bounds) (hparts : p.futureParts = bounds.length)
    (hmeta : responseMetadataBytes ≤ k) :
    (p.comments closureWire).largest ≤ k ↔
      closureWire + responseMetadataBytes ≤ k ∧ ∀ b ∈ bounds, b + responseMetadataBytes ≤ k := by
  unfold Promises.comments Promises.largestComment
  dsimp only
  rw [max_le_iff, hbounds, hparts]
  refine and_congr_right fun _ => ?_
  cases bounds with
  | nil => simp
  | cons first bounds =>
    rw [if_neg (by simp), largest_tail]
    exact and_iff_right hmeta

theorem upper_largest (h : g.promises.Coherent) {k : Nat} :
    (g.upper stats s).largest ≤ k ↔ LargestWithin g stats s k := by
  obtain ⟨bounds, hbounds, hparts, _⟩ := h
  unfold Guard.upper
  dsimp only
  rw [max_le_iff, max_le_iff, max_le_iff, largest_tail]
  constructor
  · rintro ⟨⟨hcurrent, hold⟩, ⟨hmeta, htail⟩, hcomments⟩
    by_cases hs : s = .issueComments
    · subst hs
      rw [if_pos rfl, largest_comments hbounds hparts hmeta] at hcomments
      refine ⟨hcurrent, hold, hmeta, fun _ => hcomments.1, fun b hb => ?_⟩
      have hmem : b ∈ bounds := by simpa [Promises.pending, hbounds] using hb
      exact hcomments.2 b hmem
    · refine ⟨hcurrent, hold, hmeta, fun hbad => absurd hbad hs, fun b hb => htail b ?_⟩
      cases s <;> first | exact absurd rfl hs | exact hb
  · intro hle
    refine ⟨⟨hle.current, hle.old⟩, ⟨hle.metadata, fun b hb => hle.pending b ?_⟩, ?_⟩
    · cases s <;> first | exact hb | cases hb
    · by_cases hs : s = .issueComments
      · subst hs
        rw [if_pos rfl, largest_comments hbounds hparts hle.metadata]
        refine ⟨hle.closure rfl, fun b hb => hle.pending b ?_⟩
        simpa [Promises.pending, hbounds] using hb
      · rw [if_neg hs]
        exact Nat.zero_le k

end Upper

/-- What one more object, or a longer comment, adds to a surface is no more than what its
promises lose. -/
structure Absorbs (g : Guard) (stats : Stats) (g' : Guard) (stats' : Stats) : Prop where
  same : SameGuard g g'
  coherent : g.promises.Coherent
  coherent' : g'.promises.Coherent
  fewer : ∀ s, (g'.promises.pending s).Subperm (g.promises.pending s)
  count : ∀ s, (stats' s).count + (g'.promises.pending s).length ≤
    (stats s).count + (g.promises.pending s).length
  bytes : ∀ s, (stats' s).bytes + ((g'.promises.pending s).sum +
      (g'.promises.pending s).length * responseMetadataBytes) + g'.promises.updates s ≤
    (stats s).bytes + ((g.promises.pending s).sum +
      (g.promises.pending s).length * responseMetadataBytes) + g.promises.updates s
  largest : ∀ s, (stats' s).largest ≤ (g.upper stats s).largest

variable {g g' : Guard} {stats stats' : Stats}

theorem Absorbs.upper (h : Absorbs g stats g' stats') (s : Surface) :
    (g'.upper stats' s).AtMost (g.upper stats s) where
  count := by
    have hcount := h.count s
    rw [upper_count h.coherent', upper_count h.coherent, h.same.reserve]
    omega
  bytes := by
    have hbytes := h.bytes s
    rw [upper_bytes h.coherent', upper_bytes h.coherent, h.same.reserve]
    omega
  largest := by
    have hle := (upper_largest h.coherent).mp (Nat.le_refl (g.upper stats s).largest)
    refine (upper_largest h.coherent').mpr ⟨h.largest s, ?_, hle.metadata, ?_, ?_⟩
    · rw [h.same.reserve]
      exact hle.old
    · rw [h.same.closure]
      exact hle.closure
    · exact fun b hb => hle.pending b ((h.fewer s).subset hb)

/-- What is absorbed leaves nothing larger that is certified. -/
theorem Absorbs.shrinks (h : Absorbs g stats g' stats') : Shrinks g stats g' stats' where
  same := h.same
  upper := h.upper
  checks := by
    have hupper := h.upper .checks
    have hcount : (stats' .checks).count + g'.promises.checkBounds.length ≤
        (stats .checks).count + g.promises.checkBounds.length := h.count .checks
    have hbytes : (stats' .checks).bytes + (g'.promises.checkBounds.sum +
          g'.promises.checkBounds.length * responseMetadataBytes) + 0 ≤
        (stats .checks).bytes + (g.promises.checkBounds.sum +
          g.promises.checkBounds.length * responseMetadataBytes) + 0 := h.bytes .checks
    refine ⟨?_, ?_, hupper.largest⟩
    · unfold checkReader
      dsimp only
      rw [h.same.outside]
      split
      · exact hcount
      · exact hupper.count
    · unfold checkReader
      dsimp only
      rw [h.same.outside, h.same.closure]
      have hupperBytes := hupper.bytes
      split <;> omega
  roots := h.count .threads

/-- One object is written on a surface, and one of the bounds it fits is taken. -/
structure Writes (size : Nat) (g : Guard) (stats : Stats) (g' : Guard) (stats' : Stats)
    (s : Surface) : Prop where
  taken : ∃ b, size ≤ b ∧ (g.promises.pending s).Perm (b :: g'.promises.pending s)
  stats : stats' s = stats s ∨ stats' s = (stats s).add (size + responseMetadataBytes)

/-- Surfaces where nothing changes, and surfaces where one promised object is written. -/
theorem absorbs_writes (size : Nat) (hsame : SameGuard g g') (hcoherent : g.promises.Coherent)
    (hcoherent' : g'.promises.Coherent)
    (hupdates : g'.promises.issueUpdateBytes = g.promises.issueUpdateBytes)
    (h : ∀ s, (g'.promises.pending s = g.promises.pending s ∧ stats' s = stats s) ∨
      Writes size g stats g' stats' s) : Absorbs g stats g' stats' where
  same := hsame
  coherent := hcoherent
  coherent' := hcoherent'
  fewer s := by
    rcases h s with ⟨hpending, _⟩ | ⟨⟨b, _, hperm⟩, _⟩
    · rw [hpending]
    · exact (List.sublist_cons_self b _).subperm.trans hperm.symm.subperm
  count s := by
    rcases h s with ⟨hpending, hstats⟩ | ⟨⟨b, _, hperm⟩, hstats⟩
    · rw [hpending, hstats]
    · rw [hperm.length_eq, List.length_cons]
      rcases hstats with hstats | hstats
      · rw [hstats]
        omega
      · rw [hstats, SurfaceStats.add]
        dsimp only
        omega
  bytes s := by
    have hreserved : g'.promises.updates s = g.promises.updates s := by
      unfold Promises.updates
      rw [hupdates]
    rw [hreserved]
    rcases h s with ⟨hpending, hstats⟩ | ⟨⟨b, hsize, hperm⟩, hstats⟩
    · rw [hpending, hstats]
    · rw [hperm.length_eq, hperm.sum_eq, List.length_cons, List.sum_cons, Nat.add_mul]
      rcases hstats with hstats | hstats
      · rw [hstats]
        omega
      · rw [hstats, SurfaceStats.add]
        dsimp only
        omega
  largest s := by
    have hle : LargestWithin g stats s (g.upper stats s).largest :=
      (upper_largest hcoherent).mp (Nat.le_refl _)
    rcases h s with ⟨_, hstats⟩ | ⟨⟨b, hsize, hperm⟩, hstats⟩
    · rw [hstats]
      exact hle.current
    · rcases hstats with hstats | hstats
      · rw [hstats]
        exact hle.current
      · have hbound := hle.pending b (hperm.symm.subset List.mem_cons_self)
        rw [hstats, SurfaceStats.add]
        exact max_le hle.current (by omega)

end ReviewSensei.NativeCapacity
