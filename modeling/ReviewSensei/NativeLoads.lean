import ReviewSensei.SessionSteps
import ReviewSensei.NativeScans
import ReviewSensei.NativeAdmission

/-! What a guard certifies is a bound on everything still promised: it is accepted again once it
has shrunk, and a write within its promise shrinks it. -/
namespace ReviewSensei.NativeCapacity
open Packed Slots

/-- A bound is at most another, in all three of its measures. -/
structure SurfaceStats.AtMost (a b : SurfaceStats) : Prop where
  count : a.count ≤ b.count
  bytes : a.bytes ≤ b.bytes
  largest : a.largest ≤ b.largest

theorem SurfaceStats.AtMost.refl (a : SurfaceStats) : a.AtMost a :=
  ⟨Nat.le_refl _, Nat.le_refl _, Nat.le_refl _⟩

theorem SurfaceStats.AtMost.trans {a b c : SurfaceStats} (h : a.AtMost b) (h' : b.AtMost c) :
    a.AtMost c :=
  ⟨h.count.trans h'.count, h.bytes.trans h'.bytes, h.largest.trans h'.largest⟩

theorem ensure_bind_iff {β : Type} {p : Prop} [Decidable p] {message : String}
    {f : Unit → Except String β} {b : β} :
    (ensure p message >>= f) = .ok b ↔ p ∧ f () = .ok b := by
  constructor
  · intro h
    by_cases hp : p
    · rw [ensure_bind hp] at h
      exact ⟨hp, h⟩
    · have hfail : ensure p message = .error message := if_neg hp
      rw [hfail] at h
      cases h
  · intro h
    rw [ensure_bind h.1]
    exact h.2

/-- The parts of a guard no request changes. -/
structure SameGuard (g g' : Guard) : Prop where
  reserve : g'.reserve = g.reserve
  outside : g'.oldChecksOutsideCurrentHead = g.oldChecksOutsideCurrentHead
  profile : g'.nativeProfile = g.nativeProfile
  cursor : g'.cursor = g.cursor
  closure : g'.closureWire = g.closureWire
  tail : g'.completeTail = g.completeTail
  calls : g'.commentReadCalls = g.commentReadCalls
  planned : g'.commentPlan.isSome = g.commentPlan.isSome
  room : ∀ plan ∈ g.commentPlan, ∀ plan' ∈ g'.commentPlan,
    plan.known.length + plan.unknown.length ≤ plan'.known.length + plan'.unknown.length

theorem SameGuard.refl (g : Guard) : SameGuard g g where
  reserve := rfl
  outside := rfl
  profile := rfl
  cursor := rfl
  closure := rfl
  tail := rfl
  calls := rfl
  planned := rfl
  room plan hplan plan' hplan' := by
    obtain rfl : plan = plan' := Option.mem_unique hplan hplan'
    exact Nat.le_refl _

theorem SameGuard.trans {g h k : Guard} (hg : SameGuard g h) (hk : SameGuard h k) :
    SameGuard g k where
  reserve := hk.reserve.trans hg.reserve
  outside := hk.outside.trans hg.outside
  profile := hk.profile.trans hg.profile
  cursor := hk.cursor.trans hg.cursor
  closure := hk.closure.trans hg.closure
  tail := hk.tail.trans hg.tail
  calls := hk.calls.trans hg.calls
  planned := hk.planned.trans hg.planned
  room plan hplan plan' hplan' := by
    have hsome : h.commentPlan.isSome = true := by
      rw [hg.planned, Option.isSome_iff_exists]
      exact ⟨plan, hplan⟩
    obtain ⟨middle, hmiddle⟩ := Option.isSome_iff_exists.mp hsome
    exact (hg.room plan hplan middle hmiddle).trans (hk.room middle hmiddle plan' hplan')

variable {g g' : Guard} {stats stats' : Stats} {rules : CapacityRules}

/-- Nothing the guard certifies has grown. -/
structure Shrinks (g : Guard) (stats : Stats) (g' : Guard) (stats' : Stats) : Prop where
  same : SameGuard g g'
  upper : ∀ s, (g'.upper stats' s).AtMost (g.upper stats s)
  checks : (checkReader g' stats' (g'.upper stats' .checks)).AtMost
    (checkReader g stats (g.upper stats .checks))
  roots : (stats' .threads).count + g'.promises.inlineBounds.length ≤
    (stats .threads).count + g.promises.inlineBounds.length

theorem Shrinks.refl (g : Guard) (stats : Stats) : Shrinks g stats g stats :=
  ⟨.refl g, fun _ => .refl _, .refl _, Nat.le_refl _⟩

theorem Shrinks.trans {k : Guard} {final : Stats} (h : Shrinks g stats g' stats')
    (h' : Shrinks g' stats' k final) : Shrinks g stats k final where
  same := h.same.trans h'.same
  upper s := (h'.upper s).trans (h.upper s)
  checks := h'.checks.trans h.checks
  roots := h'.roots.trans h.roots

/-- The reader of the checks sees at least the checks that are there. -/
theorem current_le_reader (g : Guard) (stats : Stats) :
    (stats .checks).count ≤ (checkReader g stats (g.upper stats .checks)).count ∧
      (stats .checks).bytes ≤ (checkReader g stats (g.upper stats .checks)).bytes ∧
      (stats .checks).largest ≤ (g.upper stats .checks).largest := by
  unfold checkReader Guard.upper
  dsimp only
  refine ⟨?_, ?_, ?_⟩
  · split <;> omega
  · split <;> omega
  · exact le_max_of_le_left (le_max_left _ _)

theorem currentChecks_ok {s : Surface} (h : s ≠ .checks) : currentChecks stats s = .ok () :=
  ensure_ok (fun hs => absurd hs h)

theorem certifyChecks_mono {c : Certificate} (h : Shrinks g stats g' stats')
    (hc : certifyChecks g stats (g.upper stats .checks) = .ok c) :
    ∃ c', certifyChecks g' stats' (g'.upper stats' .checks) = .ok c' ∧ c'.upper.AtMost c.upper ∧
      c'.upper.count ≤ maxCheckPageSize ∧ c'.upper.bytes ≤ pageBytes := by
  unfold certifyChecks at hc
  obtain ⟨hroom, hc⟩ := ensure_bind_iff.mp hc
  obtain rfl := Except.ok.inj hc
  have hchecks := h.checks
  have hcount := hchecks.count
  have hbytes := hchecks.bytes
  have hroom' : (checkReader g' stats' (g'.upper stats' .checks)).count ≤ maxCheckPageSize ∧
      (checkReader g' stats' (g'.upper stats' .checks)).bytes ≤ pageBytes := by omega
  refine ⟨⟨checkReader g' stats' (g'.upper stats' .checks), 1⟩, ?_, hchecks, hroom'⟩
  unfold certifyChecks
  rw [ensure_bind_iff]
  exact ⟨hroom', rfl⟩

theorem reads_mono {s : Surface} (h : Shrinks g stats g' stats') (hcursor : g.cursor = true)
    (hreads : reads g s (g.upper stats s) ≤ maxPaginationPages) :
    reads g' s (g'.upper stats' s) ≤ maxPaginationPages := by
  have hupper := h.upper s
  have hcursor' : g'.cursor = true := h.same.cursor.trans hcursor
  have hscan : ∀ (k : Guard) (u : SurfaceStats), k.cursor = true → reads k s u = scanReads k s u := by
    intro k u hk
    unfold reads
    rw [if_neg (fun hbad => absurd (hk.symm.trans hbad.2) (by decide))]
  rw [hscan g _ hcursor] at hreads
  rw [hscan g' _ hcursor']
  unfold scanReads at hreads ⊢
  by_cases hplan : s = .issueComments ∧ g.commentPlan.isSome = true
  · rw [if_pos hplan] at hreads
    rw [if_pos ⟨hplan.1, h.same.planned.trans hplan.2⟩, h.same.calls]
    exact hreads
  · rw [if_neg hplan] at hreads
    rw [if_neg (fun hbad => hplan ⟨hbad.1, h.same.planned.symm.trans hbad.2⟩)]
    by_cases hcomments : s = .issueComments
    · rw [if_pos ⟨hcomments, hcursor⟩] at hreads
      rw [if_pos ⟨hcomments, hcursor'⟩]
      exact coldCursor_smaller hupper.count hupper.bytes hupper.largest hreads
    · rw [if_neg (fun hbad => hcomments hbad.1)] at hreads
      rw [if_neg (fun hbad => hcomments hbad.1)]
      exact coldRest_smaller hupper.count hupper.largest hreads

theorem certifyScan_mono {s : Surface} {c : Certificate} (h : Shrinks g stats g' stats')
    (hcursor : g.cursor = true) (hc : certifyScan g s (g.upper stats s) = .ok c) :
    ∃ c', certifyScan g' s (g'.upper stats' s) = .ok c' ∧ c'.upper.AtMost c.upper := by
  unfold certifyScan planRoom at hc
  obtain ⟨hroom, hc⟩ := ensure_bind_iff.mp hc
  obtain ⟨hreads, hc⟩ := ensure_bind_iff.mp hc
  obtain rfl := Except.ok.inj hc
  have hupper := h.upper s
  refine ⟨⟨g'.upper stats' s, reads g' s (g'.upper stats' s)⟩, ?_, hupper⟩
  unfold certifyScan planRoom
  rw [ensure_bind_iff]
  refine ⟨fun hs plan' hplan' => ?_, ?_⟩
  · have hsome : g.commentPlan.isSome = true := by
      rw [← h.same.planned, Option.isSome_iff_exists]
      exact ⟨plan', hplan'⟩
    obtain ⟨plan, hplan⟩ := Option.isSome_iff_exists.mp hsome
    have hold := hroom hs plan hplan
    have hgrown := h.same.room plan hplan plan' hplan'
    have hcount := hupper.count
    omega
  · rw [ensure_bind_iff]
    exact ⟨reads_mono h hcursor hreads, rfl⟩

theorem certifyNative_mono {s : Surface} {c : Certificate} (h : Shrinks g stats g' stats')
    (hc : certifyNative rules g stats s (g.upper stats s) = .ok c) :
    ∃ c', certifyNative rules g' stats' s (g'.upper stats' s) = .ok c' ∧
      c'.upper.AtMost c.upper := by
  unfold certifyNative at hc
  obtain ⟨hsize, hc⟩ := ensure_bind_iff.mp hc
  obtain ⟨_, hroom, hc⟩ := Session.bind_ok hc
  obtain ⟨hpacket, hc⟩ := ensure_bind_iff.mp hc
  obtain rfl := Except.ok.inj hc
  have hupper := h.upper s
  have hcount := hupper.count
  have hbytes := hupper.bytes
  have hlargest := hupper.largest
  have hroom' : nativeRoom g' stats' s (g'.upper stats' s) = .ok () := by
    unfold nativeRoom at hroom ⊢
    split at hroom
    · rename_i hreviews
      have hbound := ensure_inv hroom
      rw [if_pos hreviews]
      exact ensure_ok ⟨by omega, by omega⟩
    · rename_i hreviews
      obtain ⟨hroots, hroom⟩ := ensure_bind_iff.mp hroom
      have hconversation := ensure_inv hroom
      have hshrunk := h.roots
      rw [if_neg hreviews, ensure_bind_iff]
      refine ⟨by omega, ?_⟩
      rw [h.same.reserve]
      exact ensure_ok hconversation
  refine ⟨⟨g'.upper stats' s, 10⟩, ?_, hupper⟩
  unfold certifyNative
  rw [ensure_bind_iff]
  refine ⟨⟨by omega, by omega⟩, ?_⟩
  rw [ok_bind hroom', ensure_bind_iff]
  exact ⟨hpacket, rfl⟩

/-- A certificate of what has shrunk is given again, and is no larger. -/
theorem certify_mono {s : Surface} {c : Certificate} (h : Shrinks g stats g' stats')
    (hcursor : g.cursor = true) (hc : certify rules g stats s = .ok c) :
    ∃ c', certify rules g' stats' s = .ok c' ∧ c'.upper.AtMost c.upper := by
  unfold certify at hc
  obtain ⟨_, hcurrent, hc⟩ := Session.bind_ok hc
  dsimp only at hc
  have hupper := h.upper s
  have hcount := hupper.count
  have hbytes := hupper.bytes
  have hlargest := hupper.largest
  by_cases hnative : g.nativeProfile.isSome = true ∧ s ∈ [.reviews, .inlineReplies, .threads]
  · rw [if_pos hnative] at hc
    obtain ⟨c', hc', hle⟩ := certifyNative_mono h hc
    have hs : s ≠ .checks := by
      intro hs
      rw [hs] at hnative
      exact absurd hnative.2 (by decide)
    refine ⟨c', ?_, hle⟩
    unfold certify
    rw [ok_bind (currentChecks_ok hs)]
    dsimp only
    rw [if_pos ⟨by rw [h.same.profile]; exact hnative.1, hnative.2⟩]
    exact hc'
  rw [if_neg hnative] at hc
  have hnative' : ¬(g'.nativeProfile.isSome = true ∧ s ∈ [.reviews, .inlineReplies, .threads]) := by
    rw [h.same.profile]
    exact hnative
  unfold certifyPlain at hc
  obtain ⟨hitems, hc⟩ := ensure_bind_iff.mp hc
  obtain ⟨hencoded, hc⟩ := ensure_bind_iff.mp hc
  have hitems' : (g'.upper stats' s).count ≤ maxPaginationItems ∧
      (g'.upper stats' s).largest ≤ pageBytes := ⟨by omega, by omega⟩
  have hencoded' : (g'.upper stats' s).bytes ≤ maxPaginationPages * pageBytes := by omega
  have hplain : ∀ c', (if s = .checks then certifyChecks g' stats' (g'.upper stats' s)
      else certifyScan g' s (g'.upper stats' s)) = .ok c' →
        certifyPlain g' stats' s (g'.upper stats' s) = .ok c' := by
    intro c' hc'
    unfold certifyPlain
    rw [ensure_bind hitems', ensure_bind hencoded']
    exact hc'
  by_cases hs : s = .checks
  · subst hs
    rw [if_pos rfl] at hc
    obtain ⟨c', hc', hle, hpage, hbyte⟩ := certifyChecks_mono h hc
    have hreader : c'.upper = checkReader g' stats' (g'.upper stats' .checks) := by
      unfold certifyChecks at hc'
      rw [← Except.ok.inj (ensure_bind_iff.mp hc').2]
    obtain ⟨hcur, hcurBytes, hcurLargest⟩ := current_le_reader g' stats'
    rw [← hreader] at hcur hcurBytes
    have hcurrent' : currentChecks stats' .checks = .ok () :=
      ensure_ok (fun _ => ⟨by omega, by omega, by omega⟩)
    refine ⟨c', ?_, hle⟩
    unfold certify
    rw [ok_bind hcurrent']
    dsimp only
    rw [if_neg hnative']
    exact hplain c' ((if_pos rfl).trans hc')
  · rw [if_neg hs] at hc
    obtain ⟨c', hc', hle⟩ := certifyScan_mono h hcursor hc
    refine ⟨c', ?_, hle⟩
    unfold certify
    rw [ok_bind (currentChecks_ok hs)]
    dsimp only
    rw [if_neg hnative']
    exact hplain c' ((if_neg hs).trans hc')

/-- The certificates of two states, surface by surface. -/
def NoLarger (cs' cs : List (Surface × Certificate)) : Prop :=
  List.Forall₂ (fun c' c => c'.1 = c.1 ∧ c'.2.upper.AtMost c.2.upper) cs' cs

theorem mapM_mono {f f' : Surface → Except String (Surface × Certificate)}
    {r : Surface × Certificate → Surface × Certificate → Prop}
    (h : ∀ s c, f s = .ok c → ∃ c', f' s = .ok c' ∧ r c' c) :
    ∀ (ss : List Surface) (cs : List (Surface × Certificate)), ss.mapM f = .ok cs →
      ∃ cs', ss.mapM f' = .ok cs' ∧ List.Forall₂ r cs' cs := by
  intro ss
  induction ss with
  | nil =>
    intro cs hcs
    obtain rfl := Except.ok.inj hcs
    exact ⟨[], rfl, .nil⟩
  | cons s ss ih =>
    intro cs hcs
    rw [List.mapM_cons] at hcs
    obtain ⟨c, hc, hcs⟩ := Session.bind_ok hcs
    obtain ⟨rest, hrest, hcs⟩ := Session.bind_ok hcs
    obtain rfl := Except.ok.inj hcs
    obtain ⟨c', hc', hle⟩ := h s c hc
    obtain ⟨rest', hrest', hall⟩ := ih rest hrest
    refine ⟨c' :: rest', ?_, .cons hle hall⟩
    rw [List.mapM_cons, ok_bind hc', ok_bind hrest']
    rfl

/-- `require` accepts what has shrunk. -/
theorem require_mono {cs : List (Surface × Certificate)} (h : Shrinks g stats g' stats')
    (hcursor : g.cursor = true) (hcs : require rules g stats = .ok cs) :
    ∃ cs', require rules g' stats' = .ok cs' ∧ NoLarger cs' cs := by
  unfold require at hcs ⊢
  refine mapM_mono (fun s c hc => ?_) surfaces cs hcs
  cases hcertify : certify rules g stats s with
  | error e =>
    rw [hcertify] at hc
    cases hc
  | ok certificate =>
    rw [hcertify] at hc
    obtain rfl := Except.ok.inj hc
    obtain ⟨c', hc', hle⟩ := certify_mono h hcursor hcertify
    refine ⟨(s, c'), ?_, rfl, hle⟩
    rw [hc']
    rfl

end ReviewSensei.NativeCapacity
