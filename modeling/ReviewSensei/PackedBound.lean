import ReviewSensei.Slots
import ReviewSensei.Dict
import Mathlib.Data.List.TakeWhile

/-! The request bound of a comment census, proved over every interleaving of its comments. -/
namespace ReviewSensei.Packed

def maxComments : Nat := 200
def nodeMetadataBytes : Nat := 1024
def outerBytes : Nat := 4096
def maxGithubResponseBytes : Nat := 512 * 1024
def maxPaginationPages : Nat := 10
def maxProofWork : Nat := 500000

/-- The bounds a request bound is proved for; `largest` has the unknown ones in descending order,
and `closing` bounds the windows of a closing frame. -/
structure Game where
  known : List Nat
  largest : List Nat
  closing : Option Nat

/-- The steps of a proof and the pages it has already bounded. -/
structure ProofState where
  work : Nat := 0
  memo : Dict (Nat × Nat) Nat := []

def rejected : Nat := maxPaginationPages + 1

namespace Game
variable (g : Game)

def framingCalls : Nat := if g.closing.isNone then 2 else 1

/-- The bodies and rows of the next `a` known comments. -/
def knownCost (ki a : Nat) : Nat := ((g.known.drop ki).take a).sum + nodeMetadataBytes * a

def unknownCost (b : Nat) : Nat := (g.largest.take b).sum + nodeMetadataBytes * b

def pageCost (ki a b : Nat) : Nat := outerBytes + g.knownCost ki a + g.unknownCost b

/-- `bisect_right(unknown_cost, MAX_GITHUB_RESPONSE_BYTES - OUTER_BYTES - cost)`. -/
def room (cost : Nat) : Nat :=
  (List.range (g.largest.length + 1)).countP
    (fun b => outerBytes + cost + g.unknownCost b ≤ maxGithubResponseBytes)

def maximum (ki ui a : Nat) : Nat :=
  min (g.largest.length - ui) (min (100 - a) (g.room (g.knownCost ki a) - 1))

/-- The numbers of unknown comments a page with `a` known ones may end with. -/
def candidates (ki ui a : Nat) : List Nat :=
  match g.known[ki + a]? with
  | none => [g.maximum ki ui a]
  | some next =>
    let first := min (g.room (g.knownCost ki a + nodeMetadataBytes + next)) (g.maximum ki ui a)
    List.range' first (g.maximum ki ui a + 1 - first)

/-- The numbers of known comments a page may have. -/
def ends (ki : Nat) : List Nat :=
  (List.range (g.known.length - ki + 1)).takeWhile
    (fun a => a ≤ 100 ∧ outerBytes + g.knownCost ki a ≤ maxGithubResponseBytes)

/-- The loops of `pages` as the steps that count as work; the step that leaves the outer loop has
no page. -/
def steps (ki ui : Nat) : List (Option (Nat × Nat)) :=
  ((g.ends ki).flatMap (fun a => none :: (g.candidates ki ui a).map (fun b => some (a, b)))) ++
    if (g.ends ki).length < g.known.length - ki + 1 then [none] else []

def Terminal (ki ui a b : Nat) : Prop := ki + a = g.known.length ∧ ui + b = g.largest.length

instance (ki ui a b : Nat) : Decidable (g.Terminal ki ui a b) := inferInstanceAs (Decidable (_ ∧ _))

/-- The page ends here in some order of the comments. -/
def Ends (ki ui a b : Nat) : Prop :=
  g.Terminal ki ui a b ∨ a + b = 100 ∨
    (∃ next ∈ g.known[ki + a]?,
      maxGithubResponseBytes < g.pageCost ki a b + nodeMetadataBytes + next) ∨
    (ui + b < g.largest.length ∧ ∃ next ∈ g.largest[b]?,
      maxGithubResponseBytes < g.pageCost ki a b + nodeMetadataBytes + next)

instance (ki ui a b : Nat) : Decidable (g.Ends ki ui a b) :=
  inferInstanceAs (Decidable (_ ∨ _ ∨ _ ∨ _))

/-- The calls of a page and of what follows it. -/
def finish (rest : Nat → Nat → ProofState → Option (Nat × ProofState)) (ki ui a b : Nat)
    (s : ProofState) : Option (Nat × ProofState) :=
  match g.closing with
  | some closing =>
    if g.Terminal ki ui a b then
      some (1 + if maxGithubResponseBytes < g.pageCost ki a b + closing then 1 else 0, s)
    else (rest (ki + a) (ui + b) s).map (fun r => (1 + r.1, r.2))
  | none => (rest (ki + a) (ui + b) s).map (fun r => (1 + r.1, r.2))

/-- The steps of one page; too much work ends the whole proof. -/
def scan (rest : Nat → Nat → ProofState → Option (Nat × ProofState)) (ki ui : Nat) :
    List (Option (Nat × Nat)) → Nat → ProofState → Option (Nat × ProofState)
  | [], worst, s => some (if worst = 0 then rejected else worst, s)
  | step :: more, worst, s =>
    if maxProofWork < s.work + 1 then none
    else
      let s := { s with work := s.work + 1 }
      match step with
      | none => scan rest ki ui more worst s
      | some (a, b) =>
        if a + b = 0 ∨ ¬ g.Ends ki ui a b then scan rest ki ui more worst s
        else
          match g.finish rest ki ui a b s with
          | none => none
          | some (calls, s) =>
            if maxPaginationPages < max worst calls + g.framingCalls then some (rejected, s)
            else scan rest ki ui more (max worst calls) s

/-- `pages`; every page has a comment, so that the fuel is never used up. -/
def pages : Nat → Nat → Nat → ProofState → Option (Nat × ProofState)
  | 0, _, _, _ => none
  | fuel + 1, ki, ui, s =>
    match s.memo.get? (ki, ui) with
    | some calls => some (calls, s)
    | none =>
      let computed :=
        if ki = g.known.length ∧ ui = g.largest.length then
          some (if g.closing.isNone then 0 else 1, s)
        else g.scan (pages fuel) ki ui (g.steps ki ui) 0 s
      computed.map (fun r => (r.1, { r.2 with memo := r.2.memo.set (ki, ui) r.1 }))

end Game

/-- `packed_request_bound`. -/
def packedRequestBound (known unknown : List Nat) (closing : Option Nat) : Nat :=
  let g : Game := ⟨known, unknown.insertionSort (· ≥ ·), closing⟩
  if maxComments < known.length + unknown.length then rejected
  else
    match g.pages (known.length + unknown.length + 1) 0 0 {} with
    | some (calls, _) => min rejected (g.framingCalls + calls)
    | none => rejected

section Certificate
variable {g : Game} {ki ui a b : Nat}

/-- A page that some order of the comments has. -/
structure Game.Boundary (g : Game) (ki ui a b : Nat) : Prop where
  nonempty : 0 < a + b
  known : ki + a ≤ g.known.length
  unknown : ui + b ≤ g.largest.length
  count : a + b ≤ 100
  fits : g.pageCost ki a b ≤ maxGithubResponseBytes
  ends : g.Ends ki ui a b

/-- Whatever the order of the comments is, the rest takes at most this many calls, the closing one
included. -/
def Game.Certified (g : Game) (closing : Nat) : Nat → Nat → Nat → Prop
  | 0, _, _ => False
  | calls + 1, ki, ui => ∀ a b, g.Boundary ki ui a b →
    (g.Terminal ki ui a b → maxGithubResponseBytes < g.pageCost ki a b + closing → 1 ≤ calls) ∧
      (¬ g.Terminal ki ui a b → g.Certified closing calls (ki + a) (ui + b))

theorem Game.Certified.mono {closing calls more : Nat} (hle : calls ≤ more)
    (h : g.Certified closing calls ki ui) : g.Certified closing more ki ui := by
  induction calls generalizing more ki ui with
  | zero => exact h.elim
  | succ calls ih =>
    obtain ⟨more, rfl⟩ : ∃ m, more = m + 1 := ⟨more - 1, by omega⟩
    intro a b hboundary
    obtain ⟨hterminal, hrest⟩ := h a b hboundary
    refine ⟨fun ht hlarge => ?_, fun ht => ih (by omega) (hrest ht)⟩
    have hcalls := hterminal ht hlarge
    omega

theorem mem_takeWhile_range {p : Nat → Bool} {m i : Nat} (hi : i < m) (h : ∀ j ≤ i, p j = true) :
    i ∈ (List.range m).takeWhile p := by
  have hsplit : List.range m = List.range (i + 1) ++ (List.range (m - (i + 1))).map (i + 1 + ·) := by
    rw [← List.range_add]
    congr 1
    omega
  have hfirst : (List.range (i + 1)).takeWhile p = List.range (i + 1) := by
    refine List.takeWhile_eq_self_iff.mpr fun j hj => h j ?_
    have := List.mem_range.mp hj
    omega
  rw [hsplit, List.takeWhile_append, hfirst, if_pos rfl]
  exact List.mem_append_left _ (List.mem_range.mpr (Nat.lt_succ_self i))

/-- A count over a range of what holds up to some place finds that place. -/
theorem lt_countP_range {p : Nat → Bool} (hdown : ∀ i j, i ≤ j → p j = true → p i = true)
    {m i : Nat} : i < (List.range m).countP p ↔ i < m ∧ p i = true := by
  induction m with
  | zero => simp
  | succ m ih =>
    have hle : (List.range m).countP p ≤ m := by
      have := List.countP_le_length (p := p) (l := List.range m)
      rwa [List.length_range] at this
    have hall (hm : p m = true) : (List.range m).countP p = m := by
      have := List.countP_eq_length.mpr
        (fun j hj => hdown j m (List.mem_range.mp hj).le hm : ∀ j ∈ List.range m, p j = true)
      rwa [List.length_range] at this
    rw [List.range_succ, List.countP_append, List.countP_singleton]
    by_cases hm : p m = true
    · rw [hall hm, if_pos hm]
      exact ⟨fun h => ⟨h, hdown i m (by omega) hm⟩, fun h => h.1⟩
    · rw [if_neg hm, Nat.add_zero, ih]
      refine ⟨fun h => ⟨by omega, h.2⟩, fun h => ⟨?_, h.2⟩⟩
      rcases Nat.lt_succ_iff_lt_or_eq.mp h.1 with hlt | heq
      · exact hlt
      · exact absurd (heq ▸ h.2) hm

theorem unknownCost_mono {i j : Nat} (h : i ≤ j) : g.unknownCost i ≤ g.unknownCost j := by
  have hsum := Slots.take_sum_mono g.largest h
  have hrows := Nat.mul_le_mul_left nodeMetadataBytes h
  unfold Game.unknownCost
  omega

theorem knownCost_mono (ki : Nat) {i j : Nat} (h : i ≤ j) : g.knownCost ki i ≤ g.knownCost ki j := by
  have hsum := Slots.take_sum_mono (g.known.drop ki) h
  have hrows := Nat.mul_le_mul_left nodeMetadataBytes h
  unfold Game.knownCost
  omega

theorem lt_room {cost : Nat} : b < g.room cost ↔
    b ≤ g.largest.length ∧ outerBytes + cost + g.unknownCost b ≤ maxGithubResponseBytes := by
  unfold Game.room
  rw [lt_countP_range, Nat.lt_succ_iff, decide_eq_true_eq]
  intro i j hij hj
  have hle := unknownCost_mono (g := g) hij
  simp only [decide_eq_true_eq] at hj ⊢
  omega

/-- No page that some order has is left out of the steps. -/
theorem boundary_steps (h : g.Boundary ki ui a b) : some (a, b) ∈ g.steps ki ui := by
  obtain ⟨_, hknown, hunknown, hcount, hfits, hends⟩ := h
  unfold Game.pageCost at hfits
  have hend : a ∈ g.ends ki := by
    refine mem_takeWhile_range (by omega) fun j hj => ?_
    have hle := knownCost_mono (g := g) ki hj
    simp only [decide_eq_true_eq]
    omega
  have hroom : b < g.room (g.knownCost ki a) := lt_room.mpr ⟨by omega, hfits⟩
  have hmaximum : b ≤ g.maximum ki ui a := by
    unfold Game.maximum
    omega
  have hcandidate : b ∈ g.candidates ki ui a := by
    unfold Game.candidates
    rcases hends with hterminal | hfull | ⟨next, hnext, hlarge⟩ | ⟨hmore, next, hnext, hlarge⟩
    · -- the last page has all that is left
      have hsame : b = g.maximum ki ui a := by
        unfold Game.maximum at hmaximum ⊢
        have := hterminal.2
        omega
      rw [List.getElem?_eq_none (by have := hterminal.1; omega)]
      exact List.mem_singleton.mpr hsame
    · have hsame : b = g.maximum ki ui a := by
        unfold Game.maximum at hmaximum ⊢
        omega
      split
      · exact List.mem_singleton.mpr hsame
      · rw [List.mem_range'_1]
        omega
    · -- the next known comment does not fit
      rw [Option.mem_def.mp hnext]
      have hfull : ¬ b < g.room (g.knownCost ki a + nodeMetadataBytes + next) := by
        rw [lt_room]
        unfold Game.pageCost at hlarge
        omega
      dsimp only
      rw [List.mem_range'_1]
      omega
    · -- the next unknown comment does not fit
      have hcost : g.unknownCost (b + 1) = g.unknownCost b + nodeMetadataBytes + next := by
        obtain ⟨hb, hget⟩ := List.getElem?_eq_some_iff.mp hnext
        unfold Game.unknownCost
        rw [List.take_add_one, List.getElem?_eq_getElem hb, hget, List.sum_append, Nat.mul_succ]
        simp only [Option.toList_some, List.sum_singleton]
        omega
      have hfull : ¬ b + 1 < g.room (g.knownCost ki a) := by
        rw [lt_room, hcost]
        unfold Game.pageCost at hlarge
        omega
      have hsame : b = g.maximum ki ui a := by
        unfold Game.maximum at hmaximum ⊢
        omega
      split
      · exact List.mem_singleton.mpr hsame
      · rw [List.mem_range'_1]
        omega
  unfold Game.steps
  refine List.mem_append_left _ (List.mem_flatMap.mpr ⟨a, hend, ?_⟩)
  exact List.mem_cons_of_mem _ (List.mem_map_of_mem hcandidate)

variable {closing : Nat}

/-- Every page that the proof remembers is bounded. -/
def Game.Remembered (g : Game) (closing : Nat) (s : ProofState) : Prop :=
  ∀ ki ui calls, s.memo.get? (ki, ui) = some calls → calls < maxPaginationPages →
    ¬ (ki = g.known.length ∧ ui = g.largest.length) → g.Certified closing calls ki ui

/-- A computation of later pages that returns only bounds. -/
def Game.Sound (g : Game) (closing : Nat)
    (rest : Nat → Nat → ProofState → Option (Nat × ProofState)) : Prop :=
  ∀ ki ui s calls s', rest ki ui s = some (calls, s') → g.Remembered closing s →
    g.Remembered closing s' ∧ (calls < maxPaginationPages →
      ¬ (ki = g.known.length ∧ ui = g.largest.length) → g.Certified closing calls ki ui)

/-- The calls from one page on are enough for it and for what follows it. -/
def Game.Covers (g : Game) (closing calls ki ui a b : Nat) : Prop :=
  (g.Terminal ki ui a b → maxGithubResponseBytes < g.pageCost ki a b + closing → 2 ≤ calls) ∧
    (¬ g.Terminal ki ui a b → ∃ more, more + 1 ≤ calls ∧
      g.Certified closing more (ki + a) (ui + b))

variable {rest : Nat → Nat → ProofState → Option (Nat × ProofState)}

theorem finish_covers (hclosing : g.closing = some closing) (hsound : g.Sound closing rest)
    {s s' : ProofState} {calls : Nat} (h : g.finish rest ki ui a b s = some (calls, s'))
    (hs : g.Remembered closing s) :
    g.Remembered closing s' ∧
      (calls < maxPaginationPages → g.Covers closing calls ki ui a b) := by
  unfold Game.finish at h
  rw [hclosing] at h
  dsimp only at h
  split at h
  · next hterminal =>
    obtain ⟨rfl, rfl⟩ := Prod.mk.inj (Option.some.inj h)
    refine ⟨hs, fun _ => ⟨fun _ hlarge => ?_, fun hnot => absurd hterminal hnot⟩⟩
    rw [if_pos hlarge]
  · next hterminal =>
    obtain ⟨⟨more, after⟩, hrest, heq⟩ := Option.map_eq_some_iff.mp h
    obtain ⟨rfl, rfl⟩ := Prod.mk.inj heq
    obtain ⟨hafter, hcertified⟩ := hsound _ _ _ _ _ hrest hs
    refine ⟨hafter, fun hcalls => ⟨fun ht => absurd ht hterminal, fun _ => ?_⟩⟩
    dsimp only at hcalls
    exact ⟨more, by dsimp only; omega, hcertified (by omega) hterminal⟩

theorem Game.Covers.mono {calls more : Nat} (hle : calls ≤ more)
    (h : g.Covers closing calls ki ui a b) : g.Covers closing more ki ui a b := by
  refine ⟨fun ht hlarge => (h.1 ht hlarge).trans hle, fun ht => ?_⟩
  obtain ⟨fewer, hfewer, hcertified⟩ := h.2 ht
  exact ⟨fewer, hfewer.trans hle, hcertified⟩

/-- What a page's scan returns bounds every page among its steps. -/
theorem scan_covers (hclosing : g.closing = some closing) (hsound : g.Sound closing rest)
    {steps : List (Option (Nat × Nat))} {worst : Nat} {s s' : ProofState} {calls : Nat}
    (h : g.scan rest ki ui steps worst s = some (calls, s')) (hs : g.Remembered closing s) :
    g.Remembered closing s' ∧ (calls < maxPaginationPages → 0 < calls ∧ worst ≤ calls ∧
      ∀ a b, some (a, b) ∈ steps → 0 < a + b → g.Ends ki ui a b →
        g.Covers closing calls ki ui a b) := by
  have hrefused : ¬ rejected < maxPaginationPages := by decide
  induction steps generalizing worst s with
  | nil =>
    unfold Game.scan at h
    obtain ⟨rfl, rfl⟩ := Prod.mk.inj (Option.some.inj h)
    refine ⟨hs, fun hcalls => ?_⟩
    by_cases hzero : worst = 0
    · rw [if_pos hzero] at hcalls
      exact absurd hcalls hrefused
    · rw [if_neg hzero]
      exact ⟨by omega, le_refl _, fun a b hmem => absurd hmem List.not_mem_nil⟩
  | cons step steps ih =>
    unfold Game.scan at h
    split at h
    · cases h
    have hs1 : g.Remembered closing { s with work := s.work + 1 } := hs
    cases step with
    | none =>
      obtain ⟨hafter, hcovers⟩ := ih h hs1
      refine ⟨hafter, fun hcalls => ?_⟩
      obtain ⟨hpos, hworst, hall⟩ := hcovers hcalls
      refine ⟨hpos, hworst, fun a b hmem => hall a b ?_⟩
      rcases List.mem_cons.mp hmem with heq | hmem
      · cases heq
      · exact hmem
    | some page =>
      obtain ⟨a, b⟩ := page
      dsimp only at h
      split at h
      · next hskip =>
        obtain ⟨hafter, hcovers⟩ := ih h hs1
        refine ⟨hafter, fun hcalls => ?_⟩
        obtain ⟨hpos, hworst, hall⟩ := hcovers hcalls
        refine ⟨hpos, hworst, fun a' b' hmem hnonempty hends => ?_⟩
        rcases List.mem_cons.mp hmem with heq | hmem
        · obtain ⟨rfl, rfl⟩ := Prod.mk.inj (Option.some.inj heq)
          rcases hskip with hzero | hnot
          · omega
          · exact absurd hends hnot
        · exact hall a' b' hmem hnonempty hends
      · split at h
        · cases h
        · next middle after hfinish =>
          obtain ⟨hmiddle, hcover⟩ := finish_covers hclosing hsound hfinish hs1
          split at h
          · -- the walk already needs too many calls
            obtain ⟨rfl, rfl⟩ := Prod.mk.inj (Option.some.inj h)
            exact ⟨hmiddle, fun hcalls => absurd hcalls hrefused⟩
          · obtain ⟨hafter, hcovers⟩ := ih h hmiddle
            refine ⟨hafter, fun hcalls => ?_⟩
            obtain ⟨hpos, hworst, hall⟩ := hcovers hcalls
            refine ⟨hpos, by omega, fun a' b' hmem hnonempty hends => ?_⟩
            rcases List.mem_cons.mp hmem with heq | hmem
            · obtain ⟨rfl, rfl⟩ := Prod.mk.inj (Option.some.inj heq)
              have hle : middle ≤ calls := by omega
              exact (hcover (by omega)).mono hle
            · exact hall a' b' hmem hnonempty hends

/-- The bound of a state, remembered or computed, is one for every order of what is left. -/
theorem pages_sound (hclosing : g.closing = some closing) (fuel : Nat) :
    g.Sound closing (g.pages fuel) := by
  induction fuel with
  | zero =>
    intro ki ui s calls s' h
    cases h
  | succ fuel ih =>
    intro ki ui s calls s' h hs
    unfold Game.pages at h
    split at h
    · next known hmemo =>
      obtain ⟨rfl, rfl⟩ := Prod.mk.inj (Option.some.inj h)
      exact ⟨hs, fun hcalls hopen => hs ki ui _ hmemo hcalls hopen⟩
    · obtain ⟨⟨computed, after⟩, hcomputed, heq⟩ := Option.map_eq_some_iff.mp h
      obtain ⟨rfl, rfl⟩ := Prod.mk.inj heq
      have hresult : g.Remembered closing after ∧ (computed < maxPaginationPages →
          ¬ (ki = g.known.length ∧ ui = g.largest.length) →
            g.Certified closing computed ki ui) := by
        split at hcomputed
        · next hdone =>
          obtain ⟨_, rfl⟩ := Prod.mk.inj (Option.some.inj hcomputed)
          exact ⟨hs, fun _ hopen => absurd hdone hopen⟩
        · obtain ⟨hafter, hcovers⟩ := scan_covers hclosing ih hcomputed hs
          refine ⟨hafter, fun hcalls _ => ?_⟩
          obtain ⟨hpos, _, hall⟩ := hcovers hcalls
          obtain ⟨more, rfl⟩ : ∃ m, computed = m + 1 := ⟨computed - 1, by omega⟩
          intro a b hboundary
          obtain ⟨hterminal, hrest⟩ :=
            hall a b (boundary_steps hboundary) hboundary.nonempty hboundary.ends
          refine ⟨fun ht hlarge => ?_, fun ht => ?_⟩
          · have := hterminal ht hlarge
            omega
          · obtain ⟨fewer, hfewer, hcertified⟩ := hrest ht
            exact hcertified.mono (by omega)
      refine ⟨fun ki' ui' calls' hget => ?_, hresult.2⟩
      rw [Dict.get?_set] at hget
      split at hget
      · next hkey =>
        obtain ⟨rfl, rfl⟩ := Prod.mk.inj hkey
        obtain rfl := Option.some.inj hget
        exact hresult.2
      · exact hresult.1 ki' ui' calls' hget

/-- A request bound that is not refused bounds every walk: one call opens it. -/
theorem packedRequestBound_certified {known unknown : List Nat}
    (h : packedRequestBound known unknown (some closing) ≤ maxPaginationPages)
    (hsome : known ++ unknown ≠ []) :
    ∃ calls, packedRequestBound known unknown (some closing) = 1 + calls ∧
      (⟨known, unknown.insertionSort (· ≥ ·), some closing⟩ : Game).Certified closing calls 0 0 := by
  have hrefused : ¬ rejected ≤ maxPaginationPages := by decide
  unfold packedRequestBound at h ⊢
  dsimp only at h ⊢
  split at h
  · exact absurd h hrefused
  · next hsize =>
    rw [if_neg hsize]
    split at h
    · next calls after hpages =>
      have hframing : (⟨known, unknown.insertionSort (· ≥ ·), some closing⟩ : Game).framingCalls =
          1 := rfl
      rw [hframing] at h ⊢
      have hbelow : 1 + calls < rejected := by
        unfold rejected at h ⊢
        omega
      obtain ⟨_, hcertified⟩ := pages_sound rfl _ _ _ _ _ _ hpages
        (fun _ _ _ hget => absurd hget (by simp))
      refine ⟨calls, min_eq_right hbelow.le, hcertified ?_ ?_⟩
      · unfold rejected at hbelow
        omega
      · rintro ⟨hknown, hunknown⟩
        rw [List.length_insertionSort] at hunknown
        refine hsome (List.append_eq_nil_iff.mpr ⟨?_, ?_⟩)
        · exact List.length_eq_zero_iff.mp hknown.symm
        · exact List.length_eq_zero_iff.mp hunknown.symm
    · exact absurd h hrefused

theorem packedRequestBound_nil : packedRequestBound [] [] (some closing) = 2 := rfl

theorem mem_steps (h : some (a, b) ∈ g.steps ki ui) :
    a ≤ g.known.length - ki ∧ b ≤ g.largest.length - ui := by
  unfold Game.steps at h
  rcases List.mem_append.mp h with hpage | hleave
  · obtain ⟨end', hend, hcandidate⟩ := List.mem_flatMap.mp hpage
    rcases List.mem_cons.mp hcandidate with heq | hmem
    · cases heq
    obtain ⟨added, hadded, heq⟩ := List.mem_map.mp hmem
    obtain ⟨rfl, rfl⟩ := Prod.mk.inj (Option.some.inj heq)
    have hrange := List.mem_range.mp ((List.takeWhile_sublist _).subset hend)
    have hmaximum : added ≤ g.maximum ki ui end' := by
      unfold Game.candidates at hadded
      split at hadded
      · exact (List.mem_singleton.mp hadded).le
      · have := List.mem_range'_1.mp hadded
        omega
    unfold Game.maximum at hmaximum
    omega
  · split at hleave
    · cases List.mem_singleton.mp hleave
    · cases hleave

theorem finish_congr {other : Nat → Nat → ProofState → Option (Nat × ProofState)}
    (h : ∀ s, rest (ki + a) (ui + b) s = other (ki + a) (ui + b) s) (s : ProofState) :
    g.finish rest ki ui a b s = g.finish other ki ui a b s := by
  unfold Game.finish
  rw [h]

theorem scan_congr {other : Nat → Nat → ProofState → Option (Nat × ProofState)}
    {steps : List (Option (Nat × Nat))}
    (h : ∀ a b, some (a, b) ∈ steps → 0 < a + b → ∀ s,
      rest (ki + a) (ui + b) s = other (ki + a) (ui + b) s) (worst : Nat) (s : ProofState) :
    g.scan rest ki ui steps worst s = g.scan other ki ui steps worst s := by
  induction steps generalizing worst s with
  | nil => rfl
  | cons step steps ih =>
    have htail := ih (fun a b hmem => h a b (List.mem_cons_of_mem _ hmem))
    unfold Game.scan
    split
    · rfl
    cases step with
    | none => exact htail _ _
    | some page =>
      obtain ⟨a, b⟩ := page
      dsimp only
      split
      · exact htail _ _
      · next hpage =>
        rw [not_or] at hpage
        rw [finish_congr (h a b List.mem_cons_self (Nat.pos_of_ne_zero hpage.1))]
        split
        · rfl
        · split
          · rfl
          · exact htail _ _

/-- Fuel for every comment that is left is enough: more changes nothing. -/
theorem pages_fuel {fuel more : Nat} {s : ProofState}
    (hfuel : g.known.length - ki + (g.largest.length - ui) < fuel)
    (hmore : g.known.length - ki + (g.largest.length - ui) < more) :
    g.pages fuel ki ui s = g.pages more ki ui s := by
  induction fuel generalizing more ki ui s with
  | zero => omega
  | succ fuel ih =>
    obtain ⟨more, rfl⟩ : ∃ m, more = m + 1 := ⟨more - 1, by omega⟩
    have hscan : g.scan (g.pages fuel) ki ui (g.steps ki ui) 0 s =
        g.scan (g.pages more) ki ui (g.steps ki ui) 0 s := by
      refine scan_congr (fun a b hmem hpos s => ?_) 0 s
      have hleft := mem_steps hmem
      exact ih (by omega) (by omega)
    unfold Game.pages
    rw [hscan]

/-- An order of all comments, by how many known ones and unknown ones stand before each place. -/
structure Game.Order (g : Game) where
  known : Nat → Nat
  unknown : Nat → Nat
  place : ∀ j, known j + unknown j = j
  step : ∀ j, known j ≤ known (j + 1) ∧ known (j + 1) ≤ known j + 1
  last : known (g.known.length + g.largest.length) = g.known.length

namespace Game.Order
variable (o : g.Order)

theorem known_mono {i j : Nat} (h : i ≤ j) : o.known i ≤ o.known j ∧ o.unknown i ≤ o.unknown j := by
  induction j, h using Nat.le_induction with
  | base => exact ⟨le_refl _, le_refl _⟩
  | succ j _ ih =>
    have hstep := o.step j
    have hj := o.place j
    have hnext := o.place (j + 1)
    omega

theorem bounded {j : Nat} (h : j ≤ g.known.length + g.largest.length) :
    o.known j ≤ g.known.length ∧ o.unknown j ≤ g.largest.length := by
  have hmono := o.known_mono h
  have hlast := o.last
  have hplace := o.place (g.known.length + g.largest.length)
  omega

/-- The cost of the comments between two places, as a page. -/
def cost (i j : Nat) : Nat :=
  g.pageCost (o.known i) (o.known j - o.known i) (o.unknown j - o.unknown i)

/-- One more comment costs its row and its bound. -/
theorem cost_succ {i j : Nat} (hij : i ≤ j) (hj : j < g.known.length + g.largest.length) :
    (o.known (j + 1) = o.known j + 1 ∧ o.unknown (j + 1) = o.unknown j ∧
        ∃ next ∈ g.known[o.known j]?, o.cost i (j + 1) = o.cost i j + nodeMetadataBytes + next) ∨
      (o.known (j + 1) = o.known j ∧ o.unknown (j + 1) = o.unknown j + 1 ∧
        ∃ next ∈ g.largest[o.unknown j - o.unknown i]?,
          o.cost i (j + 1) = o.cost i j + nodeMetadataBytes + next) := by
  have hstep := o.step j
  have hplace := o.place j
  have hnext := o.place (j + 1)
  have hmono := o.known_mono hij
  have hbound := o.bounded (j := j + 1) hj
  unfold cost Game.pageCost
  rcases Nat.lt_or_ge (o.known j) (o.known (j + 1)) with hknown | hunknown
  · have hsucc : o.known (j + 1) = o.known j + 1 := by omega
    have hsame : o.unknown (j + 1) = o.unknown j := by omega
    have hlt : o.known j < g.known.length := by omega
    refine .inl ⟨hsucc, hsame, g.known[o.known j], by simp [hlt], ?_⟩
    have hcount : o.known (j + 1) - o.known i = o.known j - o.known i + 1 := by omega
    have hget : (g.known.drop (o.known i))[o.known j - o.known i]? = some g.known[o.known j] := by
      rw [List.getElem?_drop, Nat.add_sub_cancel' hmono.1, List.getElem?_eq_getElem hlt]
    rw [hsame, hcount]
    unfold Game.knownCost
    rw [List.take_add_one, hget, List.sum_append, Nat.mul_succ]
    simp only [Option.toList_some, List.sum_singleton]
    omega
  · have hsame : o.known (j + 1) = o.known j := by omega
    have hsucc : o.unknown (j + 1) = o.unknown j + 1 := by omega
    have hlt : o.unknown j - o.unknown i < g.largest.length := by omega
    refine .inr ⟨hsame, hsucc, g.largest[o.unknown j - o.unknown i], by simp [hlt], ?_⟩
    have hcount : o.unknown (j + 1) - o.unknown i = o.unknown j - o.unknown i + 1 := by omega
    rw [hsame, hcount]
    unfold Game.unknownCost
    rw [List.take_add_one, List.getElem?_eq_getElem hlt, List.sum_append, Nat.mul_succ]
    simp only [Option.toList_some, List.sum_singleton]
    omega

/-- From every place before the last some page of the order starts. -/
theorem exists_boundary (hfits : ∀ bound ∈ g.known ++ g.largest,
      outerBytes + nodeMetadataBytes + bound ≤ maxGithubResponseBytes)
    {i : Nat} (hi : i < g.known.length + g.largest.length) :
    ∃ e, i < e ∧ e ≤ g.known.length + g.largest.length ∧
      g.Boundary (o.known i) (o.unknown i) (o.known e - o.known i) (o.unknown e - o.unknown i) := by
  let Fits (e : Nat) : Prop := i < e ∧ e ≤ i + 100 ∧ o.cost i e ≤ maxGithubResponseBytes
  have hzero : o.cost i i = outerBytes := by
    unfold cost Game.pageCost Game.knownCost Game.unknownCost
    simp
  have hfirst : Fits (i + 1) := by
    refine ⟨Nat.lt_succ_self i, by omega, ?_⟩
    rcases o.cost_succ (le_refl i) hi with ⟨_, _, next, hnext, hcost⟩ | ⟨_, _, next, hnext, hcost⟩
    · have := hfits next (List.mem_append_left _ (List.mem_of_getElem? hnext))
      omega
    · have := hfits next (List.mem_append_right _ (List.mem_of_getElem? hnext))
      omega
  -- the page ends at the last place up to which everything fits
  have hdec : DecidablePred Fits := fun e => inferInstanceAs (Decidable (_ ∧ _ ∧ _))
  let e := Nat.findGreatest Fits (g.known.length + g.largest.length)
  have he : Fits e := Nat.findGreatest_spec (Nat.succ_le_of_lt hi) hfirst
  have hle : e ≤ g.known.length + g.largest.length := Nat.findGreatest_le _
  have hmore (h : e < g.known.length + g.largest.length) : ¬ Fits (e + 1) := by
    exact Nat.findGreatest_is_greatest (Nat.lt_succ_self e) (Nat.succ_le_of_lt h)
  obtain ⟨hlt, hcount, hcost⟩ := he
  have hmono := o.known_mono hlt.le
  have hbound := o.bounded hle
  have hplace := o.place e
  have hstart := o.place i
  refine ⟨e, hlt, hle, by omega, by omega, by omega, by omega, hcost, ?_⟩
  rcases Nat.lt_or_ge e (g.known.length + g.largest.length) with hinside | hlast
  · by_cases hfull : e = i + 100
    · exact .inr (.inl (by omega))
    have hlarge : maxGithubResponseBytes < o.cost i (e + 1) := by
      by_contra hnot
      exact hmore hinside ⟨by omega, by omega, by omega⟩
    have hkey : o.known i + (o.known e - o.known i) = o.known e := by omega
    rcases o.cost_succ hlt.le hinside with ⟨_, _, next, hnext, hsum⟩ | ⟨_, hsucc, next, hnext, hsum⟩
    · refine .inr (.inr (.inl ⟨next, ?_, ?_⟩))
      · rw [hkey]
        exact hnext
      · exact hsum ▸ hlarge
    · refine .inr (.inr (.inr ⟨?_, next, hnext, hsum ▸ hlarge⟩))
      have := (o.bounded (j := e + 1) hinside).2
      omega
  · left
    have heq : e = g.known.length + g.largest.length := by omega
    have hknown := o.last
    rw [← heq] at hknown
    constructor <;> omega

end Game.Order

end Certificate

end ReviewSensei.Packed
