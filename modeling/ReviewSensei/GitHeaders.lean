import ReviewSensei.GitPaths
import ReviewSensei.DiffRecords
import Mathlib.Data.List.DropRight

/-! How a Git header of two spelled paths is split again. -/
namespace ReviewSensei.Diff
open Session (isPythonSpace stripBy)

/-- What a header says after `diff --git `. -/
def headerSides (p q : Path) : Text :=
  gitSpelling ('a' :: '/' :: p) ++ ' ' :: gitSpelling ('b' :: '/' :: q)

section tokens

theorem headerTokens_nil (fuel : Nat) : headerTokens fuel [] = .ok [] := by
  cases fuel <;> rfl

theorem headerTokens_blank (fuel : Nat) (t : Text) :
    headerTokens fuel (' ' :: t) = headerTokens fuel t := by
  cases fuel with
  | zero => rfl
  | succ fuel =>
    have hdrop : (' ' :: t).dropWhile isPythonSpace = t.dropWhile isPythonSpace :=
      List.dropWhile_cons_of_pos (by decide)
    unfold headerTokens
    rw [hdrop]

theorem headerTokens_quoted (fuel : Nat) (bytes : List UInt8) (rest : Text) :
    headerTokens (fuel + 1) ('"' :: (quoted bytes ++ ['"']) ++ rest) =
      (headerTokens fuel rest).map (('"' :: (quoted bytes ++ ['"'])) :: ·) := by
  have hdrop : ('"' :: (quoted bytes ++ ['"']) ++ rest).dropWhile isPythonSpace =
      '"' :: (quoted bytes ++ ['"']) ++ rest := List.dropWhile_cons_of_neg (by decide)
  rw [headerTokens.eq_2, hdrop]
  change (scanQuotedToken ('"' :: (quoted bytes ++ ['"']) ++ rest)).bind (fun scanned =>
    (headerTokens fuel scanned.2).bind fun tokens => .ok (scanned.1 :: tokens)) = _
  rw [scanQuotedToken_quoted]
  change (headerTokens fuel rest).bind (fun tokens =>
    .ok (('"' :: (quoted bytes ++ ['"'])) :: tokens)) = _
  cases headerTokens fuel rest <;> rfl

/-- A word ends at white space or with the text. -/
theorem headerTokens_word (fuel : Nat) {c : Char} {w rest : Text} (hquote : c ≠ '"')
    (hword : ∀ d ∈ c :: w, isPythonSpace d = false)
    (hrest : ∀ d ∈ rest.head?, isPythonSpace d = true) :
    headerTokens (fuel + 1) (c :: w ++ rest) = (headerTokens fuel rest).map ((c :: w) :: ·) := by
  have hdrop : (c :: w ++ rest).dropWhile isPythonSpace = c :: w ++ rest :=
    List.dropWhile_cons_of_neg (by simpa using hword c List.mem_cons_self)
  have hnot : ∀ d ∈ c :: w, (!isPythonSpace d) = true := by
    intro d hd
    rw [hword d hd]
    rfl
  have hstop : rest.takeWhile (!isPythonSpace ·) = [] ∧
      rest.dropWhile (!isPythonSpace ·) = rest := by
    cases rest with
    | nil => exact ⟨rfl, rfl⟩
    | cons d rest =>
      have hd := hrest d rfl
      simp [hd]
  have htake : (c :: w ++ rest).takeWhile (!isPythonSpace ·) = c :: w := by
    rw [List.takeWhile_append_of_pos hnot, hstop.1, List.append_nil]
  have hafter : (c :: w ++ rest).dropWhile (!isPythonSpace ·) = rest := by
    rw [List.dropWhile_append_of_pos hnot, hstop.2]
  rw [headerTokens.eq_2, hdrop]
  dsimp only
  split
  · next hnil => cases hnil
  · next heq => exact absurd (List.cons.inj heq).1 hquote
  · rw [hafter, htake]
    cases headerTokens fuel rest <;> rfl

/-- Text that is not all blank has a token. -/
theorem headerTokens_ne_nil {fuel : Nat} {t : Text} {c : Char} (hc : c ∈ t)
    (hspace : isPythonSpace c = false) {tokens : List Text}
    (h : headerTokens (fuel + 1) t = .ok tokens) : tokens ≠ [] := by
  have hdrop : t.dropWhile isPythonSpace ≠ [] := by
    intro hnil
    have := List.dropWhile_eq_nil_iff.mp hnil c hc
    rw [hspace] at this
    cases this
  rw [headerTokens.eq_2] at h
  dsimp only at h
  split at h
  · next hnil => exact absurd hnil hdrop
  · obtain ⟨⟨token, rest⟩, _, h⟩ := Session.bind_ok h
    obtain ⟨tokens', _, h⟩ := Session.bind_ok h
    rw [← Except.ok.inj h]
    exact List.cons_ne_nil _ _
  · obtain ⟨tokens', _, h⟩ := Session.bind_ok h
    rw [← Except.ok.inj h]
    exact List.cons_ne_nil _ _

/-- The side of a path that needs quotes, and the side of one that needs none. -/
theorem needsQuoting_side {c : Char} (hc : c ∈ ['a', 'b']) (p : Path) :
    needsQuoting (c :: '/' :: p) = needsQuoting p := by
  have hside : utf8Bytes (c :: '/' :: p) =
      String.utf8EncodeChar c ++ (String.utf8EncodeChar '/' ++ utf8Bytes p) := rfl
  have hascii : (String.utf8EncodeChar c).any escapedByte = false ∧
      (String.utf8EncodeChar '/').any escapedByte = false := by
    simp only [List.mem_cons, List.not_mem_nil, or_false] at hc
    rcases hc with rfl | rfl <;> decide
  unfold needsQuoting
  rw [hside, List.any_append, List.any_append, hascii.1, hascii.2]
  rfl

theorem spelling_quoted {t : Text} (h : needsQuoting t = true) :
    gitSpelling t = '"' :: (quoted (utf8Bytes t) ++ ['"']) := if_pos h

theorem spelling_raw {t : Text} (h : needsQuoting t = false) : gitSpelling t = t :=
  if_neg (by rw [h]; exact Bool.false_ne_true)

/-- An unquoted side without a blank is one word. -/
theorem word_of_raw {c : Char} (hc : c ∈ ['a', 'b']) {p : Path} (hraw : needsQuoting p = false)
    (hblank : ' ' ∉ p) : c ≠ '"' ∧ ∀ d ∈ c :: '/' :: p, isPythonSpace d = false := by
  have hside := needsQuoting_side hc p
  rw [hraw] at hside
  have hnot : ' ' ∉ c :: '/' :: p := by
    simp only [List.mem_cons, List.not_mem_nil, or_false] at hc
    rcases hc with rfl | rfl <;> simpa using hblank
  refine ⟨fun heq => quote_not_mem_raw hside (heq ▸ List.mem_cons_self), fun d hd => ?_⟩
  by_contra hspace
  rw [Bool.not_eq_false] at hspace
  rw [space_of_raw hside hd hspace] at hd
  exact hnot hd

/-- One token for each side where no unquoted side holds a blank. -/
theorem headerTokens_sides (p q : Path) (fuel : Nat)
    (hp : needsQuoting p = false → ' ' ∉ p) (hq : needsQuoting q = false → ' ' ∉ q) :
    headerTokens (fuel + 2) (headerSides p q) =
      .ok [gitSpelling ('a' :: '/' :: p), gitSpelling ('b' :: '/' :: q)] := by
  have hlast : headerTokens (fuel + 1) (gitSpelling ('b' :: '/' :: q)) =
      .ok [gitSpelling ('b' :: '/' :: q)] := by
    cases hquote : needsQuoting q with
    | true =>
      have hside := (needsQuoting_side (c := 'b') (by simp) q).trans hquote
      have htoken := headerTokens_quoted fuel (utf8Bytes ('b' :: '/' :: q)) []
      rw [List.append_nil] at htoken
      rw [spelling_quoted hside, htoken, headerTokens_nil]
      rfl
    | false =>
      have hside := (needsQuoting_side (c := 'b') (by simp) q).trans hquote
      obtain ⟨hhead, hword⟩ := word_of_raw (c := 'b') (by simp) hquote (hq hquote)
      have htoken := @headerTokens_word fuel _ _ [] hhead hword nofun
      rw [List.append_nil] at htoken
      rw [spelling_raw hside, htoken, headerTokens_nil]
      rfl
  unfold headerSides
  cases hquote : needsQuoting p with
  | true =>
    have hside := (needsQuoting_side (c := 'a') (by simp) p).trans hquote
    rw [spelling_quoted hside, headerTokens_quoted, headerTokens_blank, hlast]
    rfl
  | false =>
    have hside := (needsQuoting_side (c := 'a') (by simp) p).trans hquote
    obtain ⟨hhead, hword⟩ := word_of_raw (c := 'a') (by simp) hquote (hp hquote)
    rw [spelling_raw hside, headerTokens_word (fuel + 1) hhead hword (by simp [isPythonSpace]),
      headerTokens_blank, hlast]
    rfl

/-- A path with a blank: words before it and after it. -/
theorem exists_blank {p : Path} (hstripped : p = stripBy isPythonSpace p) (hblank : ' ' ∈ p) :
    ∃ w rest, p = w ++ ' ' :: rest ∧ ' ' ∉ w ∧ ∃ c ∈ rest, isPythonSpace c = false := by
  obtain ⟨w, rest, hsplit, hw⟩ := List.eq_append_cons_of_mem hblank
  have hne : rest ≠ [] := by
    rintro rfl
    have hlast := last_of_stripBy hstripped ' ' (by rw [hsplit]; simp)
    exact absurd hlast (by decide)
  refine ⟨w, rest, hsplit, hw, rest.getLast hne, List.getLast_mem hne, ?_⟩
  apply last_of_stripBy hstripped
  rw [hsplit, List.getLast?_append_cons, List.getLast?_cons_of_ne_nil hne,
    List.getLast?_eq_some_getLast hne]
  rfl

/-- A side of its own after a word: with a blank in it, more than two tokens in all. -/
theorem headerTokens_raw_new {q : Path} (hraw : needsQuoting q = false)
    (hstripped : q = stripBy isPythonSpace q) (hblank : ' ' ∈ q) (fuel : Nat)
    {tokens : List Text} (h : headerTokens (fuel + 2) ('b' :: '/' :: q) = .ok tokens) :
    2 ≤ tokens.length := by
  obtain ⟨w, rest, hsplit, hw, c, hc, hspace⟩ := exists_blank hstripped hblank
  have hrawSplit : ∀ d ∈ 'b' :: '/' :: w, isPythonSpace d = false := by
    intro d hd
    by_contra hbad
    rw [Bool.not_eq_false] at hbad
    rcases List.mem_cons.mp hd with rfl | hd
    · exact absurd hbad (by decide)
    rcases List.mem_cons.mp hd with rfl | hd
    · exact absurd hbad (by decide)
    rw [space_of_raw hraw (hsplit ▸ List.mem_append_left _ hd) hbad] at hd
    exact hw hd
  have htext : 'b' :: '/' :: q = ('b' :: '/' :: w) ++ ' ' :: rest := by rw [hsplit]; rfl
  rw [htext, headerTokens_word (fuel + 1) (by decide) hrawSplit (by simp [isPythonSpace]),
    headerTokens_blank] at h
  cases hmore : headerTokens (fuel + 1) rest with
  | error e =>
    rw [hmore] at h
    cases h
  | ok more =>
    rw [hmore] at h
    have hne := headerTokens_ne_nil hc hspace hmore
    rw [← Except.ok.inj h, List.length_cons]
    have := List.length_pos_iff.mpr hne
    omega

theorem headerTokens_trim (fuel : Nat) (t : Text) :
    headerTokens fuel t = headerTokens fuel (t.dropWhile isPythonSpace) := by
  cases fuel with
  | zero => rfl
  | succ fuel => rw [headerTokens.eq_2, headerTokens.eq_2, List.dropWhile_idempotent]

/-- Before a quoted side, an unquoted one with a blank is more than one token. -/
theorem headerTokens_raw_old {p : Path} (hraw : needsQuoting p = false)
    (hstripped : p = stripBy isPythonSpace p) (hblank : ' ' ∈ p) (fuel : Nat) (t : Text)
    {tokens : List Text}
    (h : headerTokens (fuel + 3) ('a' :: '/' :: p ++ ' ' :: '"' :: t) = .ok tokens) :
    3 ≤ tokens.length := by
  obtain ⟨w, rest, hsplit, hw, c, hc, hspace⟩ := exists_blank hstripped hblank
  have hword (u : Text) (hu : ∀ d ∈ u, d ∈ p) (hno : ' ' ∉ u) :
      ∀ d ∈ u, isPythonSpace d = false := by
    intro d hd
    by_contra hbad
    rw [Bool.not_eq_false] at hbad
    rw [space_of_raw hraw (hu d hd) hbad] at hd
    exact hno hd
  have hfirst : ∀ d ∈ 'a' :: '/' :: w, isPythonSpace d = false := by
    intro d hd
    rcases List.mem_cons.mp hd with rfl | hd
    · decide
    rcases List.mem_cons.mp hd with rfl | hd
    · decide
    exact hword w (fun d hd => hsplit ▸ List.mem_append_left _ hd) hw d hd
  have htext : 'a' :: '/' :: p ++ ' ' :: '"' :: t =
      ('a' :: '/' :: w) ++ ' ' :: (rest ++ ' ' :: '"' :: t) := by
    rw [hsplit]
    simp
  rw [htext, headerTokens_word (fuel + 2) (by decide) hfirst (by simp [isPythonSpace]),
    headerTokens_blank, headerTokens_trim] at h
  -- the second word is cut from what is left of the path
  have hleft : rest.dropWhile isPythonSpace ≠ [] := by
    intro hnil
    have := List.dropWhile_eq_nil_iff.mp hnil c hc
    rw [hspace] at this
    cases this
  obtain ⟨d, u, hdrop⟩ := List.exists_cons_of_ne_nil hleft
  have hd : isPythonSpace d = false := by
    have := List.head?_dropWhile_not isPythonSpace rest
    rw [hdrop] at this
    simpa using this
  have hmem : ∀ e ∈ d :: u, e ∈ p := by
    intro e he
    rw [hsplit]
    refine List.mem_append_right _ (List.mem_cons_of_mem _ ?_)
    exact (List.dropWhile_suffix _).subset (hdrop ▸ he)
  have hquote : d ≠ '"' := fun heq => quote_not_mem_raw hraw (heq ▸ hmem d List.mem_cons_self)
  have hsecond : (rest ++ ' ' :: '"' :: t).dropWhile isPythonSpace =
      d :: u.takeWhile (!isPythonSpace ·) ++
        (u.dropWhile (!isPythonSpace ·) ++ ' ' :: '"' :: t) := by
    rw [List.dropWhile_append, hdrop]
    simp [← List.append_assoc, List.takeWhile_append_dropWhile]
  have hsecondWord : ∀ e ∈ d :: u.takeWhile (!isPythonSpace ·), isPythonSpace e = false := by
    intro e he
    rcases List.mem_cons.mp he with rfl | he
    · exact hd
    · simpa using List.mem_takeWhile_imp he
  have hstop : ∀ e ∈ (u.dropWhile (!isPythonSpace ·) ++ ' ' :: '"' :: t).head?,
      isPythonSpace e = true := by
    intro e he
    cases hrest : u.dropWhile (!isPythonSpace ·) with
    | nil =>
      rw [hrest] at he
      rw [← Option.some.inj he]
      decide
    | cons x xs =>
      have hx := List.head?_dropWhile_not (!isPythonSpace ·) u
      rw [hrest] at hx he
      rw [← Option.some.inj he]
      simpa using hx
  rw [hsecond, headerTokens_word (fuel + 1) hquote hsecondWord hstop] at h
  cases hmore : headerTokens (fuel + 1) (u.dropWhile (!isPythonSpace ·) ++ ' ' :: '"' :: t) with
  | error e =>
    rw [hmore] at h
    cases h
  | ok more =>
    rw [hmore] at h
    have hne : more ≠ [] := headerTokens_ne_nil (c := '"') (by simp) (by decide) hmore
    rw [← Except.ok.inj h, List.length_cons, List.length_cons]
    have := List.length_pos_iff.mpr hne
    omega

end tokens
section boundaries

theorem occurrences_nil (word : String) : occurrences word [] = [] := rfl

theorem occurrences_cons (word : String) (c : Char) (t : Text) :
    occurrences word (c :: t) =
      (if starts word (c :: t) then [0] else []) ++ (occurrences word t).map (· + 1) := by
  unfold occurrences
  rw [List.length_cons, List.range_succ_eq_map, List.filter_cons, List.filter_map]
  have hshift : ((fun i => starts word ((c :: t).drop i)) ∘ Nat.succ) =
      fun i => starts word (t.drop i) := rfl
  rw [hshift, List.drop_zero]
  split <;> rfl

/-- The boundaries of an unquoted header: those inside a path, and the one between the paths. -/
theorem occurrences_between (p q : Text) :
    occurrences " b/" (p ++ ' ' :: 'b' :: '/' :: q) = occurrences " b/" p ++
      p.length :: (occurrences " b/" q).map (· + (p.length + 3)) := by
  have hstarts (c : Char) (t : Text) : starts " b/" (c :: t) =
      (c == ' ' && (t.head? == some 'b' && (t.drop 1).head? == some '/')) := by
    have hword : " b/".toList = [' ', 'b', '/'] := rfl
    unfold starts
    rw [hword]
    rcases t with _ | ⟨d, _ | ⟨e, t⟩⟩ <;> simp [List.isPrefixOf, Bool.beq_comm]
  induction p with
  | nil =>
    rw [List.nil_append, occurrences_cons, occurrences_cons, occurrences_cons, hstarts, hstarts,
      hstarts]
    simp [occurrences_nil, Function.comp_def, Nat.add_assoc]
  | cons c p ih =>
    have hsame : starts " b/" (c :: (p ++ ' ' :: 'b' :: '/' :: q)) = starts " b/" (c :: p) := by
      rw [hstarts, hstarts]
      rcases p with _ | ⟨d, _ | ⟨e, p⟩⟩ <;> simp
    rw [List.cons_append, occurrences_cons, occurrences_cons, ih, hsame]
    simp [Function.comp_def, Nat.add_assoc, Nat.add_comm, Nat.add_left_comm]

theorem occurrences_side {c : Char} (hc : c ∈ ['a', 'b']) (p : Text) :
    occurrences " b/" (c :: '/' :: p) = (occurrences " b/" p).map (· + 2) := by
  have hword : " b/".toList = [' ', 'b', '/'] := rfl
  have hno : starts " b/" (c :: '/' :: p) = false ∧ starts " b/" ('/' :: p) = false := by
    simp only [List.mem_cons, List.not_mem_nil, or_false] at hc
    unfold starts
    rw [hword]
    rcases hc with rfl | rfl <;> simp [List.isPrefixOf]
  rw [occurrences_cons, occurrences_cons, hno.1, hno.2]
  simp [Function.comp_def, Nat.add_assoc]

end boundaries

/-- The header line of two paths, as Git writes it. -/
def headerLine (p q : Path) : Text := text "diff --git " ++ headerSides p q

/-- The two sides of a header can be told apart: beside a quoted side no blank stands unquoted, and
two unquoted sides are equal or hold no boundary of their own. -/
def Separable (p q : Path) : Prop :=
  if needsQuoting p = true ∨ needsQuoting q = true then
    (needsQuoting p = false → ' ' ∉ p) ∧ (needsQuoting q = false → ' ' ∉ q)
  else p = q ∨ (occurrences " b/" p = [] ∧ occurrences " b/" q = [])

section splitting
variable {p q : Path}

theorem after_headerLine (p q : Path) : after "diff --git " (headerLine p q) = headerSides p q := by
  unfold after headerLine text
  rw [← String.length_toList, List.drop_left]

theorem length_headerSides (p q : Path) :
    ∃ fuel, (headerSides p q).length = fuel + 3 := by
  have hlength (t : Text) : t.length ≤ (gitSpelling t).length := by
    unfold gitSpelling
    split
    · have hbytes (t : Text) : t.length ≤ (utf8Bytes t).length := by
        rw [length_utf8Bytes]
        induction t with
        | nil => exact Nat.le_refl _
        | cons c t ih =>
          have := c.utf8Size_pos
          simp only [utf8Size, List.map_cons, List.sum_cons, List.length_cons] at ih ⊢
          omega
      have hquoted (bytes : List UInt8) : bytes.length ≤ (quoted bytes).length := by
        induction bytes with
        | nil => exact Nat.le_refl _
        | cons b bytes ih =>
          have hone : 1 ≤ (quoteByte b).length := by
            have hshape := quoteByte_shape b
            generalize quoteByte b = spelled at hshape
            cases hshape <;> simp
          simp only [quoted, List.flatMap_cons, List.length_append, List.length_cons] at ih ⊢
          omega
      have h1 := hbytes t
      have h2 := hquoted (utf8Bytes t)
      simp only [List.length_cons, List.length_append]
      omega
    · exact Nat.le_refl _
  have hold := hlength ('a' :: '/' :: p)
  have hnew := hlength ('b' :: '/' :: q)
  unfold headerSides
  rw [List.length_cons, List.length_cons] at hold hnew
  rw [List.length_append, List.length_cons]
  exact ⟨(gitSpelling ('a' :: '/' :: p)).length + (gitSpelling ('b' :: '/' :: q)).length - 2,
    by omega⟩

theorem quote_mem_sides (h : needsQuoting p = true ∨ needsQuoting q = true) :
    '"' ∈ headerSides p q := by
  unfold headerSides
  rcases h with hp | hq
  · rw [spelling_quoted ((needsQuoting_side (c := 'a') (by simp) p).trans hp)]
    simp
  · rw [spelling_quoted ((needsQuoting_side (c := 'b') (by simp) q).trans hq)]
    simp

theorem headerSides_raw (hp : needsQuoting p = false) (hq : needsQuoting q = false) :
    headerSides p q = 'a' :: '/' :: p ++ ' ' :: 'b' :: '/' :: q := by
  unfold headerSides
  rw [spelling_raw ((needsQuoting_side (c := 'a') (by simp) p).trans hp),
    spelling_raw ((needsQuoting_side (c := 'b') (by simp) q).trans hq)]

theorem quote_not_mem_sides (hp : needsQuoting p = false) (hq : needsQuoting q = false) :
    '"' ∉ headerSides p q := by
  rw [headerSides_raw hp hq]
  have hpnot := quote_not_mem_raw hp
  have hqnot := quote_not_mem_raw hq
  simp [hpnot, hqnot]

theorem occurrences_sides (hp : needsQuoting p = false) (hq : needsQuoting q = false) :
    occurrences " b/" (headerSides p q) = (occurrences " b/" p).map (· + 2) ++
      (p.length + 2) :: (occurrences " b/" q).map (· + (p.length + 5)) := by
  rw [headerSides_raw hp hq, occurrences_between, occurrences_side (by simp)]
  rfl

theorem starts_side {c : Char} {t : Text}
    (h : starts (String.ofList [c, '/']) t = true) : ∃ rest, t = c :: '/' :: rest := by
  unfold starts at h
  rw [String.toList_ofList] at h
  obtain ⟨rest, rfl⟩ := List.isPrefixOf_iff_prefix.mp h
  exact ⟨rest, rfl⟩

/-- The midpoint of an unquoted header with equal sides. -/
theorem equalSides_same (p : Path) :
    equalSides ('a' :: '/' :: p ++ ' ' :: 'b' :: '/' :: p) =
      some (.fields ('a' :: '/' :: p) ('b' :: '/' :: p)) := by
  have hmid : (('a' :: '/' :: p ++ ' ' :: 'b' :: '/' :: p).length + 1) / 2 = p.length + 3 := by
    simp only [List.length_append, List.length_cons]
    omega
  have hbefore : ('a' :: '/' :: p ++ ' ' :: 'b' :: '/' :: p).take (p.length + 2) =
      'a' :: '/' :: p := List.take_left' rfl
  have hblank : ('a' :: '/' :: p ++ ' ' :: 'b' :: '/' :: p)[p.length + 2]? = some ' ' := by
    rw [List.getElem?_append_right (by simp)]
    simp
  have hafter : ('a' :: '/' :: p ++ ' ' :: 'b' :: '/' :: p).drop (p.length + 3) =
      'b' :: '/' :: p := by
    have hassoc : 'a' :: '/' :: p ++ ' ' :: 'b' :: '/' :: p =
        ('a' :: '/' :: p ++ [' ']) ++ 'b' :: '/' :: p := by simp
    rw [hassoc, List.drop_left' (by simp)]
  have hrest : ('a' :: '/' :: p ++ ' ' :: 'b' :: '/' :: p).drop (p.length + 3 + 2) = p := by
    rw [← List.drop_drop, hafter]
    rfl
  unfold equalSides
  dsimp only
  have hminus : p.length + 3 - 1 = p.length + 2 := rfl
  rw [hmid, hminus, hbefore, hafter, hrest]
  refine if_pos ⟨rfl, by omega, ?_, hblank, rfl, rfl⟩
  simp only [List.length_append, List.length_cons]
  omega

/-- Where the midpoint splits a header, both sides name one path. -/
theorem equalSides_some {rest : Text} {header : GitHeader} (h : equalSides rest = some header) :
    ∃ x, header = .fields ('a' :: '/' :: x) ('b' :: '/' :: x) ∧
      rest = 'a' :: '/' :: x ++ ' ' :: 'b' :: '/' :: x := by
  unfold equalSides at h
  dsimp only at h
  split at h
  · next hsplit =>
    obtain ⟨hold, hlow, _, hblank, hnew, hequal⟩ := hsplit
    generalize (rest.length + 1) / 2 = m at h hlow hblank hnew hequal
    obtain ⟨r, hr⟩ := starts_side (c := 'a') hold
    obtain ⟨n, hn⟩ := starts_side (c := 'b') hnew
    have hbefore : rest.take (m - 1) = 'a' :: '/' :: (rest.take (m - 1)).drop 2 := by
      obtain ⟨k, rfl⟩ : ∃ k, m = k + 3 := ⟨m - 3, by omega⟩
      rw [hr]
      rfl
    have hn' : n = rest.drop (m + 2) := by
      rw [← List.drop_drop, hn]
      rfl
    have hafter : rest.drop m = 'b' :: '/' :: (rest.take (m - 1)).drop 2 := by
      rw [hn, hn', ← hequal]
    refine ⟨(rest.take (m - 1)).drop 2, ?_, ?_⟩
    · rw [← Option.some.inj h, ← hbefore, ← hafter]
    · rw [← hbefore, ← hafter]
      have hdrop : rest.drop (m - 1) = ' ' :: rest.drop m := by
        obtain ⟨hlt, hget⟩ := List.getElem?_eq_some_iff.mp hblank
        rw [List.drop_eq_getElem_cons hlt, hget, Nat.sub_add_cancel (by omega)]
      rw [← hdrop, List.take_append_drop]
  · cases h

/-- Sides that can be told apart are told apart. -/
theorem splitGitHeader_separable (h : Separable p q) : splitGitHeader (headerLine p q) =
    .ok (.fields (gitSpelling ('a' :: '/' :: p)) (gitSpelling ('b' :: '/' :: q))) := by
  unfold splitGitHeader
  rw [after_headerLine]
  dsimp only
  by_cases hquote : needsQuoting p = true ∨ needsQuoting q = true
  · rw [Separable, if_pos hquote] at h
    rw [if_pos (quote_mem_sides hquote)]
    obtain ⟨fuel, hfuel⟩ := length_headerSides p q
    unfold splitByTokens
    rw [hfuel, headerTokens_sides p q (fuel + 1) h.1 h.2]
    rfl
  · rw [Separable, if_neg hquote] at h
    rw [not_or, Bool.not_eq_true, Bool.not_eq_true] at hquote
    obtain ⟨hp, hq⟩ := hquote
    have hold := spelling_raw ((needsQuoting_side (c := 'a') (by simp) p).trans hp)
    have hnew := spelling_raw ((needsQuoting_side (c := 'b') (by simp) q).trans hq)
    rw [if_neg (quote_not_mem_sides hp hq), hold, hnew]
    have hoccurrences := occurrences_sides hp hq
    have hsides := headerSides_raw hp hq
    have hbefore : (headerSides p q).take (p.length + 2) = 'a' :: '/' :: p := by
      rw [hsides]
      exact List.take_left' rfl
    have hafter : (headerSides p q).drop (p.length + 2 + 1) = 'b' :: '/' :: q := by
      have hassoc : headerSides p q = ('a' :: '/' :: p ++ [' ']) ++ 'b' :: '/' :: q := by
        rw [hsides]
        simp
      rw [hassoc, List.drop_left' (by simp)]
    by_cases hnone : occurrences " b/" p = [] ∧ occurrences " b/" q = []
    · rw [hnone.1, hnone.2] at hoccurrences
      rw [hoccurrences]
      change (if _ then _ else _) = _
      rw [hbefore, hafter]
      exact if_pos ⟨rfl, rfl⟩
    · obtain rfl : p = q := h.resolve_right hnone
      have hone : occurrences " b/" p ≠ [] := fun hnil => hnone ⟨hnil, hnil⟩
      split
      · next hnil =>
        rw [hoccurrences] at hnil
        simp at hnil
      · next boundary hsingle =>
        rw [hoccurrences] at hsingle
        have hlength := congrArg List.length hsingle
        have hpos := List.length_pos_iff.mpr hone
        simp only [List.length_append, List.length_map, List.length_cons, List.length_nil]
          at hlength
        omega
      · rw [hsides, equalSides_same]
        rfl

/-- What becomes of sides that cannot be told apart. -/
inductive Confused (p q : Path) : Except String GitHeader → Prop
  | refused (e : String) : Confused p q (.error e)
  | unresolved : Confused p q (.ok (.unresolvedUnquoted (headerSides p q)))
  /-- The midpoint splits the header in another way. -/
  | other (x : Text) (hx : x ≠ p) :
    Confused p q (.ok (.fields ('a' :: '/' :: x) ('b' :: '/' :: x)))

theorem splitByTokens_refused {rest : Text}
    (h : ∀ tokens, headerTokens rest.length rest = .ok tokens → 3 ≤ tokens.length) :
    ∃ e, splitByTokens rest = .error e := by
  unfold splitByTokens
  cases htokens : headerTokens rest.length rest with
  | error e => exact ⟨e, rfl⟩
  | ok tokens =>
    have hlength := h tokens htokens
    match tokens with
    | [] => exact ⟨_, rfl⟩
    | [_] => exact ⟨_, rfl⟩
    | [_, _] => simp at hlength
    | _ :: _ :: _ :: _ => exact ⟨_, rfl⟩

theorem splitGitHeader_confused (hpath : p = stripBy isPythonSpace p)
    (hnew : q = stripBy isPythonSpace q) (h : ¬ Separable p q) :
    Confused p q (splitGitHeader (headerLine p q)) := by
  unfold splitGitHeader
  rw [after_headerLine]
  dsimp only
  by_cases hquote : needsQuoting p = true ∨ needsQuoting q = true
  · rw [Separable, if_pos hquote] at h
    rw [if_pos (quote_mem_sides hquote)]
    obtain ⟨fuel, hfuel⟩ := length_headerSides p q
    have hrefused : ∃ e, splitByTokens (headerSides p q) = .error e := by
      apply splitByTokens_refused
      intro tokens htokens
      rw [hfuel] at htokens
      unfold headerSides at htokens
      by_cases hblank : needsQuoting p = false → ' ' ∉ p
      · have hbad : ¬ (needsQuoting q = false → ' ' ∉ q) := fun hgood => h ⟨hblank, hgood⟩
        rw [Classical.not_imp, not_not] at hbad
        obtain ⟨hq, hspace⟩ := hbad
        have hp : needsQuoting p = true :=
          hquote.resolve_right (by rw [hq]; exact Bool.false_ne_true)
        rw [spelling_quoted ((needsQuoting_side (c := 'a') (by simp) p).trans hp),
          spelling_raw ((needsQuoting_side (c := 'b') (by simp) q).trans hq),
          headerTokens_quoted, headerTokens_blank] at htokens
        cases hmore : headerTokens (fuel + 2) ('b' :: '/' :: q) with
        | error e =>
          rw [hmore] at htokens
          cases htokens
        | ok more =>
          rw [hmore] at htokens
          have hlength := headerTokens_raw_new hq hnew hspace fuel hmore
          rw [← Except.ok.inj htokens, List.length_cons]
          omega
      · rw [Classical.not_imp, not_not] at hblank
        obtain ⟨hp, hspace⟩ := hblank
        have hq : needsQuoting q = true :=
          hquote.resolve_left (by rw [hp]; exact Bool.false_ne_true)
        rw [spelling_raw ((needsQuoting_side (c := 'a') (by simp) p).trans hp),
          spelling_quoted ((needsQuoting_side (c := 'b') (by simp) q).trans hq)] at htokens
        exact headerTokens_raw_old hp hpath hspace fuel _ htokens
    obtain ⟨e, he⟩ := hrefused
    rw [he]
    exact .refused e
  · rw [Separable, if_neg hquote, not_or] at h
    rw [not_or, Bool.not_eq_true, Bool.not_eq_true] at hquote
    obtain ⟨hp, hq⟩ := hquote
    rw [if_neg (quote_not_mem_sides hp hq)]
    have hoccurrences := occurrences_sides hp hq
    split
    · next hnil =>
      rw [hoccurrences] at hnil
      simp at hnil
    · next boundary hsingle =>
      rw [hoccurrences] at hsingle
      have hlength := congrArg List.length hsingle
      simp only [List.length_append, List.length_map, List.length_cons, List.length_nil] at hlength
      refine absurd ⟨?_, ?_⟩ h.2 <;> exact List.length_eq_zero_iff.mp (by omega)
    · cases hequal : equalSides (headerSides p q) with
      | none => exact .unresolved
      | some header =>
        obtain ⟨x, rfl, hrest⟩ := equalSides_some hequal
        refine .other x ?_
        rintro rfl
        rw [headerSides_raw hp hq] at hrest
        have hsame := List.append_cancel_left hrest
        simp only [List.cons.injEq, true_and] at hsame
        exact h.1 hsame.symm

end splitting
end ReviewSensei.Diff
