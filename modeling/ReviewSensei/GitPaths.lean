import ReviewSensei.GitQuoting
import ReviewSensei.SessionSteps

/-! Which paths are valid, and what a spelled path is decoded to. -/
namespace ReviewSensei.Diff
open Session (isPythonSpace stripBy bind_ok)

theorem ite_error_iff {α : Type} {c : Prop} [Decidable c] {e : String} {x : Except String α}
    {a : α} : (if c then .error e else x) = .ok a ↔ ¬ c ∧ x = .ok a := by
  by_cases hc : c
  · rw [if_pos hc]
    exact ⟨nofun, fun h => absurd hc h.1⟩
  · rw [if_neg hc]
    exact ⟨fun h => ⟨hc, h⟩, fun h => h.2⟩

/-- What `validate_repository_path` asks of a segment. -/
structure ValidSegment (s : Text) : Prop where
  named : ¬ (s = [] ∨ s = ['.'] ∨ s = ['.', '.'])
  stripped : s = stripBy isPythonSpace s
  size : utf8Size s ≤ maxRepositoryPathSegmentBytes

/-- What `validate_repository_path` asks of a path that may hold glob characters. -/
structure ValidPath (rules : UnicodeRules) (path : Path) : Prop where
  nonempty : path ≠ []
  size : utf8Size path ≤ maxRepositoryPathBytes
  nfc : rules.nfc path = true
  allowed : ∀ c ∈ path, rules.forbidden c = false
  stripped : path = stripBy isPythonSpace path
  slash : '\\' ∉ path
  head : path.head? ≠ some '/'
  last : path.getLast? ≠ some '/'
  drive : drivePrefix ((path.splitOn '/').headD []) = false
  segments : ∀ s ∈ path.splitOn '/', ValidSegment s

variable {rules : UnicodeRules} {label : String}

theorem validateRepositoryPath_iff {path : Path} :
    validateRepositoryPath rules label true path = .ok () ↔ ValidPath rules path := by
  simp only [validateRepositoryPath, ite_error_iff, Bool.not_true, Bool.false_and,
    Bool.false_eq_true, not_false_eq_true, and_true, Nat.not_lt, Bool.not_eq_true',
    Bool.not_eq_false, not_or, Bool.not_eq_true, List.any_eq_true, not_exists, not_and,
    decide_eq_true_eq, ne_eq, not_not]
  constructor
  · rintro ⟨h1, h2, h3, h4, ⟨h5, h6⟩, ⟨h7, h8, h9⟩, h10, h11, h12⟩
    exact ⟨h1, h2, h3, h4, h5, h6, h7, h8, h9, fun s hs =>
      ⟨by simpa [not_or] using h10 s hs, h11 s hs, h12 s hs⟩⟩
  · intro h
    refine ⟨h.nonempty, h.size, h.nfc, h.allowed, ⟨h.stripped, h.slash⟩, ⟨h.head, h.last, h.drive⟩,
      fun s hs => ?_, fun s hs => (h.segments s hs).stripped, fun s hs => (h.segments s hs).size⟩
    simpa [not_or] using (h.segments s hs).named

theorem stripBy_eq_self {f : Char → Bool} {cs : Text} (hhead : ∀ c ∈ cs.head?, f c = false)
    (hlast : ∀ c ∈ cs.getLast?, f c = false) : stripBy f cs = cs := by
  have hkeep (l : Text) (h : ∀ c ∈ l.head?, f c = false) : l.dropWhile f = l := by
    cases l with
    | nil => rfl
    | cons c l => rw [List.dropWhile_cons_of_neg (by simpa using h c rfl)]
  unfold stripBy
  rw [hkeep cs hhead, hkeep cs.reverse (by rwa [List.head?_reverse]), List.reverse_reverse]

theorem last_of_stripBy {f : Char → Bool} {cs : Text} (h : cs = stripBy f cs) :
    ∀ c ∈ cs.getLast?, f c = false := by
  intro c hc
  rw [h, stripBy, List.getLast?_reverse] at hc
  have hnot := List.head?_dropWhile_not f (cs.dropWhile f).reverse
  rw [Option.mem_def.mp hc] at hnot
  simpa using hnot

/-- The sides `a/` and `b/` of a header: ASCII before a path changes none of its properties. -/
structure UnicodeRules.Lawful (rules : UnicodeRules) : Prop where
  nfc : ∀ c ∈ ['a', 'b'], ∀ p, rules.nfc p = true → rules.nfc (c :: '/' :: p) = true
  allowed : ∀ c ∈ ['a', 'b', '/'], rules.forbidden c = false

/-- A header names a path behind two more characters, and holds both to the size of a path. -/
theorem ValidPath.side {p : Path} (h : ValidPath rules p) (hlaws : rules.Lawful) {c : Char}
    (hc : c ∈ ['a', 'b']) :
    ValidPath rules (c :: '/' :: p) ↔ utf8Size p + 2 ≤ maxRepositoryPathBytes := by
  have hascii : c ≠ '/' ∧ c ≠ '\\' ∧ c ≠ '.' ∧ isPythonSpace c = false ∧ c.utf8Size = 1 := by
    simp only [List.mem_cons, List.not_mem_nil, or_false] at hc
    rcases hc with rfl | rfl <;> decide
  obtain ⟨hslash, hback, hdot, hspace, hone⟩ := hascii
  have hsize : utf8Size (c :: '/' :: p) = utf8Size p + 2 := by
    have hsep : '/'.utf8Size = 1 := by decide
    simp only [utf8Size, List.map_cons, List.sum_cons]
    omega
  have hnot : '/' ∉ [c] := by simpa using hslash.symm
  have hsplit : (c :: '/' :: p).splitOn '/' = [c] :: p.splitOn '/' :=
    List.splitOn_append_cons_self_of_not_mem hnot p
  constructor
  · intro hside
    exact hsize ▸ hside.size
  · intro hle
    refine ⟨List.cons_ne_nil _ _, hsize ▸ hle, hlaws.nfc c hc p h.nfc, ?_, ?_, ?_, ?_, ?_, ?_, ?_⟩
    · intro d hd
      rcases List.mem_cons.mp hd with rfl | hd
      · exact hlaws.allowed d (List.mem_append_left ['/'] hc)
      · rcases List.mem_cons.mp hd with rfl | hd
        · exact hlaws.allowed '/' (by simp)
        · exact h.allowed d hd
    · refine (stripBy_eq_self ?_ ?_).symm
      · intro d hd
        obtain rfl := Option.some.inj hd
        exact hspace
      · intro d hd
        rw [List.getLast?_cons_cons, List.getLast?_cons_of_ne_nil h.nonempty] at hd
        exact last_of_stripBy h.stripped d hd
    · simp [h.slash, hback.symm]
    · simpa using hslash
    · rw [List.getLast?_cons_cons, List.getLast?_cons_of_ne_nil h.nonempty]
      exact h.last
    · rw [hsplit]
      rfl
    · intro s hs
      rw [hsplit] at hs
      rcases List.mem_cons.mp hs with rfl | hrest
      · refine ⟨by simp [hdot], (stripBy_eq_self ?_ ?_).symm, ?_⟩
        · simpa using hspace
        · simpa using hspace
        · simp [utf8Size, hone, maxRepositoryPathSegmentBytes]
      · exact h.segments s hrest

/-- A spelled text is decoded to itself, and held to the rules of a path. -/
theorem decodeGitCQuotedPath_spelling (t : Text) :
    decodeGitCQuotedPath rules label true (gitSpelling t) =
      (validateRepositoryPath rules label true t).map (fun _ => t) := by
  have hmap : (do validateRepositoryPath rules label true t; return t : Except String Path) =
      (validateRepositoryPath rules label true t).map (fun _ => t) := by
    cases validateRepositoryPath rules label true t <;> rfl
  unfold decodeGitCQuotedPath gitSpelling
  by_cases hquote : needsQuoting t = true
  · rw [if_pos hquote]
    have hinside : inside ('"' :: (quoted (utf8Bytes t) ++ ['"'])) = quoted (utf8Bytes t) := by
      simp [inside]
    have hlast : ('"' :: (quoted (utf8Bytes t) ++ ['"'])).getLast? = some '"' := by
      rw [← List.cons_append, List.getLast?_concat]
    rw [if_neg (by simp), if_neg (by simp [hlast]), hinside, quotedBytes_quoted]
    dsimp only
    rw [decodeUtf8_utf8Bytes]
    exact hmap
  · have hraw := quote_not_mem_raw (Bool.not_eq_true _ ▸ hquote)
    rw [if_neg hquote, if_pos fun h => hraw (List.mem_of_head? h)]
    exact hmap

/-- A path whose spelling is read back is that path. -/
theorem decodePathField_spelling {side : Bool} {t : Text} {path : Path}
    (hdev : t ≠ text "/dev/null")
    (hpath : (if side && (starts "a/" t || starts "b/" t) then t.drop 2 else t) = path)
    (hvalid : ValidPath rules path) : decodePathField rules label side (gitSpelling t) =
      (validateRepositoryPath rules label true t).map (fun _ => some path) := by
  have hfield : gitSpelling t ≠ text "/dev/null" := by
    unfold gitSpelling
    split
    · exact fun heq => absurd (List.cons.inj heq).1 (by decide)
    · exact hdev
  have hnull : path ≠ text "/dev/null" := fun heq => hvalid.head (by rw [heq]; rfl)
  unfold decodePathField
  rw [if_neg hfield, decodeGitCQuotedPath_spelling]
  cases validateRepositoryPath rules label true t with
  | error e => rfl
  | ok _ =>
    change (if (if side && (starts "a/" t || starts "b/" t) then t.drop 2 else t) =
      text "/dev/null" then _ else _) = _
    rw [hpath, if_neg hnull, validateRepositoryPath_iff.mpr hvalid]
    rfl

/-- One side of a header is decoded to its path where the path is short enough. -/
theorem decode_side {p : Path} (h : ValidPath rules p) (hlaws : rules.Lawful) {c : Char}
    (hc : c ∈ ['a', 'b']) :
    (utf8Size p + 2 ≤ maxRepositoryPathBytes →
      decodePathField rules label true (gitSpelling (c :: '/' :: p)) = .ok (some p)) ∧
    (maxRepositoryPathBytes < utf8Size p + 2 →
      ∃ e, decodePathField rules label true (gitSpelling (c :: '/' :: p)) = .error e) := by
  have hside := h.side hlaws hc
  have hdev : c :: '/' :: p ≠ text "/dev/null" := by
    simp only [List.mem_cons, List.not_mem_nil, or_false] at hc
    rcases hc with rfl | rfl <;> exact fun heq => absurd (List.cons.inj heq).1 (by decide)
  have hdrop : (if true && (starts "a/" (c :: '/' :: p) || starts "b/" (c :: '/' :: p)) then
      (c :: '/' :: p).drop 2 else c :: '/' :: p) = p := by
    simp only [List.mem_cons, List.not_mem_nil, or_false] at hc
    rcases hc with rfl | rfl <;> simp [starts]
  rw [decodePathField_spelling hdev hdrop h]
  constructor
  · intro hle
    rw [validateRepositoryPath_iff.mpr (hside.mpr hle)]
    rfl
  · intro hlt
    cases hcheck : validateRepositoryPath rules label true (c :: '/' :: p) with
    | error e => exact ⟨e, rfl⟩
    | ok _ =>
      have := hside.mp (validateRepositoryPath_iff.mp hcheck)
      omega

/-- A spelling is one field: nothing of it stands outside its quotes. -/
theorem unquotedField_spelling (invalid : String) (t : Text) :
    unquotedField invalid (gitSpelling t) = .ok (gitSpelling t) := by
  unfold unquotedField gitSpelling
  by_cases hquote : needsQuoting t = true
  · have hscan := scanQuotedToken_quoted (utf8Bytes t) []
    rw [List.append_nil] at hscan
    rw [if_pos hquote, if_pos (List.head?_cons ..), hscan]
    rfl
  · have hraw := quote_not_mem_raw (Bool.not_eq_true _ ▸ hquote)
    rw [if_neg hquote, if_neg fun h => hraw (List.mem_of_head? h)]

/-- No carriage return ends a spelling. -/
theorem stripCarriageReturns_spelling (t : Text) :
    stripCarriageReturns (gitSpelling t) = gitSpelling t := by
  have hlast : ∀ c ∈ (gitSpelling t).getLast?, c ≠ '\r' := by
    intro c hc
    unfold gitSpelling at hc
    split at hc
    · rw [← List.cons_append, List.getLast?_concat] at hc
      rw [← Option.some.inj hc]
      decide
    · next hquote =>
      have hlow := (char_of_raw (Bool.not_eq_true _ ▸ hquote) (List.mem_of_getLast? hc)).1
      rintro rfl
      exact absurd hlow (by decide)
  unfold stripCarriageReturns
  rw [← List.head?_reverse] at hlast
  cases hrev : (gitSpelling t).reverse with
  | nil => simpa using hrev.symm
  | cons c rest =>
    rw [hrev] at hlast
    rw [List.dropWhile_cons_of_neg (by simpa using hlast c rfl), ← hrev, List.reverse_reverse]

/-- A rename line names its path. -/
theorem decodeRenamePath_spelling {p : Path} (h : ValidPath rules p) (head : String) :
    decodeRenamePath rules head (text head ++ gitSpelling p) = .ok (some p) := by
  have hafter : after head (text head ++ gitSpelling p) = gitSpelling p := by
    unfold after text
    rw [← String.length_toList, List.drop_left]
  have hdev : p ≠ text "/dev/null" := fun heq => h.head (by rw [heq]; rfl)
  unfold decodeRenamePath
  rw [hafter, stripCarriageReturns_spelling]
  dsimp only
  rw [unquotedField_spelling]
  change decodePathField rules "diff rename path" false (gitSpelling p) = _
  rw [decodePathField_spelling hdev rfl h, validateRepositoryPath_iff.mpr h]
  rfl

end ReviewSensei.Diff
