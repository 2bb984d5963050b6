import ReviewSensei.Discovery
import ReviewSensei.SegmentGlob
import Mathlib.Data.List.Basic

/-! The pruned discovery of context documents loses no file that a source selects. -/
namespace ReviewSensei.Discovery
open Diff (Text UnicodeRules text validateRepositoryPath)
open Session (bind_ok)

/-- The segment-wise meaning of patterns: a globstar spans any names, another part is a shell
pattern of one name. -/
abbrev SegmentWise : List Text → List Text → Prop :=
  SegmentGlob.Matches (fun part => part = globstar) (fun name part => fnmatchcase name part = true)

section Automaton
variable {patternParts : List Text} {states : List Nat} {w : List Text} {index : Nat}

/-- The rest of a path matches the pattern from one of the states on. -/
def Accepts (patternParts : List Text) (states : List Nat) (w : List Text) : Prop :=
  ∃ index ∈ states, SegmentWise w (patternParts.drop index)

/-- The states lie on the pattern. -/
def Bounded (patternParts : List Text) (states : List Nat) : Prop :=
  ∀ index ∈ states, index ≤ patternParts.length

/-- Behind a globstar the next state is a state, too. -/
def Closed (patternParts : List Text) (states : List Nat) : Prop :=
  ∀ index ∈ states, patternParts[index]? = some globstar → index + 1 ∈ states

theorem drop_of_get {part : Text} (h : patternParts[index]? = some part) :
    patternParts.drop index = part :: patternParts.drop (index + 1) := by
  obtain ⟨hlt, rfl⟩ := List.getElem?_eq_some_iff.mp h
  exact List.drop_eq_getElem_cons hlt

theorem get_of_drop {part : Text} {rest : List Text}
    (h : patternParts.drop index = part :: rest) :
    patternParts[index]? = some part ∧ patternParts.drop (index + 1) = rest := by
  have hget : patternParts[index]? = some part := by
    rw [← List.head?_drop, h]
    rfl
  rw [drop_of_get hget] at h
  exact ⟨hget, (List.cons.inj h).2⟩

/-- The loop keeps the states it has and adds the states behind globstars. -/
structure Closing (patternParts : List Text) (closed pending result : List Nat) : Prop where
  kept : ∀ index ∈ closed, index ∈ result
  complete : (∀ index ∈ closed, index ∉ pending →
    patternParts[index]? = some globstar → index + 1 ∈ closed) → Closed patternParts result
  bounded : Bounded patternParts closed → Bounded patternParts result
  accepts : (∀ index ∈ pending, index ∈ closed) → ∀ w, Accepts patternParts result w →
    Accepts patternParts closed w

theorem closeStates_closing (patternParts : List Text) (closed pending : List Nat) :
    Closing patternParts closed pending (closeStates patternParts closed pending) := by
  induction closed, pending using closeStates.induct patternParts with
  | case1 closed =>
    rw [closeStates]
    exact ⟨fun _ h => h, fun h index hi => h index hi List.not_mem_nil, fun h => h,
      fun _ _ h => h⟩
  | case2 closed index pending hopen ih =>
    rw [closeStates, dif_pos hopen]
    refine ⟨fun i hi => ih.kept i (List.mem_cons_of_mem _ hi), fun h => ih.complete ?_,
      fun h => ih.bounded ?_, fun hsub w haccepts => ?_⟩
    · intro i hi hout hstar
      rw [List.mem_cons, not_or] at hout
      rcases List.mem_cons.mp hi with rfl | hi
      · exact absurd rfl hout.1
      · by_cases heq : i = index
        · rw [heq]
          exact List.mem_cons_self
        · refine List.mem_cons_of_mem _ (h i hi ?_ hstar)
          rw [List.mem_cons, not_or]
          exact ⟨heq, hout.2⟩
    · intro i hi
      rcases List.mem_cons.mp hi with rfl | hi
      · exact (List.getElem?_eq_some_iff.mp hopen.1).1
      · exact h i hi
    · have hpending : ∀ i ∈ (index + 1) :: pending, i ∈ (index + 1) :: closed := by
        intro i hi
        rcases List.mem_cons.mp hi with rfl | hi
        · exact List.mem_cons_self
        · exact List.mem_cons_of_mem _ (hsub i (List.mem_cons_of_mem _ hi))
      obtain ⟨i, hi, hmatch⟩ := ih.accepts hpending w haccepts
      rcases List.mem_cons.mp hi with rfl | hi
      · -- the new state stands behind a globstar, which may span nothing
        refine ⟨index, hsub index List.mem_cons_self, ?_⟩
        rw [drop_of_get hopen.1]
        exact .skip rfl hmatch
      · exact ⟨i, hi, hmatch⟩
  | case3 closed index pending hdone ih =>
    rw [closeStates, dif_neg hdone]
    refine ⟨ih.kept, fun h => ih.complete ?_, ih.bounded,
      fun hsub => ih.accepts fun i hi => hsub i (List.mem_cons_of_mem _ hi)⟩
    intro i hi hout hstar
    by_cases heq : i = index
    · rw [heq] at hstar ⊢
      by_contra hnew
      exact hdone ⟨hstar, hnew⟩
    · refine h i hi ?_ hstar
      rw [List.mem_cons, not_or]
      exact ⟨heq, hout⟩

theorem closure_closing (patternParts : List Text) (states : List Nat) :
    Closing patternParts states states (globstarClosure patternParts states) :=
  closeStates_closing patternParts states states

theorem closure_closed (patternParts : List Text) (states : List Nat) :
    Closed patternParts (globstarClosure patternParts states) :=
  (closure_closing patternParts states).complete fun _ hi hout => absurd hi hout

theorem closure_accepts : Accepts patternParts (globstarClosure patternParts states) w ↔
    Accepts patternParts states w := by
  have hclosing := closure_closing patternParts states
  constructor
  · exact hclosing.accepts (fun _ h => h) w
  · rintro ⟨index, hi, hmatch⟩
    exact ⟨index, hclosing.kept index hi, hmatch⟩

/-- A state from which nothing is left to match leads to the end of the pattern. -/
theorem closed_end (hclosed : Closed patternParts states) (hi : index ∈ states)
    (hle : index ≤ patternParts.length) (h : SegmentWise [] (patternParts.drop index)) :
    patternParts.length ∈ states := by
  generalize hdrop : patternParts.drop index = rest at h
  induction rest generalizing index with
  | nil =>
    have hend : patternParts.length ≤ index := List.drop_eq_nil_iff.mp hdrop
    exact Nat.le_antisymm hle hend ▸ hi
  | cons part rest ih =>
    obtain ⟨hget, hrest⟩ := get_of_drop hdrop
    have hlt : index < patternParts.length := (List.getElem?_eq_some_iff.mp hget).1
    cases h with
    | skip star hmatch => exact ih (hclosed index hi (star ▸ hget)) hlt hrest hmatch

theorem accepts_nil (hclosed : Closed patternParts states) (hbounded : Bounded patternParts states) :
    Accepts patternParts states [] ↔ patternParts.length ∈ states := by
  constructor
  · rintro ⟨index, hi, hmatch⟩
    exact closed_end hclosed hi (hbounded index hi) hmatch
  · intro hend
    refine ⟨_, hend, ?_⟩
    rw [List.drop_length]
    exact .nil

theorem mem_nextStates {name : Text} {j : Nat} :
    j ∈ nextStates patternParts name states ↔ ∃ index ∈ states, ∃ part,
      patternParts[index]? = some part ∧
        ((part = globstar ∧ j = index) ∨
          (part ≠ globstar ∧ fnmatchcase name part = true ∧ j = index + 1)) := by
  unfold nextStates
  rw [List.mem_flatMap]
  refine exists_congr fun index => and_congr_right fun _ => ?_
  cases patternParts[index]? with
  | none => simp
  | some part =>
    by_cases hstar : part = globstar
    · simp [hstar]
    · by_cases hname : fnmatchcase name part = true <;> simp [hstar, hname]

theorem nextStates_bounded {name : Text} :
    Bounded patternParts (nextStates patternParts name states) := by
  intro j hj
  obtain ⟨index, _, part, hget, hmove⟩ := mem_nextStates.mp hj
  have hlt : index < patternParts.length := (List.getElem?_eq_some_iff.mp hget).1
  rcases hmove with ⟨_, rfl⟩ | ⟨_, _, rfl⟩ <;> omega

/-- One name moves closed states to states that accept the rest. -/
theorem accepts_next (hclosed : Closed patternParts states) {name : Text} :
    Accepts patternParts states (name :: w) ↔
      Accepts patternParts (nextStates patternParts name states) w := by
  constructor
  · rintro ⟨index, hi, hmatch⟩
    generalize hdrop : patternParts.drop index = rest at hmatch
    induction rest generalizing index with
    | nil => cases hmatch
    | cons part rest ih =>
      obtain ⟨hget, hrest⟩ := get_of_drop hdrop
      cases hmatch with
      | skip star hmatch => exact ih (index + 1) (hclosed index hi (star ▸ hget)) hrest hmatch
      | absorb star hmatch =>
        refine ⟨index, mem_nextStates.mpr ⟨index, hi, part, hget, .inl ⟨star, rfl⟩⟩, ?_⟩
        rw [hdrop]
        exact hmatch
      | one plain item hmatch =>
        refine ⟨index + 1,
          mem_nextStates.mpr ⟨index, hi, part, hget, .inr ⟨plain, item, rfl⟩⟩, ?_⟩
        rw [hrest]
        exact hmatch
  · rintro ⟨j, hj, hmatch⟩
    obtain ⟨index, hi, part, hget, hmove⟩ := mem_nextStates.mp hj
    refine ⟨index, hi, ?_⟩
    rw [drop_of_get hget]
    rcases hmove with ⟨star, rfl⟩ | ⟨plain, item, rfl⟩
    · rw [drop_of_get hget] at hmatch
      exact .absorb star hmatch
    · exact .one plain item hmatch

theorem runStates_accepts (hclosed : Closed patternParts states)
    (hbounded : Bounded patternParts states) :
    runStates patternParts states w = true ↔ Accepts patternParts states w := by
  induction w generalizing states with
  | nil =>
    have hclosing := closure_closing patternParts states
    rw [runStates, List.contains_iff_mem, ← closure_accepts,
      accepts_nil (closure_closed patternParts states) (hclosing.bounded hbounded)]
  | cons name w ih =>
    have hclosing := closure_closing patternParts (nextStates patternParts name states)
    rw [runStates, accepts_next hclosed, ← closure_accepts]
    split
    · next hempty =>
      rw [hempty]
      simp [Accepts]
    · exact ih (closure_closed _ _) (hclosing.bounded nextStates_bounded)

/-- `_matches` decides the segment-wise meaning. -/
theorem matchesPattern_iff (path pattern : Text) :
    matchesPattern path pattern = true ↔ SegmentWise (parts path) (parts pattern) := by
  have hclosing := closure_closing (parts pattern) [0]
  have hbounded : Bounded (parts pattern) [0] := by
    intro index hi
    rw [List.mem_singleton.mp hi]
    exact Nat.zero_le _
  unfold matchesPattern
  rw [runStates_accepts (closure_closed _ _) (hclosing.bounded hbounded), closure_accepts]
  simp [Accepts]

end Automaton

section Paths

/-- A part that stands for itself when a path is read. -/
def PlainName (name : Text) : Prop := name ≠ [] ∧ '/' ∉ name ∧ name ≠ text "."

theorem parts_relative {value : Text} (h : value.head? ≠ some '/') :
    parts value = (value.splitOn '/').filter (fun s => s ≠ [] ∧ s ≠ ['.']) := by
  cases value with
  | nil => rfl
  | cons c rest =>
    have hc : c ≠ '/' := fun heq => h (congrArg some heq)
    unfold parts
    split
    · next heq => exact absurd (List.cons.inj heq).1 hc
    · next heq => exact absurd (List.cons.inj heq).1 hc
    · next heq => exact absurd (List.cons.inj heq).1 hc
    · rfl

theorem head_joinNames {name : Text} (hname : PlainName name) (names : List Text) :
    (joinNames (name :: names)).head? ≠ some '/' := by
  obtain ⟨c, rest, rfl⟩ := List.exists_cons_of_ne_nil hname.1
  have hc : c ≠ '/' := fun heq => hname.2.1 (heq ▸ List.mem_cons_self)
  unfold joinNames
  cases names <;> simpa [List.intercalate_cons_of_ne_nil] using hc

/-- The names of a joined path are the names it was made of. -/
theorem parts_joinNames {names : List Text} (h : ∀ name ∈ names, PlainName name) :
    parts (joinNames names) = names := by
  cases names with
  | nil => rfl
  | cons name rest =>
    have hslash : ∀ l ∈ name :: rest, '/' ∉ l := fun l hl => (h l hl).2.1
    rw [parts_relative (head_joinNames (h name List.mem_cons_self) rest), joinNames,
      List.splitOn_intercalate '/' hslash (List.cons_ne_nil _ _)]
    refine List.filter_eq_self.mpr fun l hl => ?_
    exact decide_eq_true ⟨(h l hl).1, (h l hl).2.2⟩

theorem not_mem_splitOn (value : Text) : ∀ l ∈ value.splitOn '/', '/' ∉ l := by
  induction value with
  | nil => simp
  | cons c rest ih =>
    rw [List.splitOn_cons_eq_if_modifyHead]
    split
    · intro l hl
      rcases List.mem_cons.mp hl with rfl | hmem
      · exact List.not_mem_nil
      · exact ih l hmem
    · next hc =>
      obtain ⟨first, others, hsplit⟩ := List.exists_cons_of_ne_nil (List.splitOn_ne_nil '/' rest)
      rw [hsplit] at ih ⊢
      intro l hl
      rcases List.mem_cons.mp hl with rfl | hmem
      · have hne : '/' ≠ c := fun heq => hc (beq_iff_eq.mpr heq.symm)
        rw [List.mem_cons, not_or]
        exact ⟨hne, ih first List.mem_cons_self⟩
      · exact ih l (List.mem_cons_of_mem _ hmem)

theorem parts_plain {value : Text} (h : value.head? ≠ some '/') :
    ∀ name ∈ parts value, PlainName name := by
  intro name hname
  rw [parts_relative h] at hname
  obtain ⟨hmem, hkept⟩ := List.mem_filter.mp hname
  have hboth := of_decide_eq_true hkept
  exact ⟨hboth.1, not_mem_splitOn value name hmem, hboth.2⟩

variable {rules : UnicodeRules} {label : String} {pattern : Text}

/-- A checked pattern is relative. -/
theorem valid_relative (h : validateRepositoryPath rules label true pattern = .ok ()) :
    pattern.head? ≠ some '/' := by
  intro hroot
  unfold validateRepositoryPath at h
  dsimp only at h
  split at h; · cases h
  split at h; · cases h
  split at h; · cases h
  split at h; · cases h
  split at h; · cases h
  rw [if_pos (.inl hroot)] at h
  cases h

/-- A pattern that ends in a globstar has the parts of what stands before it, and the globstar. -/
theorem parts_subtree (hroot : pattern.head? ≠ some '/')
    (hsuffix : (text "/**").isSuffixOf pattern = true) :
    parts pattern = parts (pattern.take (pattern.length - 3)) ++ [globstar] := by
  obtain ⟨before, rfl⟩ := List.isSuffixOf_iff_suffix.mp hsuffix
  have htext : text "/**" = '/' :: globstar := rfl
  have htake : (before ++ text "/**").take ((before ++ text "/**").length - 3) = before := by
    have hlength : (before ++ text "/**").length - 3 = before.length := by
      have hthree : (text "/**").length = 3 := rfl
      rw [List.length_append, hthree, Nat.add_sub_cancel]
    rw [hlength, List.take_left']
    rfl
  have hbefore : before.head? ≠ some '/' := by
    intro heq
    cases before with
    | nil => cases heq
    | cons c rest => exact hroot heq
  rw [htake, parts_relative hroot, parts_relative hbefore, htext,
    List.splitOn_append_cons_self, List.filter_append]
  rfl

end Paths

section Pruning
variable {rules : UnicodeRules} (source : ContextDocumentSource rules)

/-- The source selects a file: some include pattern matches its names, and no exclude pattern. -/
def Selected (path : RelativePath) : Prop :=
  (∃ pattern ∈ source.includes, SegmentWise (path.map (·.val)) (parts pattern)) ∧
    ¬ ∃ pattern ∈ source.excludes, SegmentWise (path.map (·.val)) (parts pattern)

theorem plain_name (name : Name) : PlainName name.val :=
  ⟨name.property.1, name.property.2.1, name.property.2.2.1⟩

theorem parts_relativeName (path : RelativePath) : parts (relativeName path) = path.map (·.val) := by
  refine parts_joinNames fun name hname => ?_
  obtain ⟨entry, _, rfl⟩ := List.mem_map.mp hname
  exact plain_name entry

theorem relative_matches (path : RelativePath) (pattern : Text) :
    matchesPattern (relativeName path) pattern = true ↔
      SegmentWise (path.map (·.val)) (parts pattern) := by
  rw [matchesPattern_iff, parts_relativeName]

theorem fileMatches_iff (path : RelativePath) : fileMatches source path = true ↔
    Selected source path := by
  simp only [fileMatches, Selected, Bool.and_eq_true, Bool.not_eq_true', List.any_eq_true,
    List.any_eq_false, relative_matches, not_exists, not_and]

variable {source} {directory path : RelativePath}

/-- A pruned subtree holds only excluded files. -/
theorem excluded_below (h : subtreeExcluded source (relativeName directory) = true) :
    ∃ pattern ∈ source.excludes, SegmentWise ((directory ++ path).map (·.val)) (parts pattern) := by
  obtain ⟨pattern, hmem, hmatch⟩ := List.any_eq_true.mp h
  obtain ⟨hpattern, hkind⟩ := List.mem_filter.mp hmem
  have hroot := valid_relative (source.patterns_valid pattern (List.mem_append_right _ hpattern))
  refine ⟨pattern, hpattern, ?_⟩
  rw [List.map_append]
  split at hmatch
  · next hsuffix =>
    rw [relative_matches] at hmatch
    rw [parts_subtree hroot hsuffix]
    refine SegmentGlob.Matches.extend ?_ hmatch _
    rfl
  · next hplain =>
    have hglobstar : pattern = globstar := (of_decide_eq_true hkind).resolve_right hplain
    have hparts : parts pattern = [] ++ [globstar] := by
      rw [hglobstar]
      rfl
    rw [hparts]
    have hnone : SegmentWise [] [] := .nil
    refine SegmentGlob.Matches.extend ?_ hnone _
    rfl

/-- A directory above a match of a pattern is entered. -/
theorem may_contain {pattern : Text} (hpattern : pattern ∈ source.includes)
    (hdirectory : directory ≠ []) (hpath : path ≠ [])
    (h : SegmentWise ((directory ++ path).map (·.val)) (parts pattern)) :
    mayContainDocumentMatch (relativeName directory) source.includes = true := by
  have hroot := valid_relative (source.patterns_valid pattern (List.mem_append_left _ hpattern))
  rw [List.map_append] at h
  obtain ⟨front, rest, hparts, hfront, hend⟩ := h.front fun hnil =>
    hpath (List.map_eq_nil_iff.mp hnil)
  have hne : front ≠ [] := by
    obtain ⟨name, names, rfl⟩ := List.exists_cons_of_ne_nil hdirectory
    exact hfront.ne_nil
  have hpositive : 0 < front.length := List.length_pos_iff.mpr hne
  refine List.any_eq_true.mpr ⟨pattern, hpattern, List.any_eq_true.mpr ⟨front.length, ?_, ?_⟩⟩
  · rw [List.mem_range'_1]
    split
    · next hstar =>
      rw [hparts, List.length_append]
      omega
    · next hplain =>
      have hrest : 0 < rest.length := by
        refine List.length_pos_iff.mpr ?_
        rintro rfl
        obtain ⟨part, hlast, hspans⟩ := hend.resolve_left fun hnil => hnil rfl
        rw [List.append_nil] at hparts
        exact hplain (by rw [hparts, hlast, hspans])
      rw [hparts, List.length_append]
      omega
  · have htake : (parts pattern).take front.length = front := by
      rw [hparts, List.take_left']
      rfl
    have hplain : ∀ name ∈ front, PlainName name := fun name hname =>
      parts_plain hroot name (hparts ▸ List.mem_append_left _ hname)
    rw [htake, relative_matches, parts_joinNames hplain]
    exact hfront

/-- A directory that is not entered holds no selected file. -/
theorem pruned_unselected (h : canDescend source directory = false) (hdirectory : directory ≠ [])
    (hpath : path ≠ []) : fileMatches source (directory ++ path) = false := by
  rw [← Bool.not_eq_true, fileMatches_iff]
  rintro ⟨⟨pattern, hpattern, hmatch⟩, hexcluded⟩
  have hcontain := may_contain hpattern hdirectory hpath hmatch
  unfold canDescend at h
  rw [hcontain, Bool.and_true, Bool.not_eq_false'] at h
  exact hexcluded (excluded_below h)

end Pruning

section Traversal
variable {rules : UnicodeRules} {source : ContextDocumentSource rules}
  {directory : RelativePath} {entries : Entries} {w w' : Walk}

/-- Every file of a directory lies below it. -/
theorem files_below {path : RelativePath} (h : path ∈ entries.files directory) :
    ∃ below, below ≠ [] ∧ path = directory ++ below := by
  induction entries generalizing directory with
  | nil => cases h
  | file name rest ih =>
    rcases List.mem_cons.mp h with rfl | hrest
    · exact ⟨[name], List.cons_ne_nil _ _, rfl⟩
    · exact ih hrest
  | directory name children rest ihChildren ihRest =>
    rcases List.mem_append.mp h with hchild | hrest
    · obtain ⟨below, _, rfl⟩ := ihChildren hchild
      exact ⟨name :: below, List.cons_ne_nil _ _, by rw [List.append_assoc]; rfl⟩
    · exact ihRest hrest

theorem pruned_files (h : canDescend source directory = false) (hdirectory : directory ≠ []) :
    (entries.files directory).filter (fileMatches source) = [] := by
  refine List.filter_eq_nil_iff.mpr fun path hpath => ?_
  obtain ⟨below, hbelow, rfl⟩ := files_below hpath
  rw [pruned_unselected h hdirectory hbelow]
  exact Bool.false_ne_true

/-- The selected files of the directories still to be scanned. -/
def Walk.ahead (source : ContextDocumentSource rules) (w : Walk) : List RelativePath :=
  w.directories.flatMap fun d => (d.2.files d.1).filter (fileMatches source)

/-- Scanning a directory finds its selected files or leaves them to a directory it enters. -/
theorem scanDirectory_files (h : scanDirectory source directory entries w = .ok w') :
    (w'.candidates ++ w'.ahead source).Perm (w.candidates ++ (w.ahead source ++
      (entries.files directory).filter (fileMatches source))) := by
  induction entries generalizing w with
  | nil =>
    obtain rfl : w = w' := Except.ok.inj h
    simp [Entries.files]
  | file name rest ih =>
    obtain ⟨seen, hseen, h⟩ := bind_ok h
    obtain ⟨added, hadded, h⟩ := bind_ok h
    have hcandidates : added.candidates =
        w.candidates ++ [directory ++ [name]].filter (fileMatches source) := by
      rw [consider_ok source hadded, (visit_ok hseen).2]
    have hahead : added.ahead source = w.ahead source := by
      rw [consider_ok source hadded, (visit_ok hseen).2]
      rfl
    have hfiles : (Entries.file name rest).files directory =
        [directory ++ [name]] ++ rest.files directory := rfl
    refine (ih h).trans ?_
    rw [hcandidates, hahead, hfiles, List.filter_append, List.append_assoc]
    refine List.Perm.append_left _ ?_
    rw [← List.append_assoc, ← List.append_assoc]
    exact List.Perm.append_right _ List.perm_append_comm
  | directory name children rest _ ih =>
    obtain ⟨seen, hseen, h⟩ := bind_ok h
    have hcandidates : seen.candidates = w.candidates := by rw [(visit_ok hseen).2]
    have hahead : seen.ahead source = w.ahead source := by
      rw [(visit_ok hseen).2]
      rfl
    rw [Entries.files, List.filter_append]
    split at h
    · refine (ih h).trans ?_
      have hpushed : Walk.ahead source { seen with
          directories := (directory ++ [name], children) :: seen.directories } =
          (children.files (directory ++ [name])).filter (fileMatches source) ++
            w.ahead source := by
        rw [← hahead]
        rfl
      rw [hpushed, hcandidates]
      refine List.Perm.append_left _ ?_
      rw [← List.append_assoc (w.ahead source)]
      exact List.Perm.append_right _ List.perm_append_comm
    · next hclosed =>
      have hpruned : (children.files (directory ++ [name])).filter (fileMatches source) = [] :=
        pruned_files (by simpa using hclosed)
          (List.append_ne_nil_of_right_ne_nil directory (List.cons_ne_nil name []))
      rw [hpruned, List.nil_append, ← hcandidates, ← hahead]
      exact ih h

theorem walkDirectories_nil (h : w.directories = []) : walkDirectories source w = .ok w := by
  rw [walkDirectories]
  split
  · rfl
  · next hcons => simp [h] at hcons

theorem walkDirectories_cons {rest : List (RelativePath × Entries)}
    (h : w.directories = (directory, entries) :: rest) :
    walkDirectories source w =
      scanDirectory source directory entries { w with directories := rest } >>=
        walkDirectories source := by
  rw [walkDirectories]
  split
  · next hempty => simp [h] at hempty
  · next hcons =>
    rw [h] at hcons
    obtain ⟨⟨rfl, rfl⟩, rfl⟩ := by simpa using hcons
    split
    · next hscan => exact (congrArg (fun x => x >>= walkDirectories source) hscan).symm
    · next hscan => exact (congrArg (fun x => x >>= walkDirectories source) hscan).symm

/-- The traversal finds the files that are still ahead of it. -/
theorem walkDirectories_files (h : walkDirectories source w = .ok w') :
    w'.candidates.Perm (w.candidates ++ w.ahead source) := by
  induction w using walkDirectories.induct source with
  | case1 w hempty =>
    rw [walkDirectories_nil hempty] at h
    obtain rfl : w = w' := Except.ok.inj h
    simp [Walk.ahead, hempty]
  | case2 w directory entries rest hdirectories message hscan =>
    rw [walkDirectories_cons hdirectories, hscan] at h
    cases h
  | case3 w directory entries rest hdirectories scanned hscan _ ih =>
    rw [walkDirectories_cons hdirectories, hscan] at h
    have hahead : w.ahead source = (entries.files directory).filter (fileMatches source) ++
        Walk.ahead source { w with directories := rest } := by
      rw [Walk.ahead, hdirectories]
      rfl
    rw [hahead]
    exact (ih h).trans ((scanDirectory_files hscan).trans
      (List.Perm.append_left _ List.perm_append_comm))

/-- The entries of the directories still to be scanned. -/
def Walk.entriesAhead (w : Walk) : Nat := (w.directories.map (fun d => d.2.count)).sum

theorem visit_returns (h : w.visited + 1 ≤ maxDocumentDiscoveryEntries) :
    w.visit = .ok { w with visited := w.visited + 1 } :=
  if_neg (Nat.not_lt.mpr h)

theorem consider_returns {path : RelativePath}
    (h : (w.candidates ++ [path].filter (fileMatches source)).length ≤ maxDocumentCandidates) :
    ∃ w', w.consider source path = .ok w' := by
  unfold Walk.consider
  split
  · next hmatch =>
    rw [List.filter_cons_of_pos hmatch, List.filter_nil] at h
    exact ⟨_, if_neg (Nat.not_lt.mpr h)⟩
  · exact ⟨w, rfl⟩

/-- The selected files that are found or ahead, with those of a directory. -/
def Walk.total (source : ContextDocumentSource rules) (w : Walk) (files : List RelativePath) : Nat :=
  w.candidates.length + (w.ahead source).length + (files.filter (fileMatches source)).length

/-- Scanning a directory returns where its entries and its selected files fit the budgets. -/
theorem scanDirectory_returns
    (hentries : w.visited + entries.count ≤ maxDocumentDiscoveryEntries)
    (htotal : w.total source (entries.files directory) ≤ maxDocumentCandidates) :
    ∃ w', scanDirectory source directory entries w = .ok w' ∧
      w'.visited + w'.entriesAhead ≤ w.visited + w.entriesAhead + entries.count := by
  induction entries generalizing w with
  | nil => exact ⟨w, rfl, Nat.le_refl _⟩
  | file name rest ih =>
    rw [Entries.count] at hentries
    have hfiles : (Entries.file name rest).files directory =
        [directory ++ [name]] ++ rest.files directory := rfl
    rw [Walk.total, hfiles, List.filter_append, List.length_append] at htotal
    have hvisit : w.visit = .ok { w with visited := w.visited + 1 } := visit_returns (by omega)
    have hroom : (w.candidates ++ [directory ++ [name]].filter (fileMatches source)).length ≤
        maxDocumentCandidates := by
      rw [List.length_append]
      omega
    have hconsider : ∃ added, Walk.consider source { w with visited := w.visited + 1 }
        (directory ++ [name]) = .ok added := consider_returns hroom
    obtain ⟨added, hadded⟩ := hconsider
    have hvisited : added.visited = w.visited + 1 := by rw [consider_ok source hadded]
    have hahead : added.entriesAhead = w.entriesAhead := by
      rw [consider_ok source hadded]
      rfl
    have hrest : added.total source (rest.files directory) ≤ maxDocumentCandidates := by
      rw [Walk.total, consider_ok source hadded, List.length_append]
      exact Nat.le_trans (Nat.le_of_eq (by simp only [Walk.ahead]; omega)) htotal
    obtain ⟨w', hscan, hle⟩ := ih (by omega) hrest
    refine ⟨w', ?_, by rw [Entries.count]; omega⟩
    rw [scanDirectory, hvisit]
    exact (congrArg (fun x => x >>= scanDirectory source directory rest) hadded).trans hscan
  | directory name children rest _ ih =>
    rw [Entries.count] at hentries
    have hvisit : w.visit = .ok { w with visited := w.visited + 1 } := visit_returns (by omega)
    rw [Walk.total, Entries.files, List.filter_append, List.length_append] at htotal
    by_cases hopen : canDescend source (directory ++ [name]) = true
    · have hpushed : Walk.total source { w with
          visited := w.visited + 1
          directories := (directory ++ [name], children) :: w.directories }
          (rest.files directory) ≤ maxDocumentCandidates := by
        rw [Walk.total, Walk.ahead, List.flatMap_cons, List.length_append]
        exact Nat.le_trans (Nat.le_of_eq (by simp only [Walk.ahead]; omega)) htotal
      obtain ⟨w', hscan, hle⟩ := ih (by dsimp only; omega) hpushed
      refine ⟨w', ?_, ?_⟩
      · rw [scanDirectory, hvisit]
        exact (if_pos hopen).trans hscan
      · rw [Walk.entriesAhead, Entries.count]
        rw [Walk.entriesAhead, Walk.entriesAhead, List.map_cons, List.sum_cons] at hle
        rw [Walk.entriesAhead]
        dsimp only at hle
        omega
    · have hkept : Walk.total source { w with visited := w.visited + 1 }
          (rest.files directory) ≤ maxDocumentCandidates :=
        Nat.le_trans (by simp only [Walk.total, Walk.ahead]; omega) htotal
      obtain ⟨w', hscan, hle⟩ := ih (by dsimp only; omega) hkept
      refine ⟨w', ?_, ?_⟩
      · rw [scanDirectory, hvisit]
        exact (if_neg hopen).trans hscan
      · rw [Entries.count]
        have hsame : Walk.entriesAhead { w with visited := w.visited + 1 } = w.entriesAhead := rfl
        dsimp only at hle
        omega

/-- The top directory is scanned, and what is ahead still fits the budgets. -/
theorem scan_top {rest : List (RelativePath × Entries)}
    (hdirectories : w.directories = (directory, entries) :: rest)
    (hentries : w.visited + w.entriesAhead ≤ maxDocumentDiscoveryEntries)
    (htotal : w.total source [] ≤ maxDocumentCandidates) :
    ∃ scanned, scanDirectory source directory entries { w with directories := rest } =
        .ok scanned ∧
      scanned.visited + scanned.entriesAhead ≤ maxDocumentDiscoveryEntries ∧
      scanned.total source [] ≤ maxDocumentCandidates := by
  have hcount : w.entriesAhead =
      entries.count + Walk.entriesAhead { w with directories := rest } := by
    rw [Walk.entriesAhead, hdirectories]
    rfl
  have hahead : w.ahead source = (entries.files directory).filter (fileMatches source) ++
      Walk.ahead source { w with directories := rest } := by
    rw [Walk.ahead, hdirectories]
    rfl
  have hpopped : Walk.total source { w with directories := rest } (entries.files directory) ≤
      maxDocumentCandidates := by
    rw [Walk.total, hahead, List.length_append, List.filter_nil, List.length_nil] at htotal
    rw [Walk.total]
    dsimp only
    omega
  obtain ⟨scanned, hscan, hle⟩ : ∃ w',
      scanDirectory source directory entries { w with directories := rest } = .ok w' ∧ _ :=
    scanDirectory_returns (by dsimp only; omega) hpopped
  have hlength := (scanDirectory_files hscan).length_eq
  simp only [List.length_append] at hlength
  refine ⟨scanned, hscan, by dsimp only at hle; omega, ?_⟩
  rw [Walk.total] at hpopped
  rw [Walk.total, List.filter_nil, List.length_nil]
  dsimp only at hpopped hlength
  omega

/-- The traversal returns where what is ahead of it fits the budgets. -/
theorem walkDirectories_returns
    (hentries : w.visited + w.entriesAhead ≤ maxDocumentDiscoveryEntries)
    (htotal : w.total source [] ≤ maxDocumentCandidates) :
    ∃ w', walkDirectories source w = .ok w' := by
  induction w using walkDirectories.induct source with
  | case1 w hempty => exact ⟨w, walkDirectories_nil hempty⟩
  | case2 w directory entries rest hdirectories message hscan =>
    obtain ⟨scanned, hreturned, _⟩ := scan_top hdirectories hentries htotal
    rw [hscan] at hreturned
    cases hreturned
  | case3 w directory entries rest hdirectories scanned hscan _ ih =>
    obtain ⟨scanned', hreturned, hentries', htotal'⟩ := scan_top hdirectories hentries htotal
    rw [hscan] at hreturned
    obtain rfl := Except.ok.inj hreturned
    obtain ⟨w', hrest⟩ := ih hentries' htotal'
    refine ⟨w', ?_⟩
    rw [walkDirectories_cons hdirectories, hscan]
    exact hrest

end Traversal

section Discovery
variable {rules : UnicodeRules}

/-- The candidates a source finds below a directory. -/
theorem discoverDirectory_files {source : ContextDocumentSource rules} {visited : Nat}
    {tree : Entries} {found : Walk} (h : discoverDirectory source visited tree = .ok found) :
    found.candidates.Perm ((tree.files []).filter (fileMatches source)) := by
  obtain ⟨w, hwalk, h⟩ := bind_ok h
  have hperm := walkDirectories_files hwalk
  split at h
  · cases h
  · obtain rfl := Except.ok.inj h
    simpa [Walk.ahead] using hperm

/-- A traversal within its budgets returns, unless a required source selects nothing. -/
theorem discoverDirectory_returns {source : ContextDocumentSource rules} {visited : Nat}
    {tree : Entries} (hentries : visited + tree.count ≤ maxDocumentDiscoveryEntries)
    (hfiles : ((tree.files []).filter (fileMatches source)).length ≤ maxDocumentCandidates)
    (hrequired : source.required = true → (tree.files []).filter (fileMatches source) ≠ []) :
    ∃ found, discoverDirectory source visited tree = .ok found := by
  have hwalk : ∃ w, walkDirectories source ⟨visited, [([], tree)], []⟩ = .ok w :=
    walkDirectories_returns (by simpa [Walk.entriesAhead] using hentries)
      (by simpa [Walk.total, Walk.ahead] using hfiles)
  obtain ⟨w, hwalk⟩ := hwalk
  have hperm := walkDirectories_files hwalk
  refine ⟨w, ?_⟩
  unfold discoverDirectory
  rw [hwalk]
  refine if_neg ?_
  intro hempty
  obtain ⟨hneeded, hnone⟩ := Bool.and_eq_true_iff.mp hempty
  have hnil : w.candidates = [] := List.isEmpty_iff.mp hnone
  rw [hnil] at hperm
  have hfiles : (tree.files []).filter (fileMatches source) = [] := by
    simpa [Walk.ahead] using hperm.nil_eq.symm
  exact hrequired hneeded hfiles

open Classical in
/-- Pruned discovery loses nothing: over every source and every tree of regular files, what the
traversal finds is what the source selects segment by segment, it finds it within the budgets, and
`_matches` decides the meaning of every pattern. -/
theorem pruned_discovery_exact (source : ContextDocumentSource rules) (visited : Nat)
    (tree : Entries) :
    (∀ path pattern, matchesPattern path pattern = true ↔
      SegmentGlob.Cut (fun part => part = globstar)
        (fun name part => fnmatchcase name part = true) (parts path) (parts pattern)) ∧
    (∀ found, discoverDirectory source visited tree = .ok found →
      found.candidates.Perm ((tree.files []).filter (fun path => Selected source path))) ∧
    (visited + tree.count ≤ maxDocumentDiscoveryEntries →
      ((tree.files []).filter (fun path => Selected source path)).length ≤
        maxDocumentCandidates →
      (source.required = true → ∃ path ∈ tree.files [], Selected source path) →
      ∃ found, discoverDirectory source visited tree = .ok found) := by
  have hselected : (tree.files []).filter (fun path => Selected source path) =
      (tree.files []).filter (fileMatches source) := by
    refine List.filter_congr fun path _ => ?_
    rw [Bool.eq_iff_iff, decide_eq_true_iff, fileMatches_iff]
  refine ⟨fun path pattern => ?_, fun found h => ?_, fun hentries hfiles hrequired => ?_⟩
  · rw [matchesPattern_iff]
    exact SegmentGlob.matches_iff_cut
  · rw [hselected]
    exact discoverDirectory_files h
  · rw [hselected] at hfiles
    refine discoverDirectory_returns hentries hfiles fun hneeded hnone => ?_
    obtain ⟨path, hpath, hmatch⟩ := hrequired hneeded
    exact List.filter_eq_nil_iff.mp hnone path hpath ((fileMatches_iff source path).mpr hmatch)

/-- A source of Markdown files, not those of drafts. -/
def sampleSource : ContextDocumentSource ⟨fun _ => true, fun _ => false⟩ where
  includes := [text "**/*.md"]
  excludes := [text "drafts/**"]
  required := false
  includes_ne_nil := List.cons_ne_nil _ _
  patterns_valid := by decide

def sampleTree : Entries :=
  .directory ⟨text "drafts", by decide⟩ (.file ⟨text "a.md", by decide⟩ .nil)
    (.file ⟨text "b.md", by decide⟩ .nil)

open Classical in
/-- The sample tree is within the budgets, so its selected files are found. -/
theorem sample_discovery : ∃ found, discoverDirectory sampleSource 0 sampleTree = .ok found ∧
    found.candidates.Perm
      ((sampleTree.files []).filter (fun path => Selected sampleSource path)) := by
  obtain ⟨_, hfiles, hreturns⟩ := pruned_discovery_exact sampleSource 0 sampleTree
  have hcount : 0 + sampleTree.count ≤ maxDocumentDiscoveryEntries := by decide
  have hlength : ((sampleTree.files []).filter (fun path => Selected sampleSource path)).length ≤
      maxDocumentCandidates := Nat.le_trans (List.length_filter_le _ _) (by decide)
  obtain ⟨found, hfound⟩ := hreturns hcount hlength fun hrequired => nomatch hrequired
  exact ⟨found, hfound, hfiles found hfound⟩

end Discovery
end ReviewSensei.Discovery
