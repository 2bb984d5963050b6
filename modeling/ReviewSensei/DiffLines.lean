import ReviewSensei.DiffPaths

/-! The lines of a text against the text that lines spell. -/
namespace ReviewSensei.Diff

/-- The text with one final LF added if it has none. -/
def terminated (t : Text) : Text := if t.getLast? = some '\n' then t else t ++ ['\n']

/-- No line of the list holds a line end. -/
def Unbroken (ls : List Text) : Prop := ∀ l ∈ ls, '\n' ∉ l

theorem joined_append (ls ls' : List Text) : joined (ls ++ ls') = joined ls ++ joined ls' :=
  List.flatMap_append

theorem splitOn_joined {ls : List Text} (h : Unbroken ls) : (joined ls).splitOn '\n' = ls ++ [[]] := by
  induction ls with
  | nil => rfl
  | cons l ls ih =>
    have hl : '\n' ∉ l := h l List.mem_cons_self
    have hls : Unbroken ls := fun l' hl' => h l' (List.mem_cons_of_mem _ hl')
    have hcons : joined (l :: ls) = l ++ '\n' :: joined ls := by simp [joined]
    rw [hcons, List.splitOn_append_cons_self_of_not_mem hl, ih hls, List.cons_append]

/-- Lines are read back as they were written. -/
theorem lines_joined {ls : List Text} (h : Unbroken ls) : lines (joined ls) = ls := by
  unfold lines
  rw [splitOn_joined h]
  simp

theorem unbroken_splitOn (t : Text) : Unbroken (t.splitOn '\n') := by
  induction t with
  | nil => simp [Unbroken]
  | cons c t ih =>
    rw [List.splitOn_cons_eq_if_modifyHead]
    split
    · intro l hl
      rcases List.mem_cons.mp hl with rfl | hmem
      · simp
      · exact ih l hmem
    · next hc =>
      obtain ⟨l₀, ls, hls⟩ := List.exists_cons_of_ne_nil (List.splitOn_ne_nil '\n' t)
      rw [hls] at ih ⊢
      intro l hl
      rcases List.mem_cons.mp hl with rfl | hmem
      · have hl₀ := ih l₀ List.mem_cons_self
        have hne : '\n' ≠ c := fun heq => hc (beq_iff_eq.mpr heq.symm)
        rw [List.mem_cons, not_or]
        exact ⟨hne, hl₀⟩
      · exact ih l (List.mem_cons_of_mem _ hmem)

theorem unbroken_lines (t : Text) : Unbroken (lines t) := by
  unfold lines
  dsimp only
  split
  · exact fun l hl => unbroken_splitOn t l (List.dropLast_subset _ hl)
  · exact unbroken_splitOn t

/-- All records but the last end in LF. -/
theorem intercalate_eq_joined (ls : List Text) (last : Text) :
    List.intercalate ['\n'] (ls ++ [last]) = joined ls ++ last := by
  induction ls with
  | nil => simp [joined]
  | cons l ls ih =>
    have hne : ls ++ [last] ≠ [] := by simp
    rw [List.cons_append, List.intercalate_cons_of_ne_nil hne, ih]
    simp [joined]

/-- The lines of a text spell it, but for a missing final LF. -/
theorem joined_lines {t : Text} (ht : t ≠ []) : joined (lines t) = terminated t := by
  have hne := List.splitOn_ne_nil '\n' t
  have hsplit := List.dropLast_append_getLast hne
  have ht' : t = joined (t.splitOn '\n').dropLast ++ (t.splitOn '\n').getLast hne := by
    conv_lhs => rw [← @List.intercalate_splitOn _ t _ _ '\n', ← hsplit, intercalate_eq_joined]
  have hlast? : (t.splitOn '\n').getLast? = some ((t.splitOn '\n').getLast hne) :=
    List.getLast?_eq_some_getLast hne
  unfold lines
  dsimp only
  by_cases hlast : (t.splitOn '\n').getLast hne = []
  · rw [if_pos (by rw [hlast?, hlast])]
    rw [hlast, List.append_nil] at ht'
    -- the text is a join of lines, so it ends in LF
    have hends : t.getLast? = some '\n' := by
      rcases List.eq_nil_or_concat (t.splitOn '\n').dropLast with hnil | ⟨init, l, hinit⟩
      · rw [hnil] at ht'
        exact absurd ht' ht
      · rw [ht', hinit, List.concat_eq_append, joined_append]
        simp [joined]
    rw [terminated, if_pos hends]
    exact ht'.symm
  · rw [if_neg (by rw [hlast?]; simpa using hlast)]
    have hends : t.getLast? ≠ some '\n' := by
      rw [ht', List.getLast?_append_of_ne_nil _ hlast]
      intro hbad
      have hmem := List.mem_of_getLast? hbad
      exact unbroken_splitOn t _ (List.getLast_mem hne) hmem
    rw [terminated, if_neg hends]
    calc joined (t.splitOn '\n')
        = joined ((t.splitOn '\n').dropLast ++ [(t.splitOn '\n').getLast hne]) := by rw [hsplit]
      _ = (joined (t.splitOn '\n').dropLast ++ (t.splitOn '\n').getLast hne) ++ ['\n'] := by
          rw [joined_append]
          simp [joined]
      _ = t ++ ['\n'] := by rw [← ht']

end ReviewSensei.Diff
