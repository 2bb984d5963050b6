import ReviewSensei.JsonFields
import ReviewSensei.JsonOrder

/-! What a reader finds in a document whose keys `sort_keys` has put in order. -/
namespace ReviewSensei.Json

theorem field?_sortFields (fs : List (String × Json)) (name : String) :
    field? (sortFields fs) name = (field? fs name).map sortKeys := by
  induction fs with
  | nil => rfl
  | cons f fs ih =>
    obtain ⟨key, j⟩ := f
    rw [sortFields, field?_cons, field?_cons, ih]
    split
    · rfl
    · rfl

/-- Where no key repeats, a lookup finds the field that stands anywhere. -/
theorem field?_iff {fs : List (String × Json)} (hn : (fs.map Prod.fst).Nodup) (name : String)
    (j : Json) : field? fs name = some j ↔ (name, j) ∈ fs := by
  induction fs with
  | nil => exact iff_of_false nofun List.not_mem_nil
  | cons f fs ih =>
    obtain ⟨key, k⟩ := f
    rw [List.map_cons, List.nodup_cons] at hn
    rw [field?_cons, List.mem_cons]
    by_cases h : key = name
    · subst h
      rw [if_pos rfl]
      constructor
      · intro hj
        exact .inl (by rw [Option.some.inj hj])
      · intro hmem
        rcases hmem with heq | hmem
        · rw [(Prod.mk.inj heq).2]
        · exact absurd (List.mem_map_of_mem hmem) hn.1
    · rw [if_neg h, ih hn.2]
      constructor
      · exact .inr
      · intro hmem
        rcases hmem with heq | hmem
        · exact absurd (Prod.mk.inj heq).1.symm h
        · exact hmem

theorem field?_perm {fs gs : List (String × Json)} (h : fs.Perm gs)
    (hn : (fs.map Prod.fst).Nodup) (name : String) : field? fs name = field? gs name := by
  apply Option.ext
  intro j
  have hgs := (h.map Prod.fst).nodup_iff.mp hn
  rw [field?_iff hn, field?_iff hgs, h.mem_iff]

/-- A field of a sorted document is the sorted field. -/
theorem get?_sortKeys (fs : List (String × Json)) (hn : (fs.map Prod.fst).Nodup)
    (name : String) : (obj fs).sortKeys.get? name = (field? fs name).map sortKeys := by
  have hsorted := (sortFields fs).perm_insertionSort (fun a b => a.1 ≤ b.1)
  have hkeys : (((sortFields fs).insertionSort (fun a b => a.1 ≤ b.1)).map Prod.fst).Nodup := by
    rw [(hsorted.map Prod.fst).nodup_iff, sortFields_keys]
    exact hn
  rw [sortKeys, get?, field?_perm hsorted hkeys, field?_sortFields]

theorem hasKeys_sortKeys (keys : List String) (fs : List (String × Json)) :
    (obj fs).sortKeys.hasKeys keys = (obj fs).hasKeys keys := by
  have hsorted := (sortFields fs).perm_insertionSort (fun a b => a.1 ≤ b.1)
  have hmem (key : String) :
      key ∈ ((sortFields fs).insertionSort (fun a b => a.1 ≤ b.1)).map Prod.fst ↔
        key ∈ fs.map Prod.fst := by
    rw [(hsorted.map Prod.fst).mem_iff, sortFields_keys]
  have hall (gs : List (String × Json)) :
      (gs.all (fun f => keys.contains f.1)) = true ↔ ∀ key ∈ gs.map Prod.fst, key ∈ keys := by
    simp [List.all_eq_true]
  rw [sortKeys, hasKeys, hasKeys, Bool.eq_iff_iff, Bool.and_eq_true, Bool.and_eq_true, hall, hall]
  simp only [List.all_eq_true, List.contains_iff_mem, hmem]

/-- Sorting puts the fields of a document in the order of one that is sorted already. -/
theorem sortKeys_perm {fs gs : List (String × Json)} (h : fs.Perm gs)
    (hn : (fs.map Prod.fst).Nodup) (hordered : (obj gs).Ordered) :
    (obj fs).sortKeys = obj gs := by
  have hvalues : OrderedFields fs := by
    rw [orderedFields_iff]
    exact fun f hf => orderedFields_iff.mp hordered.2 f (h.mem_iff.mp hf)
  have hperm : (fs.insertionSort (fun a b => a.1 ≤ b.1)).Perm gs :=
    (List.perm_insertionSort _ fs).trans h
  rw [sortKeys, sortFields_of_ordered fs hvalues]
  congr 1
  apply hperm.eq_of_pairwise _ (insertionSort_keys_sorted fs) hordered.1
  intro f g hf hg hfg hgf
  have hf := (List.perm_insertionSort _ fs).mem_iff.mp hf
  have hg := h.mem_iff.mpr hg
  exact List.inj_on_of_nodup_map hn hf hg (String.le_antisymm hfg hgf)

/-- A sorted list is the list of its sorted items. -/
theorem sortKeys_arr {α : Type} (write : α → Json) (xs : List α) :
    (arr (xs.map write)).sortKeys = arr (xs.map (fun x => (write x).sortKeys)) := by
  rw [sortKeys, sortItems_eq, List.map_map]
  rfl

/-- A list of documents reads back item by item. -/
theorem mapM_sortKeys {α : Type} (read : Json → Except String α) (write : α → Json) {xs : List α}
    (h : ∀ x ∈ xs, read (write x).sortKeys = .ok x) :
    (xs.map (fun x => (write x).sortKeys)).mapM read = .ok xs := by
  induction xs with
  | nil => rfl
  | cons x rest ih =>
    have hrest := ih fun y hy => h y (List.mem_cons_of_mem _ hy)
    rw [List.map_cons, List.mapM_cons, ok_bind (h x List.mem_cons_self), ok_bind hrest]
    rfl

theorem mapM_texts (read : Json → Except String String) (h : ∀ s, read (str s) = .ok s)
    (texts : List String) : (texts.map str).mapM read = .ok texts := by
  induction texts with
  | nil => rfl
  | cons text rest ih =>
    rw [List.map_cons, List.mapM_cons, ok_bind (h text), ok_bind ih]
    rfl

theorem sortKeys_texts (texts : List String) :
    (arr (texts.map str)).sortKeys = arr (texts.map str) := by
  rw [sortKeys, sortItems_eq, List.map_map]
  congr 1

end ReviewSensei.Json
