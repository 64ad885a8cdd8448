import SparseCache.Path

namespace SparseCache.Path

/-! Which spellings name the same location. -/

variable {path tree : Path} {before rest : Bytes} {name : Bytes} {names : List Bytes}

theorem split_ne_nil (spelling : Bytes) : split spelling ≠ [] := by
  cases spelling with
  | nil => simp [split]
  | cons b spelling =>
      rw [split, List.foldr_cons]
      split
      · simp
      · split <;> simp

theorem split_slash (spelling : Bytes) : split (slash :: spelling) = [] :: split spelling := rfl

/-- A byte that is no slash belongs to the first name. -/
theorem split_cons {b : UInt8} (plain : b ≠ slash) {spelling : Bytes}
    (follows : split spelling = name :: names) : split (b :: spelling) = (b :: name) :: names := by
  rw [split] at follows ⊢
  rw [List.foldr_cons, if_neg plain, follows]

theorem split_append_slash (before rest : Bytes) :
    split (before ++ slash :: rest) = split before ++ split rest := by
  induction before with
  | nil => rfl
  | cons b before ih =>
      by_cases plain : b = slash
      · rw [plain, List.cons_append, split_slash, split_slash, ih, List.cons_append]
      · obtain ⟨name, names, splits⟩ := List.exists_cons_of_ne_nil (split_ne_nil before)
        rw [splits, List.cons_append] at ih
        rw [List.cons_append, split_cons plain ih, split_cons plain splits, List.cons_append]

theorem head?_split_append_slash (before rest : Bytes) :
    (split (before ++ slash :: rest)).head? = (split before).head? := by
  obtain ⟨name, names, splits⟩ := List.exists_cons_of_ne_nil (split_ne_nil before)
  rw [split_append_slash, splits]
  rfl

/-- Past the start of a path, names that stand for nothing do not count. -/
theorem same_of_names {other : Path} (start : path.isAbsolute = other.isAbsolute)
    (first : (split path.spelling).head? = (split other.spelling).head?)
    (names : (split path.spelling).filterMap component?
      = (split other.spelling).filterMap component?) : path.Same other := by
  simp only [Same, components, start, first, names]

theorem isAbsolute_append_slash (before rest other : Bytes) :
    isAbsolute ⟨before ++ slash :: rest⟩ = isAbsolute ⟨before ++ slash :: other⟩ := by
  cases before <;> rfl

/-- After a slash, what stands for nothing does not count. -/
theorem same_append_slash (before rest other : Bytes)
    (names : (split rest).filterMap component? = (split other).filterMap component?) :
    Same ⟨before ++ slash :: rest⟩ ⟨before ++ slash :: other⟩ := by
  refine same_of_names (isAbsolute_append_slash before rest other) ?_ ?_
  · simp only [head?_split_append_slash]
  · simp only [split_append_slash, List.filterMap_append, names]

theorem same_trailing (some : before ≠ []) : Same ⟨before ++ [slash]⟩ ⟨before⟩ := by
  refine same_of_names ?_ (head?_split_append_slash before []) ?_
  · cases before with
    | nil => exact absurd rfl some
    | cons b before => rfl
  · rw [split_append_slash, List.filterMap_append]
    exact List.append_nil _

/-- The first spelling has a slash or a `.` more than the second, where it does not count. -/
inductive Respells : Path → Path → Prop
  | repeated (before rest : Bytes) :
      Respells ⟨before ++ slash :: slash :: rest⟩ ⟨before ++ slash :: rest⟩
  | dot (before rest : Bytes) :
      Respells ⟨before ++ slash :: dot :: slash :: rest⟩ ⟨before ++ slash :: rest⟩
  | trailing {before : Bytes} (some : before ≠ []) : Respells ⟨before ++ [slash]⟩ ⟨before⟩
  | trailingDot (before : Bytes) : Respells ⟨before ++ [slash, dot]⟩ ⟨before ++ [slash]⟩

theorem Respells.same {other : Path} (respells : path.Respells other) : path.Same other := by
  cases respells with
  | repeated before rest => exact same_append_slash before _ _ rfl
  | dot before rest => exact same_append_slash before _ _ rfl
  | trailing some => exact same_trailing some
  | trailingDot before => exact same_append_slash before _ _ rfl

theorem within_congr {other : Path} (same : path.Same other) :
    path.Within tree ↔ other.Within tree := by
  rw [Within, Within, same]

theorem within_congr_tree {other : Path} (same : tree.Same other) :
    path.Within tree ↔ path.Within other := by
  rw [Within, Within, same]

end SparseCache.Path
