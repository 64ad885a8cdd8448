import SparseCache.Content

namespace SparseCache

/-! What the operations on sparse files do to their size and their bytes. -/

namespace Content

variable {content : Content} {bytes : Bytes} {start size p : Nat}

@[simp] theorem size_zeros : (zeros size).size = size := rfl

@[simp] theorem byteAt_zeros : (zeros size).byteAt p = 0 := rfl

@[simp] theorem size_resize : (content.resize size).size = size := rfl

theorem write_nil : content.write start [] = content := rfl

theorem size_write (nonempty : bytes ≠ []) :
    (content.write start bytes).size = max content.size (start + bytes.length) := by
  simp [write, nonempty]

theorem find?_eq_some_iff {patch : Patch} {b : UInt8} :
    patch.find? p = some b ↔ patch.start ≤ p ∧ patch.bytes[p - patch.start]? = some b := by
  unfold Patch.find?
  split
  · simp [*]
  · simp only [reduceCtorEq, false_iff, not_and]
    omega

theorem byteAt_write_of_mem (lower : start ≤ p) (upper : p < start + bytes.length) :
    (content.write start bytes).byteAt p = bytes.get ⟨p - start, by omega⟩ := by
  have nonempty : bytes ≠ [] := by
    rintro rfl
    simp only [List.length_nil] at upper
    omega
  have found : (⟨start, bytes⟩ : Patch).find? p = some (bytes.get ⟨p - start, by omega⟩) :=
    find?_eq_some_iff.mpr ⟨lower, List.getElem?_eq_getElem _⟩
  simp [write, nonempty, byteAt, found]

theorem byteAt_write_of_not_mem (outside : p < start ∨ start + bytes.length ≤ p) :
    (content.write start bytes).byteAt p = content.byteAt p := by
  have absent : (⟨start, bytes⟩ : Patch).find? p = none := by
    unfold Patch.find?
    split
    · exact List.getElem?_eq_none (by simp only at *; omega)
    · rfl
  unfold write
  split
  · rfl
  · simp [byteAt, absent]

theorem find?_cut (patch : Patch) :
    (patch.cut size).find? p = if p < size then patch.find? p else none := by
  simp only [Patch.find?, Patch.cut, List.getElem?_take]
  by_cases reached : patch.start ≤ p
  · by_cases kept : p < size
    · rw [if_pos reached, if_pos kept, if_pos reached, if_pos (by omega)]
    · rw [if_pos reached, if_neg kept, if_neg (by omega)]
  · simp [reached]

/-- Cutting a file short and letting it grow again shows zeros. -/
theorem byteAt_resize :
    (content.resize size).byteAt p = if p < size then content.byteAt p else 0 := by
  have visible : ∀ patches : List Patch,
      (patches.map (·.cut size)).findSome? (·.find? p)
        = if p < size then patches.findSome? (·.find? p) else none := by
    intro patches
    induction patches with
    | nil => simp
    | cons patch patches ih =>
      simp only [List.map_cons, List.findSome?_cons, find?_cut, ih]
      by_cases kept : p < size <;> simp [kept]
  simp only [byteAt, resize, visible]
  split <;> rfl

/-! ### Reading -/

theorem size_laid (visible : Bytes) (here : Nat) (window : Array UInt8) :
    (visible.foldl (fun (at', shown) byte => (at' + 1, shown.setIfInBounds at' byte))
      (here, window)).2.size = window.size := by
  induction visible generalizing here window with
  | nil => rfl
  | cons byte visible ih => simp [ih]

theorem paint_size {origin : Nat} {window : Array UInt8} {patch : Patch} :
    (patch.paint origin window).size = window.size := size_laid _ _ _

/-- What laying `visible` over a window from `here` on shows at `i`. -/
theorem getElem?_laid (visible : Bytes) (here : Nat) (window : Array UInt8) {i : Nat}
    (inside : i < window.size) :
    (visible.foldl (fun (at', shown) byte => (at' + 1, shown.setIfInBounds at' byte))
      (here, window)).2[i]?
      = if here ≤ i then (visible[i - here]?).or window[i]? else window[i]? := by
  induction visible generalizing here window with
  | nil => simp
  | cons byte visible ih =>
    rw [List.foldl_cons, ih _ _ (by simpa using inside)]
    rcases Nat.lt_trichotomy here i with before | rfl | after
    · have step : i - here = (i - (here + 1)) + 1 := by omega
      rw [if_pos (by omega), if_pos (by omega), step, List.getElem?_cons_succ,
        Array.getElem?_setIfInBounds_ne (by omega)]
    · rw [if_neg (by omega), if_pos (Nat.le_refl _), Nat.sub_self,
        Array.getElem?_setIfInBounds_self_of_lt inside]
      simp
    · rw [if_neg (by omega), if_neg (by omega), Array.getElem?_setIfInBounds_ne (by omega)]

theorem getElem?_paint {origin i : Nat} {window : Array UInt8} {patch : Patch}
    (inside : i < window.size) :
    (patch.paint origin window)[i]? = (patch.find? (origin + i)).or window[i]? := by
  simp only [Patch.paint, getElem?_laid _ _ _ inside, Patch.find?, List.getElem?_drop]
  by_cases reached : patch.start ≤ origin + i
  · rw [if_pos reached, if_pos (by omega)]
    congr 2
    omega
  · rw [if_neg reached, if_neg (by omega)]
    simp

theorem getElem?_painted {origin i : Nat} {window : Array UInt8} (patches : List Patch)
    (inside : i < window.size) :
    (patches.foldr (fun patch window => patch.paint origin window) window)[i]?
      = (patches.findSome? (·.find? (origin + i))).or window[i]? := by
  have kept : ∀ patches : List Patch,
      (patches.foldr (fun patch window => patch.paint origin window) window).size
        = window.size := by
    intro patches
    induction patches with
    | nil => rfl
    | cons patch patches ih => rw [List.foldr_cons, paint_size, ih]
  induction patches with
  | nil => simp
  | cons patch patches ih =>
    rw [List.foldr_cons, getElem?_paint (by rw [kept]; exact inside), ih, List.findSome?_cons]
    cases patch.find? (origin + i) <;> simp

theorem length_read {s : Span} : (content.read s).length = s.length := by
  have kept : ∀ patches : List Patch,
      (patches.foldr (fun patch window => patch.paint s.lo window)
        (Array.replicate s.length 0)).size = s.length := by
    intro patches
    induction patches with
    | nil => simp
    | cons patch patches ih => rw [List.foldr_cons, paint_size, ih]
  simpa [read] using kept content.patches

/-- Reading a span shows the byte of each of its offsets. -/
theorem getElem?_read {s : Span} {i : Nat} (inside : i < s.length) :
    (content.read s)[i]? = some (content.byteAt (s.lo + i)) := by
  simp only [read, Array.getElem?_toList]
  rw [getElem?_painted _ (by simpa using inside)]
  simp only [Array.getElem?_replicate, inside, if_true, byteAt]
  cases content.patches.findSome? (·.find? (s.lo + i)) <;> rfl

theorem length_bytes : content.bytes.length = content.size := by
  simp [bytes, length_read, Span.length]

theorem getElem?_bytes {i : Nat} (inside : i < content.size) :
    content.bytes[i]? = some (content.byteAt i) := by
  have shown : (content.read ⟨0, content.size⟩)[i]? = some (content.byteAt (0 + i)) :=
    getElem?_read (by simpa [Span.length] using inside)
  simpa [bytes] using shown

end Content

end SparseCache
