import SparseCache.Scratch.Basic

namespace SparseCache

/-! Names made of letters, as a program may draw them that runs by itself.

The numbers behind two names in a row lie far apart, so that names are unlike each other and
unlike any that somebody would choose.
-/

variable {n m : Nat}

def letters (n : Nat) : Bytes :=
  let letter : UInt8 := UInt8.ofNat (97 + n % 26)
  if n < 26 then [letter] else letter :: letters (n / 26)
termination_by n

theorem letters_ne_nil : letters n ≠ [] := by
  unfold letters
  dsimp only
  split <;> simp

theorem letter_inj {a b : Nat} (same : UInt8.ofNat (97 + a % 26) = UInt8.ofNat (97 + b % 26)) :
    a % 26 = b % 26 := by
  have values := congrArg UInt8.toNat same
  simp only [UInt8.toNat_ofNat'] at values
  omega

theorem letters_injective (same : letters n = letters m) : n = m := by
  induction n using Nat.strongRecOn generalizing m with
  | ind n ih =>
    rw [letters.eq_def n, letters.eq_def m] at same
    dsimp only at same
    split at same
    · split at same
      · have last := letter_inj (List.cons.inj same).1
        omega
      · exact absurd (List.cons.inj same).2.symm letters_ne_nil
    · split at same
      · exact absurd (List.cons.inj same).2 letters_ne_nil
      · have last := letter_inj (List.cons.inj same).1
        have rest := ih (n / 26) (by omega) (List.cons.inj same).2
        omega

/-- Random names are letters behind the mark, and what is oldest in a directory is listed first. -/
instance Host.lettered : Host where
  randomName mark n := mark ++ letters ((n + 1) * 2654435761)
  listing tree directory := tree.children directory
  marked mark n := List.prefix_append mark _
  fresh same := by
    have numbers := letters_injective (List.append_cancel_left same)
    omega
  listed _ _ := .refl _

end SparseCache
