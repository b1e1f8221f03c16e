import DiceScript.Proofs.Values.Permutation
import Mathlib.Data.List.Count

/-!
# How often a value occurs

A multiset is known by how often each value occurs in it. What the operators do to these numbers is said here, one
value at a time: they are added, taken away as far as they go, kept or lost as a whole, or cut down to one.
-/

namespace DiceScript.Collection

variable {a b : Collection}

theorem same_iff_perm : a.same b = true ↔ a.Perm b := by
  rw [same, beq_iff_eq]
  refine ⟨fun h => ?_, sorted_eq_of_perm⟩
  exact (sorted_perm a).symm.trans (h ▸ sorted_perm b)

theorem count_minus (a b : Collection) (v : Int) : (a.minus b).count v = a.count v - b.count v := by
  rw [← List.count_diff, List.diff_eq_foldl]
  rfl

theorem count_filter_of_not {p : Int → Bool} {v : Int} (hv : p v = false) : (a.filter p).count v = 0 := by
  rw [List.count_eq_zero]
  intro h
  rw [(List.mem_filter.1 h).2] at hv
  cases hv

theorem count_different (a : Collection) (v : Int) : (different a).count v = if v ∈ a then 1 else 0 := by
  have hperm : (different a).Perm a.eraseDups := sorted_perm _
  rw [hperm.count_eq, (eraseDups_nodup a).count]
  simp only [List.mem_eraseDups]

/-- What was taken away can be put back if it was all there. -/
theorem minus_append_perm_iff : (a.minus b ++ b).Perm a ↔ b.Subperm a := by
  rw [List.perm_iff_count, List.subperm_ext_iff]
  simp only [List.count_append, count_minus]
  constructor
  · intro h v _
    have hv := h v
    omega
  · intro h v
    -- A part is known by the values that it has, and of the others nothing is taken away.
    by_cases hv : v ∈ b
    · have hle := h v hv
      omega
    · rw [List.count_eq_zero.2 hv]
      omega

end DiceScript.Collection
