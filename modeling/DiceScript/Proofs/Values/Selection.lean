import DiceScript.Proofs.Values.Multiplicity

/-!
# The least and the largest elements

A selection of the least or of the largest elements is the beginning of the elements in order, so what is left without it
is the end, and the least and the largest elements are the first of the two orders. The decreasing order is the
increasing one backwards, which is why the one selection ends where the other begins.
-/

namespace DiceScript.Collection

variable {c ordered : Collection} {n : Nat}

/-- A selection of as many elements as there are to select, each of which comes before all that are left. -/
structure Selects (order : Int → Int → Prop) (n : Nat) (c chosen rest : Collection) : Prop where
  subperm : chosen.Subperm c
  length : chosen.length = min n c.length
  before : ∀ i ∈ chosen, ∀ j ∈ rest, order i j

theorem minus_take_perm (hperm : ordered.Perm c) (n : Nat) : (c.minus (ordered.take n)).Perm (ordered.drop n) := by
  rw [List.perm_iff_count]
  intro v
  have hcount : c.count v = (ordered.take n).count v + (ordered.drop n).count v := by
    rw [← List.count_append, List.take_append_drop, hperm.count_eq]
  rw [count_minus]
  omega

/-- The beginning of the elements in any order is a selection in this order. -/
theorem selects_take {order : Int → Int → Prop} (hperm : ordered.Perm c) (hordered : ordered.Pairwise order)
    (n : Nat) : Selects order n c (ordered.take n) (c.minus (ordered.take n)) where
  subperm := (List.take_sublist n ordered).subperm.trans hperm.subperm
  length := by rw [List.length_take, hperm.length_eq]
  before i hi j hj := by
    have hjrest : j ∈ ordered.drop n := (minus_take_perm hperm n).mem_iff.1 hj
    rw [← List.take_append_drop n ordered] at hordered
    exact hordered.rel_of_mem_append hi hjrest

theorem descending_eq_reverse (c : Collection) : c.descending = c.sorted.reverse := by
  have hreverse : c.sorted.reverse.Pairwise fun a b => b ≤ a := List.pairwise_reverse.2 (sorted_pairwise c)
  apply List.Perm.eq_of_pairwise (fun a b _ _ hab hba => Int.le_antisymm hba hab) (descending_pairwise c) hreverse
  exact (descending_perm c).trans ((sorted_perm c).symm.trans (List.reverse_perm _).symm)

/-- Where the least elements end the largest begin. -/
theorem least_append_largest_perm (hn : n ≤ c.length) : (c.least n ++ c.largest (c.length - n)).Perm c := by
  have hlength : c.sorted.length = c.length := (sorted_perm c).length_eq
  have hlargest : c.largest (c.length - n) = (c.sorted.drop n).reverse := by
    rw [largest, descending_eq_reverse, List.take_reverse, hlength, Nat.sub_sub_self hn]
  calc (c.least n ++ c.largest (c.length - n)).Perm (c.sorted.take n ++ c.sorted.drop n) := by
        rw [hlargest]
        exact (List.reverse_perm _).append_left _
    List.Perm _ c.sorted := by rw [List.take_append_drop]
    List.Perm _ c := sorted_perm c

/-- The first element in an order comes before all. -/
theorem exists_first {order : Int → Int → Prop} (hperm : ordered.Perm c) (hordered : ordered.Pairwise order)
    (hrefl : ∀ i, order i i) (hc : c ≠ []) :
    ∃ i, ordered.take 1 = [i] ∧ i ∈ c ∧ ∀ j ∈ c, order i j := by
  cases ordered with
  | nil => exact absurd hperm.nil_eq.symm hc
  | cons i rest =>
    refine ⟨i, rfl, hperm.mem_iff.1 List.mem_cons_self, fun j hj => ?_⟩
    rcases List.mem_cons.1 (hperm.mem_iff.2 hj) with rfl | hj
    · exact hrefl j
    · exact (List.pairwise_cons.1 hordered).1 j hj

theorem exists_minimum (hc : c ≠ []) : ∃ i, c.minimum? = some i ∧ c.least 1 = [i] := by
  obtain ⟨i, htake, hmem, hle⟩ := exists_first (sorted_perm c) (sorted_pairwise c) Int.le_refl hc
  exact ⟨i, List.min?_eq_some_iff.2 ⟨hmem, hle⟩, htake⟩

theorem exists_maximum (hc : c ≠ []) : ∃ i, c.maximum? = some i ∧ c.largest 1 = [i] := by
  obtain ⟨i, htake, hmem, hle⟩ := exists_first (descending_perm c) (descending_pairwise c) Int.le_refl hc
  exact ⟨i, List.max?_eq_some_iff.2 ⟨hmem, hle⟩, htake⟩

theorem filter_beq_eq (c : Collection) (i : Int) : c.filter (· == i) = c.filter fun v => decide (i = v) := by
  refine List.filter_congr fun v _ => ?_
  rw [Bool.eq_iff_iff, beq_iff_eq, decide_eq_true_iff, eq_comm]

theorem minimal_eq_filter {i : Int} (h : c.minimum? = some i) : c.minimal = c.filter fun v => decide (i = v) := by
  rw [minimal, h]
  exact filter_beq_eq c i

theorem maximal_eq_filter {i : Int} (h : c.maximum? = some i) : c.maximal = c.filter fun v => decide (i = v) := by
  rw [maximal, h]
  exact filter_beq_eq c i

/-- The last of the least elements is the largest of them. -/
theorem maximum?_least (hn : n < c.length) : (c.least (n + 1)).maximum? = c.sorted[n]? := by
  have hlength : n < c.sorted.length := (sorted_perm c).length_eq ▸ hn
  have htake : c.least (n + 1) = c.sorted.take n ++ [c.sorted[n]] := by
    rw [least, List.take_succ_eq_append_getElem hlength]
  have hordered : (c.least (n + 1)).Pairwise (· ≤ ·) := (sorted_pairwise c).sublist (List.take_sublist _ _)
  -- The least elements are in order, so each of them comes before the last one or is it.
  rw [List.getElem?_eq_getElem hlength]
  rw [htake] at hordered ⊢
  refine List.max?_eq_some_iff.2 ⟨List.mem_append_right _ List.mem_cons_self, fun i hi => ?_⟩
  rcases List.mem_append.1 hi with hi | hi
  · exact hordered.rel_of_mem_append hi List.mem_cons_self
  · exact Int.le_of_eq (List.mem_singleton.1 hi)

theorem exists_median (hc : c ≠ []) :
    ∃ i, c.median? = some i ∧ (c.least (c.length / 2 + 1)).maximum? = some i ∧ c.least (c.length / 2 + 1) ≠ [] := by
  have hlength := List.length_pos_iff.2 hc
  obtain ⟨i, hi⟩ : ∃ i, c.median? = some i :=
    Option.isSome_iff_exists.1 (extremes_isSome (List.isEmpty_eq_false_iff.2 hc)).2.2
  have hlast : (c.least (c.length / 2 + 1)).maximum? = some i := (maximum?_least (by omega)).trans hi
  refine ⟨i, hi, hlast, ?_⟩
  intro hnil
  rw [hnil] at hlast
  cases hlast

end DiceScript.Collection
