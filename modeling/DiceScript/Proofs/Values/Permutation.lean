import DiceScript.Value
import Mathlib.Data.List.Perm.Basic

/-!
# Collections as multisets

A collection is held as a list, but nothing that is done with it may depend on the order of the list. What
is computed from permuted collections is the same, or it is a collection again and permuted: once the
elements are sorted no trace of the order is left, and whatever only asks which elements there are, how many
of them, or how often, never saw it.
-/

namespace DiceScript

namespace Collection

variable {c c' left left' right right' : Collection}

theorem sorted_eq_of_perm (h : c.Perm c') : sorted c = sorted c' := by
  apply List.Perm.eq_of_pairwise (fun a b _ _ => Int.le_antisymm) (sorted_pairwise c) (sorted_pairwise c')
  exact (sorted_perm c).trans (h.trans (sorted_perm c').symm)

theorem descending_pairwise (c : Collection) : (descending c).Pairwise (fun a b => b ≤ a) := by
  have h := @List.pairwise_mergeSort Int (fun a b => decide (b ≤ a))
    (fun a b c hab hbc => by
      rw [decide_eq_true_iff] at *
      exact Int.le_trans hbc hab)
    (fun a b => by simpa using Int.le_total b a) c
  simpa [descending] using h

theorem descending_eq_of_perm (h : c.Perm c') : descending c = descending c' := by
  apply List.Perm.eq_of_pairwise (fun a b _ _ hab hba => Int.le_antisymm hba hab)
    (descending_pairwise c) (descending_pairwise c')
  exact (descending_perm c).trans (h.trans (descending_perm c').symm)

theorem display_eq_of_perm (h : c.Perm c') : display c = display c' := by
  rw [display, display, sorted_eq_of_perm h]

theorem scalar?_eq_none {c : Collection} (h : c.length ≠ 1) : scalar? c = none := by
  unfold scalar?
  split
  · exact absurd rfl h
  · rfl

theorem scalar?_eq_of_perm (h : c.Perm c') : scalar? c = scalar? c' := by
  by_cases hlength : c.length = 1
  · obtain ⟨n, rfl⟩ := List.length_eq_one_iff.1 hlength
    rw [h.singleton_eq]
  · rw [scalar?_eq_none hlength, scalar?_eq_none (h.length_eq ▸ hlength)]

theorem guarded_perm (hleft : left.Perm left') (hright : right.Perm right') :
    (guarded left right).Perm (guarded left' right') := by
  unfold guarded
  rw [hleft.isEmpty_eq]
  split
  · exact .nil
  · exact hright

theorem dropping_perm (hleft : left.Perm left') (hright : right.Perm right') :
    (dropping left right).Perm (dropping left' right') := by
  unfold dropping
  simp only [hright.contains_eq]
  exact hleft.filter _

theorem keeping_perm (hleft : left.Perm left') (hright : right.Perm right') :
    (keeping left right).Perm (keeping left' right') := by
  unfold keeping
  simp only [hright.contains_eq]
  exact hleft.filter _

theorem minus_perm (hleft : left.Perm left') (hright : right.Perm right') :
    (minus left right).Perm (minus left' right') := by
  have h := hleft.diff hright
  rwa [List.diff_eq_foldl, List.diff_eq_foldl] at h

theorem eraseDups_nodup (c : List Int) : c.eraseDups.Nodup := by
  cases c with
  | nil => exact List.nodup_nil
  | cons n rest =>
    rw [List.eraseDups_cons, List.nodup_cons]
    constructor
    · rw [List.mem_eraseDups, List.mem_filter]
      simp
    · exact eraseDups_nodup _
termination_by c.length
decreasing_by exact Nat.lt_succ_of_le (List.length_filter_le _ _)

theorem different_eq_of_perm (h : c.Perm c') : different c = different c' := by
  apply sorted_eq_of_perm
  rw [List.perm_ext_iff_of_nodup (eraseDups_nodup c) (eraseDups_nodup c')]
  intro n
  rw [List.mem_eraseDups, List.mem_eraseDups, h.mem_iff]

theorem total_eq_of_perm (h : c.Perm c') : total c = total c' :=
  h.foldl_eq' (fun a _ b _ s => by omega) 0

theorem minimum?_eq_of_perm (h : c.Perm c') : minimum? c = minimum? c' := by
  apply Option.ext
  intro n
  simp only [minimum?, List.min?_eq_some_iff, h.mem_iff]

theorem maximum?_eq_of_perm (h : c.Perm c') : maximum? c = maximum? c' := by
  apply Option.ext
  intro n
  simp only [maximum?, List.max?_eq_some_iff, h.mem_iff]

theorem median?_eq_of_perm (h : c.Perm c') : median? c = median? c' := by
  rw [median?, median?, sorted_eq_of_perm h, h.length_eq]

theorem minimal_perm (h : c.Perm c') : (minimal c).Perm (minimal c') := by
  unfold minimal
  rw [minimum?_eq_of_perm h]
  split
  · exact h.filter _
  · exact .nil

theorem maximal_perm (h : c.Perm c') : (maximal c).Perm (maximal c') := by
  unfold maximal
  rw [maximum?_eq_of_perm h]
  split
  · exact h.filter _
  · exact .nil

theorem negation_eq_of_perm (h : c.Perm c') : negation c = negation c' := by
  rw [negation, negation, h.isEmpty_eq]

end Collection

namespace Value

/-- Values that are the same but for the collections in them, which are `items` to each other. -/
inductive Alike (items : Collection → Collection → Prop) : Value → Value → Prop
  | collection {c c' : Collection} (h : items c c') : Alike items (.collection c) (.collection c')
  | real (x : Binary64) : Alike items (.real x) (.real x)
  | text (s : String) : Alike items (.text s) (.text s)
  | pair {a a' b b' : Value} (first : Alike items a a') (second : Alike items b b') :
    Alike items (.pair a b) (.pair a' b')

abbrev Permuted : Value → Value → Prop := Alike List.Perm

section

variable {items : Collection → Collection → Prop} {v v' : Value}

theorem alike_refl (hrefl : ∀ c, items c c) (v : Value) : Alike items v v := by
  induction v with
  | collection c => exact .collection (hrefl c)
  | real x => exact .real x
  | text s => exact .text s
  | pair a b iha ihb => exact .pair iha ihb

theorem alike_pair_iff {a a' b b' : Value} :
    Alike items (.pair a b) (.pair a' b') ↔ Alike items a a' ∧ Alike items b b' := by
  constructor
  · rintro ⟨⟩
    constructor <;> assumption
  · rintro ⟨ha, hb⟩
    exact .pair ha hb

theorem eq_of_alike (h : Alike Eq v v') : v = v' := by
  induction h with
  | collection h => rw [h]
  | real x => rfl
  | text s => rfl
  | pair _ _ iha ihb => rw [iha, ihb]

theorem Alike.mono {items' : Collection → Collection → Prop}
    (hitems : ∀ c c', items c c' → items' c c') (h : Alike items v v') : Alike items' v v' := by
  induction h with
  | collection h => exact .collection (hitems _ _ h)
  | real x => exact .real x
  | text s => exact .text s
  | pair _ _ iha ihb => exact .pair iha ihb

end

section

variable {v v' : Value}

theorem Permuted.shape_eq (h : Permuted v v') : v.shape = v'.shape := by
  cases h with
  | collection h => simp only [shape, Collection.scalar?_eq_of_perm h]
  | real x => rfl
  | text s => rfl
  | pair _ _ => rfl

theorem Permuted.isTruthy_eq (h : Permuted v v') : v.isTruthy = v'.isTruthy := by
  cases h with
  | collection h => simp only [isTruthy, h.isEmpty_eq]
  | real x => rfl
  | text s => rfl
  | pair _ _ => rfl

theorem Permuted.display_eq (h : Permuted v v') : v.display = v'.display := by
  induction h with
  | collection h => exact Collection.display_eq_of_perm h
  | real x => rfl
  | text s => rfl
  | pair _ _ iha ihb => rw [display, display, iha, ihb]

def reals : Value → List Binary64
  | .real x => [x]
  | .pair a b => a.reals ++ b.reals
  | _ => []

/-- Equality does not tell permuted values apart, unless there is a real in them that equals nothing. -/
theorem Permuted.same_eq_true (h : Permuted v v') (hnan : .nan ∉ v.reals) : v.same v' = true := by
  induction h with
  | collection h => simp [same, Collection.same, Collection.sorted_eq_of_perm h]
  | real x =>
    cases x with
    | nan => simp [reals] at hnan
    | infinite negative => simp [same, Binary64.same]
    | finite negative digits e => simp [same, Binary64.same, Binary64.toRat?]
  | text s => simp [same]
  | pair _ _ iha ihb =>
    rw [reals, List.mem_append, not_or] at hnan
    rw [same, iha hnan.1, ihb hnan.2, Bool.and_self]

end

end Value

end DiceScript
