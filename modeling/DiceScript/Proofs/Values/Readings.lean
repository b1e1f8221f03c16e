import DiceScript.Proofs.Values.Alignment
import DiceScript.Proofs.Values.Multiplicity
import Mathlib.Data.Multiset.Defs

/-!
# What a printed value tells

A collection is printed as its elements in order with blanks between them, so the empty one as nothing, and a pair with
brackets, a comma and blanks around what is printed of its parts. Such a text can be read in one way only. The words of
a collection are found at its blanks. A collection inside a pair ends before the next comma, or before the next bracket
and the blank that stands there, and a pair is known by the bracket that it begins with. Values made of collections and
pairs are therefore equal exactly if they are printed alike.
-/

namespace DiceScript

namespace Collection

variable {c d : Collection} {x y : List Char}

theorem number_ne_nil (n : Int) : (toString n).toList ≠ [] := by
  have hdigits (k : Nat) : k.repr.toList ≠ [] := by
    rw [Nat.toList_repr]
    exact Nat.toDigits_ne_nil
  rw [Int.toString_eq_repr]
  cases n with
  | ofNat k => exact hdigits k
  | negSucc k =>
    change ("-" ++ (k + 1).repr).toList ≠ []
    rw [String.toList_append]
    exact List.append_ne_nil_of_right_ne_nil _ (hdigits _)

theorem digits_injective {k l : Nat} (h : k.repr.toList = l.repr.toList) : k = l := by
  rw [Nat.toList_repr, Nat.toList_repr] at h
  rw [← Nat.ofDigitChars_ten_toDigits (n := k), h, Nat.ofDigitChars_ten_toDigits]

/-- Digits do not begin with a sign, so numbers of different signs are printed differently. -/
theorem number_injective {m n : Int} (h : (toString m).toList = (toString n).toList) : m = n := by
  have hsign (k l : Nat) : k.repr.toList ≠ ("-" ++ l.repr).toList := by
    intro hkl
    have hminus : '-' ∈ k.repr.toList := by
      rw [hkl, String.toList_append]
      exact List.mem_cons_self
    rw [Nat.toList_repr] at hminus
    exact absurd (Nat.isDigit_of_mem_toDigits (by omega) (Nat.le_refl 10) hminus) (by decide)
  rw [Int.toString_eq_repr, Int.toString_eq_repr] at h
  cases m with
  | ofNat k =>
    cases n with
    | ofNat l => rw [digits_injective h]
    | negSucc l => exact absurd h (hsign k (l + 1))
  | negSucc k =>
    cases n with
    | ofNat l => exact absurd h.symm (hsign l (k + 1))
    | negSucc l =>
      change ("-" ++ (k + 1).repr).toList = ("-" ++ (l + 1).repr).toList at h
      rw [String.toList_append, String.toList_append, List.append_right_inj] at h
      rw [Nat.succ.inj (digits_injective h)]

def words (c : Collection) : List (List Char) :=
  c.sorted.map fun n => (toString n).toList

theorem toList_display (c : Collection) : c.display.toList = List.intercalate [' '] c.words := by
  rw [display, String.toList_intercalate, List.map_map]
  rfl

theorem blank_not_mem_words {w : List Char} (h : w ∈ c.words) : ' ' ∉ w := by
  obtain ⟨n, -, rfl⟩ := List.mem_map.1 h
  intro hblank
  rcases mem_number hblank with hblank | hblank <;> revert hblank <;> decide

theorem words_ne_nil {w : List Char} (h : w ∈ c.words) : w ≠ [] := by
  obtain ⟨n, -, rfl⟩ := List.mem_map.1 h
  exact number_ne_nil n

/-- The words are what stands between the blanks. If there are none, it is an empty word that stands there. -/
theorem words_eq (c : Collection) : c.words = (c.display.toList.splitOn ' ').filter (!·.isEmpty) := by
  rw [toList_display]
  by_cases hwords : c.words = []
  · rw [hwords]
    rfl
  · rw [List.splitOn_intercalate ' ' (fun w h => blank_not_mem_words h) hwords, List.filter_eq_self.2]
    intro w hw
    rw [List.isEmpty_eq_false_iff.2 (words_ne_nil hw)]
    rfl

theorem sorted_eq_of_display_eq (h : c.display = d.display) : c.sorted = d.sorted := by
  have hwords : c.words = d.words := by rw [words_eq, words_eq, h]
  exact List.map_injective_iff.2 (fun _ _ => number_injective) hwords

theorem same_iff_display_eq : c.same d = true ↔ c.display = d.display := by
  rw [same, beq_iff_eq]
  refine ⟨fun h => ?_, sorted_eq_of_display_eq⟩
  rw [display, h, display]

end Collection

namespace Value

variable {a b : Value} {c d : Collection} {x y : List Char}

def isNumeric : Value → Bool
  | .collection _ => true
  | .pair a b => a.isNumeric && b.isNumeric
  | .real _ | .text _ => false

/-- What stands after a part of a pair: the comma, or the blank and the bracket at the end. -/
inductive Closes : List Char → Prop
  | comma (rest : List Char) : Closes (',' :: rest)
  | bracket (rest : List Char) : Closes (' ' :: ']' :: rest)

theorem toList_display_pair (a b : Value) (x : List Char) :
    (Value.pair a b).display.toList ++ x =
      '[' :: ' ' :: (a.display.toList ++ ',' :: ' ' :: (b.display.toList ++ ' ' :: ']' :: x)) := by
  simp [display]

/-- Where the characters of collections stop is told by the text as a whole. -/
theorem eq_of_append_stop {s t : Char} (hx : ∀ ch ∈ x, Collection.isShown ch = true)
    (hy : ∀ ch ∈ y, Collection.isShown ch = true) (hs : Collection.isShown s = false)
    (ht : Collection.isShown t = false) {r q : List Char} (h : x ++ s :: r = y ++ t :: q) :
    x = y ∧ s = t ∧ r = q := by
  have htaken := congrArg (List.takeWhile Collection.isShown) h
  rw [List.takeWhile_append_of_pos hx, List.takeWhile_append_of_pos hy,
    List.takeWhile_cons_of_neg (Bool.eq_false_iff.1 hs), List.takeWhile_cons_of_neg (Bool.eq_false_iff.1 ht),
    List.append_nil, List.append_nil] at htaken
  subst htaken
  exact ⟨rfl, List.cons.inj (List.append_cancel_left h)⟩

/-- A collection ends where it can be told from what follows that it does. -/
theorem display_append_inj_collection (hx : Closes x) (hy : Closes y)
    (h : c.display.toList ++ x = d.display.toList ++ y) : c.display = d.display ∧ x = y := by
  have hshown (c : Collection) (ch : Char) (h : ch ∈ c.display.toList) : Collection.isShown ch = true :=
    Collection.isShown_of_mem_display h
  have hblank (c : Collection) (ch : Char) (h : ch ∈ c.display.toList ++ [' ']) : Collection.isShown ch = true := by
    rcases List.mem_append.1 h with h | h
    · exact hshown c ch h
    · rw [List.mem_singleton.1 h]
      rfl
  cases hx with
  | comma r =>
    cases hy with
    | comma q =>
      obtain ⟨hsame, -, rfl⟩ := eq_of_append_stop (hshown c) (hshown d) rfl rfl h
      exact ⟨String.toList_inj.1 hsame, rfl⟩
    | bracket q =>
      rw [List.append_cons d.display.toList] at h
      obtain ⟨-, hstop, -⟩ := eq_of_append_stop (hshown c) (hblank d) rfl rfl h
      exact absurd hstop (by decide)
  | bracket r =>
    rw [List.append_cons c.display.toList] at h
    cases hy with
    | comma q =>
      obtain ⟨-, hstop, -⟩ := eq_of_append_stop (hblank c) (hshown d) rfl rfl h
      exact absurd hstop (by decide)
    | bracket q =>
      rw [List.append_cons d.display.toList] at h
      obtain ⟨hsame, -, rfl⟩ := eq_of_append_stop (hblank c) (hblank d) rfl rfl h
      exact ⟨String.toList_inj.1 (List.append_cancel_right hsame), rfl⟩

/-- No collection begins as a pair does. -/
theorem display_append_ne_bracket (hx : Closes x) (rest : List Char) : c.display.toList ++ x ≠ '[' :: rest := by
  intro h
  cases hshown : c.display.toList with
  | nil =>
    rw [hshown] at h
    cases hx <;> cases h
  | cons ch others =>
    rw [hshown] at h
    cases h
    have hbracket : Collection.isShown '[' = true :=
      Collection.isShown_of_mem_display (c := c) (by rw [hshown]; exact List.mem_cons_self)
    exact absurd hbracket (by decide)

/-- Values can be read off a text of which they are the beginning. -/
theorem display_append_inj (ha : a.isNumeric = true) (hb : b.isNumeric = true) (hx : Closes x) (hy : Closes y)
    (h : a.display.toList ++ x = b.display.toList ++ y) : a.same b = true ∧ x = y := by
  induction a generalizing b x y with
  | real value => cases ha
  | text value => cases ha
  | collection c =>
    cases b with
    | real value => cases hb
    | text value => cases hb
    | collection d =>
      obtain ⟨hsame, rfl⟩ := display_append_inj_collection hx hy h
      exact ⟨Collection.same_iff_display_eq.2 hsame, rfl⟩
    | pair b₁ b₂ =>
      rw [toList_display_pair] at h
      exact absurd h (display_append_ne_bracket hx _)
  | pair a₁ a₂ ih₁ ih₂ =>
    rw [toList_display_pair] at h
    cases b with
    | real value => cases hb
    | text value => cases hb
    | collection d => exact absurd h.symm (display_append_ne_bracket hy _)
    | pair b₁ b₂ =>
      rw [toList_display_pair, List.cons.injEq, List.cons.injEq] at h
      rw [isNumeric, Bool.and_eq_true] at ha hb
      obtain ⟨hfirst, hrest⟩ := ih₁ ha.1 hb.1 (.comma _) (.comma _) h.2.2
      rw [List.cons.injEq, List.cons.injEq] at hrest
      obtain ⟨hsecond, hclose⟩ := ih₂ ha.2 hb.2 (.bracket _) (.bracket _) hrest.2.2
      rw [List.cons.injEq, List.cons.injEq] at hclose
      refine ⟨?_, hclose.2.2⟩
      rw [same, hfirst, hsecond]
      rfl

theorem display_eq_of_same (ha : a.isNumeric = true) (h : a.same b = true) : a.display = b.display := by
  induction a generalizing b with
  | real value => cases ha
  | text value => cases ha
  | collection c =>
    cases b with
    | collection d => exact Collection.same_iff_display_eq.1 h
    | _ => cases h
  | pair a₁ a₂ ih₁ ih₂ =>
    cases b with
    | pair b₁ b₂ =>
      rw [isNumeric, Bool.and_eq_true] at ha
      rw [same, Bool.and_eq_true] at h
      rw [display, display, ih₁ ha.1 h.1, ih₂ ha.2 h.2]
    | _ => cases h

/-- Two values made of collections and pairs, however they are nested, are equal exactly if they are printed alike. So
two collections are printed alike exactly if they are the same multiset. -/
theorem same_iff_printed_alike (ha : a.isNumeric = true) (hb : b.isNumeric = true) :
    (a.same b = true ↔ a.display = b.display) ∧
      ∀ c d : Collection, (Value.collection c).display = (Value.collection d).display ↔
        (c : Multiset Int) = (d : Multiset Int) := by
  refine ⟨⟨display_eq_of_same ha, fun h => ?_⟩, fun c d => ?_⟩
  · have hcomma : a.display.toList ++ [','] = b.display.toList ++ [','] := by rw [h]
    exact (display_append_inj ha hb (.comma []) (.comma []) hcomma).1
  · rw [Multiset.coe_eq_coe, ← Collection.same_iff_perm]
    exact Collection.same_iff_display_eq.symm

/-- Pairs with an empty part: the order of the elements of the other part makes no difference, but it does where the
empty part stands. -/
theorem same_iff_printed_alike_empty :
    let value (c d : Collection) : Value := .pair (.collection c) (.pair (.collection d) (.collection []))
    (∀ c d, (value c d).isNumeric = true) ∧ (value [] [10, -2]).display = (value [] [-2, 10]).display ∧
      (value [] [-7]).display = "[ , [ -7,  ] ]" ∧ (value [] [-7]).same (value [-7] []) = false := by
  intro value
  have hiff (a b c d : Collection) := (same_iff_printed_alike (a := value a b) (b := value c d) rfl rfl).1
  have hsame {c d : Collection} (h : c.Perm d) : (value [] c).same (value [] d) = true := by
    have hempty : Collection.same [] [] = true := Collection.same_iff_perm.2 (.refl _)
    simp only [value, same, hempty, Collection.same_iff_perm.2 h, Bool.and_self]
  refine ⟨fun _ _ => rfl, (hiff _ _ _ _).1 (hsame (by decide)), by decide +kernel, ?_⟩
  rw [← Bool.not_eq_true, hiff]
  decide +kernel

end Value

end DiceScript
