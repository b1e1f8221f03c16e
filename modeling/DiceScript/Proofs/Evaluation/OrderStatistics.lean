import DiceScript.Proofs.Evaluation.Results
import DiceScript.Proofs.Values.Selection

/-!
# Operators that go by the order of the elements

The least and the largest elements, the minimum and the maximum with all their occurrences, and the median are found in
different ways, by a sort and a cut, by a scan or by an index. They fit together all the same.
-/

namespace DiceScript.Eval

open Collection

variable (words : Vocabulary) {s : State} {x : Expr} {c : Collection}

/-- Let an expression yield a collection of `m` elements. Then `least n` yields a part of it, of `n` elements or all if
there are not as many, none of which exceeds any that is left without them, and `largest n` one that none of the rest
exceeds. Up to `m`, the `n` least and the `m - n` largest elements make up the collection. If it has any elements, its
minimum is the least one and its maximum the largest, its minimal and its maximal elements are those that equal them,
and its median is the maximum of the `m / 2 + 1` least elements. -/
theorem order_statistics (hx : Yields s x (.collection c)) :
    (∀ (n : Nat) (k : Expr), Yields s k (.number n) →
      (∃ chosen rest, Yields s (words.binary k .least x) (.collection chosen) ∧
        Yields s (words.binary x .setMinus (words.binary k .least x)) (.collection rest) ∧
        Selects (fun i j => i ≤ j) n c chosen rest) ∧
      (∃ chosen rest, Yields s (words.binary k .largest x) (.collection chosen) ∧
        Yields s (words.binary x .setMinus (words.binary k .largest x)) (.collection rest) ∧
        Selects (fun i j => i ≥ j) n c chosen rest) ∧
      (n ≤ c.length → ∀ others, Yields s others (.number (c.length - n : Nat)) →
        Agree s (words.binary (words.binary k .least x) .union (words.binary others .largest x)) x)) ∧
    (c ≠ [] →
      (∀ one, Yields s one (.number 1) →
        Agree s (words.unary .minimum x) (words.binary one .least x) ∧
        Agree s (words.unary .maximum x) (words.binary one .largest x)) ∧
      Agree s (words.unary .minimal x) (words.binary (words.unary .minimum x) .equal x) ∧
      Agree s (words.unary .maximal x) (words.binary (words.unary .maximum x) .equal x) ∧
      ∀ half, Yields s half (.number (c.length / 2 + 1 : Nat)) →
        Agree s (words.unary .median x) (words.unary .maximum (words.binary half .least x))) := by
  have hleast {n : Nat} {k : Expr} (hk : Yields s k (.number n)) :=
    yields_binary words .least (Kind.ofCollections?_least n c) hk hx
  have hlargest {n : Nat} {k : Expr} (hk : Yields s k (.number n)) :=
    yields_binary words .largest (Kind.ofCollections?_largest n c) hk hx
  have hrest {k : Expr} {chosen : Collection} (hk : Yields s k (.collection chosen)) :=
    yields_binary words .setMinus rfl hx hk
  refine ⟨fun n k hk => ⟨?_, ?_, fun hn others hothers => ?_⟩, fun hc => ?_⟩
  · exact ⟨_, _, hleast hk, hrest (hleast hk), selects_take (sorted_perm c) (sorted_pairwise c) n⟩
  · exact ⟨_, _, hlargest hk, hrest (hlargest hk), selects_take (descending_perm c) (descending_pairwise c) n⟩
  · have hunion := yields_binary words .union rfl (hleast hk) (hlargest hothers)
    rw [hunion.agree_iff hx]
    exact same_iff_perm.2 (least_append_largest_perm hn)
  · obtain ⟨low, hlow, hleastOne⟩ := exists_minimum hc
    obtain ⟨high, hhigh, hlargestOne⟩ := exists_maximum hc
    obtain ⟨middle, hmiddle, hlast, hhalf⟩ := exists_median hc
    have hminimum : Yields s (words.unary .minimum x) (.number low) :=
      yields_unary words .minimum (congrArg (Option.map ([·])) hlow) hx
    have hmaximum : Yields s (words.unary .maximum x) (.number high) :=
      yields_unary words .maximum (congrArg (Option.map ([·])) hhigh) hx
    refine ⟨fun one hone => ⟨?_, ?_⟩, ?_, ?_, fun half hnumber => ?_⟩
    · rw [hminimum.agree_iff (hleast hone), hleastOne]
      exact same_iff_perm.2 (.refl _)
    · rw [hmaximum.agree_iff (hlargest hone), hlargestOne]
      exact same_iff_perm.2 (.refl _)
    · rw [(yields_unary words .minimal rfl hx).agree_iff (yields_binary words .equal rfl hminimum hx)]
      exact same_iff_perm.2 (.of_eq (minimal_eq_filter hlow))
    · rw [(yields_unary words .maximal rfl hx).agree_iff (yields_binary words .equal rfl hmaximum hx)]
      exact same_iff_perm.2 (.of_eq (maximal_eq_filter hhigh))
    · rw [(yields_unary words .median (congrArg (Option.map ([·])) hmiddle) hx).agree_iff
        (yields_unary words .maximum (congrArg (Option.map ([·])) hlast) (hleast hnumber))]
      exact same_iff_perm.2 (.refl _)

/-- An even number of elements, two of them equal and one negative: the median is the upper one of the two in the
middle. -/
theorem order_statistics_ties :
    let words : Vocabulary := default
    let x : Expr := .var (.text "x") .missing
    let number (n : Int) : Expr := .literal (.number n)
    let s : State := ⟨[⟨.text "x", .collection [5, -1, 3, 3]⟩], [], ⟨[], 0⟩, []⟩
    Yields s x (.collection [5, -1, 3, 3]) ∧
      (∃ chosen rest, Yields s (words.binary (number 2) .least x) (.collection chosen) ∧
        Yields s (words.binary x .setMinus (words.binary (number 2) .least x)) (.collection rest) ∧
        Selects (fun i j => i ≤ j) 2 [5, -1, 3, 3] chosen rest) ∧
      Agree s (words.binary (words.binary (number 2) .least x) .union (words.binary (number 2) .largest x)) x ∧
      Agree s (words.unary .median x) (words.unary .maximum (words.binary (number 3) .least x)) := by
  intro words x number s
  have hx : Yields s x (.collection [5, -1, 3, 3]) := yields_var rfl
  have hnumber (n : Int) : Yields s (number n) (.number n) := yields_literal _ s
  obtain ⟨hselected, hpicked⟩ := order_statistics words hx
  obtain ⟨hleast, -, hunion⟩ := hselected 2 (number 2) (hnumber 2)
  obtain ⟨-, -, -, hmedian⟩ := hpicked (List.cons_ne_nil _ _)
  exact ⟨hx, hleast, hunion (by decide) (number 2) (hnumber 2), hmedian (number 3) (hnumber 3)⟩

end DiceScript.Eval
