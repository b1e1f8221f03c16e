import DiceScript.Proofs.Evaluation.Results
import DiceScript.Proofs.Values.Multiplicity

/-!
# Laws of the operators on collections

The operators on collections, written as expressions, obey the laws of multisets. Some of them come in pairs that share
a collection out between them, so that nothing is lost and nothing is there twice.
-/

namespace DiceScript.Eval

/-- Two expressions share out the elements of a third: all occurrences of a value are in the first if the value is
chosen, else in the second, and put together they are the whole again. -/
structure Shares (words : Vocabulary) (s : State) (x : Expr) (a : Collection) (chosen : Int → Prop)
    (first second : Expr) : Prop where
  inFirst : ∃ c, Yields s first (.collection c) ∧
    ∀ v, (chosen v → c.count v = a.count v) ∧ (¬chosen v → c.count v = 0)
  inSecond : ∃ c, Yields s second (.collection c) ∧
    ∀ v, (chosen v → c.count v = 0) ∧ (¬chosen v → c.count v = a.count v)
  together : Agree s (words.binary first .union second) x

variable (words : Vocabulary) {s : State} {x y n : Expr} {a b : Collection}

/-- A test that the elements pass or fail shares them out. -/
theorem shares_of_filter {first second : Expr} {chosen : Int → Prop} {p q : Int → Bool}
    (hx : Yields s x (.collection a)) (hfirst : Yields s first (.collection (a.filter p)))
    (hsecond : Yields s second (.collection (a.filter q))) (hp : ∀ v, p v = true ↔ chosen v)
    (hq : ∀ v, q v = !p v) : Shares words s x a chosen first second := by
  have hnot {v : Int} (hv : ¬chosen v) : p v = false := by
    rw [← Bool.not_eq_true, hp]
    exact hv
  refine ⟨⟨_, hfirst, fun v => ⟨fun hv => ?_, fun hv => ?_⟩⟩, ⟨_, hsecond, fun v => ⟨fun hv => ?_, fun hv => ?_⟩⟩, ?_⟩
  · exact List.count_filter ((hp v).2 hv)
  · exact Collection.count_filter_of_not (hnot hv)
  · exact Collection.count_filter_of_not (by rw [hq, (hp v).2 hv]; rfl)
  · exact List.count_filter (by rw [hq, hnot hv]; rfl)
  · have hunion := yields_binary words .union rfl hfirst hsecond
    rw [hunion.agree_iff hx]
    refine Collection.same_iff_perm.2 ?_
    rw [funext hq]
    exact List.filter_append_perm p a

/-- Let two expressions yield collections and a third a number. Then in the union of the collections each value occurs
as often as in both, and in their difference as often as in the first less the second. What one drops and what one
keeps share out the first collection, and so do each comparison with the number and its opposite. Every value is there
once among the different ones. Putting back what was taken away restores the first collection exactly if the second
is a part of it. -/
theorem multiset_laws {l : Int} (hx : Yields s x (.collection a)) (hy : Yields s y (.collection b))
    (hn : Yields s n (.number l)) :
    (∃ c, Yields s (words.binary x .union y) (.collection c) ∧ ∀ v, c.count v = a.count v + b.count v) ∧
    (∃ c, Yields s (words.binary x .setMinus y) (.collection c) ∧
      ∀ v, (c.count v : Int) = max 0 ((a.count v : Int) - b.count v)) ∧
    Shares words s x a (fun v => v ∉ b) (words.binary x .drop y) (words.binary x .keep y) ∧
    Shares words s x a (fun v => l = v) (words.binary n .equal x) (words.binary n .unequal x) ∧
    Shares words s x a (fun v => l < v) (words.binary n .less x) (words.binary n .atLeast x) ∧
    Shares words s x a (fun v => l > v) (words.binary n .greater x) (words.binary n .atMost x) ∧
    (∃ c, Yields s (words.unary .different x) (.collection c) ∧ ∀ v, c.count v = if v ∈ a then 1 else 0) ∧
    (Agree s (words.binary (words.binary x .setMinus y) .union y) x ↔ b.Subperm a) := by
  have hunion := yields_binary words .union rfl hx hy
  have hminus := yields_binary words .setMinus rfl hx hy
  have hdrop := yields_binary words .drop rfl hx hy
  have hkeep := yields_binary words .keep rfl hx hy
  have hrestored := yields_binary words .union rfl hminus hy
  have hcompared {kind : Kind} {holds : Int → Int → Bool} (hholds : kind.comparison? = some holds) :=
    yields_binary words kind (Kind.ofCollections?_comparison hholds l a) hn hx
  have hdifferent := yields_unary words .different rfl hx
  refine ⟨⟨_, hunion, fun v => List.count_append⟩, ⟨_, hminus, fun v => ?_⟩, ?_, ?_, ?_, ?_,
    ⟨_, hdifferent, Collection.count_different a⟩, ?_⟩
  · rw [Collection.count_minus]
    omega
  · refine shares_of_filter words hx hdrop hkeep (fun v => ?_) fun v => ?_
    · simp
    · rw [Bool.not_not]
  · refine shares_of_filter words hx (hcompared rfl) (hcompared rfl) (fun v => decide_eq_true_iff) fun v => ?_
    rw [← decide_not]
  · refine shares_of_filter words hx (hcompared rfl) (hcompared rfl) (fun v => decide_eq_true_iff) fun v => ?_
    rw [← decide_not]
    exact decide_eq_decide.2 Int.not_lt.symm
  · refine shares_of_filter words hx (hcompared rfl) (hcompared rfl) (fun v => decide_eq_true_iff) fun v => ?_
    rw [← decide_not]
    exact decide_eq_decide.2 Int.not_lt.symm
  · rw [hrestored.agree_iff hx]
    exact Collection.same_iff_perm.trans Collection.minus_append_perm_iff

/-- Two variables that share a value. What is taken away is not all there, so putting it back does not restore it. -/
theorem multiset_laws_variables :
    let words : Vocabulary := default
    let x : Expr := .var (.text "x") .missing
    let y : Expr := .var (.text "y") .missing
    let n : Expr := .literal (.number 2)
    let s : State := ⟨[⟨.text "x", .collection [3, 1, 3]⟩, ⟨.text "y", .collection [3, 5]⟩], [], ⟨[], 0⟩, []⟩
    Yields s x (.collection [3, 1, 3]) ∧ Yields s y (.collection [3, 5]) ∧ Yields s n (.number 2) ∧
      Shares words s x [3, 1, 3] (fun v => v ∉ [3, 5]) (words.binary x .drop y) (words.binary x .keep y) ∧
      Shares words s x [3, 1, 3] (fun v => 2 < v) (words.binary n .less x) (words.binary n .atLeast x) ∧
      ¬Agree s (words.binary (words.binary x .setMinus y) .union y) x := by
  intro words x y n s
  have hx : Yields s x (.collection [3, 1, 3]) := yields_var rfl
  have hy : Yields s y (.collection [3, 5]) := yields_var rfl
  have hn : Yields s n (.number 2) := yields_literal _ s
  obtain ⟨-, -, hdrop, -, hless, -, -, hrestored⟩ := multiset_laws words hx hy hn
  refine ⟨hx, hy, hn, hdrop, hless, fun h => ?_⟩
  have hcount := (hrestored.1 h).count_le 5
  exact absurd hcount (by decide)

end DiceScript.Eval
