import DiceScript.Proofs.Evaluation.Restoration

/-!
# The bound on an evaluation

An evaluation has a bound on how deep it nests and on how many rounds each of its loops goes. The bound decides
nothing but whether there is an answer: an evaluation that ends within one bound ends in the same way, on the same
machine and with the same log, within every larger one. `Below` compares two computations in this respect.
-/

namespace DiceScript.Eval

variable {α β : Type}

/-- Wherever the first computation ends within its bound, the second one ends in the same way. -/
def Below (x y : Eval α) : Prop :=
  ∀ m, outcome (x m) ≠ .error .outOfFuel → y m = x m

section

variable {x y : Eval α} {f g : α → Eval β}

theorem below_refl (x : Eval α) : Below x x := fun _ _ => rfl

theorem below_outOfFuel (x : Eval α) : Below (throw .outOfFuel) x :=
  fun _ h => absurd rfl h

theorem Below.bind (hx : Below x y) (hf : ∀ a, Below (f a) (g a)) : Below (x >>= f) (y >>= g) := by
  intro m h
  cases hrun : x m with
  | ok a after =>
    have hfinished : outcome (x m) ≠ .error .outOfFuel := by
      rw [hrun]
      intro hstop
      cases hstop
    have hy : y m = .ok a after := (hx m hfinished).trans hrun
    rw [bind_of_ok hrun] at h ⊢
    rw [bind_of_ok hy]
    exact hf a after h
  | error stop after =>
    have hfinished : outcome (x m) ≠ .error .outOfFuel := by
      rw [hrun]
      intro hstop
      cases hstop
      rw [bind_of_error hrun] at h
      exact h rfl
    have hy : y m = .error stop after := (hx m hfinished).trans hrun
    rw [bind_of_error hrun, bind_of_error hy]

theorem outcome_inScope (x : Eval α) (m : Machine) : outcome (inScope x m) = outcome (x m) := by
  unfold inScope
  cases x m <;> rfl

theorem Below.inScope (hx : Below x y) : Below (inScope x) (inScope y) := by
  intro m h
  rw [outcome_inScope] at h
  simp only [Eval.inScope, hx m h]

end

/-- Whatever is no evaluation of another node is the same within both bounds. -/
def comparisonBelow : NodeComparison where
  toComparison := .exact (fun _ _ x y => Below x y) (fun _ => below_refl _) Below.bind
  token := Eq
  wants _ := True
  token_alike := @Token.alike_of_eq
  fault h := Fault.eq_of_alike id h ▸ below_refl _
  blame hop he _ := by
    rw [← hop, RuntimeError.blaming_self he]
    exact below_refl _
  want hop _ := hop ▸ below_refl _
  chance _ _ := ⟨rfl, fun _ => below_refl _⟩
  seen _ := True
  called _ := True
  entries _ found found' := found = found'
  closes _ _ _ _ x y := Below x y
  blameless _ := below_refl _
  tell h := Event.eq_of_alike id h ▸ below_refl _
  part hx := hx
  inScope hx := hx.inScope
  around {_ _ y _ _ _ _ _ _ _ _} hv hx hf := hv ▸ (below_refl _).bind fun _ => hx.bind fun a => hf a a (y.alike_eq ▸ rfl)
  afterPop hx := (below_refl _).bind fun _ => hx
  afterTell h hx := Event.eq_of_alike id h ▸ (below_refl _).bind fun _ => hx
  leave _ := below_refl _
  look _ hf := (below_refl _).bind fun found => hf found found (rel_self (fun _ => rfl) found)
  lookup _ hf := (below_refl _).bind fun found => hf found found rfl

/-- An evaluation that ends within a bound ends in the same way within every larger bound. -/
theorem below_eval {fuel fuel' : Nat} (hfuel : fuel ≤ fuel') (e : Expr) : Below (eval fuel e) (eval fuel' e) := by
  obtain ⟨more, rfl⟩ := Nat.exists_eq_add_of_le hfuel
  clear hfuel
  induction fuel generalizing e with
  | zero => exact below_outOfFuel _
  | succ fuel ih =>
    have hallows : comparisonBelow.Allows e := by
      cases e with
      | literal | binary => exact rfl
      | unary => exact ⟨rfl, fun _ => trivial⟩
      | _ => trivial
    rw [Nat.succ_add]
    refine comparisonBelow.step rfl hallows (fun child _ => ih child) ?_ fuel fun _ _ _ _ _ _ => below_outOfFuel _
    rintro _ _ _ found _ rfl
    exact ScopeComparison.callees_self (fun _ _ body _ => ih body) fun _ _ _ => below_refl _

end DiceScript.Eval
