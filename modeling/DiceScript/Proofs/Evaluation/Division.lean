import DiceScript.Proofs.Evaluation.Results

/-!
# Division rounds towards zero

A quotient is made of the quotient of the absolute values and of a sign that is decided by comparing the operands with
zero, and a remainder is what the quotient leaves. All signs come out right, also for exact multiples and for zero:
the remainder is smaller than the divisor and has the sign of the dividend, so a sign before the dividend passes to the
quotient and to the remainder, and one before the divisor to the quotient only.
-/

namespace DiceScript

namespace Operator

/-- One comparison with zero is strict and the other is not, but where this matters the quotient is zero. -/
theorem truncated_eq_tdiv (l r : Int) : truncated l r = l.tdiv r := by
  unfold truncated
  simp only [decide_eq_decide]
  rcases Int.lt_or_le l 0 with hl | hl
  · rw [Int.ofNat_natAbs_of_nonpos (Int.le_of_lt hl), ← Int.tdiv_eq_ediv_of_nonneg (by omega), Int.neg_tdiv]
    rcases Int.lt_or_le 0 r with hr | hr
    · rw [if_neg (by omega), Int.natAbs_of_nonneg (Int.le_of_lt hr), Int.neg_neg]
    · rw [if_pos (by omega), Int.ofNat_natAbs_of_nonpos hr, Int.tdiv_neg, Int.neg_neg]
  · rw [Int.natAbs_of_nonneg hl, ← Int.tdiv_eq_ediv_of_nonneg hl]
    rcases Int.lt_or_le 0 r with hr | hr
    · rw [if_pos (by omega), Int.natAbs_of_nonneg (Int.le_of_lt hr)]
    · rw [if_neg (by omega), Int.ofNat_natAbs_of_nonpos hr, Int.tdiv_neg, Int.neg_neg]

def remainder (l r : Int) : Int :=
  l - r * truncated l r

theorem remainder_eq_tmod (l r : Int) : remainder l r = l.tmod r := by
  rw [remainder, truncated_eq_tdiv, Int.tmod_def]

theorem eq_mul_truncated_add_remainder (l r : Int) : l = r * truncated l r + remainder l r := by
  unfold remainder
  omega

theorem natAbs_remainder_lt (l : Int) {r : Int} (hr : r ≠ 0) : (remainder l r).natAbs < r.natAbs := by
  rw [remainder_eq_tmod, Int.natAbs_tmod]
  exact Nat.mod_lt _ (Int.natAbs_pos.2 hr)

theorem sign_remainder (l r : Int) : remainder l r = 0 ∨ (remainder l r).sign = l.sign := by
  have hsign := Int.sign_tmod l r
  rw [← remainder_eq_tmod] at hsign
  split at hsign
  · exact .inl (Int.sign_eq_zero_iff_zero.1 hsign)
  · exact .inr hsign

theorem truncated_neg_left (l r : Int) : truncated (-l) r = -truncated l r := by
  rw [truncated_eq_tdiv, truncated_eq_tdiv, Int.neg_tdiv]

theorem truncated_neg_right (l r : Int) : truncated l (-r) = -truncated l r := by
  rw [truncated_eq_tdiv, truncated_eq_tdiv, Int.tdiv_neg]

theorem remainder_neg_left (l r : Int) : remainder (-l) r = -remainder l r := by
  rw [remainder_eq_tmod, remainder_eq_tmod, Int.neg_tmod]

theorem remainder_neg_right (l r : Int) : remainder l (-r) = remainder l r := by
  rw [remainder_eq_tmod, remainder_eq_tmod, Int.tmod_neg]

end Operator

def Kind.division? : Kind → Option (Int → Int → Int)
  | .divide => some Operator.truncated
  | .modulo => some Operator.remainder
  | _ => none

theorem Kind.eq_of_division? {kind : Kind} {f : Int → Int → Int} (h : kind.division? = some f) :
    kind = .divide ∧ f = Operator.truncated ∨ kind = .modulo ∧ f = Operator.remainder := by
  unfold division? at h
  split at h
  · exact .inl ⟨rfl, (Option.some.inj h).symm⟩
  · exact .inr ⟨rfl, (Option.some.inj h).symm⟩
  · cases h

namespace Eval

variable {words : Vocabulary} {kind : Kind} {f : Int → Int → Int} {x y : Expr} {s s₁ s₂ : State} {l r : Int}

theorem takes_division {op : Token} (hop : op.kind.division? = some f) (l : Int) (hr : r ≠ 0) (s : State) :
    Takes (Operator.binary op .singletonSingleton (.number l) (.number r)) s (.ok (.number (f l r))) s := by
  have hquotient : Takes (Operator.quotient l r) s (.ok (Operator.truncated l r)) s := by
    rw [Operator.quotient, if_neg hr]
    exact takes_pure _ s
  refine (takes_pure l s).bind ((takes_pure r s).bind ?_)
  obtain ⟨hkind, rfl⟩ | ⟨hkind, rfl⟩ := Kind.eq_of_division? hop
  all_goals
    simp only [hkind]
    rw [if_neg hr]
    exact hquotient.bind (takes_pure _ s)

theorem takes_division_zero {op : Token} (hop : op.kind.division? = some f) (l : Int) (s : State) :
    ∃ err, err.kind = .invalidOperand ∧
      Takes (Operator.binary op .singletonSingleton (.number l) (.number 0)) s (.error (.error err))
        (s.reported (.runtime err)) := by
  obtain ⟨hkind, -⟩ | ⟨hkind, -⟩ := Kind.eq_of_division? hop
  · refine ⟨.divisionByZero op, rfl, (takes_pure l s).bind ((takes_pure 0 s).bind ?_)⟩
    simp only [hkind]
    exact takes_fail _ s
  · refine ⟨.moduloByZero op, rfl, (takes_pure l s).bind ((takes_pure 0 s).bind ?_)⟩
    simp only [hkind]
    exact takes_fail _ s

theorem evaluates_divided (hf : kind.division? = some f) {o : Except Stop Value} {s' : State}
    (hx : Evaluates x s (.ok (.number l)) s₁) (hy : Evaluates y s₁ (.ok (.number r)) s₂)
    (happly : Takes (Operator.binary (words.token kind) .singletonSingleton (.number l) (.number r)) s₂ o s')
    (hended : o ≠ .error .outOfFuel) : Evaluates (words.binary x kind y) s o s' := by
  have hop := words.kind_token kind
  obtain ⟨rfl, -⟩ | ⟨rfl, -⟩ := Kind.eq_of_division? hf
  all_goals exact hx.binary hy (by rw [hop]; rfl) (by decide) happly hended

theorem evaluates_division (hf : kind.division? = some f) (hx : Evaluates x s (.ok (.number l)) s₁)
    (hy : Evaluates y s₁ (.ok (.number r)) s₂) (hr : r ≠ 0) :
    Evaluates (words.binary x kind y) s (.ok (.number (f l r))) s₂ :=
  evaluates_divided hf hx hy (takes_division (by rwa [words.kind_token]) l hr s₂) (ok_ended _)

theorem evaluates_minus (hx : Evaluates x s (.ok (.number l)) s₁) :
    Evaluates (words.unary .minus x) s (.ok (.number (-l))) s₁ := by
  have hop := words.kind_token .minus
  refine hx.unary (by rw [hop]; rfl) ((takes_pure l s₁).bind ?_) (ok_ended _)
  simp only [hop]
  exact takes_pure _ s₁

/-- Let two operands come to whole numbers, one after the other. If the divisor is not zero, they have a quotient and a
remainder: together they make up the dividend, and the remainder is smaller than the divisor and is zero or has the sign
of the dividend. A minus before either operand of the quotient is one before the quotient. A minus before the dividend
is one before the remainder, and one before the divisor changes nothing of it. A divisor that is zero is invalid. -/
theorem division_truncates (words : Vocabulary) (hx : Evaluates x s (.ok (.number l)) s₁)
    (hy : Evaluates y s₁ (.ok (.number r)) s₂) :
    let minus := words.unary .minus
    let comesTo (e : Expr) (n : Int) : Prop := Evaluates e s (.ok (.number n)) s₂
    (r ≠ 0 → ∃ q m : Int,
      comesTo (words.binary x .divide y) q ∧ comesTo (words.binary x .modulo y) m ∧
      l = r * q + m ∧ m.natAbs < r.natAbs ∧ (m = 0 ∨ m.sign = l.sign) ∧
      comesTo (words.binary (minus x) .divide y) (-q) ∧ comesTo (words.binary x .divide (minus y)) (-q) ∧
      comesTo (minus (words.binary x .divide y)) (-q) ∧
      comesTo (words.binary (minus x) .modulo y) (-m) ∧ comesTo (minus (words.binary x .modulo y)) (-m) ∧
      comesTo (words.binary x .modulo (minus y)) m) ∧
    (r = 0 → ∀ kind ∈ [Kind.divide, Kind.modulo], ∃ err, err.kind = .invalidOperand ∧
      Evaluates (words.binary x kind y) s (.error (.error err)) (s₂.reported (.runtime err))) := by
  intro minus comesTo
  constructor
  · intro hr
    have hr' : -r ≠ 0 := Int.neg_ne_zero.2 hr
    have hdivide : comesTo (words.binary x .divide y) (Operator.truncated l r) := evaluates_division rfl hx hy hr
    have hmodulo : comesTo (words.binary x .modulo y) (Operator.remainder l r) := evaluates_division rfl hx hy hr
    refine ⟨_, _, hdivide, hmodulo, Operator.eq_mul_truncated_add_remainder l r, Operator.natAbs_remainder_lt l hr,
      Operator.sign_remainder l r, ?_, ?_, evaluates_minus hdivide, ?_, evaluates_minus hmodulo, ?_⟩
    · rw [← Operator.truncated_neg_left]
      exact evaluates_division rfl (evaluates_minus hx) hy hr
    · rw [← Operator.truncated_neg_right]
      exact evaluates_division rfl hx (evaluates_minus hy) hr'
    · rw [← Operator.remainder_neg_left]
      exact evaluates_division rfl (evaluates_minus hx) hy hr
    · rw [← Operator.remainder_neg_right]
      exact evaluates_division rfl hx (evaluates_minus hy) hr'
  · rintro rfl kind hkind
    obtain ⟨f, hf⟩ : ∃ f, kind.division? = some f := by
      rcases List.mem_pair.1 hkind with rfl | rfl
      · exact ⟨_, rfl⟩
      · exact ⟨_, rfl⟩
    obtain ⟨err, herr, htakes⟩ := takes_division_zero (by rwa [words.kind_token]) l s₂
    exact ⟨err, herr, evaluates_divided hf hx hy htakes (by rintro ⟨⟩)⟩

/-- A negative dividend, a dividend of zero with a negative divisor, and a divisor of zero. -/
theorem division_truncates_signs :
    let words : Vocabulary := default
    let s : State := ⟨[], [], ⟨[], 0⟩, []⟩
    let number (n : Int) : Expr := .literal (.number n)
    Yields s (words.binary (number (-7)) .divide (number 2)) (.number (-3)) ∧
      Yields s (words.binary (number (-7)) .modulo (number 2)) (.number (-1)) ∧
      Yields s (words.binary (number 0) .divide (number (-3))) (.number 0) ∧
      Yields s (words.binary (number 0) .modulo (number (-3))) (.number 0) ∧
      ∃ err, err.kind = .invalidOperand ∧
        Evaluates (words.binary (number 7) .modulo (number 0)) s (.error (.error err)) (s.reported (.runtime err)) := by
  intro words s number
  have hnumber (n : Int) : Evaluates (number n) s (.ok (.number n)) s := evaluates_literal _ s
  obtain ⟨q, m, hq, hm, hl, hlt, hsign, -⟩ := (division_truncates words (hnumber (-7)) (hnumber 2)).1 (by decide)
  obtain ⟨q', m', hq', hm', hl', hlt', -⟩ := (division_truncates words (hnumber 0) (hnumber (-3))).1 (by decide)
  -- The remainder of an odd number by two is not zero, so it has a sign.
  have hneg : m < 0 := by
    rcases hsign with rfl | hsign
    · omega
    · exact Int.sign_eq_neg_one_iff_neg.1 hsign
  obtain rfl : m = -1 := by omega
  obtain rfl : q = -3 := by omega
  obtain rfl : q' = 0 := by omega
  obtain rfl : m' = 0 := by omega
  exact ⟨hq, hm, hq', hm', (division_truncates words (hnumber 7) (hnumber 0)).2 rfl .modulo (by decide)⟩

end Eval

end DiceScript
