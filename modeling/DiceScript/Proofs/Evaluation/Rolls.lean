import DiceScript.Proofs.Evaluation.Samples

/-!
# Dice rolled at once and one by one

Dice may be rolled together, `n d f`, or one die may be rolled again and again, `n # d f`. Either way each number is made
of one draw, in the order of the draws, so that the numbers and the source that is left are the same. The draws of a
source may be any numbers at all, and nothing is said about how likely they are.
-/

namespace DiceScript

def Kind.lowest? : Kind → Option Int
  | .die => some 1
  | .zeroDie => some 0
  | _ => none

theorem Kind.eq_of_lowest? {kind : Kind} {lowest : Int} (h : kind.lowest? = some lowest) :
    kind = .die ∧ lowest = 1 ∨ kind = .zeroDie ∧ lowest = 0 := by
  unfold lowest? at h
  split at h
  · exact .inl ⟨rfl, (Option.some.inj h).symm⟩
  · exact .inr ⟨rfl, (Option.some.inj h).symm⟩
  · cases h

theorem Kind.lowest_le_one {kind : Kind} {lowest : Int} (h : kind.lowest? = some lowest) : lowest ≤ 1 := by
  have hcases := eq_of_lowest? h
  omega

theorem Kind.operator_of_lowest? {kind : Kind} {lowest : Int} (h : kind.lowest? = some lowest) :
    kind.isUnary = true ∧ kind.isBinary = true := by
  obtain ⟨rfl, -⟩ | ⟨rfl, -⟩ := eq_of_lowest? h
  · exact ⟨rfl, rfl⟩
  · exact ⟨rfl, rfl⟩

namespace Dice

variable {low high : Int}

def draws (d : Dice) : Nat → List Nat × Dice
  | 0 => ([], d)
  | count + 1 => (d.draw.1 :: (d.draw.2.draws count).1, (d.draw.2.draws count).2)

/-- The number from `low` to `high` that a draw stands for. -/
def face (low high : Int) (drawn : Nat) : Int :=
  low + (drawn : Int) % (high - low + 1)

def faces (d : Dice) (low high : Int) (count : Nat) : List Int :=
  (d.draws count).1.map (face low high)

theorem face_bounds (h : low ≤ high) (drawn : Nat) : low ≤ face low high drawn ∧ face low high drawn ≤ high := by
  have hwidth : 0 < high - low + 1 := by omega
  have hlower := Int.emod_nonneg (drawn : Int) (Int.ne_of_gt hwidth)
  have hupper := Int.emod_lt_of_pos (drawn : Int) hwidth
  unfold face
  omega

theorem length_draws (d : Dice) (count : Nat) : (d.draws count).1.length = count := by
  induction count generalizing d with
  | zero => rfl
  | succ count ih => rw [draws, List.length_cons, ih]

theorem length_faces (d : Dice) (low high : Int) (count : Nat) : (d.faces low high count).length = count := by
  rw [faces, List.length_map, length_draws]

theorem roll_eq_faces (d : Dice) (h : low ≤ high) (count : Nat) :
    d.roll low high count = some (d.faces low high count, (d.draws count).2) := by
  induction count generalizing d with
  | zero => rfl
  | succ count ih =>
    have hbetween : d.between low high = some (face low high d.draw.1, d.draw.2) := by
      unfold between
      rw [if_neg (by omega)]
      rfl
    simp only [roll, hbetween, ih, Option.bind_eq_bind, Option.bind_some]
    rfl

end Dice

namespace Eval

variable {op : Token} {lowest n f : Int}

/-! One roll. -/

theorem unary_die (hop : op.kind.lowest? = some lowest) (f : Int) :
    Operator.unary op .singleton (.number f) = Operator.roll op 1 f lowest := by
  change Operator.singletonOperand op (.number f) = _
  unfold Operator.singletonOperand
  obtain ⟨hkind, rfl⟩ | ⟨hkind, rfl⟩ := Kind.eq_of_lowest? hop
  · rw [hkind]
    rfl
  · rw [hkind]
    rfl

theorem binary_die (hop : op.kind.lowest? = some lowest) (n f : Int) :
    Operator.binary op .singletonSingleton (.number n) (.number f) = Operator.roll op n f lowest := by
  change Operator.singletonSingleton op (.number n) (.number f) = _
  unfold Operator.singletonSingleton
  obtain ⟨hkind, rfl⟩ | ⟨hkind, rfl⟩ := Kind.eq_of_lowest? hop
  · rw [hkind]
    rfl
  · rw [hkind]
    rfl

theorem takes_roll (op : Token) (hn : 0 ≤ n) (hf : 1 ≤ f) (hlowest : lowest ≤ f) (s : State) :
    Takes (Operator.roll op n f lowest) s (.ok (.collection (s.dice.faces lowest f n.toNat)))
      { s with dice := (s.dice.draws n.toNat).2 } := by
  unfold Operator.roll
  rw [if_neg (by omega), if_neg (by omega)]
  exact (takes_drawing (s.dice.roll_eq_faces hlowest n.toNat)).bind (takes_pure _ _)

/-- The number of dice is looked at before the number of faces. -/
theorem takes_roll_invalid (op : Token) (h : n < 0 ∨ f ≤ 0) (s : State) :
    ∃ err, err.kind = .invalidOperand ∧
      Takes (Operator.roll op n f lowest) s (.error (.error err)) (s.reported (.runtime err)) := by
  unfold Operator.roll
  by_cases hn : n < 0
  · rw [if_pos hn]
    exact ⟨.negativeDice op, rfl, takes_fail _ s⟩
  · rw [if_neg hn, if_pos (h.resolve_left hn)]
    exact ⟨.noFaces op, rfl, takes_fail _ s⟩

/-! One die, again and again. -/

/-- What one die is rolled to, time after time, is what as many dice are rolled to. -/
theorem successive_die (hop : op.kind.lowest? = some lowest) (hf : 1 ≤ f) (count : Nat) (s : State) :
    Successive (.unary op .singleton (.literal (.number f))) s ((s.dice.faces lowest f count).map fun k => [k])
      { s with dice := (s.dice.draws count).2 } := by
  have hlowest : lowest ≤ f := Int.le_trans (Kind.lowest_le_one hop) hf
  have hunary := (Kind.operator_of_lowest? hop).1
  induction count generalizing s with
  | zero => exact .none s
  | succ count ih =>
    -- The next roll is made from the source that this one leaves.
    have hroll := takes_roll op (by decide : (0 : Int) ≤ 1) hf hlowest s
    rw [← unary_die hop] at hroll
    exact .more ((evaluates_literal _ s).unary hunary hroll (ok_ended _)) (ih { s with dice := s.dice.draw.2 })

/-- Let the number of dice not be negative and let each have a face. Then `n d f` comes to `n` numbers from one to `f`,
and `n z f` to `n` numbers from zero to `f`, each of them made of one draw, and `n` draws are gone. `n # d f` and
`n # z f` come to the same numbers in the same order and leave the same source. With a negative number of dice, or
without a face, the operands are invalid and nothing is drawn. -/
theorem dice_rolled {die prefixed hash : Token} (hdie : die.kind.lowest? = some lowest)
    (hprefixed : prefixed.kind = die.kind) (hhash : hash.kind = .hash) (n f : Int) (s : State) :
    let rolled : Expr := .binary (.literal (.number n)) die .singletonSingleton (.literal (.number f))
    let rolledAgain : Expr :=
      .binary (.literal (.number n)) hash .deferred (.unary prefixed .singleton (.literal (.number f)))
    (0 ≤ n → 1 ≤ f → ∃ ns : Collection,
      Evaluates rolled s (.ok (.collection ns)) { s with dice := (s.dice.draws n.toNat).2 } ∧
      Evaluates rolledAgain s (.ok (.collection ns)) { s with dice := (s.dice.draws n.toNat).2 } ∧
      (ns.length : Int) = n ∧ (∀ k ∈ ns, lowest ≤ k ∧ k ≤ f) ∧
      ns = (s.dice.draws n.toNat).1.map fun drawn : Nat => lowest + (drawn : Int) % (f - lowest + 1)) ∧
    (n < 0 ∨ f ≤ 0 → ∃ err s',
      Evaluates rolled s (.error (.error err)) s' ∧ err.kind = .invalidOperand ∧ s'.dice = s.dice) := by
  intro rolled rolledAgain
  have hbinary := (Kind.operator_of_lowest? hdie).2
  have hliteral (k : Int) : Evaluates (.literal (.number k)) s (.ok (.number k)) s := evaluates_literal _ s
  constructor
  · intro hn hf
    have hlowest : lowest ≤ f := Int.le_trans (Kind.lowest_le_one hdie) hf
    have hroll := takes_roll die hn hf hlowest s
    rw [← binary_die hdie] at hroll
    have hagain := successive_die (hprefixed ▸ hdie) hf n.toNat s
    have hcount : (n.toNat : Int) = n := Int.toNat_of_nonneg hn
    have hcounted : Evaluates (.literal (.number n)) s
        (.ok (.number ((s.dice.faces lowest f n.toNat).map fun k => [k]).length)) s := by
      rw [List.length_map, Dice.length_faces, hcount]
      exact hliteral n
    refine ⟨s.dice.faces lowest f n.toNat, ?_, ?_, ?_, ?_, rfl⟩
    · exact (hliteral n).binary (hliteral f) hbinary (by decide) hroll (ok_ended _)
    · have hhashed := hagain.evaluates hcounted (congrArg gathering? hhash)
      rwa [← List.flatMap_def, List.flatMap_singleton'] at hhashed
    · rw [Dice.length_faces, hcount]
    · intro k hk
      obtain ⟨drawn, -, rfl⟩ := List.mem_map.1 hk
      exact Dice.face_bounds hlowest drawn
  · intro h
    obtain ⟨err, hkind, hroll⟩ := takes_roll_invalid die h s
    rw [← binary_die hdie] at hroll
    exact ⟨err, _, (hliteral n).binary (hliteral f) hbinary (by decide) hroll (by intro h; cases h), hkind, rfl⟩

/-- Three dice that begin with zero, rolled from four draws that were laid out, and dice without faces. -/
theorem dice_rolled_zero :
    let die : Token := Word.at ⟨.zeroDie, .text "z", .null⟩ ⟨1, 2⟩
    let prefixed : Token := Word.at ⟨.zeroDie, .text "z", .null⟩ ⟨1, 4⟩
    let hash : Token := Word.at ⟨.hash, .text "#", .null⟩ ⟨1, 2⟩
    let number (k : Int) : Expr := .literal (.number k)
    let state (queue : List Nat) : State := ⟨[], [], ⟨queue, 0⟩, []⟩
    Evaluates (.binary (number 3) die .singletonSingleton (number 6)) (state [9, 6, 20, 4])
        (.ok (.collection [2, 6, 6])) (state [4]) ∧
      Evaluates (.binary (number 3) hash .deferred (.unary prefixed .singleton (number 6))) (state [9, 6, 20, 4])
        (.ok (.collection [2, 6, 6])) (state [4]) ∧
      ∃ err s', Evaluates (.binary (number 3) die .singletonSingleton (number 0)) (state [9])
        (.error (.error err)) s' ∧ err.kind = .invalidOperand ∧ s'.dice = ⟨[9], 0⟩ := by
  intro die prefixed hash number state
  have hrolled (f : Int) (queue : List Nat) :=
    @dice_rolled 0 die prefixed hash rfl rfl rfl 3 f (state queue)
  obtain ⟨ns, hthrown, hagain, -, -, hns⟩ := (hrolled 6 [9, 6, 20, 4]).1 (by decide) (by decide)
  have hnumbers : ns = [2, 6, 6] := hns.trans (by decide)
  rw [hnumbers] at hthrown hagain
  exact ⟨hthrown, hagain, (hrolled 0 [9]).2 (.inr (by decide))⟩

end Eval

end DiceScript
