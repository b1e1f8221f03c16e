import DiceScript.Proofs.Evaluation.Multisets

/-!
# What is left to chance

Only the operators that leave something to chance read the random source, and they are the only reason for two
runs of one tree to differ. A tree without them, which reaches no function with them, is a function of its
bindings: it runs the same whatever the source yields, and it draws nothing.
-/

namespace DiceScript

namespace Likeness

/-- Two runs that differ in their random sources, which neither of them has drawn from. -/
def undrawn (functions : Table Name Expr) (e : Expr) (source source' : Dice) : Likeness where
  token op op' := op = op' ∧ op.kind.isRandom = false
  items := Eq
  seen _ := True
  called := e.Reaches functions
  dice d d' := d = source ∧ d' = source'
  reports := Eq
  stops := True
  token_alike h := alike_of_settled h
  reports_append hps he := by
    rw [hps, RuntimeError.eq_of_alike (he.mono fun _ _ h => h.1)]
  chance h hrandom := chance_of_settled h hrandom
  order := .inl rfl

variable {e : Expr} {functions : Table Name Expr} {source source' : Dice}

theorem trees_undrawn (hsettled : e.IsSettled functions) {part : Expr} (hpart : e.Involves functions part) :
    (undrawn functions e source source').Trees part part := by
  refine trees_involved (fun _ _ => trivial) (fun _ h => h) ?_ hpart
  intro part hpart node hnode op hop
  exact ⟨rfl, hsettled part hpart node hnode op hop⟩

theorem machines_undrawn {m : Machine} (hsettled : e.IsSettled m.functions) (dice : Dice) :
    (undrawn m.functions e m.dice dice).Machines m { m with dice := dice } := by
  refine ⟨fun name _ => ?_, fun name hname => ?_, ⟨rfl, rfl⟩, rfl⟩
  · exact rel_self (values_refl _) _
  · exact entries_self fun _ _ _ found => trees_undrawn hsettled (.body hname found)

end Likeness

namespace Eval

open Likeness

/-- Let nothing in a tree or in a function that it reaches be left to chance. With any other random source the
tree then runs the same: it has the same value, the same error or the same fault, or it has no answer within
the same bound, and the same problems are reported. Neither run draws from its source. -/
theorem evaluate_undrawn (fuel : Nat) {e : Expr} {m : Machine} (dice : Dice)
    (hsettled : e.IsSettled m.functions) :
    outcome (evaluate fuel e m) = outcome (evaluate fuel e { m with dice := dice }) ∧
      (machineAfter (evaluate fuel e m)).reports =
        (machineAfter (evaluate fuel e { m with dice := dice })).reports ∧
      (machineAfter (evaluate fuel e m)).dice = m.dice ∧
      (machineAfter (evaluate fuel e { m with dice := dice })).dice = dice := by
  have hmeets := couple_evaluate (L := undrawn m.functions e m.dice dice) trivial fuel
    (trees_undrawn hsettled .self) (machines_undrawn hsettled dice) rfl
  have hrest := hmeets.rest trivial fun _ _ _ _ h => h.2.rest
  refine ⟨hmeets.outcomes trivial ?_ ?_, hrest.reports, hrest.dice⟩
  · rintro _ _ _ _ ⟨hresult, -⟩
    cases hresult with
    | values hv => rw [Value.eq_of_alike hv]
    | errors he => rw [RuntimeError.eq_of_alike (he.mono fun _ _ h => h.1)]
  · intro stop stop' h
    rw [Stop.eq_of_alike (h.mono fun _ _ h => h.1)]

/-- A function that divides by a binding of its caller, and fails. -/
theorem evaluate_undrawn_quotient :
    let slash : Token := Word.at ⟨.divide, .text "/", .null⟩ ⟨1, 1⟩
    let x : Expr := .var (.text "x") .missing
    let body : Expr := .binary (.literal (.number 6)) slash .singletonSingleton x
    let e : Expr := .call (.text "f") []
    let m : Machine := ⟨[⟨.text "x", .number 0⟩], [(.text "f", .function (.text "f") [] body)], ⟨[], 0⟩, 0, #[]⟩
    let m' : Machine := { m with dice := ⟨[4], 7⟩ }
    e.IsSettled m.functions ∧ outcome (evaluate 9 e m) = .ok (.error (.divisionByZero slash)) ∧
      outcome (evaluate 9 e m) = outcome (evaluate 9 e m') ∧
      (machineAfter (evaluate 9 e m)).reports = (machineAfter (evaluate 9 e m')).reports ∧
      (machineAfter (evaluate 9 e m)).dice = ⟨[], 0⟩ ∧ (machineAfter (evaluate 9 e m')).dice = ⟨[4], 7⟩ := by
  intro slash x body e m m'
  have hcall : ∀ node : Expr, node.Occurs e → node.operator? = none :=
    Expr.forall_occurs rfl (List.forall_mem_nil _)
  have hbody : ∀ node : Expr, node.Occurs body → ∀ op, node.operator? = some op → op = slash := by
    refine Expr.forall_occurs (by simp [body, Expr.operator?]) ?_
    simp only [body, Expr.children, List.forall_mem_cons]
    refine ⟨?_, ?_, List.forall_mem_nil _⟩
    · exact Expr.forall_occurs (by simp [Expr.operator?]) (List.forall_mem_nil _)
    · refine Expr.forall_occurs (by simp [x, Expr.operator?]) (List.forall_mem_singleton.2 ?_)
      exact Expr.forall_occurs (by simp [Expr.operator?]) (List.forall_mem_nil _)
  have hsettled : e.IsSettled m.functions := by
    intro part hpart node hnode op hop
    cases hpart with
    | self =>
      rw [hcall node hnode] at hop
      cases hop
    | @body name own parameters part hname found =>
      have hpart : part = body := by
        simp only [m, Table.find?] at found
        split at found
        · cases found
          rfl
        · cases found
      rw [hbody node (hpart ▸ hnode) op hop]
      rfl
  exact ⟨hsettled, rfl, evaluate_undrawn 9 ⟨[4], 7⟩ hsettled⟩

end Eval

end DiceScript
