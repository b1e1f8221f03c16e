import DiceScript.Machine.Run

/-!
# How a computation ends

`Ends` says where a computation leads from a machine: one condition on the value and the machine it
leaves, another on what stops it. There is one rule for each way to build a computation, and each is an
equivalence, so a statement about a computation comes down to statements about its parts.
-/

namespace DiceScript

section

variable {ε σ α β : Type} {x : EStateM ε σ α} {f : α → EStateM ε σ β} {s after : σ}

theorem bind_of_ok {a : α} (h : x s = .ok a after) : (x >>= f) s = f a after := by
  simp only [bind, EStateM.bind, h]

theorem get_bind {f : σ → EStateM ε σ β} (s : σ) : (get >>= f) s = f s s := rfl

theorem bind_of_error {stop : ε} (h : x s = .error stop after) : (x >>= f) s = .error stop after := by
  simp only [bind, EStateM.bind, h]

end

namespace Eval

variable {α β : Type}

/-- A computation leads from a machine to a value with `good`, or stops with `bad`. -/
def Ends (x : Eval α) (m : Machine) (good : α → Machine → Prop) (bad : Stop → Machine → Prop) :
    Prop :=
  match x m with
  | .ok a after => good a after
  | .error stop after => bad stop after

section

variable {x : Eval α} {m : Machine} {good good' : α → Machine → Prop}
  {bad bad' : Stop → Machine → Prop}

theorem Ends.mono (h : Ends x m good bad) (hgood : ∀ a after, good a after → good' a after)
    (hbad : ∀ stop after, bad stop after → bad' stop after) : Ends x m good' bad' := by
  unfold Ends at *
  cases hx : x m with
  | ok a after =>
    rw [hx] at h
    exact hgood a after h
  | error stop after =>
    rw [hx] at h
    exact hbad stop after h

theorem Ends.and (h : Ends x m good bad) (h' : Ends x m good' bad') :
    Ends x m (fun a after => good a after ∧ good' a after)
      (fun stop after => bad stop after ∧ bad' stop after) := by
  unfold Ends at *
  cases hx : x m with
  | ok a after =>
    rw [hx] at h h'
    exact ⟨h, h'⟩
  | error stop after =>
    rw [hx] at h h'
    exact ⟨h, h'⟩

theorem ends_self (x : Eval α) (m : Machine) :
    Ends x m (fun a after => x m = .ok a after) (fun stop after => x m = .error stop after) := by
  unfold Ends
  cases x m with
  | ok a after => rfl
  | error stop after => rfl

theorem Ends.of_ok {a : α} {after : Machine} (h : Ends x m good bad) (hx : x m = .ok a after) :
    good a after := by
  unfold Ends at h
  rwa [hx] at h

/-- What nothing stops ends with a value. -/
theorem Ends.exists_ok (h : Ends x m good fun _ _ => False) :
    ∃ a after, x m = .ok a after ∧ good a after := by
  unfold Ends at h
  cases hx : x m with
  | ok a after =>
    rw [hx] at h
    exact ⟨a, after, rfl, h⟩
  | error stop after =>
    rw [hx] at h
    exact h.elim

end

section

variable {m : Machine} {bad : Stop → Machine → Prop}

@[simp] theorem ends_pure {a : α} {good : α → Machine → Prop} :
    Ends (pure a) m good bad ↔ good a m := Iff.rfl

@[simp] theorem ends_bind {x : Eval α} {f : α → Eval β} {good : β → Machine → Prop} :
    Ends (x >>= f) m good bad ↔ Ends x m (fun a after => Ends (f a) after good bad) bad := by
  simp only [Ends, bind, EStateM.bind]
  cases x m <;> rfl

@[simp] theorem ends_map {x : Eval α} {f : α → β} {good : β → Machine → Prop} :
    Ends (f <$> x) m good bad ↔ Ends x m (fun a after => good (f a) after) bad := by
  simp only [Ends, Functor.map, EStateM.map]
  cases x m <;> rfl

@[simp] theorem ends_throw {stop : Stop} {good : α → Machine → Prop} :
    Ends (throw stop) m good bad ↔ bad stop m := Iff.rfl

@[simp] theorem ends_get {good : Machine → Machine → Prop} : Ends get m good bad ↔ good m m := Iff.rfl

@[simp] theorem ends_set {after : Machine} {good : PUnit → Machine → Prop} :
    Ends (set after) m good bad ↔ good ⟨⟩ after := Iff.rfl

@[simp] theorem ends_fault {f : Fault} {good : α → Machine → Prop} :
    Ends (fault f) m good bad ↔ bad (.fault f) m := Iff.rfl

@[simp] theorem ends_trace {e : Event} {good : Unit → Machine → Prop} :
    Ends (trace e) m good bad ↔ good ⟨⟩ (m.traced e) := Iff.rfl

@[simp] theorem ends_fail {e : RuntimeError} {good : α → Machine → Prop} :
    Ends (fail e) m good bad ↔ bad (.error e) (m.reported (.runtime e)) := Iff.rfl

@[simp] theorem ends_push {b : Binding} {good : Unit → Machine → Prop} :
    Ends (push b) m good bad ↔
      good ⟨⟩ { m.traced (.pushing b) with scope := (m.traced (.pushing b)).scope.push b } := Iff.rfl

theorem ends_pop {good : Binding → Machine → Prop} :
    Ends pop m good bad ↔
      match m.scope with
      | [] => bad (.fault .emptyScope) m
      | b :: rest => good b (Machine.traced { m with scope := rest } (.popping b.name)) := by
  simp only [pop, ends_bind, ends_get]
  cases h : m.scope with
  | nil => simp [Scope.pop?]
  | cons b rest => simp [Scope.pop?]

@[simp] theorem ends_inScope {x : Eval α} {good : α → Machine → Prop} :
    Ends (inScope x) m good bad ↔
      Ends x m (fun a after => good a (after.truncated m.scope.depth))
        (fun stop after => bad stop (after.truncated m.scope.depth)) := by
  simp only [Ends, inScope]
  cases x m <;> rfl

theorem ends_drawing {decide : Dice → Option (α × Dice)} {good : α → Machine → Prop} :
    Ends (drawing decide) m good bad ↔
      match decide m.dice with
      | none => bad (.fault .noElement) m
      | some (a, dice) => good a { m with dice := dice } := by
  simp only [drawing, ends_bind, ends_get]
  cases decide m.dice <;> simp

theorem ends_function? {name : Name} {good : Option Expr → Machine → Prop} :
    Ends (function? name) m good bad ↔
      if name.isCompound then bad (.fault .compoundName) m else good (m.functions.find? name) m := by
  unfold function?
  split <;> simp

/-- An error of the evaluation proper is a result for the host, with the scope cut back. -/
theorem ends_evaluate {fuel : Nat} {e : Expr} {good : Except RuntimeError Value → Machine → Prop} :
    Ends (evaluate fuel e) m good bad ↔
      if 1 ≤ m.verbosity && !e.isShowable then bad (.fault .unshowable) m
      else Ends (eval fuel e) (m.traced (.evaluating e))
        (fun v after => good (.ok v) (after.traced (.finished v)))
        (fun stop after => match stop with
          | .error err =>
            good (.error err) ((after.truncated m.scope.depth).traced (.failed err.kind))
          | stop => bad stop after) := by
  unfold Ends evaluate
  by_cases hshown : (1 ≤ m.verbosity && !e.isShowable) = true
  · simp only [hshown, if_true]
  · simp only [hshown]
    cases eval fuel e (m.traced (.evaluating e)) with
    | ok v after => rfl
    | error stop after => cases stop <;> rfl

end

end Eval

end DiceScript
