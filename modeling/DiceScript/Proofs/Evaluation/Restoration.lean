import DiceScript.Proofs.Evaluation.NodeLaws

/-!
# Evaluation gives the scope back

Bindings, loop variables and parameters are pushed and popped by hand inside `inScope`, which cuts the
scope back to its depth on every exit. What makes the cut exact is that nothing below the depth at entry
is ever touched: in between, the scope is always some new bindings on top of the old ones. `Atop` says
this, `Restores` and `Nests` are what a whole computation and a part of one do to it, and the main theorem
says that an evaluation leaves bindings and functions as they were, whatever stops it.
-/

namespace DiceScript.Eval

variable {α β : Type}

/-- The bindings of a machine are `new` on top of those of `base`, and its functions are those of `base`. -/
structure Atop (base : Machine) (new : Scope) (m : Machine) : Prop where
  scope : m.scope = new ++ base.scope
  functions : m.functions = base.functions

section

variable {base m : Machine} {new : Scope}

theorem atop_self (m : Machine) : Atop m [] m := ⟨rfl, rfl⟩

theorem Atop.reported (h : Atop base new m) (p : Problem) : Atop base new (m.reported p) :=
  ⟨h.scope, h.functions⟩

theorem Atop.traced (h : Atop base new m) (e : Event) : Atop base new (m.traced e) :=
  ⟨by simpa using h.scope, by simpa using h.functions⟩

theorem Atop.trans {middle : Machine} {newer : Scope} (h : Atop base new middle)
    (h' : Atop middle newer m) : Atop base (newer ++ new) m := by
  refine ⟨?_, h'.functions.trans h.functions⟩
  rw [h'.scope, h.scope, List.append_assoc]

/-- Cutting the scope back to the depth it had takes away exactly what is new. -/
theorem Atop.truncated (h : Atop base new m) : Atop base [] (m.truncated base.scope.depth) := by
  refine ⟨?_, h.functions⟩
  rw [Machine.truncated_scope, h.scope, Scope.truncate_append, List.nil_append]

theorem Atop.push (h : Atop base new m) (b : Binding) :
    Ends (push b) m (fun _ => Atop base (b :: new)) (fun _ _ => False) := by
  rw [ends_push]
  exact ⟨by simp [Scope.push, h.scope], by simpa using h.functions⟩

theorem Atop.pop {b : Binding} (h : Atop base (b :: new) m) :
    Ends pop m (fun _ => Atop base new) (fun _ _ => False) := by
  rw [ends_pop, h.scope]
  exact ⟨by simp, by simpa using h.functions⟩

end

/-- However a computation ends, the bindings and functions are those from before. -/
def Restores (x : Eval α) : Prop :=
  ∀ m, Ends x m (fun _ => Atop m []) (fun _ => Atop m [])

/-- A computation that succeeds gives the bindings back; one that stops may leave some on top. -/
def Nests (x : Eval α) : Prop :=
  ∀ m, Ends x m (fun _ => Atop m []) (fun _ after => ∃ new, Atop m new after)

section

variable {x : Eval α} {f : α → Eval β} {base m : Machine} {new : Scope}

/-- What restores from the point where it starts does so on top of any bindings. -/
theorem Restores.atop (hx : Restores x) (h : Atop base new m) :
    Ends x m (fun _ => Atop base new) (fun _ => Atop base new) :=
  (hx m).mono (fun _ _ h' => h.trans h') (fun _ _ h' => h.trans h')

theorem Restores.nests (hx : Restores x) : Nests x :=
  fun m => (hx m).mono (fun _ _ h => h) (fun _ _ h => ⟨[], h⟩)

theorem Nests.atop (hx : Nests x) (h : Atop base new m) :
    Ends x m (fun _ => Atop base new) (fun _ after => ∃ newer, Atop base newer after) :=
  (hx m).mono (fun _ _ h' => h.trans h') (fun _ _ ⟨newer, h'⟩ => ⟨newer ++ new, h.trans h'⟩)

theorem restores_pure (a : α) : Restores (pure a : Eval α) :=
  fun m => ends_pure.2 (atop_self m)

theorem restores_throw (stop : Stop) : Restores (throw stop : Eval α) :=
  fun m => ends_throw.2 (atop_self m)

theorem restores_fault (f : Fault) : Restores (fault f : Eval α) :=
  fun m => ends_fault.2 (atop_self m)

theorem restores_fail (e : RuntimeError) : Restores (fail e : Eval α) :=
  fun m => ends_fail.2 ((atop_self m).reported _)

theorem restores_trace (e : Event) : Restores (trace e) :=
  fun m => ends_trace.2 ((atop_self m).traced _)

theorem restores_get : Restores (get : Eval Machine) :=
  fun m => ends_get.2 (atop_self m)

theorem restores_drawing (decide : Dice → Option (α × Dice)) : Restores (drawing decide) := by
  intro m
  rw [ends_drawing]
  cases decide m.dice with
  | none => exact atop_self m
  | some drawn => exact ⟨rfl, rfl⟩

theorem restores_function? (name : Name) : Restores (function? name) := by
  intro m
  rw [ends_function?]
  split
  · exact atop_self m
  · exact atop_self m

theorem Restores.bind (hx : Restores x) (hf : ∀ a, Restores (f a)) : Restores (x >>= f) := by
  intro m
  rw [ends_bind]
  exact (hx m).mono (fun a after h => (hf a).atop h) (fun _ _ h => h)

theorem Nests.bind (hx : Nests x) (hf : ∀ a, Nests (f a)) : Nests (x >>= f) := by
  intro m
  rw [ends_bind]
  exact (hx m).mono (fun a after h => (hf a).atop h) (fun _ _ h => h)

/-- The cut at the end makes up for every binding that a stop leaves behind. -/
theorem Nests.inScope (hx : Nests x) : Restores (inScope x) := by
  intro m
  rw [ends_inScope]
  exact (hx m).mono (fun _ _ h => h.truncated) (fun _ _ ⟨_, h⟩ => h.truncated)

/-- With a binding on top, a computation takes the binding away, or stops and may leave it there. -/
def Unwinds (b : Binding) (x : Eval α) : Prop :=
  ∀ base m, Atop base [b] m → Ends x m (fun _ => Atop base []) (fun _ after => ∃ new, Atop base new after)

/-- A binding around a computation, taken away in what follows. -/
theorem Nests.around {b : Binding} (hx : Nests x) (hf : ∀ a, Unwinds b (f a)) :
    Nests (Eval.push b >>= fun _ => x >>= f) := by
  intro m
  simp only [ends_bind]
  refine ((atop_self m).push b).mono (fun _ m₁ h₁ => ?_) (fun _ _ h => h.elim)
  exact (hx.atop h₁).mono (fun a m₂ h₂ => hf a m m₂ h₂) (fun _ _ h => h)

theorem Nests.afterPop {b : Binding} (hx : Nests x) : Unwinds b (Eval.pop >>= fun _ => x) := by
  intro base m h
  rw [ends_bind]
  exact h.pop.mono (fun _ _ h' => hx.atop h') (fun _ _ h' => h'.elim)

/-- A whole computation restores, and a part of one nests. -/
def GivesBack : Level → ∀ {α : Type}, Eval α → Prop
  | .whole, _, x => Restores x
  | .part, _, x => Nests x

theorem Restores.givesBack (hx : Restores x) (l : Level) : GivesBack l x := by
  cases l with
  | whole => exact hx
  | part => exact hx.nests

theorem GivesBack.bind {l : Level} (hx : GivesBack l x) (hf : ∀ a, GivesBack l (f a)) : GivesBack l (x >>= f) := by
  cases l with
  | whole => exact Restores.bind hx hf
  | part => exact Nests.bind hx hf

theorem Unwinds.afterTrace {b : Binding} (hx : Unwinds b x) (e : Event) : Unwinds b (trace e >>= fun _ => x) := by
  intro base m h
  rw [ends_bind, ends_trace]
  exact hx base _ (h.traced e)

theorem unwinds_fail {b : Binding} (e : RuntimeError) : Unwinds b (fail e : Eval α) :=
  fun _ _ h => ends_fail.2 ⟨_, h.reported _⟩

end

theorem nodeLaws_restores : NodeLaws (fun _ => True) (fun _ _ => True) GivesBack fun b => Unwinds b where
  value a := (restores_pure a).givesBack _
  bind hx hf := hx.bind hf
  blameless _ := (restores_fail _).givesBack _
  tell _ := (restores_trace _).givesBack _
  look := restores_get
  lookup _ h := (restores_function? _).bind fun found => h found trivial
  part hx := hx.nests
  inScope hx := hx.inScope
  around hx hf := hx.around hf
  afterPop hx := hx.afterPop
  afterTell _ hx := hx.afterTrace _
  leave _ := unwinds_fail _
  fault f := (restores_fault f).givesBack _
  blame _ _ := (restores_fail _).givesBack _
  draw decide := (restores_drawing decide).givesBack _

theorem restores_eval (fuel : Nat) (e : Expr) : Restores (eval fuel e) := by
  induction fuel generalizing e with
  | zero => exact restores_throw _
  | succ fuel ih =>
    exact nodeLaws_restores.step fuel (fun _ _ => trivial) (fun child _ => ih child) (fun _ _ _ _ body _ _ => ih body)
      fun _ _ _ _ _ _ => (restores_throw _).nests

theorem restores_evaluate (fuel : Nat) (e : Expr) : Restores (evaluate fuel e) := by
  intro m
  rw [ends_evaluate]
  split
  · exact atop_self m
  · refine ((restores_eval fuel e).atop ((atop_self m).traced _)).mono (fun v _ h => h.traced _) ?_
    intro stop after h
    cases stop with
    | error err => exact h.truncated.traced _
    | fault f => exact h
    | outOfFuel => exact h

def machineAfter : EStateM.Result Stop Machine α → Machine
  | .ok _ after => after
  | .error _ after => after

def outcome : EStateM.Result Stop Machine α → Except Stop α
  | .ok a _ => .ok a
  | .error stop _ => .error stop

/-- Whatever the tree, the machine and the random source are, and whether the evaluation yields a value,
an error, a fault or no answer within its bound: all bindings are there again, with their values and in
their order, and so are the functions. -/
theorem evaluate_scope_functions (fuel : Nat) (e : Expr) (m : Machine) :
    (machineAfter (evaluate fuel e m)).scope = m.scope ∧
      (machineAfter (evaluate fuel e m)).functions = m.functions := by
  have h := restores_evaluate fuel e m
  unfold Ends at h
  cases hrun : evaluate fuel e m with
  | ok result after =>
    rw [hrun] at h
    exact ⟨h.scope, h.functions⟩
  | error stop after =>
    rw [hrun] at h
    exact ⟨h.scope, h.functions⟩

end DiceScript.Eval
