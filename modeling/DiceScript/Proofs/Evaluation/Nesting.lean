import DiceScript.Proofs.Evaluation.States

/-!
# A call is nested bindings

A call pushes all its parameters in one scope and pops them at the end, while a binding opens a scope of its own. It
makes no difference: a call runs as its body does inside one binding for each parameter, from the first to the
last. An argument therefore sees the parameters before it, and where two parameters have the same name the body
sees the last. The laws of `inScope` do the work: a scope around one computation after another is a scope around
each, and what is cut off inside a scope need not be cut off again.
-/

namespace DiceScript

theorem Scope.truncate_truncate (s : Scope) {depth depth' : Nat} (h : depth ≤ depth') :
    (s.truncate depth').truncate depth = s.truncate depth := by
  unfold truncate
  rw [List.drop_drop, List.length_drop]
  congr 1
  omega

namespace Eval

variable {α β : Type} {x y : Eval α}

theorem push_eq (b : Binding) (m : Machine) : push b m = .ok () (m.pushed b) := rfl

def under (b : Binding) (x : Eval α) : Eval α :=
  inScope do
    push b
    let a ← x
    let _ ← pop
    pure a

theorem Below.under (h : Below x y) (b : Binding) : Below (under b x) (under b y) :=
  Below.inScope ((below_refl _).bind fun _ => h.bind fun _ => below_refl _)

theorem inScope_of_ok {m after : Machine} {a : α} (h : x m = .ok a after) :
    inScope x m = .ok a (after.truncated m.scope.depth) := by
  unfold inScope
  rw [h]

theorem inScope_of_error {m after : Machine} {stop : Stop} (h : x m = .error stop after) :
    inScope x m = .error stop (after.truncated m.scope.depth) := by
  unfold inScope
  rw [h]

theorem inScope_congr {m : Machine} (h : x m = y m) : inScope x m = inScope y m := by
  unfold inScope
  rw [h]

theorem Restores.inScope_eq (hx : Restores x) : inScope x = x := by
  funext m
  have hafter := hx.after m
  cases hrun : x m with
  | ok a after =>
    rw [hrun] at hafter
    have hcut : after.truncated m.scope.depth = after := Machine.truncated_eq_self hafter.scope
    rw [inScope_of_ok hrun, hcut]
  | error stop after =>
    rw [hrun] at hafter
    have hcut : after.truncated m.scope.depth = after := Machine.truncated_eq_self hafter.scope
    rw [inScope_of_error hrun, hcut]

/-- A scope around two computations is one around each, if the first leaves nothing behind when it succeeds. -/
theorem inScope_bind (hx : Nests x) (f : α → Eval β) :
    inScope (x >>= f) = inScope x >>= fun a => inScope (f a) := by
  funext m
  cases hrun : x m with
  | ok a after =>
    have hafter := (hx m).of_ok hrun
    have hcut : after.truncated m.scope.depth = after := Machine.truncated_eq_self hafter.scope
    have hdepth : after.scope.depth = m.scope.depth := by rw [hafter.scope, List.nil_append]
    rw [bind_of_ok (inScope_of_ok hrun), hcut]
    unfold inScope
    rw [bind_of_ok hrun, hdepth]
  | error stop after =>
    have hbind : (x >>= f) m = .error stop after := bind_of_error hrun
    rw [inScope_of_error hbind, bind_of_error (inScope_of_error hrun)]

/-- What is cut off inside a scope need not be cut off again. -/
theorem under_inScope (hx : Nests x) (b : Binding) : under b (inScope x) = under b x := by
  funext m
  have hunder (y : Eval α) : (push b >>= fun _ => y >>= fun a => pop >>= fun _ => pure a) m =
      (y >>= fun a => pop >>= fun _ => pure a) (m.pushed b) := bind_of_ok (push_eq b m)
  unfold under
  cases hrun : x (m.pushed b) with
  | ok a after =>
    have hafter := (hx (m.pushed b)).of_ok hrun
    have hcut : after.truncated (m.pushed b).scope.depth = after := Machine.truncated_eq_self hafter.scope
    have hscope := inScope_of_ok hrun
    rw [hcut] at hscope
    apply inScope_congr
    rw [hunder, hunder, bind_of_ok hscope, bind_of_ok hrun]
  | error stop after =>
    have hdepth : m.scope.depth ≤ (m.pushed b).scope.depth := by
      rw [m.pushed_scope]
      exact Nat.le_succ _
    have hcut : (after.truncated (m.pushed b).scope.depth).truncated m.scope.depth =
        after.truncated m.scope.depth := by
      simp only [Machine.truncated, Scope.truncate_truncate _ hdepth]
    rw [inScope_of_error ((hunder _).trans (bind_of_error (inScope_of_error hrun))),
      inScope_of_error ((hunder _).trans (bind_of_error hrun)), hcut]

/-- The first parameter is bound around all that follows. -/
theorem inScope_invocation_cons {eval : Expr → Eval Value} (heval : ∀ e, Restores (eval e)) (parameter : Name)
    {parameters : List Name} (argument : Expr) {arguments : List Expr}
    (same : arguments.length = parameters.length) (body : Expr) :
    inScope (invocation eval (parameter :: parameters) (argument :: arguments) body) = (do
      let v ← eval argument
      under ⟨parameter, v⟩ (inScope (invocation eval parameters arguments body))) := by
  have hnests : Nests (invocation eval parameters arguments body) :=
    nodeLaws_restores.invocation same (fun e _ => heval e) (heval body)
  rw [invocation_cons, inScope_bind (heval argument).nests, (heval argument).inScope_eq]
  simp only [under_inScope hnests]
  rfl

def nested : List Name → List Expr → Expr → Expr
  | parameter :: parameters, argument :: arguments, body => .binding parameter argument (nested parameters arguments body)
  | _, _, body => body

theorem below_nested {parameters : List Name} {arguments : List Expr}
    (same : arguments.length = parameters.length) (body : Expr) (fuel : Nat) :
    Below (inScope (invocation (eval fuel) parameters arguments body))
      (eval (fuel + parameters.length) (nested parameters arguments body)) := by
  induction parameters generalizing arguments with
  | nil =>
    cases arguments with
    | nil =>
      rw [invocation_nil, (restores_eval fuel body).inScope_eq]
      exact below_refl _
    | cons argument arguments => cases same
  | cons parameter parameters ih =>
    cases arguments with
    | nil => cases same
    | cons argument arguments =>
      have same' := Nat.succ.inj same
      rw [inScope_invocation_cons (restores_eval fuel) parameter argument same']
      change Below _ (eval (fuel + parameters.length) argument >>= fun v =>
        under ⟨parameter, v⟩ (eval (fuel + parameters.length) (nested parameters arguments body)))
      exact (below_eval (Nat.le_add_right _ _) argument).bind fun v => (ih same').under _

theorem below_invocation {parameters : List Name} {arguments : List Expr}
    (same : arguments.length = parameters.length) (body : Expr) {fuel fuel' : Nat} (hfuel : fuel ≤ fuel') :
    Below (eval fuel (nested parameters arguments body))
      (inScope (invocation (eval fuel') parameters arguments body)) := by
  induction parameters generalizing arguments fuel with
  | nil =>
    cases arguments with
    | nil =>
      rw [invocation_nil, (restores_eval fuel' body).inScope_eq]
      exact below_eval hfuel body
    | cons argument arguments => cases same
  | cons parameter parameters ih =>
    cases arguments with
    | nil => cases same
    | cons argument arguments =>
      have same' := Nat.succ.inj same
      cases fuel with
      | zero => exact below_outOfFuel _
      | succ fuel =>
        have hless := Nat.le_of_succ_le hfuel
        rw [inScope_invocation_cons (restores_eval fuel') parameter argument same']
        change Below (eval fuel argument >>= fun v =>
          under ⟨parameter, v⟩ (eval fuel (nested parameters arguments body))) _
        exact (below_eval hless argument).bind fun v => (ih same' hless).under _

theorem call_eq {eval : Expr → Eval Value} {m : Machine} {name own : Name} {parameters : List Name}
    {arguments : List Expr} {body : Expr} (hname : name.isCompound = false)
    (hfound : m.functions.find? name = some (.function own parameters body))
    (same : arguments.length = parameters.length) :
    call eval name arguments m =
      inScope (invocation eval parameters arguments body) (m.traced (.calling name)) := by
  have hfunction : function? name m = .ok (some (.function own parameters body)) m := by
    unfold function?
    rw [hname, ← hfound]
    rfl
  unfold call
  rw [bind_of_ok hfunction]
  simp only [same, if_true]
  rfl

theorem evaluates_call_iff {s s' : State} {name own : Name} {parameters : List Name} {arguments : List Expr}
    {body : Expr} {o : Except Stop Value} (hname : name.isCompound = false)
    (hfound : s.functions.find? name = some (.function own parameters body))
    (same : arguments.length = parameters.length) :
    Evaluates (.call name arguments) s o s' ↔ Evaluates (nested parameters arguments body) s o s' := by
  -- The call is traced, so the bindings are evaluated on a machine that differs in this event at most.
  have htraced : (s.machine.traced (.calling name)).state = s := by
    rw [Machine.state_traced, State.state_machine]
  have hcall (fuel : Nat) : eval (fuel + 1) (.call name arguments) s.machine =
      inScope (invocation (eval fuel) parameters arguments body) (s.machine.traced (.calling name)) :=
    call_eq hname hfound same
  constructor
  · intro h
    obtain ⟨fuel, hleads⟩ := h.exists_leads s.state_machine
    cases fuel with
    | zero => exact absurd hleads.1.symm h.1
    | succ fuel =>
      rw [hcall] at hleads
      rw [← below_nested same body fuel _ (by rw [hleads.1]; exact h.1)] at hleads
      have hnested := evaluates_of_leads hleads h.1
      rwa [htraced] at hnested
  · intro h
    obtain ⟨fuel, hleads⟩ := h.exists_leads htraced
    rw [← below_invocation same body (Nat.le_refl fuel) _ (by rw [hleads.1]; exact h.1), ← hcall] at hleads
    have hevaluates := evaluates_of_leads hleads h.1
    rwa [State.state_machine] at hevaluates

/-- A call of a function runs as its body does inside one binding for each parameter. In every state that has the
function, under a name that can be looked up, and with an argument for each parameter, one of the two comes to an end
if the other does. They have the same value, the same error or the same fault, the same problems are reported, and the
same random source, bindings and functions are left. A host is given the same for both. -/
theorem call_as_bindings {s : State} {name own : Name} {parameters : List Name} {arguments : List Expr}
    {body : Expr} (hname : name.isCompound = false)
    (hfound : s.functions.find? name = some (.function own parameters body))
    (same : arguments.length = parameters.length) :
    (∀ o s', Evaluates (.call name arguments) s o s' ↔ Evaluates (nested parameters arguments body) s o s') ∧
      ∀ result s', Returns (.call name arguments) s result s' ↔
        Returns (nested parameters arguments body) s result s' := by
  refine ⟨fun o s' => evaluates_call_iff hname hfound same, fun result s' => ?_⟩
  rw [returns_iff, returns_iff, evaluates_call_iff hname hfound same]

/-- Two parameters of the same name: the second argument sees the first parameter, and the body sees the second. -/
theorem call_as_bindings_repeated :
    let plus : Token := Word.at ⟨.plus, .text "+", .null⟩ ⟨1, 1⟩
    let x : Expr := .var (.text "x") .missing
    let arguments : List Expr := [.literal (.number 2), .binary x plus .singletonSingleton (.literal (.number 1))]
    let parameters : List Name := [.text "x", .text "x"]
    let s : State := ⟨[], [(.text "f", .function (.text "f") parameters x)], ⟨[], 0⟩, []⟩
    s.functions.find? (.text "f") = some (.function (.text "f") parameters x) ∧
      arguments.length = parameters.length ∧
      Evaluates (nested parameters arguments x) s (.ok (.number 3)) s ∧
      Evaluates (.call (.text "f") arguments) s (.ok (.number 3)) s := by
  intro plus x arguments parameters s
  have hnested : Evaluates (nested parameters arguments x) s (.ok (.number 3)) s := by
    have hleads : Leads (eval 9 (nested parameters arguments x) s.machine) (.ok (.number 3)) s := ⟨rfl, rfl⟩
    exact evaluates_of_leads hleads (by intro h; cases h)
  have hcall (o : Except Stop Value) (s' : State) :
      Evaluates (.call (.text "f") arguments) s o s' ↔ Evaluates (nested parameters arguments x) s o s' :=
    (call_as_bindings rfl rfl rfl).1 o s'
  exact ⟨rfl, rfl, hnested, (hcall _ _).2 hnested⟩

end Eval

end DiceScript
