import DiceScript.Proofs.Evaluation.Nesting

/-!
# Loops unrolled

A loop over a collection, a repeated operand and a collection literal each evaluate one expression after the other
and put the collections together. They are the same loop, `gather`, around different computations and with different
words for what is no collection. A loop over known elements therefore comes to what the literal does that has one
binding of the loop variable for each of them, and `n # e` to what the literal does that has `e` written `n` times.
-/

namespace DiceScript.Eval

variable {ι κ : Type}

/-- The elements that computations yield one after the other. Each must yield a collection. -/
def gather (one : ι → Eval Value) (refusal : Shape → RuntimeError) : List ι → Eval Collection
  | [] => pure []
  | i :: rest => do
    match ← one i with
    | .collection c => do
      let others ← gather one refusal rest
      pure (c ++ others)
    | v => fail (refusal v.shape)

theorem elements_eq_gather (eval : Expr → Eval Value) (es : List Expr) :
    elements eval es = gather eval .element es := by
  induction es with
  | nil => rfl
  | cons e es ih =>
    unfold elements gather
    refine bind_congr fun v => ?_
    cases v with
    | collection c => exact congrArg (· >>= fun others => pure (c ++ others)) ih
    | _ => rfl

def visit (eval : Expr → Eval Value) (name : Name) (body : Expr) (n : Int) : Eval Value := do
  trace (.visiting name n)
  push ⟨name, .number n⟩
  let v ← eval body
  let _ ← pop
  pure v

theorem visits_eq_gather (eval : Expr → Eval Value) (name : Name) (body : Expr) (ns : List Int) :
    visits eval name body ns = gather (visit eval name body) .foreachBody ns := by
  induction ns with
  | nil => rfl
  | cons n ns ih =>
    unfold visits gather visit
    simp only [bind_assoc, pure_bind]
    refine bind_congr fun _ => bind_congr fun _ => bind_congr fun v => bind_congr fun _ => ?_
    cases v with
    | collection c => exact congrArg (· >>= fun others => pure (c ++ others)) ih
    | _ => rfl

theorem repeated_eq_gather (eval : Expr → Eval Value) (op : Token) (e : Expr) (count : Nat) :
    List.flatten <$> repeated eval op e count =
      gather (fun _ => eval e) (fun _ => .repeatedValue op) (List.replicate count ()) := by
  induction count with
  | zero => rfl
  | succ count ih =>
    simp only [repeated, List.replicate_succ, gather, ← ih, map_bind]
    congr 1
    funext v
    cases v with
    | collection c => simp only [map_bind, map_pure, bind_map_left, List.flatten_cons]
    | _ => rfl

/-- What an operator with a count makes of the collections of its rounds. -/
def gathering? : Kind → Option (List Collection → Value)
  | .sample => some fun rows => .text (stackedRight (rows.map Collection.display))
  | .hash => some fun rows => .collection rows.flatten
  | _ => none

theorem deferred_of_gathering {eval : Expr → Eval Value} {op : Token} {made : List Collection → Value}
    (hop : gathering? op.kind = some made) (n : Nat) (e : Expr) :
    deferred eval op (.number n) e = repeated eval op e n >>= fun rows => pure (made rows) := by
  have hcount : ¬((n : Int) < 0) := by omega
  have hsingle : Operator.asSingleton op .count (.number n) = pure (n : Int) := rfl
  unfold deferred
  rw [hsingle, pure_bind, if_neg hcount]
  generalize op.kind = kind at hop
  unfold gathering? at hop
  split at hop <;> cases hop <;> rfl

section

variable {one : ι → Eval Value} {refusal : Shape → RuntimeError}

theorem nests_gather (hone : ∀ i, Nests (one i)) (is : List ι) : Nests (gather one refusal is) := by
  induction is with
  | nil => exact (restores_pure _).nests
  | cons i is ih =>
    refine (hone i).bind fun v => ?_
    cases v with
    | collection c => exact ih.bind fun _ => (restores_pure _).nests
    | _ => exact (restores_fail _).nests

/-- A scope around the loop is a scope around each of its rounds. -/
theorem inScope_gather (hone : ∀ i, Nests (one i)) (is : List ι) :
    inScope (gather one refusal is) = gather (fun i => inScope (one i)) refusal is := by
  induction is with
  | nil => exact (restores_pure _).inScope_eq
  | cons i is ih =>
    unfold gather
    rw [inScope_bind (hone i)]
    congr 1
    funext v
    cases v with
    | collection c =>
      dsimp only
      rw [inScope_bind (nests_gather hone is), ih]
      congr 1
      funext others
      exact (restores_pure _).inScope_eq
    | _ => exact (restores_fail _).inScope_eq

/-- Loops agree if their rounds do. -/
theorem agreeUpToReport_gather {one' : κ → Eval Value} {refusal' : Shape → RuntimeError}
    (hrefusal : ∀ shape, (refusal shape).kind = (refusal' shape).kind) {is : List ι} {is' : List κ}
    (hone : List.Forall₂ (fun i i' => AgreeUpToReport (one i) (one' i')) is is') :
    AgreeUpToReport (gather one refusal is) (gather one' refusal' is') := by
  induction hone with
  | nil => exact agreeUpToReport_pure _
  | cons h _ ih =>
    refine h.bind fun v => ?_
    cases v with
    | collection c => exact ih.bind fun _ => agreeUpToReport_pure _
    | _ => exact agreeUpToReport_fail (hrefusal _)

end

section

variable {α : Type} {x y : Eval α} {b : Binding} {m after : Machine}

theorem under_of_ok {a : α} (hx : Restores x) (hrun : x (m.pushed b) = .ok a after) :
    under b x m = .ok a (Machine.traced { after with scope := m.scope } (.popping b.name)) := by
  have hscope : after.scope = b :: m.scope := by
    rw [((hx (m.pushed b)).of_ok hrun).scope, List.nil_append, m.pushed_scope]
  have hinner : (push b >>= fun _ => x >>= fun a => pop >>= fun _ => pure a) m =
      .ok a (Machine.traced { after with scope := m.scope } (.popping b.name)) := by
    rw [bind_of_ok (push_eq b m), bind_of_ok hrun, bind_of_ok (Likeness.pop_eq hscope)]
    rfl
  refine (inScope_of_ok hinner).trans ?_
  rw [Machine.truncated_eq_self (by simp)]

theorem under_of_error {stop : Stop} (hrun : x (m.pushed b) = .error stop after) :
    under b x m = .error stop (after.truncated m.scope.depth) := by
  have hinner : (push b >>= fun _ => x >>= fun a => pop >>= fun _ => pure a) m = .error stop after := by
    rw [bind_of_ok (push_eq b m), bind_of_error hrun]
  exact inScope_of_error hinner

theorem AgreeUpToReport.under (h : AgreeUpToReport x y) (hx : Restores x) (hy : Restores y) (b : Binding) :
    AgreeUpToReport (under b x) (under b y) := by
  intro m m' hm
  have hsame := h (m.pushed b) (m'.pushed b) (by rw [Machine.state_pushed, Machine.state_pushed, hm])
  generalize hrun : x (m.pushed b) = r at hsame
  generalize hrun' : y (m'.pushed b) = r' at hsame
  cases hsame with
  | @values a after after' h =>
    rw [under_of_ok hx hrun, under_of_ok hy hrun']
    apply SameUpToReport.values
    rw [Machine.state_traced, Machine.state_traced]
    change { after.state with scope := m.state.scope } = { after'.state with scope := m'.state.scope }
    rw [h, hm]
  | stops hkind hdice =>
    rw [under_of_error hrun, under_of_error hrun']
    exact .stops hkind hdice

end

/-! The three loops, each as the same gathering. -/

section

variable (fuel : Nat)

theorem eval_collection (es : List Expr) :
    eval (fuel + 1) (.collection es) = (do
      let c ← gather (eval fuel) .element es
      pure (.collection c)) := by
  rw [← elements_eq_gather]
  rfl

/-- A binding of a literal is evaluated under the binding. -/
theorem eval_binding_literal (name : Name) (v : Value) (body : Expr) :
    eval (fuel + 2) (.binding name (.literal v) body) = under ⟨name, v⟩ (eval (fuel + 1) body) := rfl

theorem nests_visit (name : Name) (body : Expr) (n : Int) : Nests (visit (eval fuel) name body n) := by
  refine (restores_trace _).nests.bind fun _ => ?_
  exact Nests.around (restores_eval fuel body).nests fun a => (restores_pure a).nests.afterPop

theorem inScope_visit (name : Name) (body : Expr) (n : Int) :
    inScope (visit (eval fuel) name body n) =
      trace (.visiting name n) >>= fun _ => under ⟨name, .number n⟩ (eval fuel body) := by
  unfold visit
  rw [inScope_bind (restores_trace _).nests, (restores_trace _).inScope_eq]
  rfl

theorem eval_foreach_literal (name : Name) (c : Collection) (body : Expr) :
    eval (fuel + 2) (.foreach name (.literal (.collection c)) body) = (do
      let c ← gather (fun n => inScope (visit (eval (fuel + 1)) name body n)) .foreachBody c
      pure (.collection c)) := by
  rw [← inScope_gather (nests_visit (fuel + 1) name body), ← visits_eq_gather]
  rfl

theorem eval_hash_literal {op : Token} (hop : op.kind = .hash) (n : Nat) (body : Expr) :
    eval (fuel + 2) (.binary (.literal (.number n)) op .deferred body) = (do
      let c ← gather (fun _ => eval (fuel + 1) body) (fun _ => .repeatedValue op) (List.replicate n ())
      pure (.collection c)) := by
  have hbinary : op.kind.isBinary = true := by rw [hop]; rfl
  have hgathering : gathering? op.kind = some fun rows => .collection rows.flatten := by rw [hop]; rfl
  rw [← repeated_eq_gather, bind_map_left, ← deferred_of_gathering hgathering]
  change binary (eval (fuel + 1)) (.literal (.number n)) op .deferred body = _
  unfold binary
  rw [if_pos hbinary]
  rfl

end

/-- A loop over the elements of a collection, round by round. -/
theorem agreeUpToReport_foreach (fuel : Nat) (name : Name) (c : Collection) (body : Expr) :
    AgreeUpToReport (eval (fuel + 2) (.foreach name (.literal (.collection c)) body))
      (eval (fuel + 3) (.collection (c.map fun n => .binding name (.literal (.number n)) body))) := by
  have hkind (shape : Shape) : (RuntimeError.foreachBody shape).kind = (RuntimeError.element shape).kind := rfl
  rw [eval_foreach_literal, eval_collection]
  refine (agreeUpToReport_gather hkind ?_).bind fun _ => agreeUpToReport_pure _
  rw [List.forall₂_map_right_iff]
  refine List.forall₂_same.2 fun n _ => ?_
  rw [inScope_visit, eval_binding_literal]
  have hbody := restores_eval (fuel + 1) body
  exact ((agreeUpToReport_eval (fuel + 1) body).under hbody hbody _).trace_bind _

/-- An operand that is evaluated over and over. -/
theorem agreeUpToReport_hash (fuel : Nat) {op : Token} (hop : op.kind = .hash) (n : Nat) (body : Expr) :
    AgreeUpToReport (eval (fuel + 2) (.binary (.literal (.number n)) op .deferred body))
      (eval (fuel + 2) (.collection (List.replicate n body))) := by
  have hkind (shape : Shape) : (RuntimeError.repeatedValue op).kind = (RuntimeError.element shape).kind := rfl
  rw [eval_hash_literal fuel hop, eval_collection]
  refine (agreeUpToReport_gather hkind ?_).bind fun _ => agreeUpToReport_pure _
  induction n with
  | zero => exact .nil
  | succ n ih => exact .cons (agreeUpToReport_eval (fuel + 1) body) ih

/-- Loops over a known number of elements are collection literals. In every state, a loop over a collection comes to
an end if the literal does that has, for each element, the body with the loop variable bound to it, and `n # body`
does if the literal does that has the body `n` times. They then come to the same value, with its elements in the same
order, or to an error of the same kind or the same fault, and leave the same random source and bindings. -/
theorem loops_unrolled (s : State) (body : Expr) {op : Token} (hop : op.kind = .hash) :
    (∀ (name : Name) (c : Collection) ending scope dice,
      ComesTo (.foreach name (.literal (.collection c)) body) s ending scope dice ↔
        ComesTo (.collection (c.map fun n => .binding name (.literal (.number n)) body)) s ending scope dice) ∧
    ∀ (n : Nat) ending scope dice,
      ComesTo (.binary (.literal (.number n)) op .deferred body) s ending scope dice ↔
        ComesTo (.collection (List.replicate n body)) s ending scope dice := by
  constructor
  · intro name c ending scope dice
    exact comesTo_iff_of_agree 2 3 fun fuel => agreeUpToReport_foreach fuel name c body
  · intro n ending scope dice
    exact comesTo_iff_of_agree 2 2 fun fuel => agreeUpToReport_hash fuel hop n body

/-- A die that is divided by each element fails at the second one, after it was rolled twice. Repeated twice, with
the variable bound to two, it has a value. -/
theorem loops_unrolled_quotients :
    let hash : Token := Word.at ⟨.hash, .text "#", .null⟩ ⟨1, 1⟩
    let die : Token := Word.at ⟨.die, .text "d", .null⟩ ⟨1, 1⟩
    let slash : Token := Word.at ⟨.divide, .text "/", .null⟩ ⟨1, 2⟩
    let x : Expr := .var (.text "x") .missing
    let body : Expr := .binary (.unary die .singleton (.literal (.number 6))) slash .singletonSingleton x
    let s : State := ⟨[⟨.text "x", .number 2⟩], [], ⟨[3, 5, 7], 0⟩, []⟩
    hash.kind = .hash ∧
      ComesTo (.foreach (.text "x") (.literal (.collection [1, 0, 3])) body) s
        (.error (.error .invalidOperand)) s.scope ⟨[7], 0⟩ ∧
      ComesTo (.collection ([1, 0, 3].map fun n => .binding (.text "x") (.literal (.number n)) body)) s
        (.error (.error .invalidOperand)) s.scope ⟨[7], 0⟩ ∧
      ComesTo (.binary (.literal (.number 2)) hash .deferred body) s (.ok (.collection [2, 3])) s.scope ⟨[7], 0⟩ ∧
      ComesTo (.collection [body, body]) s (.ok (.collection [2, 3])) s.scope ⟨[7], 0⟩ := by
  intro hash die slash x body s
  have hforeach : ComesTo (.foreach (.text "x") (.literal (.collection [1, 0, 3])) body) s
      (.error (.error .invalidOperand)) s.scope ⟨[7], 0⟩ := by
    have hleads := leads_self (eval 9 (.foreach (.text "x") (.literal (.collection [1, 0, 3])) body) s.machine)
    exact ⟨_, _, evaluates_of_leads hleads (by intro h; cases h), rfl, rfl, rfl⟩
  have hrepeated : ComesTo (.binary (.literal (.number 2)) hash .deferred body) s (.ok (.collection [2, 3]))
      s.scope ⟨[7], 0⟩ := by
    have hleads := leads_self (eval 9 (.binary (.literal (.number 2)) hash .deferred body) s.machine)
    exact ⟨_, _, evaluates_of_leads hleads (by intro h; cases h), rfl, rfl, rfl⟩
  have hunrolled := @loops_unrolled s body hash rfl
  exact ⟨rfl, hforeach, (hunrolled.1 _ _ _ _ _).1 hforeach, hrepeated, (hunrolled.2 2 _ _ _).1 hrepeated⟩

end DiceScript.Eval
