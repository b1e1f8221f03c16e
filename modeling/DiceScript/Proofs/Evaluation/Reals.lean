import DiceScript.Proofs.Evaluation.Agreement
import DiceScript.Proofs.Evaluation.Coincidence
import DiceScript.Proofs.Evaluation.States

/-!
# Reals do not get out

The tree of a script has a real only right behind a `?`, which turns it into a decision. No other operator, no pair,
no binding and no function ever has a real to pass on. `watched` evaluates a tree while it looks at the value of every
node but of the literal behind a `?`, and does something else as soon as one holds a real. On machines whose bindings
hold no reals it never does, so it cannot be told from the evaluation itself.
-/

namespace DiceScript

theorem RuntimeError.eq_improperProbability {err : RuntimeError} (h : err.kind = .needsReal) :
    ∃ op, err = .improperProbability op := by
  cases err with
  | improperProbability op => exact ⟨op, rfl⟩
  | operand op which shape => cases which <;> cases h
  | _ => cases h

theorem Binary64.not_between_of_isProper {x : Binary64} (h : x.isProper = false) :
    ∀ q, x.toRat? = some q → ¬(0 < q ∧ q < 1) := by
  intro q hq hbetween
  simp [isProper, hq, hbetween.1, hbetween.2] at h

def Expr.isChance : Expr → Bool
  | .unary op _ (.literal _) => op.kind = .question
  | _ => false

/-- A node of a tree, or of the body of a function that the tree reaches. -/
def Expr.Meets (root : Expr) (functions : Table Name Expr) (node : Expr) : Prop :=
  ∃ part, root.Involves functions part ∧ node.Occurs part

theorem Expr.Meets.child {root node child : Expr} {functions : Table Name Expr} (h : root.Meets functions node)
    (hchild : child ∈ node.children) : root.Meets functions child := by
  obtain ⟨part, hpart, hnode⟩ := h
  exact ⟨part, hpart, Occurs.trans (.inside hchild .here) hnode⟩

theorem Expr.Meets.body {root body : Expr} {functions : Table Name Expr} {name own : Name} {arguments : List Expr}
    {parameters : List Name} (h : root.Meets functions (.call name arguments))
    (hfound : functions.find? name = some (.function own parameters body)) : root.Meets functions body := by
  obtain ⟨part, hpart, hcall⟩ := h
  exact ⟨body, .body (hpart.reaches ⟨arguments, hcall⟩) hfound, .here⟩

namespace Eval

/-- The value of an expression, found while the values of all nodes are watched but those of literals behind a `?`. Once
a value holds a real, something else is done. -/
def watched (otherwise : Eval Value) : Nat → Expr → Eval Value
  | 0, _ => throw .outOfFuel
  | fuel + 1, e => do
    let v ← step (if e.isChance then eval fuel else watched otherwise fuel) fuel e
    if v.holdsReal then otherwise else pure v

/-- A `?` that the evaluation of a tree may come to, on a real that is no probability. -/
def ImproperQuestion (functions : Table Name Expr) (root : Expr) (op : Token) : Prop :=
  ∃ x, root.Meets functions (.probability op x) ∧ op.kind = .question ∧ x.isProper = false

section

variable {functions : Table Name Expr} {root e : Expr}

/-- What is done about a real is not done. -/
theorem Coincide.watch {wanting : Token → Prop} {x y : Eval Value} (h : Coincide functions wanting Plain x y)
    (otherwise : Eval Value) :
    Coincide functions wanting Plain (x >>= fun v => if v.holdsReal then otherwise else pure v) y := by
  have hbind : Coincide functions wanting Plain (x >>= fun v => if v.holdsReal then otherwise else pure v)
      (y >>= pure) := by
    refine h.bind fun v hv => ?_
    rw [if_neg (Bool.eq_false_iff.1 hv)]
    exact keeps_pure hv
  rwa [bind_pure] at hbind

/-- A `?` on a real turns it into a decision, if it is a probability. -/
theorem keeps_probability {op : Token} (hop : op.kind = .question) {x : Binary64} (fuel : Nat)
    (hmeets : root.Meets functions (.probability op x)) :
    Keeps functions (ImproperQuestion functions root) Plain (step (eval fuel) fuel (.probability op x)) := by
  have hunary : op.kind.isUnary = true := by rw [hop]; rfl
  change Keeps functions _ Plain (unary (eval fuel) op .real (.literal (.real x)))
  unfold unary
  rw [if_pos hunary]
  cases fuel with
  | zero => exact keeps_outOfFuel
  | succ fuel => exact keeps_realOperand fun hx => ⟨x, hmeets, hop, hx⟩

theorem coincide_watched (hfunctions : ∀ entry ∈ functions, entry.2.RealsBehindQuestions)
    (otherwise : Eval Value) (fuel : Nat) (he : e.RealsBehindQuestions) (hmeets : root.Meets functions e) :
    Coincide functions (ImproperQuestion functions root) Plain (watched otherwise fuel e) (eval fuel e) := by
  induction fuel generalizing e with
  | zero => exact keeps_outOfFuel
  | succ fuel ih =>
    refine Coincide.watch ?_ otherwise
    -- A node that is watched has the same value as one that is not, wherever it stands.
    have hbelow {node : Expr} (hnode : node.RealsBehindQuestions) (hmeets : root.Meets functions node) :
        Coincide functions (ImproperQuestion functions root) Plain
          ((if e.isChance then eval fuel else watched otherwise fuel) node) (eval fuel node) := by
      split
      · exact (ih hnode hmeets).right
      · exact ih hnode hmeets
    rcases he.eq_probability_or with ⟨op, x, hop, rfl⟩ | ⟨hasks, hchildren⟩
    · have hchance : (Expr.probability op x).isChance = true := decide_eq_true hop
      rw [hchance, if_pos rfl]
      exact keeps_probability hop fuel hmeets
    · refine coincide_step fuel he.self hasks (fun child hchild => ?_) ?_
      · exact hbelow (hchildren child hchild) (hmeets.child hchild)
      · rintro name arguments own parameters body rfl hfound
        have hbody : body.RealsBehindQuestions := by
          rcases (hfunctions _ (Table.mem_of_find? hfound)).eq_probability_or with ⟨op, x, -, h⟩ | ⟨-, h⟩
          · cases h
          · exact h body (by simp [Expr.children])
        exact hbelow hbody (hmeets.body hfound)

end

theorem FromScripts.realsBehindQuestions {m : Machine} (h : FromScripts m) :
    ∀ entry ∈ m.functions, entry.2.RealsBehindQuestions := by
  intro entry hentry
  obtain ⟨_, _, script, _, hcompile, hmem⟩ := h entry hentry
  obtain ⟨entry', hentry', hsame⟩ := List.mem_map.1 hmem
  rw [← hsame]
  exact (realsBehindQuestions_of_compile hcompile).2 entry' hentry'

/-- What a host is given for a tree without stray reals. -/
theorem ends_evaluate_plain {m : Machine} {e : Expr} (hfunctions : ∀ entry ∈ m.functions, entry.2.RealsBehindQuestions)
    (hscope : ∀ b ∈ m.scope, b.value.holdsReal = false) (he : e.RealsBehindQuestions) (fuel : Nat) :
    Ends (evaluate fuel e) m
      (fun result _ => match result with
        | .ok v => Plain v
        | .error err => (Stop.error err).Wants (ImproperQuestion m.functions e))
      (fun _ _ => True) := by
  rw [ends_evaluate]
  split
  · trivial
  · have hfree : RealFree m.functions m := ⟨rfl, hscope⟩
    have hends := (coincide_watched hfunctions (throw .outOfFuel) fuel he ⟨e, .self, .here⟩ _
      (hfree.traced (.evaluating e))).2
    refine hends.mono (fun v after h => h.1) fun stop after h => ?_
    cases stop with
    | error err => exact h
    | fault f => trivial
    | outOfFuel => trivial

/-- Let a script be compiled, and let the functions of a machine come from scripts and none of its bindings hold a real.
Whatever would be done as soon as the value of a node holds a real, other than that of the literal behind a `?`, it is
never done. The value of the script holds no real, and if the script fails for want of a real, this is at a `?` of the
script or of a function that it reaches, whose own literal is not strictly between zero and one. -/
theorem reals_stay_inside {source : String} {before after m : Machine} {script : Script}
    (hcompile : compile source before = .ok (.ok script) after) (hm : FromScripts m)
    (hscope : ∀ b ∈ m.scope, b.value.holdsReal = false) (fuel : Nat) :
    (∀ otherwise, watched otherwise fuel script.expression m = eval fuel script.expression m) ∧
      (∀ v last, evaluate fuel script.expression m = .ok (.ok v) last → v.holdsReal = false) ∧
      ∀ err last, evaluate fuel script.expression m = .ok (.error err) last → err.kind = .needsReal →
        ∃ op x, script.expression.Meets m.functions (.probability op x) ∧ op.kind = .question ∧
          (∀ q, x.toRat? = some q → ¬(0 < q ∧ q < 1)) ∧ err = .improperProbability op := by
  have hreals := (realsBehindQuestions_of_compile hcompile).1
  have hends := ends_evaluate_plain hm.realsBehindQuestions hscope hreals fuel
  unfold Ends at hends
  refine ⟨fun otherwise => ?_, fun v last hrun => ?_, fun err last hrun hkind => ?_⟩
  · exact (coincide_watched hm.realsBehindQuestions otherwise fuel hreals ⟨_, .self, .here⟩ m ⟨rfl, hscope⟩).1
  · rw [hrun] at hends
    exact hends
  · rw [hrun] at hends
    obtain ⟨op, rfl⟩ := RuntimeError.eq_improperProbability hkind
    obtain ⟨x, hmeets, hop, hx⟩ := hends
    exact ⟨op, x, hmeets, hop, Binary64.not_between_of_isProper hx, rfl⟩

/-- A pair with a binding that is a pair itself, and with a call of a function that asks for the probability zero. A
real in parentheses, which no script stands for, would be noticed. -/
theorem reals_stay_inside_zero :
    let question : Token := Word.at ⟨.question, .text "?", .null⟩ ⟨1, 14⟩
    let zero : Binary64 := .finite false 0 (-1074)
    let script : Script := ⟨.pair (.var (.text "x") .missing) (.call (.text "f") []),
      [(.text "f", .function (.text "f") [] (.probability question zero))]⟩
    let m : Machine :=
      ⟨[⟨.text "x", .pair (.number 3) (.text "a")⟩], script.functions, ⟨[], 0⟩, 0, #[]⟩
    let e : Expr := script.expression
    compile "function f()=?0.0 [x, call f()]" m = .ok (.ok script) m ∧ FromScripts m ∧
      (∀ b ∈ m.scope, b.value.holdsReal = false) ∧
      (∀ otherwise, watched otherwise 9 e m = eval 9 e m) ∧
      (∀ stop, watched (throw stop) 2 (.group (.literal (.real zero))) m = .error stop m) ∧
      ∃ last, evaluate 9 e m = .ok (.error (.improperProbability question)) last ∧
        ∃ x, e.Meets m.functions (.probability question x) ∧ ∀ q, x.toRat? = some q → ¬(0 < q ∧ q < 1) := by
  intro question zero script m e
  have hscan : (scan "function f()=?0.0 [x, call f()]").toOption = some
      [Word.at ⟨.wordFunction, .text "function", .null⟩ ⟨1, 1⟩,
       Word.at ⟨.identifier, .text "f", .null⟩ ⟨1, 10⟩, Word.at ⟨.leftParen, .text "(", .null⟩ ⟨1, 11⟩,
       Word.at ⟨.rightParen, .text ")", .null⟩ ⟨1, 12⟩, Word.at ⟨.equal, .text "=", .null⟩ ⟨1, 13⟩,
       question, Word.at ⟨.real, .text "0.0", .real zero⟩ ⟨1, 15⟩,
       Word.at ⟨.leftBracket, .text "[", .null⟩ ⟨1, 19⟩, Word.at ⟨.identifier, .text "x", .null⟩ ⟨1, 20⟩,
       Word.at ⟨.comma, .text ",", .null⟩ ⟨1, 21⟩, Word.at ⟨.wordCall, .text "call", .null⟩ ⟨1, 23⟩,
       Word.at ⟨.identifier, .text "f", .null⟩ ⟨1, 28⟩, Word.at ⟨.leftParen, .text "(", .null⟩ ⟨1, 29⟩,
       Word.at ⟨.rightParen, .text ")", .null⟩ ⟨1, 30⟩, Word.at ⟨.rightBracket, .text "]", .null⟩ ⟨1, 31⟩,
       Word.endOfInput.at ⟨1, 32⟩] := by
    decide +kernel
  have hcompile : compile "function f()=?0.0 [x, call f()]" m = .ok (.ok script) m :=
    compile_of_ofTokens hscan rfl m
  have hm : FromScripts m := fun entry hentry =>
    ⟨_, m, script, m, hcompile, List.mem_map_of_mem hentry⟩
  have hscope : ∀ b ∈ m.scope, b.value.holdsReal = false := List.forall_mem_singleton.2 rfl
  obtain ⟨hwatched, -, herror⟩ := reals_stay_inside hcompile hm hscope 9
  have houtcome : outcome (evaluate 9 e m) = .ok (.error (.improperProbability question)) := by decide +kernel
  obtain ⟨last, hrun, -⟩ := leads_ok_iff.1 ⟨houtcome, rfl⟩
  obtain ⟨op, x, hmeets, -, hx, hop⟩ := herror _ last hrun rfl
  cases hop
  exact ⟨hcompile, hm, hscope, hwatched, fun _ => rfl, last, hrun, x, hmeets, hx⟩

end Eval

end DiceScript
