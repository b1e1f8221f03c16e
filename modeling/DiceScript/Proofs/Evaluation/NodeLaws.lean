import DiceScript.Proofs.Evaluation.Nodes

/-!
# Laws that one evaluation keeps

What is said of one run is a comparison of the run with itself that looks at one side only. Values are alike when they
are equal, so the laws of a comparison become simpler: a property of computations that holds of values, errors and
decisions, of bindings that are made and taken away, and is kept by sequence, holds of the evaluation of a node if it
does of the nodes right below and of the function that is called.

`ScopeLaws` leaves the operators out, for a property that operators have under some conditions only.
-/

namespace DiceScript.Eval

def FoundIn (functions : Table Name Expr) (name : Name) (found : Option Expr) : Prop :=
  functions.find? name = found

/-- A property `P` of what nodes are made of apart from operators, where certain functions are called and found. What is
done with a binding on top has a property `Q` of its own. -/
structure ScopeLaws (called : Name → Prop) (finds : Name → Option Expr → Prop)
    (P : Level → ∀ {α : Type}, Eval α → Prop) (Q : Binding → ∀ {α : Type}, Eval α → Prop) : Prop where
  value {l : Level} {α : Type} (a : α) : P l (pure a)
  bind {l : Level} {α β : Type} {x : Eval α} {f : α → Eval β} (hx : P l x) (hf : ∀ a, P l (f a)) : P l (x >>= f)
  blameless {l : Level} {α : Type} {e : RuntimeError} (he : e.operator? = none) : P l (fail e : Eval α)
  tell {l : Level} {e : Event} (he : e.level = 3) : P l (trace e)
  look : P .whole (get : Eval Machine)
  lookup {α : Type} {name : Name} {f : Option Expr → Eval α} (hname : called name)
    (h : ∀ found, finds name found → P .whole (f found)) : P .whole (function? name >>= f)
  part {α : Type} {x : Eval α} (hx : P .whole x) : P .part x
  inScope {α : Type} {x : Eval α} (hx : P .part x) : P .whole (Eval.inScope x)
  around {α β : Type} {b : Binding} {x : Eval α} {f : α → Eval β} (hx : P .part x) (hf : ∀ a, Q b (f a)) :
    P .part (push b >>= fun _ => x >>= f)
  afterPop {α : Type} {b : Binding} {x : Eval α} (hx : P .part x) : Q b (pop >>= fun _ => x)
  afterTell {α : Type} {b : Binding} {x : Eval α} {e : Event} (he : e.level = 3) (hx : Q b x) :
    Q b (trace e >>= fun _ => x)
  leave {α : Type} {b : Binding} {e : RuntimeError} (he : e.operator? = none) : Q b (fail e : Eval α)

/-- A property of what nodes are made of, where certain operators may be blamed for an error. -/
structure NodeLaws (blamed : Token → Prop) (finds : Name → Option Expr → Prop)
    (P : Level → ∀ {α : Type}, Eval α → Prop) (Q : Binding → ∀ {α : Type}, Eval α → Prop) : Prop
    extends ScopeLaws (fun _ => True) finds P Q where
  fault {l : Level} {α : Type} (f : Fault) : P l (Eval.fault f : Eval α)
  blame {l : Level} {α : Type} {e : RuntimeError} {op : Token} (hop : blamed op) (he : e.operator? = some op) :
    P l (fail e : Eval α)
  draw {l : Level} {α : Type} (decide : Dice → Option (α × Dice)) : P l (drawing decide)

variable {blamed : Token → Prop} {called : Name → Prop} {finds : Name → Option Expr → Prop}
  {P : Level → ∀ {α : Type}, Eval α → Prop} {Q : Binding → ∀ {α : Type}, Eval α → Prop}

theorem ScopeLaws.meaning (laws : ScopeLaws called finds P Q) {α : Type} {name : Name}
    {f : Option Value → Eval α} (hf : ∀ found, P .whole (f found)) : P .whole (meaning? name >>= f) :=
  laws.bind (laws.bind laws.look fun _ => laws.value _) hf

/-- The comparison that looks at the first run only. -/
def ScopeLaws.comparison (laws : ScopeLaws called finds P Q) : ScopeComparison where
  toComparison := .exact (fun l _ x _ => P l x) laws.value laws.bind
  seen _ := True
  called := called
  entries name found found' := finds name found ∧ found = found'
  closes b _ _ _ x _ := Q b x
  blameless he := laws.blameless he
  tell he := laws.tell (Event.level_of_alike he)
  part hx := laws.part hx
  inScope hx := laws.inScope hx
  around {_ _ y _ _ _ _ _ _ _ _} _ hx hf := laws.around hx fun a => hf a a (y.alike_eq ▸ rfl)
  afterPop hx := laws.afterPop hx
  afterTell he hx := laws.afterTell (Event.level_of_alike he) hx
  leave he := laws.leave he
  look _ hf := laws.meaning fun found => hf found found (rel_self (fun _ => rfl) found)
  lookup hname hf := laws.lookup hname fun found hfound => hf found found ⟨hfound, rfl⟩

def NodeLaws.comparison (laws : NodeLaws blamed finds P Q) : NodeComparison where
  toScopeComparison := laws.toScopeLaws.comparison
  token op op' := op = op' ∧ blamed op
  wants _ := True
  token_alike h := Token.alike_of_eq h.1
  fault _ := laws.fault _
  blame hop he _ := laws.blame hop.2 he
  want hop _ := laws.blame hop.2 rfl
  chance _ _ := ⟨rfl, laws.draw⟩

section

variable {eval : Expr → Eval Value}

theorem ScopeLaws.visits (laws : ScopeLaws called finds P Q) (name : Name) {body : Expr}
    (hbody : P .whole (eval body)) (ns : List Int) : P .part (Eval.visits eval name body ns) :=
  @ScopeComparison.visits laws.comparison eval eval name body body hbody ns

theorem ScopeLaws.invocation (laws : ScopeLaws called finds P Q) {parameters : List Name} {arguments : List Expr}
    (same : arguments.length = parameters.length) (harguments : ∀ e ∈ arguments, P .whole (eval e)) {body : Expr}
    (hbody : P .whole (eval body)) : P .part (Eval.invocation eval parameters arguments body) :=
  @ScopeComparison.invocation laws.comparison eval eval arguments arguments (List.forall₂_same.2 harguments) parameters
    same body body hbody

theorem ScopeLaws.repeated (laws : ScopeLaws called finds P Q) {op : Token} {e : Expr}
    (hrefused : P .whole (fail (.repeatedValue op) : Eval (List Collection))) (he : P .whole (eval e)) (count : Nat) :
    P .whole (Eval.repeated eval op e count) :=
  @ScopeComparison.repeated laws.comparison eval eval op op e e hrefused he count

/-- What is found under a name, if the property holds of the body of a function and of a call of what is none. -/
theorem ScopeLaws.callees (laws : ScopeLaws called finds P Q) {name : Name}
    (hbodies : ∀ own parameters body, finds name (some (.function own parameters body)) → P .whole (eval body))
    (hother : ∀ e, finds name (some e) → e.arity? = none → P .whole (Eval.fault .notCallable : Eval Value))
    {found found' : Option Expr} (hfound : laws.comparison.entries name found found') :
    laws.comparison.Callees eval eval found found' := by
  obtain ⟨hfinds, rfl⟩ := hfound
  refine ScopeComparison.callees_self (fun own parameters body h => ?_) fun e h he => ?_
  · exact hbodies own parameters body (h ▸ hfinds)
  · exact hother e (h ▸ hfinds) he

/-- The evaluation of a node has the property, if that of the nodes right below it and of the function that it calls
does, and what a loop does when it reaches its bound. Nodes that apply an operator or evaluate nothing are looked at
separately. -/
theorem ScopeLaws.step (laws : ScopeLaws called finds P Q) (fuel : Nat) {e : Expr}
    (hcalled : ∀ name arguments, e = .call name arguments → called name)
    (hchildren : (∀ name, e ≠ .var name .missing) → ∀ child ∈ e.children, P .whole (eval child))
    (hbodies : ∀ name own parameters body, finds name (some (.function own parameters body)) → P .whole (eval body))
    (hother : ∀ name e, finds name (some e) → e.arity? = none → P .whole (Eval.fault .notCallable : Eval Value))
    (hbound : P .part (throw .outOfFuel : Eval (List Value)))
    (hbasic : e.isBasic = true → P .whole (Eval.step eval fuel e)) : P .whole (Eval.step eval fuel e) := by
  have hadmits : laws.comparison.Admits e := by
    cases e with
    | call name arguments => exact hcalled name arguments rfl
    | _ => trivial
  exact @ScopeComparison.step laws.comparison eval eval e rfl hadmits hchildren
    (fun name _ _ {_ _} => laws.callees (hbodies name) (hother name)) fuel 0 (fun _ _ _ _ _ _ => hbound) hbasic

/-- The evaluation of a node has the property, if that of the nodes right below it and of the function that it calls
does, and what a loop does when it reaches its bound. -/
theorem NodeLaws.step (laws : NodeLaws blamed finds P Q) (fuel : Nat) {e : Expr}
    (hop : ∀ op, e.operator? = some op → blamed op) (hchildren : ∀ child ∈ e.children, P .whole (eval child))
    (hbodies : ∀ name arguments own parameters body, e = .call name arguments →
      finds name (some (.function own parameters body)) → P .whole (eval body))
    (hbound : ∀ mode name body style test, e = .loop mode name body style test →
      P .part (throw .outOfFuel : Eval (List Value))) : P .whole (Eval.step eval fuel e) := by
  have hnode : laws.comparison.Allows e := by
    cases e with
    | literal v => exact rfl
    | binary left op schema right => exact ⟨rfl, hop op rfl⟩
    | unary op schema operand => exact ⟨⟨rfl, hop op rfl⟩, fun _ => trivial⟩
    | _ => trivial
  exact @NodeComparison.step laws.comparison eval eval e rfl hnode hchildren
    (fun name arguments hcall {_ _} => laws.callees (fun own parameters body => hbodies _ _ own parameters body hcall)
      fun _ _ _ => laws.fault _) fuel 0 hbound

end

end DiceScript.Eval
