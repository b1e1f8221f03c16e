import DiceScript.Proofs.Evaluation.Operations
import DiceScript.Proofs.Grammar.Trees

/-!
# Nodes compared

A node is compared with another one of its kind as soon as the nodes below the two are. There is one lemma for each kind
of node, for every comparison, and one for a node beside itself. The two runs may evaluate the nodes below in different
ways, and the second one may have a larger bound on its rounds.
-/

namespace DiceScript

namespace Expr

/-- Nodes that apply an operator or evaluate nothing. -/
def isBasic : Expr → Bool
  | .missing | .literal _ | .misfit _ | .function _ _ _ | .binary _ _ _ _ | .unary _ _ _ => true
  | _ => false

end Expr

namespace Eval

section

variable {eval : Expr → Eval Value}

theorem variableValue_missing (name : Name) :
    variableValue eval name .missing = meaning? name >>= fun found => found.elim (fail (.unknownVariable name)) pure := by
  funext m
  simp only [variableValue, meaning?, bind_assoc, pure_bind, get_bind]
  cases m.scope.lookup? name <;> rfl

theorem variableValue_of_ne (name : Name) {fallback : Expr} (h : fallback ≠ .missing) :
    variableValue eval name fallback = meaning? name >>= fun found => found.elim (eval fallback) pure := by
  funext m
  simp only [variableValue, meaning?, bind_assoc, pure_bind, get_bind]
  cases m.scope.lookup? name with
  | some v => rfl
  | none =>
    cases fallback with
    | missing => exact absurd rfl h
    | _ => rfl

/-- What a round does once it has a value: the test sees the value, and decides about the others. -/
def testRound (eval : Expr → Eval Value) (mode : LoopMode) (name : Name) (style : EndStyle)
    (test : Expr) (others : Eval (List Value)) (v : Value) : Eval (List Value) := do
  push ⟨name, v⟩
  let t ← eval test
  match t with
  | .collection c => do
    trace (.testing mode name v style t)
    let _ ← pop
    if (!c.isEmpty) = decide (style = .untilTrue) then pure [v]
    else do
      let vs ← others
      pure (v :: vs)
  | _ => fail (.loopTest mode t.shape)

theorem rounds_succ (mode : LoopMode) (name : Name) (body : Expr) (style : EndStyle) (test : Expr)
    (fuel : Nat) :
    rounds eval mode name body style test (fuel + 1) = (do
      let v ← eval body
      match mode, v with
      | .accumulated, .collection _ | .last, _ =>
        testRound eval mode name style test (rounds eval mode name body style test fuel) v
      | .accumulated, _ => fail (.accumulated v.shape)) :=
  rfl

/-- What a call does once the function is found: bind the parameters, evaluate the body and take the bindings
away. -/
def invocation (eval : Expr → Eval Value) (parameters : List Name) (arguments : List Expr) (body : Expr) :
    Eval Value := do
  bindArguments eval parameters arguments
  let result ← eval body
  popEach parameters
  pure result

/-- Of the bindings of parameters, the last one popped is that of the first parameter. -/
theorem popEach_cons (parameter : Name) (parameters : List Name) :
    popEach (parameter :: parameters) = popEach parameters >>= fun _ => pop >>= fun _ => pure () := by
  induction parameters generalizing parameter with
  | nil => rfl
  | cons next parameters ih =>
    calc popEach (parameter :: next :: parameters)
        = pop >>= fun _ => popEach (next :: parameters) := rfl
      _ = pop >>= fun _ => popEach parameters >>= fun _ => pop >>= fun _ => pure () := by rw [ih next]
      _ = popEach (next :: parameters) >>= fun _ => pop >>= fun _ => pure () := (bind_assoc _ _ _).symm

/-- The first parameter is bound around all that follows. -/
theorem invocation_cons (eval : Expr → Eval Value) (parameter : Name) (parameters : List Name) (argument : Expr)
    (arguments : List Expr) (body : Expr) :
    invocation eval (parameter :: parameters) (argument :: arguments) body = (do
      let v ← eval argument
      push ⟨parameter, v⟩
      let result ← invocation eval parameters arguments body
      let _ ← pop
      pure result) := by
  simp only [invocation, bindArguments, popEach_cons, bind_assoc, pure_bind]

theorem invocation_nil (eval : Expr → Eval Value) (body : Expr) : invocation eval [] [] body = eval body := by
  simp only [invocation, bindArguments, popEach, pure_bind, bind_pure]

def callFound (eval : Expr → Eval Value) (name : Name) (arguments : List Expr) : Option Expr → Eval Value
  | none => fail (.unknownFunction name)
  | some (.function _ parameters body) =>
    if arguments.length = parameters.length then do
      trace (.calling name)
      inScope (invocation eval parameters arguments body)
    else fail (.argumentCount name parameters.length arguments.length)
  | some _ => fault .notCallable

theorem call_eq_bind (eval : Expr → Eval Value) (name : Name) (arguments : List Expr) :
    call eval name arguments = function? name >>= callFound eval name arguments := by
  unfold call
  refine bind_congr fun found => ?_
  unfold callFound
  rfl

theorem callFound_other {e : Expr} (h : e.arity? = none) (name : Name) (arguments : List Expr) :
    callFound eval name arguments (some e) = fault .notCallable := by
  cases e with
  | function => cases h
  | _ => rfl

end

namespace ScopeComparison

variable {C : ScopeComparison} {l : Level} {eval eval' : Expr → Eval Value}

/-- What is found under the name of a function: nothing, functions whose bodies compare, or what is no function. -/
inductive Callees (C : ScopeComparison) (eval eval' : Expr → Eval Value) : Option Expr → Option Expr → Prop
  | none : Callees C eval eval' none none
  | function {own own' : Name} (parameters : List Name) {body body' : Expr}
    (h : C.holds .whole .value (eval body) (eval' body')) :
    Callees C eval eval' (some (.function own parameters body)) (some (.function own' parameters body'))
  | other {e e' : Expr} (he : e.arity? = Option.none) (he' : e'.arity? = Option.none)
    (h : C.holds .whole .value (fault .notCallable) (fault .notCallable)) : Callees C eval eval' (some e) (some e')

theorem callees_self {found : Option Expr}
    (hbodies : ∀ own parameters body, found = some (.function own parameters body) →
      C.holds .whole .value (eval body) (eval' body))
    (hother : ∀ e, found = some e → e.arity? = none →
      C.holds .whole .value (fault .notCallable) (fault .notCallable)) : C.Callees eval eval' found found := by
  cases found with
  | none => exact .none
  | some e =>
    cases e with
    | function own parameters body => exact .function parameters (hbodies _ _ _ rfl)
    | _ => exact .other rfl rfl (hother _ rfl rfl)

section

variable {v v' : Value}

/-- Like values are refused alike. -/
theorem refused {α : Type} {y : Yield α} (hv : C.values v v') {refusal : Shape → RuntimeError}
    (h : ∀ shape, (refusal shape).operator? = none) :
    C.holds l y (fail (refusal v.shape)) (fail (refusal v'.shape)) := by
  rw [(C.order.permuted (C.alike hv)).shape_eq]
  exact C.blameless (h _)

theorem repeated {op op' : Token} {e e' : Expr}
    (hrefused : C.holds .whole .rows (fail (.repeatedValue op)) (fail (.repeatedValue op')))
    (he : C.holds .whole .value (eval e) (eval' e')) (count : Nat) :
    C.holds .whole .rows (Eval.repeated eval op e count) (Eval.repeated eval' op' e' count) := by
  induction count with
  | zero => exact C.value .nil
  | succ count ih =>
    refine C.bind he fun v v' hv => ?_
    cases C.alike hv with
    | collection hc => exact C.bind ih fun _ _ hrows => C.value (.cons hc hrows)
    | _ => exact hrefused

theorem variableValue {name : Name} (hname : C.seen name) {fallback fallback' : Expr}
    (hmissing : fallback = .missing ↔ fallback' = .missing)
    (h : fallback ≠ .missing → C.holds .whole .value (eval fallback) (eval' fallback')) :
    C.holds .whole .value (Eval.variableValue eval name fallback) (Eval.variableValue eval' name fallback') := by
  by_cases hfallback : fallback = .missing
  · obtain rfl := hmissing.1 hfallback
    subst hfallback
    rw [variableValue_missing, variableValue_missing]
    refine C.look hname fun found found' hfound => ?_
    cases hfound with
    | none => exact C.blameless rfl
    | some hv => exact C.value hv
  · rw [variableValue_of_ne name hfallback, variableValue_of_ne name (mt hmissing.2 hfallback)]
    refine C.look hname fun found found' hfound => ?_
    cases hfound with
    | none => exact h hfallback
    | some hv => exact C.value hv

theorem conditional {c c' t t' f f' : Expr} (hc : C.holds .whole .value (eval c) (eval' c'))
    (ht : C.holds .whole .value (eval t) (eval' t')) (hf : C.holds .whole .value (eval f) (eval' f')) :
    C.holds .whole .value (Eval.conditional eval c t f) (Eval.conditional eval' c' t' f') := by
  refine C.bind hc fun v v' hv => C.bind (C.tell (.deciding hv)) fun _ _ _ => ?_
  rw [(C.order.permuted (C.alike hv)).isTruthy_eq]
  split
  · exact ht
  · exact hf

theorem bound (name : Name) {definition definition' use use' : Expr}
    (hdefinition : C.holds .whole .value (eval definition) (eval' definition'))
    (huse : C.holds .whole .value (eval use) (eval' use')) :
    C.holds .whole .value (Eval.bound eval name definition use) (Eval.bound eval' name definition' use') := by
  refine C.bind hdefinition fun v v' hv => C.inScope ?_
  exact C.around hv (C.part huse) fun _ _ hresult => C.afterPop (C.value hresult)

/-- The same elements in the same order. -/
theorem visits (name : Name) {body body' : Expr} (hbody : C.holds .whole .value (eval body) (eval' body'))
    (ns : List Int) :
    C.holds .part .items (Eval.visits eval name body ns) (Eval.visits eval' name body' ns) := by
  induction ns with
  | nil => exact C.value (C.order.refl [])
  | cons n ns ih =>
    refine C.bind (C.tell (.visiting name n)) fun _ _ _ => ?_
    refine C.around (C.collection (C.order.refl [n])) (C.part hbody) fun v v' hv => C.afterPop ?_
    have hrefused : C.holds .part .items (fail (.foreachBody v.shape)) (fail (.foreachBody v'.shape)) :=
      refused hv fun _ => rfl
    cases C.alike hv with
    | collection hc => exact C.bind ih fun _ _ hothers => C.value (C.order.append hc hothers)
    | _ => exact hrefused

theorem foreach (name : Name) {source source' body body' : Expr}
    (hsource : C.holds .whole .value (eval source) (eval' source'))
    (hvisits : ∀ {ns ns' : Collection}, C.items ns ns' →
      C.holds .part .items (Eval.visits eval name body ns) (Eval.visits eval' name body' ns')) :
    C.holds .whole .value (Eval.foreach eval name source body) (Eval.foreach eval' name source' body') := by
  refine C.bind hsource fun v v' hv => ?_
  have hrefused : C.holds .whole .value (fail (.foreachSource v.shape)) (fail (.foreachSource v'.shape)) :=
    refused hv fun _ => rfl
  cases C.alike hv with
  | collection hns => exact C.bind (C.inScope (hvisits hns)) fun _ _ hc => C.value (C.collection hc)
  | _ => exact hrefused

end

section

variable {body body' test test' : Expr}

theorem testRound (mode : LoopMode) (name : Name) (style : EndStyle)
    (htest : C.holds .whole .value (eval test) (eval' test')) {others others' : Eval (List Value)}
    (hothers : C.holds .part .values others others') {v v' : Value} (hv : C.values v v') :
    C.holds .part .values (Eval.testRound eval mode name style test others v)
      (Eval.testRound eval' mode name style test' others' v') := by
  refine C.around hv (C.part htest) fun t t' ht => ?_
  have hshape := (C.order.permuted (C.alike ht)).shape_eq
  have hrefused : C.closes ⟨name, v⟩ ⟨name, v'⟩ .values (fail (.loopTest mode t.shape))
      (fail (.loopTest mode t'.shape)) := by
    rw [hshape]
    exact C.leave rfl
  cases C.alike ht with
  | collection hc =>
    refine C.afterTell (.testing mode name style hv ht) (C.afterPop ?_)
    rw [(C.order.perm hc).isEmpty_eq]
    split
    · exact C.value (.cons hv .nil)
    · exact C.bind hothers fun _ _ hvs => C.value (.cons hv hvs)
  | _ => exact hrefused

/-- The rounds of loops, of which the second one may go on when the first one reaches its bound. -/
theorem rounds (mode : LoopMode) (name : Name) (style : EndStyle)
    (hbody : C.holds .whole .value (eval body) (eval' body'))
    (htest : C.holds .whole .value (eval test) (eval' test')) (fuel : Nat) {more : Nat}
    (hbound : C.holds .part .values (throw .outOfFuel) (Eval.rounds eval' mode name body' style test' more)) :
    C.holds .part .values (Eval.rounds eval mode name body style test fuel)
      (Eval.rounds eval' mode name body' style test' (fuel + more)) := by
  induction fuel with
  | zero =>
    rw [Nat.zero_add]
    exact hbound
  | succ fuel ih =>
    rw [Nat.succ_add, rounds_succ, rounds_succ]
    refine C.bind (C.part hbody) fun v v' hv => ?_
    have hround := testRound mode name style htest ih hv
    have hrefused : C.holds .part .values (fail (.accumulated v.shape)) (fail (.accumulated v'.shape)) :=
      refused hv fun _ => rfl
    cases mode with
    | last => exact hround
    | accumulated =>
      cases C.alike hv with
      | collection hc => exact hround
      | _ => exact hrefused

theorem items_items {v v' : Value} (hv : C.values v v') : C.items (items v) (items v') := by
  cases C.alike hv with
  | collection hc => exact hc
  | _ => exact C.order.refl []

theorem getLastD {vs vs' : List Value} (hvs : List.Forall₂ C.values vs vs') {v v' : Value} (hv : C.values v v') :
    C.values (vs.getLastD v) (vs'.getLastD v') := by
  induction hvs generalizing v v' with
  | nil => exact hv
  | cons hw _ ih =>
    rw [List.getLastD_cons, List.getLastD_cons]
    exact ih hw

theorem loopValue (mode : LoopMode) {vs vs' : List Value} (hvs : List.Forall₂ C.values vs vs') :
    C.values (Eval.loopValue mode vs) (Eval.loopValue mode vs') := by
  cases mode with
  | last => exact getLastD hvs (C.collection (C.order.refl []))
  | accumulated =>
    apply C.collection
    induction hvs with
    | nil => exact C.order.refl []
    | cons hv _ ih =>
      rw [List.flatMap_cons, List.flatMap_cons]
      exact C.order.append (items_items hv) ih

theorem loop (mode : LoopMode) (name : Name) (style : EndStyle)
    (hbody : C.holds .whole .value (eval body) (eval' body'))
    (htest : C.holds .whole .value (eval test) (eval' test')) (fuel : Nat) {more : Nat}
    (hbound : C.holds .part .values (throw .outOfFuel) (Eval.rounds eval' mode name body' style test' more)) :
    C.holds .whole .value (Eval.loop eval mode name body style test fuel)
      (Eval.loop eval' mode name body' style test' (fuel + more)) :=
  C.bind (C.inScope (rounds mode name style hbody htest fuel hbound)) fun _ _ hvs => C.value (loopValue mode hvs)

end

section

variable {arguments arguments' : List Expr}

/-- Each parameter is bound around the later ones and the body. -/
theorem invocation
    (harguments : List.Forall₂ (fun e e' => C.holds .whole .value (eval e) (eval' e')) arguments arguments')
    {parameters : List Name} (same : arguments.length = parameters.length) {body body' : Expr}
    (hbody : C.holds .whole .value (eval body) (eval' body')) :
    C.holds .part .value (Eval.invocation eval parameters arguments body)
      (Eval.invocation eval' parameters arguments' body') := by
  induction harguments generalizing parameters with
  | nil =>
    obtain rfl := List.length_eq_zero_iff.1 same.symm
    rw [invocation_nil, invocation_nil]
    exact C.part hbody
  | cons he _ ih =>
    cases parameters with
    | nil => cases same
    | cons parameter parameters =>
      rw [invocation_cons, invocation_cons]
      refine C.bind (C.part he) fun v v' hv => ?_
      exact C.around hv (ih (Nat.succ.inj same)) fun _ _ hresult => C.afterPop (C.value hresult)

theorem call {name : Name} (hname : C.called name)
    (harguments : List.Forall₂ (fun e e' => C.holds .whole .value (eval e) (eval' e')) arguments arguments')
    (hcallees : ∀ {found found' : Option Expr}, C.entries name found found' → C.Callees eval eval' found found') :
    C.holds .whole .value (Eval.call eval name arguments) (Eval.call eval' name arguments') := by
  rw [call_eq_bind, call_eq_bind]
  refine C.lookup hname fun found found' hfound => ?_
  cases hcallees hfound with
  | none => exact C.blameless rfl
  | function parameters hbody =>
    simp only [callFound, ← harguments.length_eq]
    split
    · next same => exact C.bind (C.tell (.calling name)) fun _ _ _ => C.inScope (invocation harguments same hbody)
    · exact C.blameless rfl
  | other he he' hfault =>
    rw [callFound_other he, callFound_other he']
    exact hfault

theorem elements
    (h : List.Forall₂ (fun e e' => C.holds .whole .value (eval e) (eval' e')) arguments arguments') :
    C.holds .whole .items (Eval.elements eval arguments) (Eval.elements eval' arguments') := by
  induction h with
  | nil => exact C.value (C.order.refl [])
  | cons he _ ih =>
    refine C.bind he fun v v' hv => ?_
    have hrefused : C.holds .whole .items (fail (.element v.shape)) (fail (.element v'.shape)) :=
      refused hv fun _ => rfl
    cases C.alike hv with
    | collection hc => exact C.bind ih fun _ _ hothers => C.value (C.order.append hc hothers)
    | _ => exact hrefused

theorem collectionNode {fuel fuel' : Nat}
    (h : List.Forall₂ (fun e e' => C.holds .whole .value (eval e) (eval' e')) arguments arguments') :
    C.holds .whole .value (step eval fuel (.collection arguments)) (step eval' fuel' (.collection arguments')) :=
  C.bind (elements h) fun _ _ hc => C.value (C.collection hc)

theorem pairNode {fuel fuel' : Nat} {a a' b b' : Expr} (ha : C.holds .whole .value (eval a) (eval' a'))
    (hb : C.holds .whole .value (eval b) (eval' b')) :
    C.holds .whole .value (step eval fuel (.pair a b)) (step eval' fuel' (.pair a' b')) :=
  C.bind ha fun _ _ hv => C.bind hb fun _ _ hw => C.value (C.pair.2 ⟨hv, hw⟩)

end

def Admits (C : ScopeComparison) : Expr → Prop
  | .var name _ => C.seen name
  | .call name _ => C.called name
  | _ => True

/-- A node beside itself, if the nodes right below it and the function that it calls are. Nodes that apply an operator
or evaluate nothing are looked at separately. A variable need not have a fallback. -/
theorem step {e : Expr} (hitems : C.items = Eq) (hnode : C.Admits e)
    (hchildren : (∀ name, e ≠ .var name .missing) → ∀ child ∈ e.children,
      C.holds .whole .value (eval child) (eval' child))
    (hcallees : ∀ name arguments, e = .call name arguments → ∀ {found found' : Option Expr},
      C.entries name found found' → C.Callees eval eval' found found') (fuel : Nat) {more : Nat}
    (hbound : ∀ mode name body style test, e = .loop mode name body style test →
      C.holds .part .values (throw .outOfFuel) (Eval.rounds eval' mode name body style test more))
    (hbasic : e.isBasic = true → C.holds .whole .value (Eval.step eval fuel e) (Eval.step eval' (fuel + more) e)) :
    C.holds .whole .value (Eval.step eval fuel e) (Eval.step eval' (fuel + more) e) := by
  cases e with
  | missing | misfit | function | literal | binary | unary => exact hbasic rfl
  | var name fallback =>
    refine variableValue hnode Iff.rfl fun hfallback => hchildren (fun _ h => ?_) fallback (by simp [Expr.children])
    exact hfallback (Expr.var.inj h).2
  | conditional c t f =>
    have hchild := hchildren (by rintro _ ⟨⟩)
    exact conditional (hchild c (by simp [Expr.children])) (hchild t (by simp [Expr.children]))
      (hchild f (by simp [Expr.children]))
  | foreach name source body =>
    have hchild := hchildren (by rintro _ ⟨⟩)
    refine foreach name (hchild source (by simp [Expr.children])) fun {ns ns'} hns => ?_
    have hsame : ns = ns' := hitems ▸ hns
    subst hsame
    exact visits name (hchild body (by simp [Expr.children])) ns
  | loop mode name body style test =>
    have hchild := hchildren (by rintro _ ⟨⟩)
    exact loop mode name style (hchild body (by simp [Expr.children])) (hchild test (by simp [Expr.children])) fuel
      (hbound mode name body style test rfl)
  | binding name definition use =>
    have hchild := hchildren (by rintro _ ⟨⟩)
    exact bound name (hchild definition (by simp [Expr.children])) (hchild use (by simp [Expr.children]))
  | call name arguments =>
    exact call hnode (List.forall₂_same.2 (hchildren (by rintro _ ⟨⟩))) (hcallees name arguments rfl)
  | collection es => exact collectionNode (List.forall₂_same.2 (hchildren (by rintro _ ⟨⟩)))
  | pair first second =>
    have hchild := hchildren (by rintro _ ⟨⟩)
    exact pairNode (hchild first (by simp [Expr.children])) (hchild second (by simp [Expr.children]))
  | group inner => exact hchildren (by rintro _ ⟨⟩) inner (by simp [Expr.children])

end ScopeComparison

namespace NodeComparison

variable {C : NodeComparison} {eval eval' : Expr → Eval Value} {op op' : Token}

theorem deferred (hop : C.token op op') {v v' : Value} (hv : C.values v v') {e e' : Expr}
    (he : C.holds .whole .value (eval e) (eval' e')) :
    C.holds .whole .value (Eval.deferred eval op v e) (Eval.deferred eval' op' v' e') := by
  refine C.bind (C.asSingleton hop _ (C.alike hv)) ?_
  rintro count _ rfl
  rw [← C.token_kind hop]
  split
  · exact C.blame (e := .negativeCount op) hop rfl rfl
  · have hrows := C.repeated (C.blame (e := .repeatedValue op) hop rfl rfl) he count.toNat
    cases op.kind with
    | sample =>
      refine C.bind hrows fun rows rows' h => ?_
      rw [C.order.map_display_eq h]
      exact C.value (C.text rfl)
    | hash => exact C.bind hrows fun _ _ h => C.value (C.collection (C.order.flatten h))
    | _ => exact C.foreign hop _

theorem binaryNode (hop : C.token op op') (schema : BinarySchema) {a a' b b' : Expr}
    (ha : C.holds .whole .value (eval a) (eval' a')) (hb : C.holds .whole .value (eval b) (eval' b')) :
    C.holds .whole .value (Eval.binary eval a op schema b) (Eval.binary eval' a' op' schema b') := by
  unfold Eval.binary
  rw [← C.token_kind hop]
  split
  · refine C.bind ha fun v v' hv => ?_
    split
    · exact deferred hop hv hb
    · exact C.bind hb fun _ _ hw => C.binary hop schema (C.alike hv) (C.alike hw)
  · exact C.blame (e := .notBinary op) hop rfl rfl

theorem unaryNode (hop : C.token op op') {schema : UnarySchema} (hwants : schema = .real → C.wants op) {e e' : Expr}
    (he : C.holds .whole .value (eval e) (eval' e')) :
    C.holds .whole .value (Eval.unary eval op schema e) (Eval.unary eval' op' schema e') := by
  unfold Eval.unary
  rw [← C.token_kind hop]
  split
  · exact C.bind he fun _ _ hv => C.unary hop hwants hv
  · exact C.blame (e := .notUnary op) hop rfl rfl

/-- What a node asks for, apart from the nodes below it, is beside itself. -/
def Allows (C : NodeComparison) : Expr → Prop
  | .literal v => C.values v v
  | .binary _ op _ _ => C.token op op
  | .unary op schema _ => C.token op op ∧ (schema = .real → C.wants op)
  | e => C.Admits e

/-- A node beside itself, if the nodes right below it and the function that it calls are. -/
theorem step {e : Expr} (hitems : C.items = Eq) (hnode : C.Allows e)
    (hchildren : ∀ child ∈ e.children, C.holds .whole .value (eval child) (eval' child))
    (hcallees : ∀ name arguments, e = .call name arguments → ∀ {found found' : Option Expr},
      C.entries name found found' → C.Callees eval eval' found found') (fuel : Nat) {more : Nat}
    (hbound : ∀ mode name body style test, e = .loop mode name body style test →
      C.holds .part .values (throw .outOfFuel) (Eval.rounds eval' mode name body style test more)) :
    C.holds .whole .value (Eval.step eval fuel e) (Eval.step eval' (fuel + more) e) := by
  have hadmits : C.Admits e := by
    cases e with
    | var | call => exact hnode
    | _ => trivial
  refine C.toScopeComparison.step hitems hadmits (fun _ => hchildren) hcallees fuel hbound fun hbasic => ?_
  cases e with
  | missing | misfit form | function name parameters body => exact C.fault (.same _)
  | literal v => exact C.value hnode
  | binary left op schema right =>
    exact binaryNode hnode schema (hchildren left (by simp [Expr.children])) (hchildren right (by simp [Expr.children]))
  | unary op schema operand => exact unaryNode hnode.1 hnode.2 (hchildren operand (by simp [Expr.children]))
  | _ => cases hbasic

end NodeComparison

end Eval

end DiceScript
