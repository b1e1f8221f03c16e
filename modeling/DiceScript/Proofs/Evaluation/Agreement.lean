import DiceScript.Proofs.Evaluation.Restoration
import DiceScript.Proofs.Grammar.Scripts

/-!
# What is compiled can be evaluated

The tables that give an operator its schema when a script is read, and those that say what an operator does
under a schema when it is evaluated, agree: no operator of a compiled script ever meets a schema that is not
its own. Nor is anything asked for that is not there: no binding of an empty scope, no quotient by zero, no
number of an empty range, no element of an empty collection, no value of a place without an expression.

`Orderly` is the invariant. A computation is orderly with a table of functions if it gives the bindings and functions
back and stops, if at all, for an error that a script may have or because its bound is reached.
-/

namespace DiceScript

/-- A stop for an error that a script may have, or at the bound. -/
def Stop.IsOrderly : Stop → Prop
  | .error e => e.kind ≠ .invalidBinaryOperator ∧ e.kind ≠ .invalidUnaryOperator
  | .fault _ => False
  | .outOfFuel => True

theorem Stop.isOrderly_of_operator? {e : RuntimeError} (h : e.operator? = none) : (Stop.error e).IsOrderly := by
  cases e <;> cases h <;> simp [IsOrderly, RuntimeError.kind]

namespace Eval

variable {α β : Type}

/-- From every machine with these functions, the computation ends with its bindings and functions or stops in an
orderly way. -/
def Orderly (functions : Table Name Expr) (x : Eval α) : Prop :=
  ∀ m, m.functions = functions → Ends x m (fun _ => Atop m []) (fun stop _ => stop.IsOrderly)

/-- With a binding on top, the computation takes it away or stops in an orderly way. -/
def OrderlyUnder (functions : Table Name Expr) (b : Binding) (x : Eval α) : Prop :=
  ∀ base m, base.functions = functions → Atop base [b] m →
    Ends x m (fun _ => Atop base []) (fun stop _ => stop.IsOrderly)

section

variable {functions : Table Name Expr} {x : Eval α} {f : α → Eval β} {base m : Machine} {new : Scope}

theorem orderly_pure (a : α) : Orderly functions (pure a : Eval α) :=
  fun m _ => ends_pure.2 (atop_self m)

theorem orderly_fail {e : RuntimeError}
    (he : e.kind ≠ .invalidBinaryOperator ∧ e.kind ≠ .invalidUnaryOperator) :
    Orderly functions (fail e : Eval α) :=
  fun _ _ => ends_fail.2 he

theorem orderly_outOfFuel : Orderly functions (throw .outOfFuel : Eval α) :=
  fun _ _ => ends_throw.2 trivial

theorem orderly_trace (e : Event) : Orderly functions (trace e) :=
  fun m _ => ends_trace.2 ((atop_self m).traced e)

/-- The random source decides, since there always is something to decide between. -/
theorem orderly_drawing {decide : Dice → Option (α × Dice)} (h : ∀ dice, (decide dice).isSome) :
    Orderly functions (drawing decide) := by
  intro m hm
  rw [ends_drawing]
  obtain ⟨⟨a, dice⟩, hdecide⟩ := Option.isSome_iff_exists.1 (h m.dice)
  rw [hdecide]
  exact ⟨rfl, rfl⟩

/-- What is orderly from the point where it starts is so on top of any bindings. -/
theorem Orderly.atop (hx : Orderly functions x) (hbase : base.functions = functions) (h : Atop base new m) :
    Ends x m (fun _ => Atop base new) (fun stop _ => stop.IsOrderly) :=
  (hx m (h.functions.trans hbase)).mono (fun _ _ h' => h.trans h') (fun _ _ h' => h')

theorem Orderly.bind (hx : Orderly functions x) (hf : ∀ a, Orderly functions (f a)) :
    Orderly functions (x >>= f) := by
  intro m hm
  rw [ends_bind]
  exact (hx m hm).mono (fun a after h => (hf a).atop hm h) (fun _ _ h => h)

theorem Orderly.inScope (hx : Orderly functions x) : Orderly functions (inScope x) := by
  intro m hm
  rw [ends_inScope]
  exact (hx m hm).mono (fun _ _ h => h.truncated) (fun _ _ h => h)

/-- The functions are those of the table, and their names are texts. -/
theorem orderly_function? {name : Name} (hname : name.isText = true) {f : Option Expr → Eval α}
    (hf : Orderly functions (f (functions.find? name))) : Orderly functions (function? name >>= f) := by
  intro m hm
  have hcompound : name.isCompound = false := by
    cases name <;> first | rfl | cases hname
  simp only [ends_bind, ends_function?, hcompound, hm, Bool.false_eq_true, if_false]
  exact hf m hm

/-- A binding around an orderly computation is still there for what follows. -/
theorem Orderly.around {b : Binding} (hx : Orderly functions x) (hf : ∀ a, OrderlyUnder functions b (f a)) :
    Orderly functions (Eval.push b >>= fun _ => x >>= f) := by
  intro m hm
  simp only [ends_bind]
  refine ((atop_self m).push b).mono (fun _ m₁ h₁ => ?_) (fun _ _ h => h.elim)
  exact (hx.atop hm h₁).mono (fun a m₂ h₂ => hf a m m₂ hm h₂) (fun _ _ h => h)

theorem Orderly.afterPop {b : Binding} (hx : Orderly functions x) :
    OrderlyUnder functions b (Eval.pop >>= fun _ => x) := by
  intro base m hbase h
  rw [ends_bind]
  exact h.pop.mono (fun _ _ h' => hx.atop hbase h') (fun _ _ h' => h'.elim)

theorem OrderlyUnder.afterTrace {b : Binding} (hx : OrderlyUnder functions b x) (e : Event) :
    OrderlyUnder functions b (trace e >>= fun _ => x) := by
  intro base m hbase h
  rw [ends_bind, ends_trace]
  exact hx base _ hbase (h.traced e)

theorem scopeLaws_orderly (functions : Table Name Expr) :
    ScopeLaws (fun name => name.isText = true) (FoundIn functions) (fun _ => Orderly functions)
      fun b => OrderlyUnder functions b where
  value a := orderly_pure a
  bind hx hf := hx.bind hf
  blameless he := orderly_fail (Stop.isOrderly_of_operator? he)
  tell _ := orderly_trace _
  look := fun m _ => ends_get.2 (atop_self m)
  lookup hname h := orderly_function? hname (h _ rfl)
  part hx := hx
  inScope hx := hx.inScope
  around hx hf := hx.around hf
  afterPop hx := hx.afterPop
  afterTell _ hx := hx.afterTrace _
  leave he := fun _ _ _ _ => ends_fail.2 (Stop.isOrderly_of_operator? he)

end

end Eval

namespace Operator

open Eval

variable {functions : Table Name Expr} {op : Token}

theorem orderly_operand {α : Type} (which : Operand) (shape : Shape) :
    Orderly functions (fail (.operand op which shape) : Eval α) := by
  refine orderly_fail ?_
  cases which <;> exact ⟨nofun, nofun⟩

theorem orderly_asCollection (which : Operand) (v : Value) :
    Orderly functions (asCollection op which v) := by
  unfold asCollection
  split
  · exact orderly_pure _
  · exact orderly_operand which _

theorem orderly_asSingleton (which : Operand) (v : Value) :
    Orderly functions (asSingleton op which v) := by
  unfold asSingleton
  split
  · exact orderly_pure _
  · exact orderly_operand which _

theorem orderly_asText (which : Operand) (v : Value) : Orderly functions (asText op which v) := by
  unfold asText
  split
  · exact orderly_pure _
  · exact orderly_operand which _

theorem orderly_collectionCollection (h : op.kind.binarySchema? = some .collectionCollection)
    (l r : Value) : Orderly functions (collectionCollection op l r) := by
  refine (orderly_asCollection _ l).bind fun _ => (orderly_asCollection _ r).bind fun _ => ?_
  cases hk : op.kind with
  | and | drop | keep | setMinus | union => exact orderly_pure _
  | _ =>
    rw [hk] at h
    cases h

theorem orderly_collectionSingleton (h : op.kind.binarySchema? = some .collectionSingleton)
    (l r : Value) : Orderly functions (collectionSingleton op l r) := by
  refine (orderly_asCollection _ l).bind fun left => (orderly_asSingleton _ r).bind fun count => ?_
  cases hk : op.kind with
  | pick =>
    simp only
    split
    · exact orderly_fail ⟨nofun, nofun⟩
    · split
      · exact orderly_pure _
      · exact (orderly_drawing fun dice => dice.sample_isSome (by omega)).bind fun _ => orderly_pure _
  | _ =>
    rw [hk] at h
    cases h

theorem orderly_singletonCollection (h : op.kind.binarySchema? = some .singletonCollection)
    (l r : Value) : Orderly functions (singletonCollection op l r) := by
  refine (orderly_asSingleton _ l).bind fun count => (orderly_asCollection _ r).bind fun right => ?_
  have hselect (c : Collection) :
      Orderly functions
        (if count < 0 then fail (.negativeSelection op) else pure (Value.collection c)) := by
    split
    · exact orderly_fail ⟨nofun, nofun⟩
    · exact orderly_pure _
  cases hk : op.kind with
  | equal | unequal | less | greater | atMost | atLeast => exact orderly_pure _
  | least | largest => exact hselect _
  | _ =>
    rw [hk] at h
    cases h

/-- Dice with faces are rolled from zero or one on. -/
theorem orderly_roll (count faces : Int) {lowest : Int} (hlowest : lowest ≤ 1) :
    Orderly functions (roll op count faces lowest) := by
  unfold roll
  split
  · exact orderly_fail ⟨nofun, nofun⟩
  · split
    · exact orderly_fail ⟨nofun, nofun⟩
    · exact (orderly_drawing fun dice => dice.roll_isSome (by omega) _).bind fun _ => orderly_pure _

theorem orderly_quotient {l r : Int} (hr : r ≠ 0) : Orderly functions (quotient l r) := by
  unfold quotient
  rw [if_neg hr]
  exact orderly_pure _

theorem orderly_singletonSingleton (h : op.kind.binarySchema? = some .singletonSingleton)
    (lval rval : Value) : Orderly functions (singletonSingleton op lval rval) := by
  refine (orderly_asSingleton _ lval).bind fun l => (orderly_asSingleton _ rval).bind fun r => ?_
  cases hk : op.kind with
  | dotDot | plus | minus | times => exact orderly_pure _
  | die => exact orderly_roll l r (by decide)
  | zeroDie => exact orderly_roll l r (by decide)
  | divide | modulo =>
    simp only
    split
    · exact orderly_fail ⟨nofun, nofun⟩
    · next hr => exact (orderly_quotient hr).bind fun _ => orderly_pure _
  | _ =>
    rw [hk] at h
    cases h

theorem orderly_stringString (h : op.kind.binarySchema? = some .stringString) (lval rval : Value) :
    Orderly functions (stringString op lval rval) := by
  refine (orderly_asText _ lval).bind fun l => (orderly_asText _ rval).bind fun r => ?_
  cases hk : op.kind with
  | beside | aboveLeft | aboveRight | aboveCentre => exact orderly_pure _
  | _ =>
    rw [hk] at h
    cases h

/-- A binary operator under its own schema. -/
theorem orderly_binary {schema : BinarySchema} (h : op.kind.binarySchema? = some schema)
    (hschema : schema ≠ .deferred) (l r : Value) : Orderly functions (binary op schema l r) := by
  cases schema with
  | collectionCollection => exact orderly_collectionCollection h l r
  | collectionSingleton => exact orderly_collectionSingleton h l r
  | singletonCollection => exact orderly_singletonCollection h l r
  | singletonSingleton => exact orderly_singletonSingleton h l r
  | stringString => exact orderly_stringString h l r
  | deferred => exact absurd rfl hschema

theorem orderly_extreme (hspelt : op.lexeme.isText = true) {items : Collection}
    {pick : Collection → Option Int} (hpick : items.isEmpty = false → (pick items).isSome) :
    Orderly functions (extreme op items pick) := by
  simp only [extreme, hspelt, if_true]
  split
  · exact orderly_fail ⟨nofun, nofun⟩
  · next hitems =>
    obtain ⟨n, hn⟩ := Option.isSome_iff_exists.1 (hpick (by simpa using hitems))
    rw [hn]
    exact orderly_pure _

theorem orderly_collectionOperand (h : op.kind.unarySchema? = some .collection)
    (hspelt : op.lexeme.isText = true) (v : Value) : Orderly functions (collectionOperand op v) := by
  refine (orderly_asCollection _ v).bind fun items => ?_
  cases hk : op.kind with
  | count | different | sum | minimal | maximal | bang => exact orderly_pure _
  | choose =>
    simp only
    split
    · exact orderly_fail ⟨nofun, nofun⟩
    · next hitems =>
      exact (orderly_drawing fun dice => dice.choose_isSome (by simpa using hitems)).bind
        fun _ => orderly_pure _
  | minimum => exact orderly_extreme hspelt fun hitems => (Collection.extremes_isSome hitems).1
  | maximum => exact orderly_extreme hspelt fun hitems => (Collection.extremes_isSome hitems).2.1
  | median => exact orderly_extreme hspelt fun hitems => (Collection.extremes_isSome hitems).2.2
  | _ =>
    rw [hk] at h
    cases h

theorem orderly_realOperand (h : op.kind.unarySchema? = some .real) (v : Value) :
    Orderly functions (realOperand op v) := by
  have hproper : Orderly functions (asProbability op v) := by
    unfold asProbability
    split
    · split
      · exact orderly_pure _
      · exact orderly_fail ⟨nofun, nofun⟩
    · exact orderly_fail ⟨nofun, nofun⟩
  refine hproper.bind fun x => ?_
  cases hk : op.kind with
  | question => exact (orderly_drawing fun _ => rfl).bind fun _ => orderly_pure _
  | _ =>
    rw [hk] at h
    cases h

theorem orderly_singletonOperand (h : op.kind.unarySchema? = some .singleton) (v : Value) :
    Orderly functions (singletonOperand op v) := by
  refine (orderly_asSingleton _ v).bind fun r => ?_
  cases hk : op.kind with
  | die => exact orderly_roll 1 r (by decide)
  | zeroDie => exact orderly_roll 1 r (by decide)
  | minus | sign => exact orderly_pure _
  | _ =>
    rw [hk] at h
    cases h

theorem orderly_tupleOperand (h : op.kind.unarySchema? = some .tuple) (v : Value) :
    Orderly functions (tupleOperand op v) := by
  unfold tupleOperand
  split
  · cases hk : op.kind with
    | first | second => exact orderly_pure _
    | _ =>
      rw [hk] at h
      cases h
  · exact orderly_operand _ _

theorem orderly_deferredOperand (h : op.kind.unarySchema? = some .deferred) (v : Value) :
    Orderly functions (deferredOperand op v) := by
  unfold deferredOperand
  cases hk : op.kind with
  | sample => exact orderly_pure _
  | _ =>
    rw [hk] at h
    cases h

/-- A unary operator under its own schema. -/
theorem orderly_unary {schema : UnarySchema} (h : op.kind.unarySchema? = some schema)
    (hspelt : op.lexeme.isText = true) (v : Value) : Orderly functions (unary op schema v) := by
  cases schema with
  | collection => exact orderly_collectionOperand h hspelt v
  | deferred => exact orderly_deferredOperand h v
  | real => exact orderly_realOperand h v
  | singleton => exact orderly_singletonOperand h v
  | tuple => exact orderly_tupleOperand h v

end Operator

namespace Eval

section

variable {functions : Table Name Expr} {eval : Expr → Eval Value}

theorem orderly_deferred {op : Token} (hop : op.kind.binarySchema? = some .deferred) {e : Expr}
    (he : Orderly functions (eval e)) (v : Value) : Orderly functions (deferred eval op v e) := by
  refine (Operator.orderly_asSingleton _ v).bind fun count => ?_
  split
  · exact orderly_fail ⟨nofun, nofun⟩
  · cases hk : op.kind with
    | sample | hash =>
      have hrefused : Orderly functions (fail (.repeatedValue op) : Eval (List Collection)) := orderly_fail ⟨nofun, nofun⟩
      exact ((scopeLaws_orderly functions).repeated hrefused he _).bind fun _ => orderly_pure _
    | _ =>
      rw [hk] at hop
      cases hop

theorem orderly_binaryNode {l r : Expr} (hl : Orderly functions (eval l))
    (hr : Orderly functions (eval r)) {op : Token} {schema : BinarySchema}
    (hop : op.kind.binarySchema? = some schema) : Orderly functions (binary eval l op schema r) := by
  simp only [binary, Kind.isBinary_of_binarySchema? hop, if_true]
  refine hl.bind fun v => ?_
  split
  · next hdeferred => exact orderly_deferred (hdeferred ▸ hop) hr v
  · next hschema => exact hr.bind fun w => Operator.orderly_binary hop hschema v w

theorem orderly_unaryNode {e : Expr} (he : Orderly functions (eval e)) {op : Token}
    {schema : UnarySchema} (hop : op.kind.unarySchema? = some schema)
    (hspelt : op.lexeme.isText = true) : Orderly functions (unary eval op schema e) := by
  simp only [unary, Kind.isUnary_of_unarySchema? hop, if_true]
  exact he.bind fun v => Operator.orderly_unary hop hspelt v

/-- One node is orderly, if the evaluation of other trees that scripts stand for is. -/
theorem orderly_step (heval : ∀ e, e.isScripted = true → Orderly functions (eval e))
    (hfunctions : ∀ entry ∈ functions, entry.2.isCallable = true) (fuel : Nat) {e : Expr}
    (he : e.isScripted = true) : Orderly functions (step eval fuel e) := by
  obtain ⟨hfit, hchildren⟩ := Expr.isScripted_iff.1 he
  have hcallable {name : Name} {found : Expr} (h : FoundIn functions name (some found)) : found.isCallable = true :=
    hfunctions _ (Table.mem_of_find? h)
  refine (scopeLaws_orderly functions).step fuel ?_ (fun hvar child hchild => heval child (hchildren hvar child hchild))
    (fun name own parameters body h => heval body (hcallable h)) ?_ orderly_outOfFuel fun hbasic => ?_
  · rintro name arguments rfl
    exact hfit
  · intro name found h hother
    have hfound := hcallable h
    cases found with
    | function => cases hother
    | _ => cases hfound
  · cases e with
    | literal v => exact orderly_pure v
    | binary left op schema right =>
      have hchild := hchildren (by rintro _ ⟨⟩)
      exact orderly_binaryNode (heval left (hchild left (by simp [Expr.children])))
        (heval right (hchild right (by simp [Expr.children]))) (of_decide_eq_true hfit)
    | unary op schema operand =>
      have hchild := hchildren (by rintro _ ⟨⟩)
      obtain ⟨hop, hspelt⟩ := Bool.and_eq_true_iff.1 hfit
      exact orderly_unaryNode (heval operand (hchild operand (by simp [Expr.children]))) (of_decide_eq_true hop) hspelt
    | missing | misfit form | function name parameters body => cases hfit
    | _ => cases hbasic

end

theorem orderly_eval {functions : Table Name Expr}
    (hfunctions : ∀ entry ∈ functions, entry.2.isCallable = true) (fuel : Nat) {e : Expr}
    (he : e.isScripted = true) : Orderly functions (eval fuel e) := by
  induction fuel generalizing e with
  | zero => exact orderly_outOfFuel
  | succ fuel ih => exact orderly_step (fun _ => ih) hfunctions fuel he

/-- An evaluation for a host is stopped by its bound only, and its errors are those of scripts. -/
theorem ends_evaluate_orderly {m : Machine}
    (hfunctions : ∀ entry ∈ m.functions, entry.2.isCallable = true) (fuel : Nat) {e : Expr}
    (he : e.isScripted = true) :
    Ends (evaluate fuel e) m
      (fun result _ => ∀ err, result = .error err → (Stop.error err).IsOrderly)
      (fun stop _ => stop = .outOfFuel) := by
  have hshowable := Expr.isShowable_of_isScripted he
  simp only [ends_evaluate, hshowable, Bool.not_true, Bool.and_false, Bool.false_eq_true, if_false]
  have hstart : (m.traced (.evaluating e)).functions = m.functions := Machine.traced_functions _ _
  refine (orderly_eval hfunctions fuel he (m.traced (.evaluating e)) hstart).mono ?_ ?_
  · rintro v after - err ⟨⟩
  · intro stop after h
    cases stop with
    | error err =>
      rintro _ ⟨⟩
      exact h
    | fault f => exact h.elim
    | outOfFuel => rfl

/-- A machine whose functions all were defined in scripts that compiled. -/
def FromScripts (m : Machine) : Prop :=
  ∀ entry ∈ m.functions, ∃ source before script after,
    compile source before = .ok (.ok script) after ∧ entry.2 ∈ script.functions.map Prod.snd

theorem FromScripts.isCallable {m : Machine} (h : FromScripts m) :
    ∀ entry ∈ m.functions, entry.2.isCallable = true := by
  intro entry hentry
  obtain ⟨_, _, script, _, hcompile, hmem⟩ := h entry hentry
  obtain ⟨entry', hentry', hsame⟩ := List.mem_map.1 hmem
  rw [← hsame]
  exact (isScripted_of_compile hcompile).2 entry' hentry'

/-- If a text compiles, its expression is evaluated without a fault, on every machine with any bindings, any
random source and functions from scripts. Unless it reaches its bound, the evaluation yields a value or an
error, and the error is never that a word is no operator. -/
theorem evaluate_compiled {source : String} {before after m : Machine} {script : Script}
    (hcompile : compile source before = .ok (.ok script) after) (hm : FromScripts m) (fuel : Nat) :
    (∃ v last, evaluate fuel script.expression m = .ok (.ok v) last) ∨
      (∃ err last, evaluate fuel script.expression m = .ok (.error err) last ∧
        err.kind ≠ .invalidBinaryOperator ∧ err.kind ≠ .invalidUnaryOperator) ∨
      ∃ last, evaluate fuel script.expression m = .error .outOfFuel last := by
  have h := ends_evaluate_orderly hm.isCallable fuel (isScripted_of_compile hcompile).1
  unfold Ends at h
  cases hrun : evaluate fuel script.expression m with
  | ok result last =>
    rw [hrun] at h
    cases result with
    | ok v => exact .inl ⟨v, last, rfl⟩
    | error err => exact .inr (.inl ⟨err, last, rfl, h err rfl⟩)
  | error stop last =>
    rw [hrun] at h
    cases h
    exact .inr (.inr ⟨last, rfl⟩)

/-- A quotient by zero of the value of a function that the same script defines. -/
theorem evaluate_compiled_quotient :
    let slash : Token := Word.at ⟨.divide, .text "/", .null⟩ ⟨1, 24⟩
    let script : Script :=
      ⟨.binary (.call (.text "f") []) slash .singletonSingleton (.literal (.number 0)),
       [(.text "f", .function (.text "f") [] (.literal (.number 1)))]⟩
    let m : Machine := { Machine.initial ⟨[], 0⟩ 0 with functions := script.functions }
    compile "function f()=1 call f()/0" m = .ok (.ok script) m ∧ FromScripts m ∧
      ((∃ v last, evaluate 9 script.expression m = .ok (.ok v) last) ∨
        (∃ err last, evaluate 9 script.expression m = .ok (.error err) last ∧
          err.kind ≠ .invalidBinaryOperator ∧ err.kind ≠ .invalidUnaryOperator) ∨
        ∃ last, evaluate 9 script.expression m = .error .outOfFuel last) := by
  intro slash script m
  have hscan : (scan "function f()=1 call f()/0").toOption = some
      [Word.at ⟨.wordFunction, .text "function", .null⟩ ⟨1, 1⟩,
       Word.at ⟨.identifier, .text "f", .null⟩ ⟨1, 10⟩, Word.at ⟨.leftParen, .text "(", .null⟩ ⟨1, 11⟩,
       Word.at ⟨.rightParen, .text ")", .null⟩ ⟨1, 12⟩, Word.at ⟨.equal, .text "=", .null⟩ ⟨1, 13⟩,
       Word.at ⟨.integer, .text "1", .integer 1⟩ ⟨1, 14⟩,
       Word.at ⟨.wordCall, .text "call", .null⟩ ⟨1, 16⟩,
       Word.at ⟨.identifier, .text "f", .null⟩ ⟨1, 21⟩, Word.at ⟨.leftParen, .text "(", .null⟩ ⟨1, 22⟩,
       Word.at ⟨.rightParen, .text ")", .null⟩ ⟨1, 23⟩, slash,
       Word.at ⟨.integer, .text "0", .integer 0⟩ ⟨1, 25⟩, Word.endOfInput.at ⟨1, 26⟩] := by
    decide +kernel
  have hcompile : compile "function f()=1 call f()/0" m = .ok (.ok script) m :=
    compile_of_ofTokens hscan rfl m
  have hm : FromScripts m := by
    intro entry hentry
    exact ⟨_, m, script, m, hcompile, List.mem_map_of_mem hentry⟩
  exact ⟨hcompile, hm, evaluate_compiled hcompile hm 9⟩

end Eval

end DiceScript
