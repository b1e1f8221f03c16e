import DiceScript.Proofs.Evaluation.Ending
import DiceScript.Proofs.Values.Permutation
import Mathlib.Data.List.Forall2

/-!
# Comparing two evaluations

Much of what is to be said about evaluation compares two runs, or is said of one run and then compares it with itself.
What such a comparison has to satisfy does not depend on the nodes of trees. It has to hold of values and errors, of
decisions of the random source, of bindings that are made and taken away, and of one computation after another. The
structures of this module list these laws, from those of plain sequences to those of whole trees. That every operator
and every node then satisfies the comparison is proved once, in the modules that follow.

Values need not be the same to be compared, so each comparison says which values and collections it takes to be alike.
-/

namespace DiceScript

def Kind.isRandom : Kind → Bool
  | .die | .zeroDie | .pick | .choose | .question => true
  | _ => false

/-- Operators that do the same to values. They may stand at different places and be spelt differently. -/
structure Token.Alike (op op' : Token) : Prop where
  kind : op.kind = op'.kind
  isText : op.lexeme.isText = op'.lexeme.isText

theorem Token.alike_of_eq {op op' : Token} (h : op = op') : op.Alike op' :=
  h ▸ ⟨rfl, rfl⟩

namespace RuntimeError

def blaming (op : Token) : RuntimeError → RuntimeError
  | .notBinary _ => .notBinary op
  | .notUnary _ => .notUnary op
  | .operand _ which found => .operand op which found
  | .negativeCount _ => .negativeCount op
  | .negativePick _ => .negativePick op
  | .negativeSelection _ => .negativeSelection op
  | .negativeDice _ => .negativeDice op
  | .noFaces _ => .noFaces op
  | .divisionByZero _ => .divisionByZero op
  | .moduloByZero _ => .moduloByZero op
  | .emptyChoice _ => .emptyChoice op
  | .emptyExtreme _ => .emptyExtreme op
  | .improperProbability _ => .improperProbability op
  | .repeatedValue _ => .repeatedValue op
  | e => e

theorem kind_blaming (op : Token) (e : RuntimeError) : (e.blaming op).kind = e.kind := by
  cases e <;> rfl

theorem blaming_self {e : RuntimeError} {op : Token} (h : e.operator? = some op) : e.blaming op = e := by
  cases e <;> cases h <;> rfl

def isWant : RuntimeError → Bool
  | .improperProbability _ => true
  | _ => false

end RuntimeError

inductive Fault.Alike (token : Token → Token → Prop) : Fault → Fault → Prop
  | same (f : Fault) : Alike token f f
  | foreign {op op' : Token} (h : token op op') (schema : String) :
    Alike token (.foreignSchema op schema) (.foreignSchema op' schema)

theorem Fault.eq_of_alike {token : Token → Token → Prop} (htoken : ∀ {op op'}, token op op' → op = op') {f f' : Fault}
    (h : f.Alike token f') : f = f' := by
  cases h with
  | same => rfl
  | foreign h schema => rw [htoken h]

/-- Events of nodes, other than bindings that are made and taken away, which tell of like values. -/
inductive Event.Alike (values : Value → Value → Prop) : Event → Event → Prop
  | deciding {v v' : Value} (hv : values v v') : Alike values (.deciding v) (.deciding v')
  | visiting (name : Name) (n : Int) : Alike values (.visiting name n) (.visiting name n)
  | testing (mode : LoopMode) (name : Name) (style : EndStyle) {v v' t t' : Value} (hv : values v v') (ht : values t t') :
    Alike values (.testing mode name v style t) (.testing mode name v' style t')
  | calling (name : Name) : Alike values (.calling name) (.calling name)

theorem Event.level_of_alike {values : Value → Value → Prop} {e e' : Event} (h : e.Alike values e') : e.level = 3 := by
  cases h <;> rfl

theorem Event.eq_of_alike {values : Value → Value → Prop} (hvalues : ∀ {v v'}, values v v' → v = v') {e e' : Event}
    (h : e.Alike values e') : e = e' := by
  cases h with
  | deciding hv => rw [hvalues hv]
  | testing mode name style hv ht => rw [hvalues hv, hvalues ht]
  | visiting | calling => rfl

theorem rel_self {α : Type} {R : α → α → Prop} (h : ∀ a, R a a) : ∀ found : Option α, Option.Rel R found found
  | none => .none
  | some a => .some (h a)

/-- Collections are told apart by their elements, in their order or in whatever order. -/
def Collection.Ordering (items : Collection → Collection → Prop) : Prop :=
  items = Eq ∨ items = List.Perm

namespace Collection.Ordering

variable {items : Collection → Collection → Prop} {c c' d d' : Collection} {v v' : Value}

theorem eq : Ordering Eq := .inl rfl

theorem refl (h : Ordering items) (c : Collection) : items c c := by
  rcases h with rfl | rfl
  · rfl
  · exact List.Perm.refl c

theorem perm (h : Ordering items) (hc : items c c') : c.Perm c' := by
  rcases h with rfl | rfl
  · rw [hc]
  · exact hc

/-- What respects permutations keeps the likeness of collections. -/
theorem congr₂ (h : Ordering items) {f : Collection → Collection → Collection}
    (hf : ∀ {c c' d d'}, c.Perm c' → d.Perm d' → (f c d).Perm (f c' d')) (hc : items c c') (hd : items d d') :
    items (f c d) (f c' d') := by
  rcases h with rfl | rfl
  · rw [hc, hd]
  · exact hf hc hd

theorem congr (h : Ordering items) {f : Collection → Collection}
    (hf : ∀ {c c'}, c.Perm c' → (f c).Perm (f c')) (hc : items c c') : items (f c) (f c') :=
  h.congr₂ (f := fun c _ => f c) (fun hc _ => hf hc) hc hc

theorem append (h : Ordering items) (hc : items c c') (hd : items d d') : items (c ++ d) (c' ++ d') :=
  h.congr₂ (fun hc hd => hc.append hd) hc hd

theorem flatten (h : Ordering items) {rows rows' : List Collection} (hrows : List.Forall₂ items rows rows') :
    items rows.flatten rows'.flatten := by
  induction hrows with
  | nil => exact h.refl []
  | cons hc _ ih => exact h.append hc ih

theorem map_display_eq (h : Ordering items) {rows rows' : List Collection} (hrows : List.Forall₂ items rows rows') :
    rows.map Collection.display = rows'.map Collection.display := by
  induction hrows with
  | nil => rfl
  | cons hc _ ih => rw [List.map_cons, List.map_cons, Collection.display_eq_of_perm (h.perm hc), ih]

theorem alike_refl (h : Ordering items) (v : Value) : v.Alike items v :=
  Value.alike_refl h.refl v

theorem permuted (h : Ordering items) (hv : v.Alike items v') : v.Permuted v' :=
  hv.mono fun _ _ => h.perm

end Collection.Ordering

namespace Eval

/-- A computation is a whole one, or a part of what is done in a scope. A part may leave bindings to the cut at the end
of the scope. -/
inductive Level where
  | whole
  | part

inductive Yield : Type → Type 1 where
  | value : Yield Value
  | items : Yield Collection
  | rows : Yield (List Collection)
  | values : Yield (List Value)
  | same (α : Type) : Yield α

def Yield.Alike (values : Value → Value → Prop) (items : Collection → Collection → Prop) :
    {α : Type} → Yield α → α → α → Prop
  | _, .value => values
  | _, .items => items
  | _, .rows => List.Forall₂ items
  | _, .values => List.Forall₂ values
  | _, .same _ => Eq

theorem Yield.alike_eq {α : Type} (y : Yield α) : y.Alike Eq Eq = Eq := by
  cases y with
  | value | items | same => rfl
  | rows => exact List.forall₂_eq_eq_eq
  | values => exact List.forall₂_eq_eq_eq

/-- A way to compare two computations that is kept by sequence. -/
structure Comparison where
  values : Value → Value → Prop
  items : Collection → Collection → Prop
  holds : Level → {α : Type} → Yield α → Eval α → Eval α → Prop
  order : Collection.Ordering items
  alike : ∀ {v v' : Value}, values v v' → v.Alike items v'
  collection : ∀ {c c' : Collection}, items c c' → values (.collection c) (.collection c')
  text : ∀ {s s' : String}, s = s' → values (.text s) (.text s')
  pair : ∀ {a a' b b' : Value}, values (.pair a b) (.pair a' b') ↔ values a a' ∧ values b b'
  value : ∀ {l : Level} {α : Type} {y : Yield α} {a a' : α}, y.Alike values items a a' → holds l y (pure a) (pure a')
  bind : ∀ {l : Level} {α β : Type} {y : Yield α} {z : Yield β} {x x' : Eval α} {f f' : α → Eval β}, holds l y x x' →
    (∀ a a', y.Alike values items a a' → holds l z (f a) (f' a')) → holds l z (x >>= f) (x' >>= f')

/-- A comparison for which no values are alike but equal ones. -/
def Comparison.exact (holds : Level → {α : Type} → Eval α → Eval α → Prop)
    (value : ∀ {l : Level} {α : Type} (a : α), holds l (pure a) (pure a))
    (bind : ∀ {l : Level} {α β : Type} {x x' : Eval α} {f f' : α → Eval β}, holds l x x' →
      (∀ a, holds l (f a) (f' a)) → holds l (x >>= f) (x' >>= f')) : Comparison where
  values := Eq
  items := Eq
  holds l _ _ x x' := holds l x x'
  order := .eq
  alike h := h ▸ Value.alike_refl (fun _ => rfl) _
  collection h := congrArg _ h
  text h := congrArg _ h
  pair := .of_eq (Value.pair.injEq ..)
  value {_ _ y _ _} h := by
    rw [y.alike_eq] at h
    exact h ▸ value _
  bind {_ _ _ y _ _ _ _ _} hx hf := bind hx fun a => hf a a (y.alike_eq ▸ rfl)

/-- A comparison that holds of what operators are made of. Operators at the same place are related. -/
structure OperatorComparison extends Comparison where
  token : Token → Token → Prop
  /-- The operators that may be blamed for the want of a probability. -/
  wants : Token → Prop
  token_alike : ∀ {op op' : Token}, token op op' → op.Alike op'
  fault : ∀ {l : Level} {α : Type} {y : Yield α} {f f' : Fault}, f.Alike token f' →
    holds l y (Eval.fault f) (Eval.fault f')
  blame : ∀ {l : Level} {α : Type} {y : Yield α} {op op' : Token} {e : RuntimeError}, token op op' →
    e.operator? = some op → e.isWant = false → holds l y (fail e) (fail (e.blaming op'))
  want : ∀ {l : Level} {α : Type} {y : Yield α} {op op' : Token}, token op op' → wants op →
    holds l y (fail (.improperProbability op)) (fail (.improperProbability op'))
  /-- Chance decides alike only if it is asked alike. -/
  chance : ∀ {op op' : Token}, token op op' → op.kind.isRandom = true → items = Eq ∧
    ∀ {l : Level} {α : Type} (decide : Dice → Option (α × Dice)), holds l (.same α) (drawing decide) (drawing decide)

theorem OperatorComparison.token_kind {C : OperatorComparison} {op op' : Token} (h : C.token op op') :
    op.kind = op'.kind :=
  (C.token_alike h).kind

def meaning? (name : Name) : Eval (Option Value) := do
  let m ← get
  pure (m.scope.lookup? name)

/-- A comparison that holds of what nodes do apart from applying operators. A push and a pop may have to be looked at
together, so what is done with a binding on top is compared in its own way. -/
structure ScopeComparison extends Comparison where
  /-- The variables that may be looked up. -/
  seen : Name → Prop
  /-- The functions that may be called. -/
  called : Name → Prop
  /-- What is found under the name of a function. -/
  entries : Name → Option Expr → Option Expr → Prop
  /-- Computations with a binding on top, which they take away or leave to the cut. -/
  closes : Binding → Binding → {α : Type} → Yield α → Eval α → Eval α → Prop
  blameless : ∀ {l : Level} {α : Type} {y : Yield α} {e : RuntimeError}, e.operator? = none →
    holds l y (fail e) (fail e)
  tell : ∀ {l : Level} {e e' : Event}, e.Alike values e' → holds l (.same Unit) (trace e) (trace e')
  part : ∀ {α : Type} {y : Yield α} {x x' : Eval α}, holds .whole y x x' → holds .part y x x'
  inScope : ∀ {α : Type} {y : Yield α} {x x' : Eval α}, holds .part y x x' →
    holds .whole y (Eval.inScope x) (Eval.inScope x')
  around : ∀ {α β : Type} {y : Yield α} {z : Yield β} {name : Name} {v v' : Value} {x x' : Eval α} {f f' : α → Eval β},
    values v v' → holds .part y x x' →
      (∀ a a', y.Alike values items a a' → closes ⟨name, v⟩ ⟨name, v'⟩ z (f a) (f' a')) →
      holds .part z (push ⟨name, v⟩ >>= fun _ => x >>= f) (push ⟨name, v'⟩ >>= fun _ => x' >>= f')
  afterPop : ∀ {α : Type} {y : Yield α} {b b' : Binding} {x x' : Eval α}, holds .part y x x' →
    closes b b' y (pop >>= fun _ => x) (pop >>= fun _ => x')
  afterTell : ∀ {α : Type} {y : Yield α} {b b' : Binding} {x x' : Eval α} {e e' : Event}, e.Alike values e' →
    closes b b' y x x' → closes b b' y (trace e >>= fun _ => x) (trace e' >>= fun _ => x')
  leave : ∀ {α : Type} {y : Yield α} {b b' : Binding} {e : RuntimeError}, e.operator? = none →
    closes b b' y (fail e) (fail e)
  look : ∀ {α : Type} {y : Yield α} {name : Name} {f f' : Option Value → Eval α}, seen name →
    (∀ found found', Option.Rel values found found' → holds .whole y (f found) (f' found')) →
      holds .whole y (meaning? name >>= f) (meaning? name >>= f')
  lookup : ∀ {α : Type} {y : Yield α} {name : Name} {f f' : Option Expr → Eval α}, called name →
    (∀ found found', entries name found found' → holds .whole y (f found) (f' found')) →
      holds .whole y (function? name >>= f) (function? name >>= f')

/-- A comparison that holds of what trees are evaluated by. -/
structure NodeComparison extends OperatorComparison, ScopeComparison

end Eval

end DiceScript
