import DiceScript.Proofs.Evaluation.Restoration

/-!
# Two runs side by side

Many properties of evaluation compare two runs: on other bindings, with other functions or another random
source, of trees that are spelt differently. A `Likeness` says what the two runs have in common, and its laws
say what it takes for that to last. `Couple` puts two computations side by side, with one rule for each way
to build a computation, and `Alike` is what a whole evaluation keeps: related machines lead to related values,
and the bindings and functions of each are those from before.

A stop of the first run may have to be met by a like stop of the second, or it may be of no account. The
latter is what is left when the two runs visit the elements of a collection in different orders.
-/

namespace DiceScript

namespace RuntimeError

inductive Alike (token : Token → Token → Prop) : RuntimeError → RuntimeError → Prop
  | same (e : RuntimeError) : Alike token e e
  | blamed {e : RuntimeError} {op op' : Token} (blame : e.operator? = some op) (h : token op op') :
    Alike token e (e.blaming op')

variable {token : Token → Token → Prop} {e e' : RuntimeError}

theorem Alike.kind_eq (h : Alike token e e') : e.kind = e'.kind := by
  cases h with
  | same => rfl
  | blamed => rw [kind_blaming]

theorem Alike.mono {token' : Token → Token → Prop} (h : Alike token e e')
    (htoken : ∀ op op', token op op' → token' op op') : Alike token' e e' := by
  cases h with
  | same => exact .same _
  | blamed blame h => exact .blamed blame (htoken _ _ h)

theorem eq_of_alike (h : Alike Eq e e') : e = e' := by
  cases h with
  | same => rfl
  | blamed blame h =>
    subst h
    rw [blaming_self blame]

end RuntimeError

inductive Stop.Alike (token : Token → Token → Prop) : Stop → Stop → Prop
  | error {e e' : RuntimeError} (h : e.Alike token e') : Alike token (.error e) (.error e')
  | fault {f f' : Fault} (h : f.Alike token f') : Alike token (.fault f) (.fault f')
  | outOfFuel : Alike token .outOfFuel .outOfFuel

theorem Stop.Alike.mono {token token' : Token → Token → Prop} {stop stop' : Stop}
    (h : Stop.Alike token stop stop') (htoken : ∀ op op', token op op' → token' op op') :
    Stop.Alike token' stop stop' := by
  cases h with
  | error h => exact .error (h.mono htoken)
  | fault h =>
    cases h with
    | same => exact .fault (.same _)
    | foreign h schema => exact .fault (.foreign (htoken _ _ h) schema)
  | outOfFuel => exact .outOfFuel

theorem Stop.eq_of_alike {stop stop' : Stop} (h : Stop.Alike Eq stop stop') : stop = stop' := by
  cases h with
  | error h => rw [RuntimeError.eq_of_alike h]
  | fault h =>
    cases h with
    | same => rfl
    | foreign h => rw [h]
  | outOfFuel => rfl

/-- What two runs have in common. -/
structure Likeness where
  /-- Operators at the same place of two trees. -/
  token : Token → Token → Prop
  /-- Collections at the same place of two values. -/
  items : Collection → Collection → Prop
  /-- The variables that may be looked up. -/
  seen : Name → Prop
  /-- The functions that may be called. -/
  called : Name → Prop
  dice : Dice → Dice → Prop
  reports : List Problem → List Problem → Prop
  /-- A stop of the first run is met by a like stop of the second. -/
  stops : Prop
  token_alike : ∀ {op op' : Token}, token op op' → op.Alike op'
  reports_append : ∀ {ps ps' : List Problem} {e e' : RuntimeError}, reports ps ps' → e.Alike token e' →
    reports (ps ++ [.runtime e]) (ps' ++ [.runtime e'])
  /-- Chance decides alike only if it is asked alike. -/
  chance : ∀ {op op' : Token}, token op op' → op.kind.isRandom = true → items = Eq ∧ dice = Eq
  /-- Elements are visited in the same order, or nothing but the values of the two runs is compared. -/
  order : items = Eq ∨
    items = List.Perm ∧ ¬ stops ∧ (∀ d d', dice d d') ∧ ∀ ps ps', reports ps ps'

namespace Likeness

theorem ordering (L : Likeness) : Collection.Ordering L.items :=
  L.order.imp_right And.left

theorem values_refl (L : Likeness) (v : Value) : v.Alike L.items v :=
  L.ordering.alike_refl v

structure Bindings (L : Likeness) (b b' : Binding) : Prop where
  name : b.name = b'.name
  value : b.value.Alike L.items b'.value

/-- Trees that are the same but for their operators. They look up and call what they may. -/
inductive Trees (L : Likeness) : Expr → Expr → Prop
  | missing : Trees L .missing .missing
  | literal (v : Value) : Trees L (.literal v) (.literal v)
  | misfit (form : Form) : Trees L (.misfit form) (.misfit form)
  | var {name : Name} {fallback fallback' : Expr} (hname : L.seen name) (h : Trees L fallback fallback') :
    Trees L (.var name fallback) (.var name fallback')
  | binary {op op' : Token} {l l' r r' : Expr} (hop : L.token op op') (schema : BinarySchema)
    (hl : Trees L l l') (hr : Trees L r r') : Trees L (.binary l op schema r) (.binary l' op' schema r')
  | unary {op op' : Token} {e e' : Expr} (hop : L.token op op') (schema : UnarySchema)
    (h : Trees L e e') : Trees L (.unary op schema e) (.unary op' schema e')
  | conditional {c c' t t' f f' : Expr} (hc : Trees L c c') (ht : Trees L t t') (hf : Trees L f f') :
    Trees L (.conditional c t f) (.conditional c' t' f')
  | foreach (name : Name) {source source' body body' : Expr} (hsource : Trees L source source')
    (hbody : Trees L body body') : Trees L (.foreach name source body) (.foreach name source' body')
  | loop (mode : LoopMode) (name : Name) (style : EndStyle) {body body' test test' : Expr}
    (hbody : Trees L body body') (htest : Trees L test test') :
    Trees L (.loop mode name body style test) (.loop mode name body' style test')
  | binding (name : Name) {definition definition' use use' : Expr}
    (hdefinition : Trees L definition definition') (huse : Trees L use use') :
    Trees L (.binding name definition use) (.binding name definition' use')
  | call {name : Name} {arguments arguments' : List Expr} (hname : L.called name)
    (h : List.Forall₂ (Trees L) arguments arguments') :
    Trees L (.call name arguments) (.call name arguments')
  | collection {elements elements' : List Expr} (h : List.Forall₂ (Trees L) elements elements') :
    Trees L (.collection elements) (.collection elements')
  | pair {a a' b b' : Expr} (ha : Trees L a a') (hb : Trees L b b') :
    Trees L (.pair a b) (.pair a' b')
  | group {e e' : Expr} (h : Trees L e e') : Trees L (.group e) (.group e')
  | function (name : Name) (parameters : List Name) {body body' : Expr} (h : Trees L body body') :
    Trees L (.function name parameters body) (.function name parameters body')

/-- Functions with like bodies. What is no function is only found out to be none. -/
def Entries (L : Likeness) (e e' : Expr) : Prop :=
  L.Trees e e' ∨ e' = e ∧ e.arity? = none

structure Rest (L : Likeness) (m m' : Machine) : Prop where
  dice : L.dice m.dice m'.dice
  reports : L.reports m.reports m'.reports

structure Machines (L : Likeness) (m m' : Machine) : Prop where
  scope : ∀ name, L.seen name →
    Option.Rel (Value.Alike L.items) (m.scope.lookup? name) (m'.scope.lookup? name)
  functions : ∀ name, L.called name →
    Option.Rel L.Entries (m.functions.find? name) (m'.functions.find? name)
  rest : L.Rest m m'

/-- Two outcomes that are alike: values with `good`, or stops for like reasons. -/
inductive Meets (L : Likeness) {α β : Type} (good : α → Machine → β → Machine → Prop) :
    EStateM.Result Stop Machine α → EStateM.Result Stop Machine β → Prop
  | values {a : α} {b : β} {m m' : Machine} (h : good a m b m') : Meets L good (.ok a m) (.ok b m')
  | stopped {stop stop' : Stop} {m m' : Machine} (h : stop.Alike L.token stop') (hrest : L.Rest m m') :
    Meets L good (.error stop m) (.error stop' m')
  | loose {stop : Stop} {m : Machine} (h : ¬ L.stops) (other : EStateM.Result Stop Machine β) :
    Meets L good (.error stop m) other

/-- Results for a host that are alike: values in `R`, or like errors. -/
inductive Outcomes (L : Likeness) {α β : Type} (R : α → β → Prop) :
    Except RuntimeError α → Except RuntimeError β → Prop
  | values {a : α} {b : β} (h : R a b) : Outcomes L R (.ok a) (.ok b)
  | errors {e e' : RuntimeError} (h : e.Alike L.token e') : Outcomes L R (.error e) (.error e')

/-- Two computations, each from its own machine, end alike. -/
def Couple (L : Likeness) {α β : Type} (x : Eval α) (m : Machine) (y : Eval β) (m' : Machine)
    (good : α → Machine → β → Machine → Prop) : Prop :=
  L.Meets good (x m) (y m')

/-- Two machines, each with new bindings on top of those it began with, and these alike. -/
structure Beside (L : Likeness) (base base' : Machine) (new new' : Scope) (m m' : Machine) : Prop where
  left : Eval.Atop base new m
  right : Eval.Atop base' new' m'
  bindings : List.Forall₂ L.Bindings new new'
  rest : L.Rest m m'

/-- From like machines two computations end with results in `R`, or stop alike. A result leaves each machine
with the bindings and functions from before. -/
def Alike (L : Likeness) {α β : Type} (x : Eval α) (y : Eval β) (R : α → β → Prop) : Prop :=
  ∀ m m', L.Machines m m' →
    L.Couple x m y m' fun a after b after' => R a b ∧ L.Beside m m' [] [] after after'

open Eval

variable {L : Likeness} {α β γ δ : Type} {m m' base base' : Machine} {new new' : Scope}

theorem Rest.reported {e e' : RuntimeError} (h : L.Rest m m') (he : e.Alike L.token e') :
    L.Rest (m.reported (.runtime e)) (m'.reported (.runtime e')) := by
  refine ⟨h.dice, ?_⟩
  rw [Machine.reports_reported, Machine.reports_reported]
  exact L.reports_append h.reports he

theorem Rest.traced (h : L.Rest m m') (e e' : Event) : L.Rest (m.traced e) (m'.traced e') :=
  ⟨by simpa using h.dice, by simpa using h.reports⟩

theorem Rest.truncated (h : L.Rest m m') (depth depth' : Nat) :
    L.Rest (m.truncated depth) (m'.truncated depth') :=
  ⟨h.dice, h.reports⟩

theorem beside_self (h : L.Rest m m') : L.Beside m m' [] [] m m' :=
  ⟨atop_self m, atop_self m', .nil, h⟩

theorem Beside.trans {newer newer' : Scope} {middle middle' : Machine}
    (h : L.Beside base base' new new' middle middle') (h' : L.Beside middle middle' newer newer' m m') :
    L.Beside base base' (newer ++ new) (newer' ++ new') m m' :=
  ⟨h.left.trans h'.left, h.right.trans h'.right, List.rel_append h'.bindings h.bindings, h'.rest⟩

theorem Beside.traced (h : L.Beside base base' new new' m m') (e e' : Event) :
    L.Beside base base' new new' (m.traced e) (m'.traced e') :=
  ⟨h.left.traced e, h.right.traced e', h.bindings, h.rest.traced e e'⟩

theorem Beside.truncated (h : L.Beside base base' new new' m m') :
    L.Beside base base' [] [] (m.truncated base.scope.depth) (m'.truncated base'.scope.depth) :=
  ⟨h.left.truncated, h.right.truncated, .nil, h.rest.truncated _ _⟩

/-- Like bindings on top leave every name with like meanings. -/
theorem lookup?_append {s s' : Scope} (h : List.Forall₂ L.Bindings new new') {name : Name}
    (hs : Option.Rel (Value.Alike L.items) (s.lookup? name) (s'.lookup? name)) :
    Option.Rel (Value.Alike L.items) (Scope.lookup? (new ++ s) name) (Scope.lookup? (new' ++ s') name) := by
  induction h with
  | nil => exact hs
  | @cons b b' new new' hb _ ih =>
    have hpush := Scope.lookup?_push (new ++ s) b name
    have hpush' := Scope.lookup?_push (new' ++ s') b' name
    simp only [Scope.push] at hpush hpush'
    rw [List.cons_append, List.cons_append, hpush, hpush', hb.name]
    split
    · exact .some hb.value
    · exact ih

theorem Machines.beside (h : L.Machines base base') (h' : L.Beside base base' new new' m m') :
    L.Machines m m' := by
  refine ⟨fun name hname => ?_, fun name hname => ?_, h'.rest⟩
  · rw [h'.left.scope, h'.right.scope]
    exact lookup?_append h'.bindings (h.scope name hname)
  · rw [h'.left.functions, h'.right.functions]
    exact h.functions name hname

/-! What can be told from two outcomes that are alike. -/

section

variable {good : α → Machine → β → Machine → Prop} {result : EStateM.Result Stop Machine α}
  {result' : EStateM.Result Stop Machine β}

theorem Meets.mono {good' : α → Machine → β → Machine → Prop} (h : L.Meets good result result')
    (hgood : ∀ a m b m', good a m b m' → good' a m b m') : L.Meets good' result result' := by
  cases h with
  | values h => exact .values (hgood _ _ _ _ h)
  | stopped h hrest => exact .stopped h hrest
  | loose h => exact .loose h _

/-- Where stops count, what holds of the values and of like stops holds of the outcomes. -/
theorem Meets.outcomes {R : Except Stop α → Except Stop β → Prop} (h : L.Meets good result result')
    (hstops : L.stops) (hvalues : ∀ a m b m', good a m b m' → R (.ok a) (.ok b))
    (hstopped : ∀ stop stop', stop.Alike L.token stop' → R (.error stop) (.error stop')) :
    R (outcome result) (outcome result') := by
  cases h with
  | values h => exact hvalues _ _ _ _ h
  | stopped h _ => exact hstopped _ _ h
  | loose h => exact absurd hstops h

theorem Meets.rest (h : L.Meets good result result') (hstops : L.stops)
    (hrest : ∀ a m b m', good a m b m' → L.Rest m m') :
    L.Rest (machineAfter result) (machineAfter result') := by
  cases h with
  | values h => exact hrest _ _ _ _ h
  | stopped _ h => exact h
  | loose h => exact absurd hstops h

end

/-! The rules for two computations side by side. -/

section

variable {good : α → Machine → β → Machine → Prop}

theorem Couple.mono {x : Eval α} {y : Eval β} {good' : α → Machine → β → Machine → Prop}
    (h : L.Couple x m y m' good) (hgood : ∀ a after b after', good a after b after' → good' a after b after') :
    L.Couple x m y m' good' :=
  Meets.mono h hgood

/-- A value of the first run is met by one of the second. -/
theorem Couple.of_ok {x : Eval α} {y : Eval β} {a : α} {after : Machine} (h : L.Couple x m y m' good)
    (hx : x m = .ok a after) : ∃ b after', y m' = .ok b after' ∧ good a after b after' := by
  unfold Couple at h
  rw [hx] at h
  generalize y m' = result' at h ⊢
  cases h with
  | values h => exact ⟨_, _, rfl, h⟩

/-- Computations that restore lead back to the bindings and functions of each. -/
theorem Couple.restored {x : Eval α} {y : Eval β} {R : α → β → Prop}
    (h : L.Couple x m y m' fun a after b after' => R a b ∧ L.Rest after after')
    (hx : Restores x) (hy : Restores y) :
    L.Couple x m y m' fun a after b after' => R a b ∧ L.Beside m m' [] [] after after' := by
  unfold Couple at *
  revert h
  cases hrun : x m with
  | error stop after =>
    generalize y m' = result'
    intro h
    cases h with
    | stopped h hrest => exact .stopped h hrest
    | loose h => exact .loose h _
  | ok a after =>
    cases hrun' : y m' with
    | error stop after' =>
      intro h
      cases h
    | ok b after' =>
      intro h
      cases h with
      | values h => exact .values ⟨h.1, (hx m).of_ok hrun, (hy m').of_ok hrun', .nil, h.2⟩

theorem couple_pure {a : α} {b : β} (h : good a m b m') : L.Couple (pure a) m (pure b) m' good :=
  .values h

theorem couple_throw {stop stop' : Stop} (h : stop.Alike L.token stop') (hrest : L.Rest m m') :
    L.Couple (throw stop) m (throw stop') m' good :=
  .stopped h hrest

theorem couple_fail {e e' : RuntimeError} (h : e.Alike L.token e') (hrest : L.Rest m m') :
    L.Couple (fail e) m (fail e') m' good :=
  .stopped (.error h) (hrest.reported h)

theorem couple_bind {x : Eval γ} {y : Eval δ} {f : γ → Eval α} {g : δ → Eval β}
    (h : L.Couple x m y m' fun c m₁ d m₁' => L.Couple (f c) m₁ (g d) m₁' good) :
    L.Couple (x >>= f) m (y >>= g) m' good := by
  unfold Couple at *
  simp only [bind, EStateM.bind]
  generalize x m = result at h ⊢
  generalize y m' = result' at h ⊢
  cases h with
  | values h => exact h
  | stopped h hrest => exact .stopped h hrest
  | loose h => exact .loose h _

theorem couple_inScope {x : Eval α} {y : Eval β}
    (h : L.Couple x m y m' fun a after b after' =>
      good a (after.truncated m.scope.depth) b (after'.truncated m'.scope.depth)) :
    L.Couple (inScope x) m (inScope y) m' good := by
  unfold Couple inScope at *
  generalize x m = result at h ⊢
  generalize y m' = result' at h ⊢
  cases h with
  | values h => exact .values h
  | stopped h hrest => exact .stopped h (hrest.truncated _ _)
  | loose h => exact .loose h _

end

theorem pop_eq {b : Binding} {rest : Scope} (h : m.scope = b :: rest) :
    pop m = .ok b (Machine.traced { m with scope := rest } (.popping b.name)) := by
  have hget : (get : Eval Machine) m = .ok m m := rfl
  simp only [pop, bind, EStateM.bind, hget, h, Scope.pop?]
  rfl

theorem Beside.push {b b' : Binding} (h : L.Beside base base' new new' m m') (hb : L.Bindings b b') :
    L.Couple (push b) m (push b') m' fun _ after _ after' =>
      L.Beside base base' (b :: new) (b' :: new') after after' := by
  have hrest := h.rest.traced (.pushing b) (.pushing b')
  exact .values ⟨h.left.push b, h.right.push b', .cons hb h.bindings, ⟨hrest.dice, hrest.reports⟩⟩

theorem Beside.pop {b b' : Binding} (h : L.Beside base base' (b :: new) (b' :: new') m m') :
    L.Couple pop m pop m' fun _ after _ after' => L.Beside base base' new new' after after' := by
  have hrest : L.Rest { m with scope := new ++ base.scope } { m' with scope := new' ++ base'.scope } :=
    ⟨h.rest.dice, h.rest.reports⟩
  unfold Couple
  rw [pop_eq h.left.scope, pop_eq h.right.scope]
  cases h.bindings with
  | cons _ hnew =>
    refine .values ⟨?_, ?_, hnew, hrest.traced _ _⟩
    · exact ⟨Machine.traced_scope _ _, (Machine.traced_functions _ _).trans h.left.functions⟩
    · exact ⟨Machine.traced_scope _ _, (Machine.traced_functions _ _).trans h.right.functions⟩

/-! What a whole evaluation keeps. -/

section

variable {x : Eval α} {y : Eval β} {R : α → β → Prop} {f : α → Eval γ} {g : β → Eval δ}
  {S : γ → δ → Prop}

theorem alike_pure {a : α} {b : β} (h : R a b) : L.Alike (pure a) (pure b) R :=
  fun _ _ hm => couple_pure ⟨h, beside_self hm.rest⟩

theorem alike_fail {e e' : RuntimeError} (h : e.Alike L.token e') :
    L.Alike (fail e : Eval α) (fail e' : Eval β) R :=
  fun _ _ hm => couple_fail h hm.rest

theorem alike_fault {f f' : Fault} (h : f.Alike L.token f') :
    L.Alike (fault f : Eval α) (fault f' : Eval β) R :=
  fun _ _ hm => couple_throw (.fault h) hm.rest

theorem alike_outOfFuel : L.Alike (throw .outOfFuel : Eval α) (throw .outOfFuel : Eval β) R :=
  fun _ _ hm => couple_throw .outOfFuel hm.rest

theorem alike_trace (e e' : Event) : L.Alike (trace e) (trace e') Eq :=
  fun _ _ hm => .values ⟨rfl, (beside_self hm.rest).traced e e'⟩

/-- Computations that are alike are so with new bindings on top. -/
theorem Alike.beside (h : L.Alike x y R) (hbase : L.Machines base base')
    (hm : L.Beside base base' new new' m m') :
    L.Couple x m y m' fun a after b after' => R a b ∧ L.Beside base base' new new' after after' :=
  (h m m' (hbase.beside hm)).mono fun _ _ _ _ ⟨hab, hafter⟩ => ⟨hab, hm.trans hafter⟩

theorem Alike.bind (h : L.Alike x y R) (hf : ∀ a b, R a b → L.Alike (f a) (g b) S) :
    L.Alike (x >>= f) (y >>= g) S := by
  intro m m' hm
  apply couple_bind
  refine (h m m' hm).mono fun a m₁ b m₁' ⟨hab, h₁⟩ => ?_
  exact (hf a b hab).beside hm h₁

/-- With like bindings on top, two computations take them away and end with results in `R`, or stop alike. -/
def Closes (L : Likeness) (b b' : Binding) (x : Eval α) (y : Eval β) (R : α → β → Prop) : Prop :=
  ∀ base base' m m', L.Machines base base' → L.Beside base base' [b] [b'] m m' →
    L.Couple x m y m' fun a after a' after' => R a a' ∧ L.Beside base base' [] [] after after'

/-- Like bindings around computations that are alike, taken away in what follows. -/
theorem Alike.around {b b' : Binding} (hb : L.Bindings b b') (h : L.Alike x y R)
    (hf : ∀ a a', R a a' → L.Closes b b' (f a) (g a') S) :
    L.Alike (push b >>= fun _ => x >>= f) (push b' >>= fun _ => y >>= g) S := by
  intro m m' hm
  apply couple_bind
  refine ((beside_self hm.rest).push hb).mono fun _ m₁ _ m₁' h₁ => ?_
  apply couple_bind
  refine (h.beside hm h₁).mono fun a m₂ a' m₂' ⟨haa', h₂⟩ => ?_
  exact hf a a' haa' m m' m₂ m₂' hm h₂

theorem Alike.afterPop {b b' : Binding} (h : L.Alike x y R) :
    L.Closes b b' (Eval.pop >>= fun _ => x) (Eval.pop >>= fun _ => y) R := by
  intro base base' m m' hbase hm
  apply couple_bind
  exact hm.pop.mono fun _ _ _ _ h₁ => h.beside hbase h₁

theorem Closes.afterTrace {b b' : Binding} (h : L.Closes b b' x y R) (e e' : Event) :
    L.Closes b b' (trace e >>= fun _ => x) (trace e' >>= fun _ => y) R := by
  intro base base' m m' hbase hm
  apply couple_bind
  exact .values (h base base' _ _ hbase (hm.traced e e'))

theorem closes_fail {b b' : Binding} (e : RuntimeError) : L.Closes b b' (fail e : Eval α) (fail e : Eval β) R :=
  fun _ _ _ _ _ hm => couple_fail (.same e) hm.rest

theorem Alike.inScope (h : L.Alike x y R) : L.Alike (inScope x) (inScope y) R := by
  intro m m' hm
  apply couple_inScope
  exact (h m m' hm).mono fun _ _ _ _ ⟨hab, hafter⟩ => ⟨hab, hafter.truncated⟩

/-- Decisions that like random sources make alike. -/
theorem alike_drawing {decide : Dice → Option (α × Dice)} (hdice : L.dice = Eq) :
    L.Alike (drawing decide) (drawing decide) Eq := by
  intro m m' hm
  have hsame : m.dice = m'.dice := by
    have h := hm.rest.dice
    rwa [hdice] at h
  have hget (m : Machine) : (get : Eval Machine) m = .ok m m := rfl
  unfold Couple
  simp only [drawing, Bind.bind, EStateM.bind, hget, hsame]
  cases decide m'.dice with
  | none => exact .stopped (.fault (.same _)) hm.rest
  | some result =>
    refine .values ⟨rfl, ⟨rfl, rfl⟩, ⟨rfl, rfl⟩, .nil, ?_, hm.rest.reports⟩
    rw [hdice]

end

theorem alike_meaning {name : Name} {f : Option Value → Eval α} {g : Option Value → Eval β} {R : α → β → Prop}
    (hname : L.seen name)
    (hf : ∀ found found', Option.Rel (Value.Alike L.items) found found' → L.Alike (f found) (g found') R) :
    L.Alike (meaning? name >>= f) (meaning? name >>= g) R := by
  intro m m' hm
  apply couple_bind
  exact .values (hf _ _ (hm.scope name hname) m m' hm)

theorem alike_function? {name : Name} {f : Option Expr → Eval α} {g : Option Expr → Eval β} {R : α → β → Prop}
    (hname : L.called name)
    (hf : ∀ found found', Option.Rel L.Entries found found' → L.Alike (f found) (g found') R) :
    L.Alike (function? name >>= f) (function? name >>= g) R := by
  intro m m' hm
  unfold function?
  split
  · exact alike_fault (.same _) m m' hm
  · apply couple_bind
    exact .values (hf _ _ (hm.functions name hname) m m' hm)

def comparison (L : Likeness) : NodeComparison where
  values := Value.Alike L.items
  items := L.items
  holds _ _ y x x' := L.Alike x x' (y.Alike (Value.Alike L.items) L.items)
  order := L.ordering
  alike hv := hv
  collection hc := .collection hc
  text h := h ▸ .text _
  pair := Value.alike_pair_iff
  value h := alike_pure h
  bind hx hf := hx.bind hf
  token := L.token
  wants _ := True
  token_alike := L.token_alike
  fault h := alike_fault h
  blame hop he _ := alike_fail (.blamed he hop)
  want {_ _ _ op _} hop _ := alike_fail (.blamed (e := .improperProbability op) rfl hop)
  chance hop hrandom := ⟨(L.chance hop hrandom).1, fun _ => alike_drawing (L.chance hop hrandom).2⟩
  seen := L.seen
  called := L.called
  entries _ := Option.Rel L.Entries
  closes b b' _ y x x' := L.Closes b b' x x' (y.Alike (Value.Alike L.items) L.items)
  blameless _ := alike_fail (.same _)
  tell _ := alike_trace _ _
  part hx := hx
  inScope hx := hx.inScope
  around hv hx hf := Alike.around ⟨rfl, hv⟩ hx hf
  afterPop hx := hx.afterPop
  afterTell _ hx := hx.afterTrace _ _
  leave _ := closes_fail _
  look := alike_meaning
  lookup := alike_function?

end Likeness

end DiceScript
