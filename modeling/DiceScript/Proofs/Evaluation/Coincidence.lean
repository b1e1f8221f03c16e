import DiceScript.Proofs.Grammar.Probabilities

/-!
# Evaluations that coincide while no value is a real

What a node does depends on the values of the nodes below it, and these are taken apart, bound and handed on. As long
as none of them holds a real, neither does the value of the node, unless it is a literal or a `?`. `Coincide` compares
two computations on machines whose bindings hold no reals, and says of the values that they yield what the rest of the
evaluation relies on. There is one rule for each way to build a computation. That they make a comparison is all that
has to be known about operators and nodes.
-/

namespace DiceScript

def Stop.Wants (wanting : Token → Prop) : Stop → Prop
  | .error (.improperProbability op) => wanting op
  | _ => True

theorem Stop.wants_of_isWant_eq_false {wanting : Token → Prop} {e : RuntimeError} (h : e.isWant = false) :
    (Stop.error e).Wants wanting := by
  cases e with
  | improperProbability op => cases h
  | _ => trivial

theorem Stop.wants_of_operator? {wanting : Token → Prop} {e : RuntimeError} (h : e.operator? = none) :
    (Stop.error e).Wants wanting := by
  cases e with
  | improperProbability op => cases h
  | _ => trivial

namespace Eval

/-- A machine with these functions and without a real in its bindings. -/
structure RealFree (functions : Table Name Expr) (m : Machine) : Prop where
  functions : m.functions = functions
  scope : ∀ b ∈ m.scope, b.value.holdsReal = false

/-- On such machines the computations are the same. They yield values with `good` on such machines, and want for a
probability only at certain operators. -/
def Coincide {α : Type} (functions : Table Name Expr) (wanting : Token → Prop) (good : α → Prop) (x y : Eval α) :
    Prop :=
  ∀ m, RealFree functions m → x m = y m ∧
    Ends y m (fun a after => good a ∧ RealFree functions after) (fun stop _ => stop.Wants wanting)

abbrev Keeps {α : Type} (functions : Table Name Expr) (wanting : Token → Prop) (good : α → Prop) (x : Eval α) : Prop :=
  Coincide functions wanting good x x

def Plain (v : Value) : Prop := v.holdsReal = false

def Yield.Plain : {α : Type} → Yield α → α → Prop
  | _, .value => Eval.Plain
  | _, .values => fun vs => ∀ v ∈ vs, Eval.Plain v
  | _, .items | _, .rows | _, .same _ => fun _ => True

def PlainEq (v v' : Value) : Prop := v = v' ∧ Plain v

theorem plainEq_pair_iff {a a' b b' : Value} :
    PlainEq (.pair a b) (.pair a' b') ↔ PlainEq a a' ∧ PlainEq b b' := by
  simp only [PlainEq, Plain, Value.holdsReal, Value.pair.injEq, Bool.or_eq_false_iff]
  exact and_and_and_comm

theorem rel_plainEq {found : Option Value} (h : ∀ v ∈ found, Plain v) : Option.Rel PlainEq found found := by
  cases found with
  | none => exact .none
  | some v => exact .some ⟨rfl, h v rfl⟩

theorem forall₂_plainEq_iff {vs vs' : List Value} :
    List.Forall₂ PlainEq vs vs' ↔ vs = vs' ∧ ∀ v ∈ vs, Plain v := by
  constructor
  · intro h
    induction h with
    | nil => exact ⟨rfl, List.forall_mem_nil _⟩
    | cons hv _ ih => exact ⟨by rw [hv.1, ih.1], List.forall_mem_cons.2 ⟨hv.2, ih.2⟩⟩
  · rintro ⟨rfl, h⟩
    exact List.forall₂_same.2 fun v hv => ⟨rfl, h v hv⟩

theorem Yield.alike_plainEq_iff {α : Type} (y : Yield α) {a a' : α} :
    y.Alike PlainEq Eq a a' ↔ a = a' ∧ y.Plain a := by
  cases y with
  | value => exact Iff.rfl
  | values => exact forall₂_plainEq_iff
  | items | same => exact (and_iff_left trivial).symm
  | rows => simp [Alike, Yield.Plain, List.forall₂_eq_eq_eq]

section

variable {α β : Type} {functions : Table Name Expr} {wanting : Token → Prop} {good : α → Prop} {good' : β → Prop}
  {x y : Eval α} {f g : α → Eval β} {m : Machine}

theorem RealFree.traced (h : RealFree functions m) (e : Event) : RealFree functions (m.traced e) :=
  ⟨by simpa using h.functions, by simpa using h.scope⟩

theorem RealFree.truncated (h : RealFree functions m) (depth : Nat) : RealFree functions (m.truncated depth) :=
  ⟨h.functions, fun b hb => h.scope b (List.mem_of_mem_drop hb)⟩

theorem keeps_pure {a : α} (h : good a) : Keeps functions wanting good (pure a) :=
  fun _ hm => ⟨rfl, ends_pure.2 ⟨h, hm⟩⟩

theorem keeps_fault (f : Fault) : Keeps functions wanting good (fault f) :=
  fun _ _ => ⟨rfl, ends_fault.2 trivial⟩

theorem keeps_outOfFuel : Keeps functions wanting good (throw .outOfFuel) :=
  fun _ _ => ⟨rfl, ends_throw.2 trivial⟩

theorem keeps_fail {e : RuntimeError} (he : (Stop.error e).Wants wanting) :
    Keeps functions wanting good (fail e) :=
  fun _ _ => ⟨rfl, ends_fail.2 he⟩

theorem keeps_trace (e : Event) : Keeps functions wanting (fun _ => True) (trace e) :=
  fun _ hm => ⟨rfl, ends_trace.2 ⟨trivial, hm.traced e⟩⟩

theorem keeps_push {b : Binding} (hb : Plain b.value) :
    Keeps functions wanting (fun _ => True) (push b) := by
  intro m hm
  have htraced := hm.traced (.pushing b)
  exact ⟨rfl, ends_push.2 ⟨trivial, htraced.functions, List.forall_mem_cons.2 ⟨hb, htraced.scope⟩⟩⟩

theorem keeps_pop : Keeps functions wanting (fun _ => True) pop := by
  refine fun m hm => ⟨rfl, ends_pop.2 ?_⟩
  cases hscope : m.scope with
  | nil => exact trivial
  | cons b rest =>
    have hpopped : RealFree functions { m with scope := rest } :=
      ⟨hm.functions, fun b hb => hm.scope b (by rw [hscope]; exact List.mem_cons_of_mem _ hb)⟩
    exact ⟨trivial, hpopped.traced _⟩

theorem keeps_drawing (decide : Dice → Option (α × Dice)) :
    Keeps functions wanting (fun _ => True) (drawing decide) := by
  refine fun m hm => ⟨rfl, ends_drawing.2 ?_⟩
  cases decide m.dice with
  | none => exact trivial
  | some drawn => exact ⟨trivial, hm.functions, hm.scope⟩

theorem Coincide.right (h : Coincide functions wanting good x y) : Keeps functions wanting good y :=
  fun m hm => ⟨rfl, (h m hm).2⟩

theorem Coincide.bind (hx : Coincide functions wanting good x y)
    (hf : ∀ a, good a → Coincide functions wanting good' (f a) (g a)) :
    Coincide functions wanting good' (x >>= f) (y >>= g) := by
  intro m hm
  obtain ⟨hsame, hends⟩ := hx m hm
  rw [ends_bind]
  unfold Ends at hends ⊢
  cases hrun : y m with
  | error stop after =>
    rw [hrun] at hends
    rw [bind_of_error (hsame.trans hrun), bind_of_error hrun]
    exact ⟨rfl, hends⟩
  | ok a after =>
    rw [hrun] at hends
    rw [bind_of_ok (hsame.trans hrun), bind_of_ok hrun]
    exact hf a hends.1 after hends.2

theorem Coincide.inScope (hx : Coincide functions wanting good x y) :
    Coincide functions wanting good (inScope x) (inScope y) := by
  intro m hm
  obtain ⟨hsame, hends⟩ := hx m hm
  refine ⟨by simp only [Eval.inScope, hsame], ends_inScope.2 (hends.mono ?_ fun _ _ h => h)⟩
  exact fun a after h => ⟨h.1, h.2.truncated _⟩

theorem coincide_function? {name : Name} {f g : Option Expr → Eval α}
    (h : Coincide functions wanting good (f (functions.find? name)) (g (functions.find? name))) :
    Coincide functions wanting good (function? name >>= f) (function? name >>= g) := by
  intro m hm
  have hlookup : function? name m =
      if name.isCompound then .error (.fault .compoundName) m else .ok (functions.find? name) m := by
    unfold function?
    split
    · rfl
    · rw [← hm.functions]
      rfl
  split at hlookup
  · rw [bind_of_error hlookup, bind_of_error hlookup, ends_bind]
    unfold Ends
    rw [hlookup]
    exact ⟨rfl, trivial⟩
  · rw [bind_of_ok hlookup, bind_of_ok hlookup, ends_bind]
    unfold Ends at *
    rw [hlookup]
    exact h m hm

/-- The bindings have no real to offer. -/
theorem coincide_meaning {name : Name} {f g : Option Value → Eval α}
    (h : ∀ found, (∀ v ∈ found, Plain v) → Coincide functions wanting good (f found) (g found)) :
    Coincide functions wanting good (meaning? name >>= f) (meaning? name >>= g) := by
  intro m hm
  refine h (m.scope.lookup? name) (fun v hfound => ?_) m hm
  obtain ⟨b, hb, rfl⟩ := Option.map_eq_some_iff.1 hfound
  exact hm.scope b (List.mem_of_find?_eq_some hb)

end

def comparisonPlain (functions : Table Name Expr) (wanting : Token → Prop) : NodeComparison where
  values := PlainEq
  items := Eq
  holds _ _ y x x' := Coincide functions wanting y.Plain x x'
  order := .eq
  alike h := h.1 ▸ Value.alike_refl (fun _ => rfl) _
  collection h := ⟨congrArg _ h, rfl⟩
  text h := ⟨congrArg _ h, rfl⟩
  pair := plainEq_pair_iff
  value {_ _ y _ _} h := (y.alike_plainEq_iff.1 h).1 ▸ keeps_pure (y.alike_plainEq_iff.1 h).2
  bind {_ _ _ y _ _ _ _ _} hx hf := hx.bind fun a ha => hf a a (y.alike_plainEq_iff.2 ⟨rfl, ha⟩)
  token := Eq
  wants := wanting
  token_alike := @Token.alike_of_eq
  fault h := Fault.eq_of_alike id h ▸ keeps_fault _
  blame hop he hwant := by
    rw [← hop, RuntimeError.blaming_self he]
    exact keeps_fail (Stop.wants_of_isWant_eq_false hwant)
  want hop hwants := hop ▸ keeps_fail hwants
  chance _ _ := ⟨rfl, keeps_drawing⟩
  seen _ := True
  called _ := True
  entries name found found' := functions.find? name = found ∧ found = found'
  closes _ _ _ y x x' := Coincide functions wanting y.Plain x x'
  blameless he := keeps_fail (Stop.wants_of_operator? he)
  tell h := Event.eq_of_alike And.left h ▸ keeps_trace _
  part hx := hx
  inScope hx := hx.inScope
  around {_ _ y _ _ _ _ _ _ _ _} hv hx hf :=
    hv.1 ▸ (keeps_push hv.2).bind fun _ _ => hx.bind fun a ha => hf a a (y.alike_plainEq_iff.2 ⟨rfl, ha⟩)
  afterPop hx := keeps_pop.bind fun _ _ => hx
  afterTell h hx := Event.eq_of_alike And.left h ▸ (keeps_trace _).bind fun _ _ => hx
  leave he := keeps_fail (Stop.wants_of_operator? he)
  look _ hf := coincide_meaning fun found h => hf found found (rel_plainEq h)
  lookup _ hf := coincide_function? (hf _ _ ⟨rfl, rfl⟩)

section

variable {functions : Table Name Expr} {wanting : Token → Prop}

/-- A real that is no probability is wanting, and any other one is turned into a decision. -/
theorem keeps_realOperand {op : Token} {x : Binary64} (h : x.isProper = false → wanting op) :
    Keeps functions wanting Plain (Operator.realOperand op (.real x)) :=
  (comparisonPlain functions wanting).realOperand (l := .whole) rfl (fun hx => h (hx x rfl)) (.real x)

/-- A node that has nothing to do with reals, if the evaluations of the nodes right below it and of the function that it
calls coincide. -/
theorem coincide_step {eval eval' : Expr → Eval Value} (fuel : Nat) {e : Expr} (hself : e.holdsReal = false)
    (hasks : e.asksReal = false)
    (hchildren : ∀ child ∈ e.children, Coincide functions wanting Plain (eval child) (eval' child))
    (hbodies : ∀ name arguments own parameters body, e = .call name arguments →
      functions.find? name = some (.function own parameters body) →
        Coincide functions wanting Plain (eval body) (eval' body)) :
    Coincide functions wanting Plain (step eval fuel e) (step eval' fuel e) := by
  have hnode : (comparisonPlain functions wanting).Allows e := by
    cases e with
    | literal v => exact ⟨rfl, hself⟩
    | binary => exact rfl
    | unary op schema operand => exact ⟨rfl, fun h => absurd h (Expr.asksReal_unary.1 hasks)⟩
    | _ => trivial
  refine @NodeComparison.step (comparisonPlain functions wanting) eval eval' e rfl hnode hchildren ?_ fuel 0
    fun _ _ _ _ _ _ => keeps_outOfFuel
  rintro name arguments hcall found _ ⟨hfound, rfl⟩
  refine ScopeComparison.callees_self (fun own parameters body h => ?_) fun _ _ _ => keeps_fault _
  exact hbodies name arguments own parameters body hcall (hfound.trans h)

end

end Eval

end DiceScript
