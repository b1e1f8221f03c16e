import DiceScript.Proofs.Evaluation.Mentions

/-!
# Collections are multisets

A collection is a list of its elements, but the order of the list is nobody's business. If nothing is left to
chance, then a script sees no order: with the elements of the bound collections in another order it has the
same value, but for the order of elements in it, and so a value that is equal and printed the same.

Errors are another matter. Of two elements that both make a loop fail, the one that comes first is reported.
-/

namespace DiceScript

namespace Expr

/-- No operator of a tree, nor of a function that it reaches, leaves anything to chance. -/
def IsSettled (functions : Table Name Expr) (e : Expr) : Prop :=
  ∀ part, e.Involves functions part → ∀ node : Expr, node.Occurs part → ∀ op : Token,
    node.operator? = some op → op.kind.isRandom = false

end Expr

structure Binding.Permuted (b b' : Binding) : Prop where
  name : b.name = b'.name
  value : b.value.Permuted b'.value

namespace Likeness

/-! One operator at the same place of two trees, which leaves nothing to chance. -/

section

variable {op op' : Token}

theorem alike_of_settled (h : op = op' ∧ op.kind.isRandom = false) : op.Alike op' :=
  Token.alike_of_eq h.1

theorem chance_of_settled {P : Prop} (h : op = op' ∧ op.kind.isRandom = false) (hrandom : op.kind.isRandom = true) :
    P := by
  rw [h.2] at hrandom
  cases hrandom

end

/-- Nothing is asked but that the first run has a value. -/
def permuting (functions : Table Name Expr) (e : Expr) : Likeness where
  token op op' := op = op' ∧ op.kind.isRandom = false
  items := List.Perm
  seen _ := True
  called := e.Reaches functions
  dice _ _ := True
  reports _ _ := True
  stops := False
  token_alike h := alike_of_settled h
  reports_append _ _ := trivial
  chance h hrandom := chance_of_settled h hrandom
  order := .inr ⟨rfl, id, fun _ _ => trivial, fun _ _ => trivial⟩

variable {e : Expr} {functions : Table Name Expr}

theorem trees_permuting (hsettled : e.IsSettled functions) {part : Expr} (hpart : e.Involves functions part) :
    (permuting functions e).Trees part part := by
  refine trees_involved (fun _ _ => trivial) (fun _ h => h) ?_ hpart
  intro part hpart node hnode op hop
  exact ⟨rfl, hsettled part hpart node hnode op hop⟩

theorem machines_permuting {m m' : Machine} (hsettled : e.IsSettled m.functions)
    (hfunctions : m'.functions = m.functions) (hscope : List.Forall₂ Binding.Permuted m.scope m'.scope) :
    (permuting m.functions e).Machines m m' := by
  refine ⟨fun name _ => ?_, fun name hname => ?_, trivial, trivial⟩
  · have hbindings : List.Forall₂ (permuting m.functions e).Bindings m.scope m'.scope :=
      hscope.imp fun _ _ h => ⟨h.name, h.value⟩
    have hempty : Option.Rel (Value.Alike List.Perm) (Scope.lookup? [] name) (Scope.lookup? [] name) := .none
    simpa using lookup?_append hbindings hempty
  · rw [hfunctions]
    exact entries_self fun _ _ _ found => trees_permuting hsettled (.body hname found)

end Likeness

namespace Eval

open Likeness

/-- An evaluation for a host that ends with a value, and what it runs. -/
theorem evaluate_eq_ok_iff {fuel : Nat} {e : Expr} {m after : Machine} {v : Value} :
    evaluate fuel e m = .ok (.ok v) after ↔
      (1 ≤ m.verbosity && !e.isShowable) = false ∧
        ∃ last, eval fuel e (m.traced (.evaluating e)) = .ok v last ∧ last.traced (.finished v) = after := by
  unfold evaluate
  by_cases hshown : (1 ≤ m.verbosity && !e.isShowable) = true
  · simp [hshown]
  · rw [if_neg hshown]
    rw [Bool.not_eq_true] at hshown
    dsimp only
    cases eval fuel e (m.traced (.evaluating e)) with
    | ok w last =>
      constructor
      · intro h
        cases h
        exact ⟨hshown, last, rfl, rfl⟩
      · rintro ⟨-, _, h, rfl⟩
        cases h
        rfl
    | error stop last => cases stop <;> simp

/-- Let nothing in a tree or in a function that it reaches be left to chance, and let it have a value. With the
elements of the collections in its bindings in any other order, and with any other random source, it has a
value too. The two differ only in the order of elements: they are printed the same, and they are equal, unless
there is a real in them that is not a number and hence equals nothing. -/
theorem evaluate_permuted (fuel : Nat) {e : Expr} {m after : Machine} {v : Value} {scope : Scope} (dice : Dice)
    (hsettled : e.IsSettled m.functions) (hscope : List.Forall₂ Binding.Permuted m.scope scope)
    (hrun : evaluate fuel e m = .ok (.ok v) after) :
    ∃ v' after', evaluate fuel e { m with scope := scope, dice := dice } = .ok (.ok v') after' ∧
      v.Permuted v' ∧ v.display = v'.display ∧ (.nan ∉ v.reals → v.same v' = true) := by
  obtain ⟨hshown, last, heval, -⟩ := evaluate_eq_ok_iff.1 hrun
  have hmachines : (permuting m.functions e).Machines m { m with scope := scope, dice := dice } :=
    machines_permuting hsettled rfl hscope
  have hcouple := alike_eval fuel (trees_permuting hsettled .self) (m.traced (.evaluating e)) _
    (hmachines.beside ((beside_self hmachines.rest).traced (.evaluating e) (.evaluating e)))
  obtain ⟨v', last', heval', hv, -⟩ := hcouple.of_ok heval
  have hpermuted : v.Permuted v' := hv
  exact ⟨v', _, evaluate_eq_ok_iff.2 ⟨hshown, last', heval', rfl⟩, hpermuted, hpermuted.display_eq,
    hpermuted.same_eq_true⟩

/-- A function called for each element of a collection, which is bound in two orders. -/
theorem evaluate_permuted_foreach :
    let plus : Token := Word.at ⟨.plus, .text "+", .null⟩ ⟨1, 1⟩
    let body : Expr := .binary (.var (.text "y") .missing) plus .singletonSingleton (.literal (.number 10))
    let e : Expr :=
      .foreach (.text "x") (.var (.text "c") .missing) (.call (.text "f") [.var (.text "x") .missing])
    let m : Machine :=
      ⟨[⟨.text "c", .collection [1, 2, 3]⟩], [(.text "f", .function (.text "f") [.text "y"] body)], ⟨[], 0⟩,
       0, #[]⟩
    e.IsSettled m.functions ∧ (∃ after, evaluate 9 e m = .ok (.ok (.collection [11, 12, 13])) after) ∧
      ∃ v' after',
        evaluate 9 e { m with scope := [⟨.text "c", .collection [2, 3, 1]⟩], dice := ⟨[4], 7⟩ } =
          .ok (.ok v') after' ∧
        (Value.collection [11, 12, 13]).Permuted v' ∧ (Value.collection [11, 12, 13]).display = v'.display ∧
        (.nan ∉ (Value.collection [11, 12, 13]).reals → (Value.collection [11, 12, 13]).same v' = true) := by
  intro plus body e m
  have hvar (name : Name) : ∀ node : Expr, node.Occurs (.var name .missing) → node.operator? = none := by
    refine Expr.forall_occurs rfl (List.forall_mem_singleton.2 ?_)
    exact Expr.forall_occurs rfl (List.forall_mem_nil _)
  have he : ∀ node : Expr, node.Occurs e → node.operator? = none := by
    refine Expr.forall_occurs rfl ?_
    simp only [e, Expr.children, List.forall_mem_cons]
    refine ⟨hvar _, Expr.forall_occurs rfl ?_, List.forall_mem_nil _⟩
    exact List.forall_mem_singleton.2 (hvar _)
  have hbody : ∀ node : Expr, node.Occurs body → node.operator? = none ∨ node.operator? = some plus := by
    refine Expr.forall_occurs (.inr rfl) ?_
    simp only [body, Expr.children, List.forall_mem_cons]
    exact ⟨fun node h => .inl (hvar _ node h), Expr.forall_occurs (.inl rfl) (List.forall_mem_nil _),
      List.forall_mem_nil _⟩
  have hsettled : e.IsSettled m.functions := by
    intro part hpart node hnode op hop
    cases hpart with
    | self =>
      rw [he node hnode] at hop
      cases hop
    | @body name own parameters part _ found =>
      have hpart : part = body := by
        simp only [m, Table.find?] at found
        split at found
        · cases found
          rfl
        · cases found
      subst hpart
      rcases hbody node hnode with h | h <;> rw [h] at hop <;> cases hop
      rfl
  have hscope : List.Forall₂ Binding.Permuted m.scope [⟨.text "c", .collection [2, 3, 1]⟩] :=
    .cons ⟨rfl, .collection (by decide)⟩ .nil
  have hrun : evaluate 9 e m = .ok (.ok (.collection [11, 12, 13])) m := by
    subst m e body plus
    rfl
  exact ⟨hsettled, ⟨m, hrun⟩, evaluate_permuted 9 ⟨[4], 7⟩ hsettled hscope hrun⟩

end Eval

end DiceScript
