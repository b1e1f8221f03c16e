import DiceScript.Proofs.Evaluation.Correspondence

/-!
# What an evaluation depends on

The body of a function sees the bindings of whoever calls it, so what a tree means depends on more than the
tree. But it depends on no more than what is mentioned: the variables of the tree and of every function that
can be reached from it by calls, and the functions that can be reached. Two machines that agree on these and
have the same random source run alike, whatever else they hold.
-/

namespace DiceScript

namespace Expr

def Sees (e : Expr) (name : Name) : Prop :=
  ∃ fallback, Occurs (.var name fallback) e

def Calls (e : Expr) (name : Name) : Prop :=
  ∃ arguments, Occurs (.call name arguments) e

inductive Reaches (functions : Table Name Expr) (e : Expr) : Name → Prop
  | call {name : Name} (h : e.Calls name) : Reaches functions e name
  | body {name callee : Name} {own : Name} {parameters : List Name} {body : Expr}
    (hname : Reaches functions e name) (found : functions.find? name = some (.function own parameters body))
    (h : body.Calls callee) : Reaches functions e callee

/-- A tree is the given one, or the body of a function that it reaches. -/
inductive Involves (functions : Table Name Expr) (e : Expr) : Expr → Prop
  | self : Involves functions e e
  | body {name own : Name} {parameters : List Name} {body : Expr} (hname : e.Reaches functions name)
    (found : functions.find? name = some (.function own parameters body)) : Involves functions e body

def Mentions (functions : Table Name Expr) (e : Expr) (name : Name) : Prop :=
  ∃ part, e.Involves functions part ∧ part.Sees name

theorem Involves.reaches {functions : Table Name Expr} {e part : Expr} {name : Name}
    (hpart : e.Involves functions part) (h : part.Calls name) : e.Reaches functions name := by
  cases hpart with
  | self => exact .call h
  | body hname found => exact .body hname found h

end Expr

namespace Likeness

variable {L : Likeness} {e : Expr} {functions : Table Name Expr}

def Allows (L : Likeness) : Expr → Prop
  | .var name _ => L.seen name
  | .call name _ => L.called name
  | .binary _ op _ _ | .unary op _ _ => L.token op op
  | _ => True

theorem trees_of_children (hnode : L.Allows e) (hchild : ∀ child ∈ e.children, L.Trees child child) :
    L.Trees e e := by
  cases e with
  | missing => exact .missing
  | literal v => exact .literal v
  | misfit form => exact .misfit form
  | var name fallback => exact .var hnode (hchild _ (by simp [Expr.children]))
  | binary l op schema r =>
    exact .binary hnode schema (hchild _ (by simp [Expr.children])) (hchild _ (by simp [Expr.children]))
  | unary op schema operand => exact .unary hnode schema (hchild _ (by simp [Expr.children]))
  | conditional c t f =>
    exact .conditional (hchild _ (by simp [Expr.children])) (hchild _ (by simp [Expr.children]))
      (hchild _ (by simp [Expr.children]))
  | foreach name source body =>
    exact .foreach name (hchild _ (by simp [Expr.children])) (hchild _ (by simp [Expr.children]))
  | loop mode name body style test =>
    exact .loop mode name style (hchild _ (by simp [Expr.children])) (hchild _ (by simp [Expr.children]))
  | binding name definition use =>
    exact .binding name (hchild _ (by simp [Expr.children])) (hchild _ (by simp [Expr.children]))
  | call name arguments => exact .call hnode (List.forall₂_same.2 hchild)
  | collection elements => exact .collection (List.forall₂_same.2 hchild)
  | pair a b => exact .pair (hchild _ (by simp [Expr.children])) (hchild _ (by simp [Expr.children]))
  | group inner => exact .group (hchild _ (by simp [Expr.children]))
  | function name parameters body => exact .function name parameters (hchild _ (by simp [Expr.children]))

/-- A tree is like itself if all that its nodes ask for is allowed. -/
theorem trees_self {e : Expr} (h : ∀ node, node.Occurs e → L.Allows node) : L.Trees e e := by
  induction e using Expr.children_induction with
  | h e ih =>
    refine trees_of_children (h e .here) fun child hchild => ih child hchild fun node hnode => ?_
    exact h node (.inside hchild hnode)

/-- What a tree involves is like itself, if all that it mentions, reaches and applies is allowed. -/
theorem trees_involved (hseen : ∀ name, e.Mentions functions name → L.seen name)
    (hcalled : ∀ name, e.Reaches functions name → L.called name)
    (htoken : ∀ part, e.Involves functions part → ∀ node : Expr, node.Occurs part → ∀ op : Token,
      node.operator? = some op → L.token op op)
    {part : Expr} (hpart : e.Involves functions part) : L.Trees part part := by
  apply trees_self
  intro node hnode
  cases node with
  | var name fallback => exact hseen name ⟨part, hpart, fallback, hnode⟩
  | call name arguments => exact hcalled name (hpart.reaches ⟨arguments, hnode⟩)
  | binary l op schema r => exact htoken part hpart _ hnode op rfl
  | unary op schema operand => exact htoken part hpart _ hnode op rfl
  | _ => trivial

/-- The function of a name is like itself if its body is. -/
theorem entries_self {name : Name} (h : ∀ own parameters body,
    functions.find? name = some (.function own parameters body) → L.Trees body body) :
    Option.Rel L.Entries (functions.find? name) (functions.find? name) := by
  cases hfound : functions.find? name with
  | none => exact .none
  | some entry =>
    apply Option.Rel.some
    cases entry with
    | function own parameters body => exact .inl (.function own parameters (h _ _ _ hfound))
    | _ => exact .inr ⟨rfl, rfl⟩

/-- Machines that agree on what a tree mentions and reaches, after which the same problems are reported. -/
def mentioned (functions : Table Name Expr) (e : Expr) (old old' : List Problem) : Likeness where
  token := Eq
  items := Eq
  seen := e.Mentions functions
  called := e.Reaches functions
  dice := Eq
  reports ps ps' := ∃ new, ps = old ++ new ∧ ps' = old' ++ new
  stops := True
  token_alike := @Token.alike_of_eq
  reports_append h he := by
    obtain ⟨new, rfl, rfl⟩ := h
    rw [RuntimeError.eq_of_alike he]
    exact ⟨new ++ [_], List.append_assoc .., List.append_assoc ..⟩
  chance _ _ := ⟨rfl, rfl⟩
  order := .inl rfl

variable {old old' : List Problem}

theorem trees_mentioned {part : Expr} (hpart : e.Involves functions part) :
    (mentioned functions e old old').Trees part part :=
  trees_involved (fun _ h => h) (fun _ h => h) (fun _ _ _ _ _ _ => rfl) hpart

theorem machines_mentioned {m m' : Machine} (hdice : m.dice = m'.dice)
    (hfunctions : ∀ name, e.Reaches m.functions name → m.functions.find? name = m'.functions.find? name)
    (hscope : ∀ name, e.Mentions m.functions name → m.scope.lookup? name = m'.scope.lookup? name) :
    (mentioned m.functions e m.reports m'.reports).Machines m m' := by
  refine ⟨fun name hname => ?_, fun name hname => ?_, hdice, [], by simp, by simp⟩
  · rw [← hscope name hname]
    exact rel_self (values_refl _) _
  · rw [← hfunctions name hname]
    exact entries_self fun _ _ _ found => trees_mentioned (.body hname found)

end Likeness

namespace Eval

open Likeness

/-- An evaluation depends only on what is mentioned. Let two machines have the same random source, the same
innermost binding, or none, of every variable that a tree mentions, and the same function, or none, of every
name that it reaches. Then the tree has the same value on both, the same error or no answer within the bound,
the same problems are reported, and the same random source is left. Hidden bindings, other variables and other
functions do not matter, nor does what was reported before. How much is traced matters only to a tree that
cannot be shown, since tracing it is a fault. -/
theorem evaluate_eq_of_mentions (fuel : Nat) {e : Expr} {m m' : Machine} (hdice : m.dice = m'.dice)
    (hshown : m.verbosity = m'.verbosity ∨ e.isShowable = true)
    (hfunctions : ∀ name, e.Reaches m.functions name → m.functions.find? name = m'.functions.find? name)
    (hscope : ∀ name, e.Mentions m.functions name → m.scope.lookup? name = m'.scope.lookup? name) :
    outcome (evaluate fuel e m) = outcome (evaluate fuel e m') ∧
      (machineAfter (evaluate fuel e m)).dice = (machineAfter (evaluate fuel e m')).dice ∧
      ∃ new, (machineAfter (evaluate fuel e m)).reports = m.reports ++ new ∧
        (machineAfter (evaluate fuel e m')).reports = m'.reports ++ new := by
  have htraced : (1 ≤ m.verbosity && !e.isShowable) = (1 ≤ m'.verbosity && !e.isShowable) := by
    rcases hshown with h | h
    · rw [h]
    · simp [h]
  have hmeets := couple_evaluate (L := mentioned m.functions e m.reports m'.reports) trivial fuel
    (trees_mentioned .self) (machines_mentioned hdice hfunctions hscope) htraced
  have hrest := hmeets.rest trivial fun _ _ _ _ h => h.2.rest
  refine ⟨hmeets.outcomes trivial ?_ ?_, hrest.dice, hrest.reports⟩
  · rintro _ _ _ _ ⟨hresult, -⟩
    cases hresult with
    | values hv => rw [Value.eq_of_alike hv]
    | errors he => rw [RuntimeError.eq_of_alike he]
  · intro stop stop' h
    rw [Stop.eq_of_alike h]

/-- A function that sees a binding of its caller and rolls a die, beside a hidden binding of the same name, a
binding of another name and another function. -/
theorem evaluate_eq_of_mentions_hidden :
    let die : Token := Word.at ⟨.die, .text "d", .null⟩ ⟨1, 1⟩
    let x : Expr := .var (.text "x") .missing
    let f : Expr := .function (.text "f") [] (.unary die .singleton x)
    let e : Expr := .call (.text "f") []
    let m : Machine := ⟨[⟨.text "x", .number 6⟩], [(.text "f", f)], ⟨[3], 0⟩, 0, #[]⟩
    let m' : Machine :=
      ⟨[⟨.text "y", .number 9⟩, ⟨.text "x", .number 6⟩, ⟨.text "x", .number 7⟩],
       [(.text "g", .missing), (.text "f", f)], ⟨[3], 0⟩, 2, #[]⟩
    (∀ name, e.Reaches m.functions name → m.functions.find? name = m'.functions.find? name) ∧
      (∀ name, e.Mentions m.functions name → m.scope.lookup? name = m'.scope.lookup? name) ∧
      outcome (evaluate 9 e m) = .ok (.ok (.number 4)) ∧
      outcome (evaluate 9 e m) = outcome (evaluate 9 e m') ∧
      (machineAfter (evaluate 9 e m)).dice = (machineAfter (evaluate 9 e m')).dice ∧
      ∃ new, (machineAfter (evaluate 9 e m)).reports = m.reports ++ new ∧
        (machineAfter (evaluate 9 e m')).reports = m'.reports ++ new := by
  intro die x f e m m'
  have hnodes : ∀ node : Expr, node.Occurs (.unary die .singleton x) →
      (∀ name arguments, node ≠ .call name arguments) ∧
        ∀ name fallback, node = .var name fallback → name = .text "x" := by
    refine Expr.forall_occurs ⟨by simp, by simp⟩ (List.forall_mem_singleton.2 ?_)
    refine Expr.forall_occurs ⟨by simp [x], by simp [x, eq_comm]⟩ (List.forall_mem_singleton.2 ?_)
    exact Expr.forall_occurs ⟨by simp, by simp⟩ (List.forall_mem_nil _)
  have hcall : ∀ node : Expr, node.Occurs e → node = e :=
    Expr.forall_occurs rfl (List.forall_mem_nil _)
  have hreaches : ∀ name, e.Reaches m.functions name → name = .text "f" := by
    intro name h
    induction h with
    | call h =>
      obtain ⟨arguments, h⟩ := h
      exact (Expr.call.inj (hcall _ h)).1
    | body hname found h ih =>
      subst ih
      obtain ⟨-, -, rfl⟩ := Expr.function.inj (Option.some.inj found)
      obtain ⟨arguments, h⟩ := h
      exact absurd rfl ((hnodes _ h).1 _ _)
  have hfunctions : ∀ name, e.Reaches m.functions name →
      m.functions.find? name = m'.functions.find? name := by
    intro name h
    rw [hreaches name h]
    rfl
  have hscope : ∀ name, e.Mentions m.functions name → m.scope.lookup? name = m'.scope.lookup? name := by
    rintro name ⟨part, hpart, fallback, h⟩
    cases hpart with
    | self =>
      have hnode := hcall _ h
      simp [e] at hnode
    | body hname found =>
      cases hreaches _ hname
      obtain ⟨-, -, rfl⟩ := Expr.function.inj (Option.some.inj found)
      rw [(hnodes _ h).2 _ _ rfl]
      rfl
  exact ⟨hfunctions, hscope, rfl, evaluate_eq_of_mentions 9 rfl (.inr rfl) hfunctions hscope⟩

end Eval

end DiceScript
