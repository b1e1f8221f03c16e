import DiceScript.Proofs.Evaluation.Agreement
import DiceScript.Proofs.Evaluation.Mentions

/-!
# What ends

Only loops that ask for a test and functions that call themselves can go on without end. A tree has neither if no loop
stands in it or in a function that it reaches, and no function that it reaches can be reached from its own body. Such a
tree is evaluated within a bound that depends on the tree and the table of functions alone, not on bindings or chance.

The evaluation is not a recursion on the tree, for a call goes on with the body of a function and `#` evaluates its
operand as often as a number says. What falls with each step down is the number of functions that can still be called,
or else the size of the tree. The bound is a sum in which the former weighs as much as all functions are large.
-/

namespace DiceScript

namespace Expr

/-- A function that may be called again before it has returned. -/
def IsRecursive (functions : Table Name Expr) (name : Name) : Prop :=
  ∃ own parameters body, functions.find? name = some (.function own parameters body) ∧ body.Reaches functions name

/-- No loop that asks for a test stands in a tree or in a function that it reaches, and it reaches no recursive
function. -/
structure IsBounded (functions : Table Name Expr) (e : Expr) : Prop where
  loops : ∀ part, e.Involves functions part → ∀ mode name body style test,
    ¬Occurs (.loop mode name body style test) part
  calls : ∀ name, e.Reaches functions name → ¬IsRecursive functions name

section

variable {functions : Table Name Expr} {e child body : Expr} {name callee own : Name} {parameters : List Name}

theorem occurs_iff {node : Expr} : Occurs node e ↔ node = e ∨ ∃ child ∈ e.children, Occurs node child := by
  constructor
  · intro h
    cases h with
    | here => exact .inl rfl
    | inside hchild h => exact .inr ⟨_, hchild, h⟩
  · rintro (rfl | ⟨child, hchild, h⟩)
    · exact .here
    · exact .inside hchild h

theorem eq_of_occurs {node : Expr} (h : Occurs node e) (hleaf : e.children = []) : node = e := by
  obtain h | ⟨child, hchild, -⟩ := occurs_iff.1 h
  · exact h
  · rw [hleaf] at hchild
    cases hchild

theorem Reaches.of_child (hchild : child ∈ e.children) (h : child.Reaches functions name) :
    e.Reaches functions name := by
  induction h with
  | call h =>
    obtain ⟨arguments, h⟩ := h
    exact .call ⟨arguments, .inside hchild h⟩
  | body _ found h ih => exact .body ih found h

theorem Reaches.of_body (hname : e.Reaches functions name)
    (found : functions.find? name = some (.function own parameters body)) (h : body.Reaches functions callee) :
    e.Reaches functions callee := by
  induction h with
  | call h => exact .body hname found h
  | body _ found' h ih => exact .body ih found' h

theorem IsBounded.of_child (he : e.IsBounded functions) (hchild : child ∈ e.children) : child.IsBounded functions := by
  refine ⟨fun part hpart mode name body style test h => ?_, fun name h => he.calls name (h.of_child hchild)⟩
  cases hpart with
  | self => exact he.loops e .self mode name body style test (.inside hchild h)
  | body hname found => exact he.loops _ (.body (hname.of_child hchild) found) mode name body style test h

theorem IsBounded.of_call (he : e.IsBounded functions) (hname : e.Reaches functions name)
    (found : functions.find? name = some (.function own parameters body)) : body.IsBounded functions := by
  refine ⟨fun part hpart mode loopName loopBody style test h => ?_, fun callee h => ?_⟩
  · cases hpart with
    | self => exact he.loops _ (.body hname found) mode loopName loopBody style test h
    | body hcallee found' =>
      exact he.loops _ (.body (hname.of_body found hcallee) found') mode loopName loopBody style test h
  · exact he.calls callee (hname.of_body found h)

theorem sizeOf_body_lt (found : functions.find? name = some (.function own parameters body)) :
    sizeOf body < sizeOf functions := by
  have hentry : sizeOf (name, Expr.function own parameters body) < sizeOf functions :=
    List.sizeOf_lt_of_mem (Table.mem_of_find? found)
  rw [Prod.mk.sizeOf_spec, function.sizeOf_spec] at hentry
  omega

theorem mem_names_of_find? (found : functions.find? name = some e) : name ∈ functions.names :=
  List.mem_map.2 ⟨_, Table.mem_of_find? found, rfl⟩

end

end Expr

namespace Eval

variable {α β : Type} {functions : Table Name Expr}

/-- From every machine with these functions, the computation ends before it reaches its bound. -/
def Finishes (functions : Table Name Expr) (x : Eval α) : Prop :=
  ∀ m, m.functions = functions →
    Ends x m (fun _ after => after.functions = functions) (fun stop _ => stop ≠ .outOfFuel)

theorem Finishes.bind {x : Eval α} {f : α → Eval β} (hx : Finishes functions x)
    (hf : ∀ a, Finishes functions (f a)) : Finishes functions (x >>= f) := by
  intro m hm
  rw [ends_bind]
  exact (hx m hm).mono (fun a after h => hf a after h) fun _ _ h => h

theorem finishes_fail (e : RuntimeError) : Finishes functions (fail e : Eval α) := by
  intro m _
  rw [ends_fail]
  intro h
  cases h

theorem fault_ne_outOfFuel (f : Fault) : Stop.fault f ≠ .outOfFuel := by
  intro h
  cases h

theorem finishes_drawing (decide : Dice → Option (α × Dice)) : Finishes functions (drawing decide) := by
  intro m hm
  rw [ends_drawing]
  cases decide m.dice with
  | none => exact fault_ne_outOfFuel _
  | some drawn => exact hm

theorem finishes_pop : Finishes functions pop := by
  intro m hm
  rw [ends_pop]
  cases m.scope with
  | nil => exact fault_ne_outOfFuel _
  | cons b rest =>
    dsimp only
    rw [Machine.traced_functions]
    exact hm

theorem finishes_lookup {name : Name} {f : Option Expr → Eval α} (h : Finishes functions (f (functions.find? name))) :
    Finishes functions (function? name >>= f) := by
  intro m hm
  rw [ends_bind, ends_function?, hm]
  split
  · exact fault_ne_outOfFuel _
  · exact h m hm

theorem finishes_trace (e : Event) : Finishes functions (trace e) :=
  fun _ hm => ends_trace.2 (by rw [Machine.traced_functions, hm])

theorem finishes_push (b : Binding) : Finishes functions (push b) :=
  fun _ hm => ends_push.2 (by rw [Machine.traced_functions, hm])

/-- A node that is no loop finishes, if the nodes below it and the function that it calls do. -/
theorem nodeLaws_finishes (functions : Table Name Expr) :
    NodeLaws (fun _ => True) (FoundIn functions) (fun _ => Finishes functions) fun _ => Finishes functions where
  value _ := fun _ hm => ends_pure.2 hm
  bind := Finishes.bind
  blameless _ := finishes_fail _
  tell _ := finishes_trace _
  look := fun _ hm => ends_get.2 hm
  lookup _ h := finishes_lookup (h _ rfl)
  part hx := hx
  inScope hx := fun m hm => ends_inScope.2 (hx m hm)
  around hx hf := (finishes_push _).bind fun _ => hx.bind hf
  afterPop hx := finishes_pop.bind fun _ => hx
  afterTell _ hx := (finishes_trace _).bind fun _ => hx
  leave _ := finishes_fail _
  fault f := fun _ _ => ends_fault.2 (fault_ne_outOfFuel f)
  blame _ _ := finishes_fail _
  draw := finishes_drawing

/-- A tree that may call no function but those left is evaluated within the bound that these and its size make up. -/
theorem finishes_eval (fuel : Nat) {e : Expr} (left : List Name) (he : e.IsBounded functions)
    (hleft : ∀ name, e.Reaches functions name → name ∈ functions.names → name ∈ left)
    (hfuel : left.length * sizeOf functions + sizeOf e < fuel) : Finishes functions (eval fuel e) := by
  induction fuel generalizing e left with
  | zero => cases hfuel
  | succ fuel ih =>
    refine (nodeLaws_finishes functions).step fuel (fun _ _ => trivial) (fun child hchild => ?_) ?_ ?_
    · have hsize := Expr.sizeOf_lt_of_mem_children hchild
      exact ih left (he.of_child hchild) (fun name h => hleft name (h.of_child hchild)) (by omega)
    · -- A function that is called is not left any more, for its body does not reach it.
      rintro name arguments own parameters body rfl found
      have hreaches : (Expr.call name arguments).Reaches functions name := .call ⟨arguments, .here⟩
      have hname : name ∈ left := hleft name hreaches (Expr.mem_names_of_find? found)
      refine ih (left.erase name) (he.of_call hreaches found) (fun callee hcallee hentered => ?_) ?_
      · have hne : callee ≠ name := by
          rintro rfl
          exact he.calls callee hreaches ⟨own, parameters, body, found, hcallee⟩
        exact (List.mem_erase_of_ne hne).2 (hleft callee (hreaches.of_body found hcallee) hentered)
      · have hsize := Expr.sizeOf_body_lt found
        obtain ⟨n, hn⟩ : ∃ n, left.length = n + 1 := ⟨left.length - 1, by
          have := List.length_pos_of_mem hname
          omega⟩
        rw [hn, Nat.succ_mul] at hfuel
        rw [List.length_erase_of_mem hname, hn, Nat.add_sub_cancel]
        omega
    · rintro mode name body style test rfl
      exact (he.loops _ .self mode name body style test .here).elim

/-- A tree without loops that ask for a test, which reaches no such loop and no recursive function, is evaluated to an
end: there is a bound within which every machine with these functions, whatever its bindings and its random source are,
yields a value or an error. A fault ends the evaluation only if the tree or one of the functions is of no script. -/
theorem evaluation_ends {functions : Table Name Expr} {e : Expr} (he : e.IsBounded functions) :
    ∃ bound, ∀ fuel, bound ≤ fuel → ∀ m : Machine, m.functions = functions →
      (∃ v after, evaluate fuel e m = .ok (.ok v) after) ∨
        (∃ err after, evaluate fuel e m = .ok (.error err) after) ∨
          (∃ f after, evaluate fuel e m = .error (.fault f) after) ∧
            ¬(e.isScripted = true ∧ ∀ entry ∈ functions, entry.2.isCallable = true) := by
  refine ⟨functions.names.length * sizeOf functions + sizeOf e + 1, fun fuel hfuel m hm => ?_⟩
  have hfinishes := finishes_eval fuel functions.names he (fun _ _ h => h) hfuel
  have hends : Ends (evaluate fuel e) m (fun _ _ => True) fun stop _ => ∃ f, stop = .fault f := by
    rw [ends_evaluate]
    split
    · exact ⟨.unshowable, rfl⟩
    · refine (hfinishes _ (by rw [Machine.traced_functions, hm])).mono (fun _ _ _ => trivial) fun stop after h => ?_
      cases stop with
      | error err => trivial
      | fault f => exact ⟨f, rfl⟩
      | outOfFuel => exact absurd rfl h
  unfold Ends at hends
  cases hrun : evaluate fuel e m with
  | ok result after =>
    cases result with
    | ok v => exact .inl ⟨v, after, rfl⟩
    | error err => exact .inr (.inl ⟨err, after, rfl⟩)
  | error stop after =>
    rw [hrun] at hends
    obtain ⟨f, rfl⟩ := hends
    refine .inr (.inr ⟨⟨f, after, rfl⟩, ?_⟩)
    rintro ⟨hscripted, hcallable⟩
    have horderly := ends_evaluate_orderly (hm ▸ hcallable) fuel hscripted
    unfold Ends at horderly
    rw [hrun] at horderly
    cases horderly

/-- A die is rolled twice through a function. -/
theorem evaluation_ends_rolls :
    let die : Token := Word.at ⟨.die, .text "d", .null⟩ ⟨1, 17⟩
    let hash : Token := Word.at ⟨.hash, .text "#", .null⟩ ⟨2, 3⟩
    let rolled : Expr := .unary die .singleton (.literal (.number 6))
    let functions : Table Name Expr := [(.text "roll", .function (.text "roll") [] rolled)]
    let e : Expr := .binary (.literal (.number 2)) hash .deferred (.call (.text "roll") [])
    e.IsBounded functions ∧
      ∃ bound, ∀ fuel, bound ≤ fuel → ∀ m : Machine, m.functions = functions →
        (∃ v after, evaluate fuel e m = .ok (.ok v) after) ∨
          (∃ err after, evaluate fuel e m = .ok (.error err) after) ∨
            (∃ f after, evaluate fuel e m = .error (.fault f) after) ∧
              ¬(e.isScripted = true ∧ ∀ entry ∈ functions, entry.2.isCallable = true) := by
  intro die hash rolled functions e
  have hrolled {node : Expr} (h : node.Occurs rolled) :
      node = .unary die .singleton (.literal (.number 6)) ∨ node = .literal (.number 6) := by
    refine (Expr.occurs_iff.1 h).imp_right ?_
    rintro ⟨child, hchild, h⟩
    obtain rfl := List.mem_singleton.1 hchild
    exact Expr.eq_of_occurs h rfl
  have he {node : Expr} (h : node.Occurs e) :
      node = .binary (.literal (.number 2)) hash .deferred (.call (.text "roll") []) ∨
        node = .literal (.number 2) ∨ node = .call (.text "roll") [] := by
    refine (Expr.occurs_iff.1 h).imp_right ?_
    rintro ⟨child, hchild, h⟩
    refine (List.mem_pair.1 hchild).imp ?_ ?_
    · rintro rfl
      exact Expr.eq_of_occurs h rfl
    · rintro rfl
      exact Expr.eq_of_occurs h rfl
  have hbody {name own : Name} {parameters : List Name} {body : Expr}
      (found : functions.find? name = some (.function own parameters body)) : body = rolled := by
    have hmem := List.mem_singleton.1 (Table.mem_of_find? found)
    cases hmem
    rfl
  have hreaches (name : Name) : ¬rolled.Reaches functions name := by
    intro h
    induction h with
    | call h =>
      obtain ⟨arguments, h⟩ := h
      rcases hrolled h with h | h <;> cases h
    | body _ _ _ ih => exact ih
  have hbounded : e.IsBounded functions := by
    refine ⟨fun part hpart mode name body style test h => ?_, fun name _ => ?_⟩
    · cases hpart with
      | self => rcases he h with h | h | h <;> cases h
      | body _ found =>
        rw [hbody found] at h
        rcases hrolled h with h | h <;> cases h
    · rintro ⟨own, parameters, body, found, h⟩
      exact hreaches name (hbody found ▸ h)
  exact ⟨hbounded, evaluation_ends hbounded⟩

end Eval

end DiceScript
