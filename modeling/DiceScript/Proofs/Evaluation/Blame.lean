import DiceScript.Proofs.Evaluation.NodeLaws

/-!
# Whom an error blames

An evaluation that yields a value reports nothing, and one that stops with an error reports that error and nothing
else. If the error blames an operator, this operator stands in the expression or in the body of a function, so
what is reported has the place of a token that was compiled.

`Blames` is the invariant. A computation keeps the functions, on which it depends whose operators it may meet.
-/

namespace DiceScript

def Expr.Applies (e : Expr) (op : Token) : Prop :=
  ∃ node : Expr, node.Occurs e ∧ node.operator? = some op

theorem Expr.Applies.inside {child e : Expr} {op : Token} (h : child.Applies op) (hchild : child ∈ e.children) :
    e.Applies op := by
  obtain ⟨node, hnode, hop⟩ := h
  exact ⟨node, .inside hchild hnode, hop⟩

def Stop.problems : Stop → List Problem
  | .error e => [.runtime e]
  | .fault _ | .outOfFuel => []

def Stop.Blames (blamed : Token → Prop) : Stop → Prop
  | .error e => ∀ op, e.operator? = some op → blamed op
  | .fault _ | .outOfFuel => True

namespace Eval

variable {α β : Type}

/-- A machine has the functions that another one has, and further reports. -/
structure Tells (m : Machine) (problems : List Problem) (after : Machine) : Prop where
  functions : after.functions = m.functions
  reports : after.reports = m.reports ++ problems

/-- From every machine with these functions, a value comes without a report. A stop comes with the report of its
error, and only certain operators are blamed for it. -/
def Blames (blamed : Token → Prop) (functions : Table Name Expr) (x : Eval α) : Prop :=
  ∀ m, m.functions = functions →
    Ends x m (fun _ => Tells m []) (fun stop after => Tells m stop.problems after ∧ stop.Blames blamed)

section

variable {blamed : Token → Prop} {functions : Table Name Expr} {x : Eval α} {f : α → Eval β} {m after : Machine}

theorem tells_self (m : Machine) : Tells m [] m :=
  ⟨rfl, by simp⟩

theorem Tells.trans {middle : Machine} {problems : List Problem} (h : Tells m [] middle)
    (h' : Tells middle problems after) : Tells m problems after :=
  ⟨h'.functions.trans h.functions, by rw [h'.reports, h.reports, List.append_nil]⟩

theorem Tells.traced {problems : List Problem} (h : Tells m problems after) (e : Event) :
    Tells m problems (after.traced e) :=
  ⟨by simpa using h.functions, by simpa using h.reports⟩

theorem Tells.truncated {problems : List Problem} (h : Tells m problems after) (depth : Nat) :
    Tells m problems (after.truncated depth) :=
  ⟨h.functions, h.reports⟩

theorem blames_pure (a : α) : Blames blamed functions (pure a : Eval α) :=
  fun m _ => ends_pure.2 (tells_self m)

theorem blames_fault (fault : Fault) : Blames blamed functions (Eval.fault fault : Eval α) :=
  fun m _ => ends_fault.2 ⟨tells_self m, trivial⟩

theorem blames_outOfFuel : Blames blamed functions (throw .outOfFuel : Eval α) :=
  fun m _ => ends_throw.2 ⟨tells_self m, trivial⟩

theorem blames_fail {e : RuntimeError} (he : ∀ op, e.operator? = some op → blamed op) :
    Blames blamed functions (fail e : Eval α) :=
  fun m _ => ends_fail.2 ⟨⟨rfl, Machine.reports_reported m _⟩, he⟩

/-- An error without an operator to blame. -/
theorem blames_nobody {e : RuntimeError} (he : e.operator? = none) : Blames blamed functions (fail e : Eval α) :=
  blames_fail fun op hop => by rw [he] at hop; cases hop

theorem blames_operator {e : RuntimeError} {op : Token} (hop : blamed op) (he : e.operator? = some op) :
    Blames blamed functions (fail e : Eval α) :=
  blames_fail fun other hother => by
    obtain rfl : op = other := Option.some.inj (he.symm.trans hother)
    exact hop

theorem blames_trace (e : Event) : Blames blamed functions (trace e) :=
  fun m _ => ends_trace.2 ((tells_self m).traced e)

theorem blames_get : Blames blamed functions (get : Eval Machine) :=
  fun m _ => ends_get.2 (tells_self m)

theorem blames_push (b : Binding) : Blames blamed functions (push b) := by
  intro m _
  have htold := (tells_self m).traced (.pushing b)
  exact ends_push.2 ⟨htold.functions, htold.reports⟩

theorem blames_pop : Blames blamed functions pop := by
  intro m _
  rw [ends_pop]
  cases m.scope with
  | nil => exact ⟨tells_self m, trivial⟩
  | cons b rest =>
    have hpopped : Tells m [] { m with scope := rest } := ⟨rfl, by simp [Machine.reports]⟩
    exact hpopped.traced (.popping b.name)

theorem blames_drawing (decide : Dice → Option (α × Dice)) : Blames blamed functions (drawing decide) := by
  intro m _
  rw [ends_drawing]
  cases decide m.dice with
  | none => exact ⟨tells_self m, trivial⟩
  | some drawn => exact ⟨rfl, by simp [Machine.reports]⟩

theorem Blames.bind (hx : Blames blamed functions x) (hf : ∀ a, Blames blamed functions (f a)) :
    Blames blamed functions (x >>= f) := by
  intro m hm
  rw [ends_bind]
  refine (hx m hm).mono (fun a m₁ h₁ => ?_) (fun _ _ h => h)
  refine (hf a m₁ (h₁.functions.trans hm)).mono (fun _ _ h₂ => h₁.trans h₂) ?_
  rintro stop m₂ ⟨h₂, hstop⟩
  exact ⟨h₁.trans h₂, hstop⟩

theorem Blames.inScope (hx : Blames blamed functions x) : Blames blamed functions (inScope x) := by
  intro m hm
  rw [ends_inScope]
  exact (hx m hm).mono (fun _ _ h => h.truncated _) (fun _ _ h => ⟨h.1.truncated _, h.2⟩)

theorem blames_lookup {name : Name} {f : Option Expr → Eval β}
    (h : Blames blamed functions (f (functions.find? name))) : Blames blamed functions (function? name >>= f) := by
  intro m hm
  rw [ends_bind, ends_function?, hm]
  split
  · exact ⟨tells_self m, trivial⟩
  · exact h m hm

/-- A node blames no operator but its own, unless the nodes below it or a function that it calls do. -/
theorem nodeLaws_blames (blamed : Token → Prop) (functions : Table Name Expr) :
    NodeLaws blamed (FoundIn functions) (fun _ => Blames blamed functions) fun _ => Blames blamed functions where
  value := blames_pure
  bind := Blames.bind
  blameless := blames_nobody
  tell _ := blames_trace _
  look := blames_get
  lookup _ h := blames_lookup (h _ rfl)
  part hx := hx
  inScope := Blames.inScope
  around hx hf := (blames_push _).bind fun _ => hx.bind hf
  afterPop hx := blames_pop.bind fun _ => hx
  afterTell _ hx := (blames_trace _).bind fun _ => hx
  leave := blames_nobody
  fault := blames_fault
  blame := blames_operator
  draw := blames_drawing

end

/-- An operator of the expression, or of the body of a function. -/
def Blameable (functions : Table Name Expr) (e : Expr) (op : Token) : Prop :=
  e.Applies op ∨ ∃ entry ∈ functions, entry.2.Applies op

section

variable {blamed : Token → Prop} {functions : Table Name Expr}

theorem blames_eval (hfunctions : ∀ entry ∈ functions, ∀ op, entry.2.Applies op → blamed op) (fuel : Nat)
    {e : Expr} (he : ∀ op, e.Applies op → blamed op) : Blames blamed functions (eval fuel e) := by
  induction fuel generalizing e with
  | zero => exact blames_outOfFuel
  | succ fuel ih =>
    have hchild (child : Expr) (h : child ∈ e.children) : Blames blamed functions (eval fuel child) :=
      ih fun op hop => he op (hop.inside h)
    refine (nodeLaws_blames blamed functions).step fuel (fun op hop => he op ⟨e, .here, hop⟩) hchild ?_
      fun _ _ _ _ _ _ => blames_outOfFuel
    intro name arguments own parameters body _ hfound
    refine ih fun op hop => hfunctions _ (Table.mem_of_find? hfound) op (hop.inside ?_)
    simp [Expr.children]

end

/-- An evaluation for a host that yields an error has reported it and nothing else, and it blames only operators
of the expression and of the functions. One that yields a value has reported nothing. -/
theorem evaluate_reports (fuel : Nat) (e : Expr) (m : Machine) :
    Ends (evaluate fuel e) m
      (fun result after => after.functions = m.functions ∧
        match result with
        | .ok _ => after.reports = m.reports
        | .error err => after.reports = m.reports ++ [.runtime err] ∧
          ∀ op, err.operator? = some op → Blameable m.functions e op)
      (fun _ after => after.functions = m.functions ∧ after.reports = m.reports) := by
  rw [ends_evaluate]
  split
  · exact ⟨rfl, rfl⟩
  · have hstart := (tells_self m).traced (.evaluating e)
    have hblames : Blames (Blameable m.functions e) m.functions (eval fuel e) :=
      blames_eval (fun entry hentry op hop => .inr ⟨entry, hentry, hop⟩) fuel fun op hop => .inl hop
    refine (hblames _ hstart.functions).mono (fun v after h => ?_) fun stop after h => ?_
    · have htold := (hstart.trans h).traced (.finished v)
      exact ⟨htold.functions, by simpa using htold.reports⟩
    · obtain ⟨h, hstop⟩ := h
      cases stop with
      | error err =>
        have htold := ((hstart.trans h).truncated m.scope.depth).traced (.failed err.kind)
        exact ⟨htold.functions, htold.reports, hstop⟩
      | fault f =>
        have htold := hstart.trans h
        exact ⟨htold.functions, by simpa [Stop.problems] using htold.reports⟩
      | outOfFuel =>
        have htold := hstart.trans h
        exact ⟨htold.functions, by simpa [Stop.problems] using htold.reports⟩

end Eval

end DiceScript
