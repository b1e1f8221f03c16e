import DiceScript.Proofs.Evaluation.Restoration

/-!
# Traces are well bracketed

A machine that is verbose enough tells of every binding that it makes and of every one that it takes away. What an
evaluation tells in this way is balanced if it comes to a value: a binding is taken away under the name that it was
made under, after all that were made since. An evaluation that stops leaves some bindings to the cut of the scope,
which is not told, so what it tells is the beginning of a balanced sequence.

A push and a pop have this property together only, and only because what is evaluated between the two gives the scope
back, so that the pop meets the binding of the push.
-/

namespace DiceScript

/-- What a trace tells of bindings: one that is made, or taken away, by its name. -/
inductive Bracket where
  | opened (name : Name)
  | closed (name : Name)
deriving DecidableEq

def Event.bracket? : Event → Option Bracket
  | .pushing b => some (.opened b.name)
  | .popping name => some (.closed name)
  | _ => none

theorem Event.bracket?_of_level {e : Event} (h : e.level = 3) : e.bracket? = none := by
  cases e <;> first | rfl | cases h

/-- Each name that is opened is closed again, after all that were opened since. -/
inductive Balanced : List Bracket → Prop where
  | nil : Balanced []
  | nest {name : Name} {inside after : List Bracket} (hinside : Balanced inside) (hafter : Balanced after) :
    Balanced (.opened name :: (inside ++ .closed name :: after))

def Unfinished (brackets : List Bracket) : Prop :=
  ∃ rest, Balanced (brackets ++ rest)

section

variable {bs bs' : List Bracket} {name : Name}

theorem Balanced.append (h : Balanced bs) (h' : Balanced bs') : Balanced (bs ++ bs') := by
  induction h with
  | nil => exact h'
  | nest hinside _ _ ih =>
    rw [List.cons_append, List.append_assoc, List.cons_append]
    exact .nest hinside ih

theorem Balanced.unfinished (h : Balanced bs) : Unfinished bs :=
  ⟨[], by rwa [List.append_nil]⟩

theorem Balanced.append_unfinished (h : Balanced bs) (h' : Unfinished bs') : Unfinished (bs ++ bs') := by
  obtain ⟨rest, hrest⟩ := h'
  exact ⟨rest, by rw [List.append_assoc]; exact h.append hrest⟩

/-- There is room for something balanced right after what is opened. -/
theorem Balanced.inside (h : Balanced bs) (h' : Balanced (.opened name :: bs')) :
    Balanced (.opened name :: (bs ++ bs')) := by
  cases h' with
  | nest hinside hafter =>
    rw [← List.append_assoc]
    exact .nest (h.append hinside) hafter

theorem Balanced.inside_unfinished (h : Balanced bs) (h' : Unfinished (.opened name :: bs')) :
    Unfinished (.opened name :: (bs ++ bs')) := by
  obtain ⟨rest, hrest⟩ := h'
  refine ⟨rest, ?_⟩
  rw [List.cons_append, List.append_assoc]
  exact h.inside hrest

theorem Balanced.closed (h : Balanced bs) : Balanced (.opened name :: .closed name :: bs) :=
  @Balanced.nest name [] bs .nil h

theorem Unfinished.closed (h : Unfinished bs) : Unfinished (.opened name :: .closed name :: bs) := by
  obtain ⟨rest, hrest⟩ := h
  exact ⟨rest, hrest.closed⟩

/-- What is opened may still be closed. -/
theorem Unfinished.opened (h : Unfinished bs) : Unfinished (.opened name :: bs) := by
  obtain ⟨rest, hrest⟩ := h
  refine ⟨rest ++ [.closed name], ?_⟩
  rw [List.cons_append, ← List.append_assoc]
  exact .nest hrest .nil

end

namespace Eval

variable {α β : Type}

/-- A machine has told more than another one has, and what it tells of bindings is of a certain form. It tells as much
as the other one. -/
structure Told (form : List Bracket → Prop) (m after : Machine) : Prop where
  verbosity : after.verbosity = m.verbosity
  events : ∃ new, after.events = m.events ++ new ∧ form (new.filterMap Event.bracket?)

section

variable {form form' form'' : List Bracket → Prop} {m middle after : Machine}

theorem told_of_events (hverbosity : after.verbosity = m.verbosity) (hevents : after.events = m.events)
    (h : form []) : Told form m after :=
  ⟨hverbosity, [], by rw [hevents, List.append_nil], h⟩

theorem told_self (h : form []) : Told form m m :=
  told_of_events rfl rfl h

theorem Told.mono (h : Told form m after) (hform : ∀ bs, form bs → form' bs) : Told form' m after := by
  obtain ⟨new, hnew, hnew'⟩ := h.events
  exact ⟨h.verbosity, new, hnew, hform _ hnew'⟩

theorem Told.trans (h : Told form m middle) (h' : Told form' middle after)
    (happend : ∀ bs bs', form bs → form' bs' → form'' (bs ++ bs')) : Told form'' m after := by
  obtain ⟨new, hnew, hform⟩ := h.events
  obtain ⟨new', hnew', hform'⟩ := h'.events
  refine ⟨h'.verbosity.trans h.verbosity, new ++ new', ?_, ?_⟩
  · rw [hnew', hnew, List.append_assoc]
  · rw [List.filterMap_append]
    exact happend _ _ hform hform'

/-- What is told first is known. -/
theorem Told.prepend {told : List Bracket} (h : Told (· = told) m middle)
    (h' : Told (fun bs => form (told ++ bs)) middle after) : Told form m after := by
  refine h.trans h' ?_
  rintro _ bs rfl hbs
  exact hbs

theorem events_traced {e : Event} (h : e.level ≤ m.verbosity) : (m.traced e).events = m.events ++ [e] := by
  rw [Machine.traced, if_pos h]
  simp [Machine.events, Note.event?]

theorem verbosity_traced (m : Machine) (e : Event) : (m.traced e).verbosity = m.verbosity := by
  unfold Machine.traced
  split <;> rfl

/-- An event that tells of no binding. -/
theorem told_traced {e : Event} (he : e.bracket? = none) (h : form []) : Told form m (m.traced e) := by
  by_cases hlevel : e.level ≤ m.verbosity
  · refine ⟨verbosity_traced m e, [e], events_traced hlevel, ?_⟩
    rwa [List.filterMap_cons_none he]
  · rw [Machine.traced, if_neg hlevel]
    exact told_self h

theorem Told.traced (h : Told form m after) {e : Event} (he : e.bracket? = none) : Told form m (after.traced e) := by
  refine h.trans (told_traced he rfl : Told (· = []) after (after.traced e)) ?_
  rintro bs _ hbs rfl
  rwa [List.append_nil]

theorem Told.truncated (h : Told form m after) (depth : Nat) : Told form m (after.truncated depth) :=
  ⟨h.verbosity, h.events⟩

theorem told_reported (p : Problem) (h : form []) : Told form m (m.reported p) :=
  told_of_events rfl (by simp [Machine.events, Machine.reported, Note.event?]) h

end

theorem Told.tells {form : List Bracket → Prop} {m after : Machine} (h : Told form m after) (hm : 2 ≤ m.verbosity) :
    2 ≤ after.verbosity := by
  rw [h.verbosity]
  exact hm

/-- What a computation tells of bindings is balanced if it comes to a value, and unfinished if it stops. -/
def Bracketed (x : Eval α) : Prop :=
  ∀ m, 2 ≤ m.verbosity → Ends x m (fun _ => Told Balanced m) (fun _ => Told Unfinished m)

/-- What a computation tells, where a binding is on top, goes on from the opening of this binding. -/
def Closes (b : Binding) (x : Eval α) : Prop :=
  ∀ m rest, 2 ≤ m.verbosity → m.scope = b :: rest →
    Ends x m (fun _ => Told (fun bs => Balanced (.opened b.name :: bs)) m)
      (fun _ => Told (fun bs => Unfinished (.opened b.name :: bs)) m)

section

variable {b : Binding} {x : Eval α} {f : α → Eval β}

theorem bracketed_pure (a : α) : Bracketed (pure a) :=
  fun _ _ => ends_pure.2 (told_self .nil)

theorem bracketed_throw (stop : Stop) : Bracketed (throw stop : Eval α) :=
  fun _ _ => ends_throw.2 (told_self Balanced.nil.unfinished)

theorem bracketed_fail (e : RuntimeError) : Bracketed (fail e : Eval α) :=
  fun _ _ => ends_fail.2 (told_reported _ Balanced.nil.unfinished)

theorem bracketed_trace {e : Event} (he : e.bracket? = none) : Bracketed (trace e) :=
  fun _ _ => ends_trace.2 (told_traced he .nil)

theorem bracketed_drawing (decide : Dice → Option (α × Dice)) : Bracketed (drawing decide) := by
  intro m _
  rw [ends_drawing]
  cases decide m.dice with
  | none => exact told_self Balanced.nil.unfinished
  | some drawn => exact told_of_events rfl rfl .nil

theorem Bracketed.bind (hx : Bracketed x) (hf : ∀ a, Bracketed (f a)) :
    Bracketed (x >>= f) := by
  intro m hm
  rw [ends_bind]
  refine (hx m hm).mono (fun a m₁ h₁ => ?_) (fun _ _ h => h)
  refine (hf a m₁ (h₁.tells hm)).mono (fun _ _ h₂ => ?_) (fun _ _ h₂ => ?_)
  · exact h₁.trans h₂ fun _ _ => Balanced.append
  · exact h₁.trans h₂ fun _ _ => Balanced.append_unfinished

theorem Bracketed.inScope (hx : Bracketed x) : Bracketed (inScope x) := by
  intro m hm
  rw [ends_inScope]
  exact (hx m hm).mono (fun _ _ h => h.truncated _) (fun _ _ h => h.truncated _)

theorem bracketed_function? (name : Name) : Bracketed (function? name) := by
  intro m _
  rw [ends_function?]
  split
  · exact told_self Balanced.nil.unfinished
  · exact told_self .nil

/-- The pop closes what the binding on top opened. -/
theorem Bracketed.afterPop {y : Eval β} (hy : Bracketed y) : Closes b (pop >>= fun _ => y) := by
  intro m rest hm hscope
  rw [ends_bind, ends_pop, hscope]
  have hpopped : Told (· = [.closed b.name]) m (Machine.traced { m with scope := rest } (.popping b.name)) :=
    ⟨verbosity_traced _ _, [.popping b.name], events_traced hm, rfl⟩
  refine (hy _ (hpopped.tells hm)).mono (fun _ _ h => ?_) (fun _ _ h => ?_)
  · exact hpopped.prepend (h.mono fun _ => Balanced.closed)
  · exact hpopped.prepend (h.mono fun _ => Unfinished.closed)

theorem Closes.afterTrace (hx : Closes b x) {e : Event} (he : e.bracket? = none) :
    Closes b (trace e >>= fun _ => x) := by
  intro m rest hm hscope
  rw [ends_bind, ends_trace]
  have htraced : Told (· = []) m (m.traced e) := told_traced he rfl
  have hscope' := (m.traced_scope e).trans hscope
  refine (hx _ rest (htraced.tells hm) hscope').mono (fun _ _ h => ?_) (fun _ _ h => ?_)
  · exact htraced.prepend h
  · exact htraced.prepend h

theorem closes_fail (e : RuntimeError) : Closes b (fail e : Eval α) :=
  fun _ _ _ _ => ends_fail.2 (told_reported _ Balanced.nil.unfinished.opened)

/-- A binding around a computation that gives the scope back, closed in what follows. -/
theorem Bracketed.around (hnests : Nests x) (hx : Bracketed x) (hf : ∀ a, Closes b (f a)) :
    Bracketed (push b >>= fun _ => x >>= f) := by
  intro m hm
  rw [ends_bind, ends_push, ends_bind]
  have hpushed : Told (· = [.opened b.name]) m
      { m.traced (.pushing b) with scope := (m.traced (.pushing b)).scope.push b } :=
    ⟨verbosity_traced _ _, [.pushing b], events_traced hm, rfl⟩
  have hm₁ := hpushed.tells hm
  refine ((hx _ hm₁).and (hnests _)).mono ?_ ?_
  · rintro a m₂ ⟨h₂, hatop⟩
    refine (hf a m₂ _ (h₂.tells hm₁) hatop.scope).mono (fun _ _ h₃ => ?_) (fun _ _ h₃ => ?_)
    · exact hpushed.prepend (h₂.trans h₃ fun _ _ => Balanced.inside)
    · exact hpushed.prepend (h₂.trans h₃ fun _ _ => Balanced.inside_unfinished)
  · rintro stop after ⟨h, -⟩
    exact hpushed.prepend (h.mono fun _ => Unfinished.opened)

end

/-- The scope that a computation gives back is what makes it bracketed around a binding. -/
theorem nodeLaws_bracketed :
    NodeLaws (fun _ => True) (fun _ _ => True) (fun l _ x => GivesBack l x ∧ Bracketed x)
      (fun b _ x => Unwinds b x ∧ Closes b x) where
  value a := ⟨nodeLaws_restores.value a, bracketed_pure a⟩
  bind hx hf := ⟨hx.1.bind fun a => (hf a).1, hx.2.bind fun a => (hf a).2⟩
  blameless he := ⟨nodeLaws_restores.blameless he, bracketed_fail _⟩
  tell he := ⟨nodeLaws_restores.tell he, bracketed_trace (Event.bracket?_of_level he)⟩
  look := ⟨restores_get, fun _ _ => ends_get.2 (told_self .nil)⟩
  lookup _ h := ⟨(restores_function? _).bind fun found => (h found trivial).1,
    (bracketed_function? _).bind fun found => (h found trivial).2⟩
  part hx := ⟨nodeLaws_restores.part hx.1, hx.2⟩
  inScope hx := ⟨hx.1.inScope, hx.2.inScope⟩
  around hx hf := ⟨hx.1.around fun a => (hf a).1, hx.2.around hx.1 fun a => (hf a).2⟩
  afterPop hx := ⟨hx.1.afterPop, hx.2.afterPop⟩
  afterTell he hx := ⟨hx.1.afterTrace _, hx.2.afterTrace (Event.bracket?_of_level he)⟩
  leave _ := ⟨unwinds_fail _, closes_fail _⟩
  fault f := ⟨nodeLaws_restores.fault f, bracketed_throw (.fault f)⟩
  blame hop he := ⟨nodeLaws_restores.blame hop he, bracketed_fail _⟩
  draw decide := ⟨nodeLaws_restores.draw decide, bracketed_drawing decide⟩

theorem bracketed_eval (fuel : Nat) (e : Expr) : Bracketed (eval fuel e) := by
  induction fuel generalizing e with
  | zero => exact bracketed_throw _
  | succ fuel ih =>
    have heval (e : Expr) : GivesBack .whole (eval fuel e) ∧ Bracketed (eval fuel e) := ⟨restores_eval fuel e, ih e⟩
    exact (nodeLaws_bracketed.step fuel (fun _ _ => trivial) (fun child _ => heval child)
      (fun _ _ _ _ body _ _ => heval body)
      fun _ _ _ _ _ _ => ⟨(restores_throw _).nests, bracketed_throw _⟩).2

theorem told_evaluate (fuel : Nat) (e : Expr) {m : Machine} (h : 2 ≤ m.verbosity) :
    Ends (evaluate fuel e) m
      (fun result after => match result with
        | .ok _ => Told Balanced m after
        | .error _ => Told Unfinished m after)
      (fun _ after => Told Unfinished m after) := by
  rw [ends_evaluate]
  split
  · exact told_self Balanced.nil.unfinished
  · have hstart : Told (· = []) m (m.traced (.evaluating e)) := told_traced rfl rfl
    refine (bracketed_eval fuel e _ (hstart.tells h)).mono (fun v after hv => ?_) ?_
    · have hafter : Told Balanced m after := hstart.prepend hv
      exact hafter.traced rfl
    · intro stop after hstop
      have hafter : Told Unfinished m after := hstart.prepend hstop
      cases stop with
      | error err => exact (hafter.truncated _).traced rfl
      | fault f => exact hafter
      | outOfFuel => exact hafter

/-- Whatever expression is evaluated, and in whatever state, on a machine that tells of bindings: what it tells of them
is balanced if the evaluation yields a value, so that whatever is taken away was made last of all that are left, under
the same name. If the evaluation yields an error, or nothing at all, it is the beginning of something balanced. -/
theorem traces_are_bracketed (fuel : Nat) (e : Expr) {m : Machine} (h : 2 ≤ m.verbosity) :
    let run := evaluate fuel e m
    ∃ new, (machineAfter run).events = m.events ++ new ∧
      match outcome run with
      | .ok (.ok _) => Balanced (new.filterMap Event.bracket?)
      | .ok (.error _) | .error _ => ∃ rest, Balanced (new.filterMap Event.bracket? ++ rest) := by
  have htold := told_evaluate fuel e h
  unfold Ends at htold
  cases hrun : evaluate fuel e m with
  | error stop after =>
    rw [hrun] at htold
    exact htold.events
  | ok result after =>
    rw [hrun] at htold
    cases result with
    | ok v => exact htold.events
    | error err => exact htold.events

/-- A function is called inside a binding. Where its body has no value the bindings are there still. -/
theorem traces_are_bracketed_call :
    let name (text : String) : Name := .text text
    let call : Expr := .call (name "f") [.literal (.number 3), .var (name "y") .missing]
    let e : Expr := .binding (name "x") (.literal (.number 2)) call
    let machine (used : String) : Machine :=
      ⟨[], [(name "f", .function (name "f") [name "y", name "z"] (.var (name used) .missing))], ⟨[], 0⟩, 2, #[]⟩
    let run := evaluate 5 e (machine "z")
    let stopped := evaluate 5 e (machine "w")
    let told (after : Machine) : List Bracket := after.events.filterMap Event.bracket?
    outcome run = .ok (.ok (.number 3)) ∧ outcome stopped = .ok (.error (.unknownVariable (name "w"))) ∧
      told (machineAfter run) = [.opened (name "x"), .opened (name "y"), .opened (name "z"), .closed (name "z"),
        .closed (name "y"), .closed (name "x")] ∧
      told (machineAfter stopped) = [.opened (name "x"), .opened (name "y"), .opened (name "z")] ∧
      Balanced (told (machineAfter run)) ∧ ∃ rest, Balanced (told (machineAfter stopped) ++ rest) := by
  intro name call e machine run stopped told
  obtain ⟨new, hevents, hbalanced⟩ := traces_are_bracketed 5 e (m := machine "z") (by decide)
  obtain ⟨new', hevents', hunfinished⟩ := traces_are_bracketed 5 e (m := machine "w") (by decide)
  have hnew : told (machineAfter run) = new.filterMap Event.bracket? := congrArg (List.filterMap _) hevents
  have hnew' : told (machineAfter stopped) = new'.filterMap Event.bracket? := congrArg (List.filterMap _) hevents'
  refine ⟨rfl, rfl, by decide +kernel, by decide +kernel, ?_, ?_⟩
  · rw [hnew]
    exact hbalanced
  · rw [hnew']
    exact hunfinished

end Eval

end DiceScript
