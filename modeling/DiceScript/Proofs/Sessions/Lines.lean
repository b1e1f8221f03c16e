import DiceScript.Proofs.Sessions.Commands
import DiceScript.Proofs.Sessions.Runs

/-!
# Sessions line by line

What a line does to a session is known from its text and from the input alone: it is a `LineEffect`. After any lines,
the bindings, the functions and the switches of a session are what their effects make of those from before. Only
two commands touch the bindings, and the functions are those of all scripts that compiled, whether or not their
evaluation failed. Whether it failed is the one thing that depends on the random source.
-/

namespace DiceScript

/-! A line and the same line without blanks at its ends. -/

namespace Command

theorem parse?_strip (line : String) : parse? (Text.strip line) = parse? line := by
  simp [parse?, Text.strip, Text.stripped_stripped]

theorem isCommand_strip (line : String) : isCommand (Text.strip line) = isCommand line := by
  simp [isCommand, Text.strip, Text.stripped_stripped]

/-- There is one way to spell the command that ends a session. -/
theorem strip_of_quit {line : String} (h : parse? line = some .quit) : Text.strip line = "+quit" := by
  have hwritten := parse?_eq_some_iff.1 h
  rw [Text.strip]
  generalize Text.stripped line.toList = cs at hwritten
  cases hwritten with
  | @word text _ hword =>
    have hquit : ∀ entry ∈ words, entry.2 = .quit → entry.1 = "+quit" := by decide
    rw [String.ofList_toList]
    exact hquit _ hword rfl

end Command

inductive LineEffect where
  | nothing
  /-- A line is meant as a command but spells none. -/
  | refused
  | bound (name : String) (n : Int)
  | unbound (name : String)
  | tokensShown (on : Bool)
  | treeShown (on : Bool)
  /-- A text does not compile. -/
  | rejected
  | compiled (script : Script)

def Machine.SameButLog (m after : Machine) : Prop :=
  ∃ log, after = { m with log := log }

def Script.evaluation (fuel : Nat) (script : Script) : Eval (Except RuntimeError Value) := do
  Eval.defineAll script.functions
  Eval.evaluate fuel script.expression

/-- The bindings, the oldest first, without the last one of a name. -/
def withoutLast (name : Name) : List Binding → List Binding
  | [] => []
  | b :: rest =>
    if rest.any (·.name = name) then b :: withoutLast name rest
    else if b.name = name then rest
    else b :: rest

namespace LineEffect

def ofSource (source : String) : LineEffect :=
  match compiled? source with
  | some script => .compiled script
  | none => .rejected

def ofCommand (input : List String) : Command → LineEffect × List String
  | .quit | .help | .version => (.nothing, input)
  | .multiline => (.ofSource (String.intercalate "\n" (Shell.entry input).1), (Shell.entry input).2)
  | .showTokens => (.tokensShown true, input)
  | .hideTokens => (.tokensShown false, input)
  | .showTree => (.treeShown true, input)
  | .hideTree => (.treeShown false, input)
  | .setVariable name n => (.bound name n, input)
  | .unsetVariable name => (.unbound name, input)

def ofLine (input : List String) (line : String) : LineEffect × List String :=
  if (Text.strip line).isEmpty then (.nothing, input)
  else if Command.isCommand line then
    match Command.parse? line with
    | some command => ofCommand input command
    | none => (.refused, input)
  else (.ofSource (Text.strip line), input)

def ofLines : List String → List String → List LineEffect
  | _, [] => []
  | input, line :: lines => (ofLine input line).1 :: ofLines (ofLine input line).2 lines

/-- The bindings after an effect, the oldest first. -/
def rebind (bindings : List Binding) : LineEffect → List Binding
  | .bound name n => bindings ++ [⟨.text name, .number n⟩]
  | .unbound name => withoutLast (.text name) bindings
  | _ => bindings

def functions : LineEffect → Table Name Expr
  | .compiled script => script.functions
  | _ => []

def tokens? : LineEffect → Option Bool
  | .tokensShown on => some on
  | _ => none

def tree? : LineEffect → Option Bool
  | .treeShown on => some on
  | _ => none

def Fails (fuel : Nat) (m : Machine) (effect : LineEffect) : Prop :=
  ∃ script err after, effect = .compiled script ∧ script.evaluation fuel m = .ok (.error err) after

def BreaksOff (fuel : Nat) (m : Machine) (stop : Stop) (effect : LineEffect) : Prop :=
  ∃ script after, effect = .compiled script ∧ script.evaluation fuel m = .error stop after

end LineEffect

namespace Session

variable {α : Type}

def left : EStateM.Result Stop Session α → Session
  | .ok _ after => after
  | .error _ after => after

def afterLine (fuel : Nat) (s : Session) (line : String) : Session :=
  left (Shell.executeLine fuel line s)

def afterLines (fuel : Nat) (s : Session) (lines : List String) : Session :=
  lines.foldl (afterLine fuel) s

theorem afterLines_cons (fuel : Nat) (s : Session) (line : String) (lines : List String) :
    s.afterLines fuel (line :: lines) = (s.afterLine fuel line).afterLines fuel lines := by
  rw [afterLines, List.foldl_cons, afterLines]

/-- The script of a line, in this session, comes to an error. -/
def Fails (fuel : Nat) (s : Session) (line : String) : Prop :=
  (LineEffect.ofLine s.input line).1.Fails fuel s.machine

/-- What an effect makes of a session, with so much of the input left. -/
structure Carries (fuel : Nat) (s : Session) (effect : LineEffect) (rest : List String) (after : Session) : Prop where
  bindings : after.machine.scope.toList = effect.rebind s.machine.scope.toList
  functions : after.machine.functions = s.machine.functions.merge effect.functions
  showTokens : after.showTokens = effect.tokens?.getD s.showTokens
  showTree : after.showTree = effect.tree?.getD s.showTree
  hadError : after.hadError = true ↔ s.hadError = true ∨ effect = .rejected
  hadRuntimeError : after.hadRuntimeError = true ↔ s.hadRuntimeError = true ∨ effect.Fails fuel s.machine
  input : after.input = rest
  unchanged : effect = .refused ∨ effect = .rejected → s.machine.SameButLog after.machine

section

variable {fuel : Nat} {s after : Session} {effect : LineEffect} {rest : List String}

/-- What a session has written and read before makes no difference. -/
theorem Carries.of_written {input : List String} {output : String}
    (h : Carries fuel { s with input := input, output := output } effect rest after) :
    s.Carries fuel effect rest after :=
  ⟨h.bindings, h.functions, h.showTokens, h.showTree, h.hadError, h.hadRuntimeError, h.input, h.unchanged⟩

/-- A session that only writes. -/
theorem carries_written (output : String) (heffect : effect = .nothing ∨ effect = .refused) :
    s.Carries fuel effect s.input { s with output := output } := by
  rcases heffect with rfl | rfl
  · exact ⟨rfl, rfl, rfl, rfl, by simp, by simp [LineEffect.Fails], rfl, by simp⟩
  · exact ⟨rfl, rfl, rfl, rfl, by simp, by simp [LineEffect.Fails], rfl, fun _ => ⟨_, rfl⟩⟩

/-! A script that is run once. -/

/-- The machine after an evaluation: the bindings are back, and the functions are entered. -/
theorem atop_enteredAll {functions : Table Name Expr} {m m' : Machine}
    (h : Eval.Atop (Eval.enteredAll m functions) [] m') :
    m'.scope = m.scope ∧ m'.functions = m.functions.merge functions :=
  ⟨h.scope.trans (Eval.enteredAll_scope m functions),
   h.functions.trans (Eval.enteredAll_functions m functions)⟩

theorem carries_compiled {script : Script} {entered : Machine}
    (hentered : Eval.enteredAll s.machine script.functions = entered)
    (hdefine : Eval.defineAll script.functions s.machine = .ok () entered) (output : String) :
    s.Carries fuel (.compiled script) s.input
      (left (Session.concluded { s with machine := entered, output := output }
        (Eval.evaluate fuel script.expression entered))) := by
  have hevaluation : script.evaluation fuel s.machine = Eval.evaluate fuel script.expression entered :=
    bind_of_ok hdefine
  have hrestored := Eval.restores_evaluate fuel script.expression entered
  unfold Eval.Ends at hrestored
  rw [← hevaluation] at hrestored ⊢
  subst hentered
  cases hresult : script.evaluation fuel s.machine with
  | error stop m =>
    rw [hresult] at hrestored
    obtain ⟨hscope, hfunctions⟩ := atop_enteredAll hrestored
    exact ⟨congrArg Scope.toList hscope, hfunctions, rfl, rfl, by simp [concluded, left],
      by simp [concluded, left, LineEffect.Fails, hresult], rfl, by simp⟩
  | ok result m =>
    rw [hresult] at hrestored
    obtain ⟨hscope, hfunctions⟩ := atop_enteredAll hrestored
    cases result with
    | error err =>
      exact ⟨congrArg Scope.toList hscope, hfunctions, rfl, rfl, by simp [concluded, left],
        by simp [concluded, left, LineEffect.Fails, hresult], rfl, by simp⟩
    | ok v =>
      exact ⟨congrArg Scope.toList hscope, hfunctions, rfl, rfl, by simp [concluded, left],
        by simp [concluded, left, LineEffect.Fails, hresult], rfl, by simp⟩

theorem carries_run (source : String) (s : Session) :
    s.Carries fuel (.ofSource source) s.input (left (Shell.run fuel source 1 s)) := by
  cases hcompiled : compiled? source with
  | none =>
    obtain ⟨p, text, hrun⟩ := Shell.run_of_none hcompiled fuel 1 s
    rw [hrun, LineEffect.ofSource, hcompiled]
    exact ⟨rfl, rfl, rfl, rfl, by simp [left], by simp [left, LineEffect.Fails], rfl, fun _ => ⟨_, rfl⟩⟩
  | some script =>
    obtain ⟨tokens, hscan, hread⟩ := compiled?_eq_some_iff.1 hcompiled
    rw [Shell.run_of_script hscan hread, Shell.evaluateAll_once, LineEffect.ofSource, hcompiled]
    exact carries_compiled rfl (defineAll_of_ofTokens hscan hread s.machine) _

/-- Running a text is broken off only where the evaluation of its script is. -/
theorem breaksOff_of_run {source : String} {stop : Stop} (h : Shell.run fuel source 1 s = .error stop after) :
    (LineEffect.ofSource source).BreaksOff fuel s.machine stop := by
  cases hcompiled : compiled? source with
  | none =>
    obtain ⟨p, text, hrun⟩ := Shell.run_of_none hcompiled fuel 1 s
    rw [hrun] at h
    cases h
  | some script =>
    obtain ⟨tokens, hscan, hread⟩ := compiled?_eq_some_iff.1 hcompiled
    have hevaluation : script.evaluation fuel s.machine =
        Eval.evaluate fuel script.expression (Eval.enteredAll s.machine script.functions) :=
      bind_of_ok (defineAll_of_ofTokens hscan hread s.machine)
    rw [Shell.run_of_script hscan hread, Shell.evaluateAll_once, ← hevaluation] at h
    rw [LineEffect.ofSource, hcompiled]
    cases hresult : script.evaluation fuel s.machine with
    | error stop' m =>
      rw [hresult] at h
      cases h
      exact ⟨script, m, rfl, hresult⟩
    | ok result m =>
      rw [hresult] at h
      cases result <;> cases h

/-! Commands. -/

theorem withoutLast_snoc (name : Name) (bindings : List Binding) (b : Binding) :
    withoutLast name (bindings ++ [b]) =
      if b.name = name then bindings else withoutLast name bindings ++ [b] := by
  induction bindings with
  | nil => simp [withoutLast]
  | cons first rest ih =>
    by_cases hb : b.name = name
    · simp [withoutLast, hb] at ih ⊢
      exact ih
    · rw [List.cons_append, withoutLast, withoutLast, ih]
      simp only [List.any_append, hb, if_false]
      grind

theorem toList_remove (scope : Scope) (name : Name) :
    Scope.toList (scope.remove name).2 = withoutLast name scope.toList := by
  induction scope with
  | nil => rfl
  | cons b rest ih =>
    have hsnoc : Scope.toList (b :: rest) = Scope.toList rest ++ [b] := List.reverse_cons
    rw [hsnoc, withoutLast_snoc]
    by_cases hb : b.name = name
    · simp [Scope.remove, hb]
    · rw [if_neg hb, ← ih]
      simp [Scope.remove, hb, Scope.toList]

theorem carries_tokensShown (on : Bool) : s.Carries fuel (.tokensShown on) s.input { s with showTokens := on } :=
  ⟨rfl, rfl, rfl, rfl, by simp, by simp [LineEffect.Fails], rfl, by simp⟩

theorem carries_treeShown (on : Bool) : s.Carries fuel (.treeShown on) s.input { s with showTree := on } :=
  ⟨rfl, rfl, rfl, rfl, by simp, by simp [LineEffect.Fails], rfl, by simp⟩

theorem carries_bound (name : String) (n : Int) :
    s.Carries fuel (.bound name n) s.input (left (Shell.onMachine (Eval.push ⟨.text name, .number n⟩) s)) := by
  let b : Binding := ⟨.text name, .number n⟩
  let m := s.machine.traced (.pushing b)
  have hpush : Shell.onMachine (Eval.push b) s = .ok () { s with machine := { m with scope := m.scope.push b } } :=
    rfl
  rw [hpush]
  refine ⟨?_, ?_, rfl, rfl, by simp [left], by simp [left, LineEffect.Fails], rfl, by simp⟩
  · simp [left, m, b, Scope.push, Scope.toList, LineEffect.rebind]
  · simp [left, m, LineEffect.functions, Table.merge]

theorem carries_unbound (name : String) :
    s.Carries fuel (.unbound name) s.input (left (Shell.onMachine (Eval.remove (.text name)) s)) := by
  have hremove : Shell.onMachine (Eval.remove (.text name)) s =
      .ok (s.machine.scope.remove (.text name)).1
        { s with machine := { s.machine with scope := (s.machine.scope.remove (.text name)).2 } } := rfl
  rw [hremove]
  exact ⟨toList_remove _ _, rfl, rfl, rfl, by simp [left], by simp [left, LineEffect.Fails], rfl, by simp⟩

theorem left_andThen {α β : Type} (x : Shell α) (b : β) (s : Session) :
    left ((x >>= fun _ => pure b) s) = left (x s) := by
  simp only [bind, EStateM.bind]
  cases x s <;> rfl

/-- The session when it has asked for a script over several lines and read it. -/
def asked (s : Session) : Session :=
  { s with
    input := (Shell.entry s.input).2
    output := s.output ++ ("Enter '+done' on its own line when you are finished." ++ "\n") }

theorem execute_multiline (s : Session) :
    Shell.execute fuel .multiline s =
      (Shell.run fuel (String.intercalate "\n" (Shell.entry s.input).1) 1 >>= fun _ => pure true) s.asked :=
  rfl

theorem carries_execute (command : Command) (s : Session) :
    s.Carries fuel (LineEffect.ofCommand s.input command).1 (LineEffect.ofCommand s.input command).2
      (left (Shell.execute fuel command s)) := by
  cases command with
  | quit => exact carries_written _ (.inl rfl)
  | help => exact carries_written _ (.inl rfl)
  | version => exact carries_written _ (.inl rfl)
  | multiline =>
    rw [execute_multiline, left_andThen]
    dsimp only [LineEffect.ofCommand]
    exact (carries_run (String.intercalate "\n" (Shell.entry s.input).1) s.asked).of_written
  | showTokens => exact carries_tokensShown true
  | hideTokens => exact carries_tokensShown false
  | showTree => exact carries_treeShown true
  | hideTree => exact carries_treeShown false
  | setVariable name n =>
    have hbound : s.Carries fuel (.bound name n) s.input _ := carries_bound name n
    rw [← left_andThen _ true] at hbound
    exact hbound
  | unsetVariable name =>
    have hunbound : s.Carries fuel (.unbound name) s.input _ := carries_unbound name
    rw [← left_andThen _ true] at hunbound
    exact hunbound

theorem carries_executeLine (line : String) (s : Session) :
    s.Carries fuel (LineEffect.ofLine s.input line).1 (LineEffect.ofLine s.input line).2 (s.afterLine fuel line) := by
  simp only [afterLine, Shell.executeLine, LineEffect.ofLine, Command.isCommand_strip, Command.parse?_strip]
  by_cases hblank : (Text.strip line).isEmpty = true
  · rw [if_pos hblank, if_pos hblank]
    exact carries_written s.output (.inl rfl)
  · rw [if_neg hblank, if_neg hblank]
    by_cases hcommand : Command.isCommand line = true
    · rw [if_pos hcommand, if_pos hcommand]
      cases Command.parse? line with
      | some command => exact carries_execute command s
      | none => exact carries_written (s.output ++ (Shell.usage (Text.strip line) ++ "\n")) (.inr rfl)
    · rw [if_neg hcommand, if_neg hcommand, left_andThen]
      dsimp only
      exact carries_run (Text.strip line) s

/-! How a line ends. -/

/-- A line is answered, and the answer tells whether it quits, or the evaluation of its script is broken off. -/
inductive Answered (fuel : Nat) (m : Machine) (effect : LineEffect) (quits : Prop) :
    EStateM.Result Stop Session Bool → Prop
  | answer {goesOn : Bool} {after : Session} (h : goesOn = false ↔ quits) :
    Answered fuel m effect quits (.ok goesOn after)
  | broken {stop : Stop} {after : Session} (h : effect.BreaksOff fuel m stop) :
    Answered fuel m effect quits (.error stop after)

theorem answered_true {m : Machine} {quits : Prop} (h : ¬ quits) : Answered fuel m effect quits (.ok true after) :=
  .answer (iff_of_false (by simp) h)

theorem answered_run {quits : Prop} (source : String) (s : Session) (h : ¬ quits) :
    Answered fuel s.machine (.ofSource source) quits ((Shell.run fuel source 1 >>= fun _ => pure true) s) := by
  simp only [bind, EStateM.bind]
  cases hrun : Shell.run fuel source 1 s with
  | ok a after => exact answered_true h
  | error stop after => exact .broken (breaksOff_of_run hrun)

theorem answered_execute (command : Command) (s : Session) :
    Answered fuel s.machine (LineEffect.ofCommand s.input command).1 (command = .quit)
      (Shell.execute fuel command s) := by
  cases command with
  | quit => exact .answer (iff_of_true rfl rfl)
  | multiline =>
    rw [execute_multiline]
    dsimp only [LineEffect.ofCommand]
    exact answered_run (String.intercalate "\n" (Shell.entry s.input).1) s.asked (by simp)
  | _ => exact answered_true (by simp)

theorem answered_executeLine (line : String) (s : Session) :
    Answered fuel s.machine (LineEffect.ofLine s.input line).1 (Command.parse? line = some .quit)
      (Shell.executeLine fuel line s) := by
  have hspelt (h : Text.strip line ≠ "+quit") : ¬ Command.parse? line = some .quit :=
    fun hparse => h (Command.strip_of_quit hparse)
  simp only [Shell.executeLine, LineEffect.ofLine, Command.isCommand_strip, Command.parse?_strip]
  by_cases hblank : (Text.strip line).isEmpty = true
  · rw [if_pos hblank, if_pos hblank]
    refine answered_true (hspelt fun hline => ?_)
    rw [hline] at hblank
    cases hblank
  · rw [if_neg hblank, if_neg hblank]
    by_cases hcommand : Command.isCommand line = true
    · rw [if_pos hcommand, if_pos hcommand]
      cases hparse : Command.parse? line with
      | some command =>
        simp only [Option.some.injEq]
        exact answered_execute command s
      | none => exact answered_true (by simp)
    · rw [if_neg hcommand, if_neg hcommand]
      dsimp only
      refine answered_run (Text.strip line) s (hspelt fun hline => hcommand ?_)
      rw [← Command.isCommand_strip, hline]
      decide

/-! Lines one after the other. -/

/-- What effects make of a session: bindings and functions are folded, and each switch is as it was set last. -/
structure Follows (s : Session) (effects : List LineEffect) (after : Session) : Prop where
  bindings : after.machine.scope.toList = effects.foldl LineEffect.rebind s.machine.scope.toList
  functions : after.machine.functions = (effects.map LineEffect.functions).foldl Table.merge s.machine.functions
  latest : ∀ name, after.machine.functions.find? name =
    (Table.find? (effects.flatMap LineEffect.functions).reverse name).or (s.machine.functions.find? name)
  showTokens : after.showTokens = (effects.filterMap LineEffect.tokens?).getLastD s.showTokens
  showTree : after.showTree = (effects.filterMap LineEffect.tree?).getLastD s.showTree
  hadError : after.hadError = true ↔ s.hadError = true ∨ .rejected ∈ effects

theorem follows_nil (s : Session) : s.Follows [] s :=
  ⟨rfl, rfl, fun _ => rfl, rfl, rfl, by simp⟩

theorem getLastD_filterMap_cons {α β : Type} (f : α → Option β) (a : α) (rest : List α) (b : β) :
    ((a :: rest).filterMap f).getLastD b = (rest.filterMap f).getLastD ((f a).getD b) := by
  cases h : f a with
  | none => rw [List.filterMap_cons_none h, Option.getD_none]
  | some c => rw [List.filterMap_cons_some h, List.getLastD_cons, Option.getD_some]

theorem Carries.follows {effects : List LineEffect} {last : Session} (h : s.Carries fuel effect rest after)
    (hlater : after.Follows effects last) : s.Follows (effect :: effects) last := by
  refine ⟨?_, ?_, fun name => ?_, ?_, ?_, ?_⟩
  · rw [hlater.bindings, h.bindings, List.foldl_cons]
  · rw [hlater.functions, h.functions, List.map_cons, List.foldl_cons]
  · rw [hlater.latest, h.functions, Table.find?_merge, List.flatMap_cons, List.reverse_append,
      Table.find?_append, Option.or_assoc]
  · rw [hlater.showTokens, h.showTokens, getLastD_filterMap_cons]
  · rw [hlater.showTree, h.showTree, getLastD_filterMap_cons]
  · rw [hlater.hadError, h.hadError, List.mem_cons, or_assoc, @eq_comm _ LineEffect.rejected]

theorem follows_afterLines (lines : List String) (s : Session) :
    s.Follows (LineEffect.ofLines s.input lines) (s.afterLines fuel lines) := by
  induction lines generalizing s with
  | nil => exact follows_nil s
  | cons line lines ih =>
    have hline : s.Carries fuel _ _ (s.afterLine fuel line) := carries_executeLine line s
    have hlines := ih (s.afterLine fuel line)
    rw [hline.input] at hlines
    rw [afterLines_cons]
    exact hline.follows hlines

theorem hadRuntimeError_afterLines (lines : List String) (s : Session) :
    (s.afterLines fuel lines).hadRuntimeError = true ↔
      s.hadRuntimeError = true ∨
        ∃ earlier line later, lines = earlier ++ line :: later ∧ (s.afterLines fuel earlier).Fails fuel line := by
  induction lines generalizing s with
  | nil => simp [afterLines]
  | cons line lines ih =>
    have hline : (s.afterLine fuel line).hadRuntimeError = true ↔ s.hadRuntimeError = true ∨ s.Fails fuel line :=
      (carries_executeLine line s).hadRuntimeError
    rw [afterLines_cons, ih, hline, or_assoc]
    refine or_congr_right ⟨?_, ?_⟩
    · rintro (hfails | ⟨earlier, other, later, rfl, hfails⟩)
      · exact ⟨[], line, lines, rfl, hfails⟩
      · refine ⟨line :: earlier, other, later, rfl, ?_⟩
        rwa [afterLines_cons]
    · rintro ⟨earlier, other, later, hlines, hfails⟩
      cases earlier with
      | nil =>
        cases hlines
        exact .inl hfails
      | cons first earlier =>
        cases hlines
        rw [afterLines_cons] at hfails
        exact .inr ⟨earlier, other, later, rfl, hfails⟩

end

/-- After any lines, each handled in the session that the ones before it leave, the session is what their effects
make of it, and an error of evaluation is noted exactly if there was one. A line that is refused, or a text that
does not compile, leaves all of the machine but its log. A line is answered unless the evaluation of its script
is broken off, and the session ends only with the command to quit. -/
theorem afterLines_effects (fuel : Nat) :
    (∀ (lines : List String) (s : Session),
      s.Follows (LineEffect.ofLines s.input lines) (s.afterLines fuel lines) ∧
      ((s.afterLines fuel lines).hadRuntimeError = true ↔
        s.hadRuntimeError = true ∨ ∃ earlier line later, lines = earlier ++ line :: later ∧
          (s.afterLines fuel earlier).Fails fuel line)) ∧
    ∀ (line : String) (s : Session),
      ((LineEffect.ofLine s.input line).1 = .refused ∨ (LineEffect.ofLine s.input line).1 = .rejected →
        s.machine.SameButLog (s.afterLine fuel line).machine) ∧
      (∀ goesOn after, Shell.executeLine fuel line s = .ok goesOn after →
        (goesOn = false ↔ Command.parse? line = some .quit)) ∧
      ∀ stop after, Shell.executeLine fuel line s = .error stop after →
        (LineEffect.ofLine s.input line).1.BreaksOff fuel s.machine stop := by
  refine ⟨fun lines s => ⟨follows_afterLines lines s, hadRuntimeError_afterLines lines s⟩, fun line s => ?_⟩
  have hanswered : Answered fuel s.machine _ _ (Shell.executeLine fuel line s) := answered_executeLine line s
  refine ⟨(carries_executeLine line s).unchanged, fun goesOn after hline => ?_, fun stop after hline => ?_⟩
  · rw [hline] at hanswered
    cases hanswered with
    | answer h => exact h
  · rw [hline] at hanswered
    cases hanswered with
    | broken h => exact h

/-- A command that binds a name, then a text that does not compile. -/
theorem afterLines_effects_failure :
    let s := Session.initial (Machine.initial ⟨[], 0⟩ 0) []
    let after := s.afterLines 9 ["+set x 3", "("]
    after.machine.scope.toList = [⟨.text "x", .number 3⟩] ∧ after.hadError = true ∧
      (LineEffect.ofLine s.input "(").1 = LineEffect.rejected ∧ s.machine.SameButLog (s.afterLine 9 "(").machine := by
  intro s after
  obtain ⟨hlines, hline⟩ := afterLines_effects 9
  have hset : LineEffect.ofLine [] "+set x 3" = (.bound "x" 3, []) := by
    have hstrip : (Text.strip "+set x 3").isEmpty = false := by decide +kernel
    have hcommand : Command.isCommand "+set x 3" = true := by decide +kernel
    have hparse : Command.parse? "+set x 3" = some (.setVariable "x" 3) := by decide +kernel
    rw [LineEffect.ofLine, hstrip, hcommand, hparse]
    rfl
  have hopening : LineEffect.ofLine [] "(" = (.rejected, []) := by
    have hstrip : Text.strip "(" = "(" := by decide +kernel
    have hcommand : Command.isCommand "(" = false := by decide +kernel
    have hscan : (scan "(").toOption =
        some [Word.at ⟨.leftParen, .text "(", .null⟩ ⟨1, 1⟩, Word.endOfInput.at ⟨1, 2⟩] := by decide +kernel
    rw [LineEffect.ofLine, hstrip, hcommand, LineEffect.ofSource, compiled?, hscan]
    rfl
  have heffects : LineEffect.ofLines s.input ["+set x 3", "("] = [.bound "x" 3, .rejected] := by
    change [(LineEffect.ofLine [] "+set x 3").1, (LineEffect.ofLine (LineEffect.ofLine [] "+set x 3").2 "(").1] = _
    rw [hset, hopening]
  have hfollows := (hlines ["+set x 3", "("] s).1
  rw [heffects] at hfollows
  have hrejected : (LineEffect.ofLine s.input "(").1 = LineEffect.rejected := congrArg Prod.fst hopening
  exact ⟨hfollows.bindings, hfollows.hadError.2 (.inr (by simp)), hrejected, (hline "(" s).1 (.inr hrejected)⟩

end Session

end DiceScript
