import DiceScript.Proofs.Evaluation.Mentions
import DiceScript.Proofs.Grammar.Respelling
import DiceScript.Proofs.Grammar.Scripts

/-!
# Running does not see spelling

Two texts whose tokens differ only in where they stand and in how operators are spelt are read alike, and the
scripts they stand for run alike: with the same values or a problem of the same class, and with the same use of
the random source. Blanks, comments and line breaks are of no account, nor is which of its spellings an
operator has. The places in reports differ, and so may their texts, where they quote an operator.
-/

namespace DiceScript

open Likeness (respelling)

/-- Scanned tokens are spelt by texts, so that nothing more is asked of them. -/
theorem Token.respelt_scanned {tokens tokens' : List Token} (hscanned : ∀ t ∈ tokens, t.toWord.Scanned)
    (hscanned' : ∀ t ∈ tokens', t.toWord.Scanned) (h : List.Forall₂ Token.Respelt tokens tokens') :
    List.Forall₂ respelling.token tokens tokens' := by
  induction h with
  | nil => exact .nil
  | @cons t t' _ _ ht _ ih =>
    rw [List.forall_mem_cons] at hscanned hscanned'
    refine .cons ⟨ht, ?_⟩ (ih hscanned.2 hscanned'.2)
    rw [hscanned.1.spelt, hscanned'.1.spelt]

namespace Likeness

theorem trees_respelling (e : Expr) : respelling.Trees e e := by
  apply trees_self
  intro node _
  have htoken (op : Token) : respelling.token op op := ⟨⟨rfl, rfl, fun _ => rfl⟩, rfl⟩
  cases node with
  | binary l op schema r => exact htoken op
  | unary op schema operand => exact htoken op
  | _ => trivial

theorem machines_respelling (m : Machine) : respelling.Machines m m := by
  refine ⟨fun name _ => ?_, fun name _ => ?_, rfl, rfl⟩
  · exact rel_self (values_refl _) _
  · exact entries_self fun _ _ body _ => trees_respelling body

end Likeness

namespace Eval

open Likeness

variable {α β : Type} {m m' : Machine}

def entered (m : Machine) (name : Name) (node : Expr) : Machine :=
  let told := m.traced (.defining name (node.arity?.getD 0))
  { told with functions := told.functions.insert name node }

theorem entered_scope (m : Machine) (name : Name) (node : Expr) : (entered m name node).scope = m.scope :=
  Machine.traced_scope m _

theorem entered_verbosity (m : Machine) (name : Name) (node : Expr) :
    (entered m name node).verbosity = m.verbosity := by
  simp only [entered, Machine.traced]
  split <;> rfl

theorem define_eq (name : Name) (node : Expr) (m : Machine) :
    define name node m =
      if name.isCompound then .error (.fault .compoundName) m
      else if 2 ≤ m.verbosity ∧ node.arity? = none then .error (.fault .notCallable) m
      else .ok () (entered m name node) := by
  unfold define
  by_cases hcompound : name.isCompound = true
  · rw [if_pos hcompound, if_pos hcompound]
    rfl
  · have hget : (get : Eval Machine) m = .ok m m := rfl
    rw [if_neg hcompound, if_neg hcompound]
    simp only [bind, EStateM.bind, hget]
    by_cases hverbosity : 2 ≤ m.verbosity
    · rw [if_pos hverbosity]
      cases harity : node.arity? with
      | none =>
        rw [if_pos ⟨hverbosity, rfl⟩]
        rfl
      | some arity =>
        rw [if_neg (by simp), entered, harity]
        rfl
    · have htraced (arity : Nat) : m.traced (.defining name arity) = m := if_neg hverbosity
      rw [if_neg hverbosity, if_neg fun h => hverbosity h.1, entered, htraced]
      rfl

/-! Whatever a text does to a machine, it leaves the bindings as they are. -/

def KeepsScope (x : Eval α) : Prop :=
  ∀ m, (machineAfter (x m)).scope = m.scope

theorem Restores.keepsScope {x : Eval α} (h : Restores x) : KeepsScope x := by
  intro m
  have hends := h m
  unfold Ends at hends
  generalize x m = result at hends ⊢
  cases result with
  | ok a after => exact hends.scope
  | error stop after => exact hends.scope

theorem KeepsScope.bind {x : Eval α} {f : α → Eval β} (hx : KeepsScope x) (hf : ∀ a, KeepsScope (f a)) :
    KeepsScope (x >>= f) := by
  intro m
  have hscope := hx m
  simp only [Bind.bind, EStateM.bind]
  cases hrun : x m with
  | ok a m₁ =>
    rw [hrun] at hscope
    exact (hf a m₁).trans hscope
  | error stop after =>
    rw [hrun] at hscope
    exact hscope

theorem keepsScope_defineAll (functions : Table Name Expr) : KeepsScope (defineAll functions) := by
  induction functions with
  | nil => exact (restores_pure _).keepsScope
  | cons entry rest ih =>
    refine KeepsScope.bind (fun m => ?_) fun _ => ih
    rw [define_eq]
    split
    · rfl
    · split
      · rfl
      · exact entered_scope m _ _

theorem restores_rejected (p : Problem) : Restores (rejected p : Eval (Except Problem α)) :=
  fun _ => ⟨rfl, rfl⟩

theorem restores_compile (source : String) : Restores (compile source) := by
  have hscanned : Restores (scanned source) := by
    unfold scanned
    split
    · exact restores_pure _
    · exact restores_rejected _
  have hread : ∀ reading : Except ReadStop Script, Restores (ofRead reading) := by
    rintro (stop | script)
    · cases stop with
      | problem e => exact restores_rejected _
      | exhausted => exact restores_fault _
      | outOfFuel => exact restores_throw _
    · exact restores_pure _
  refine hscanned.bind fun result => ?_
  cases result with
  | error p => exact restores_pure _
  | ok tokens => exact hread _

theorem restores_repeatedly (fuel : Nat) (e : Expr) (count : Nat) : Restores (repeatedly fuel e count) := by
  induction count with
  | zero => exact restores_pure _
  | succ count ih =>
    refine (restores_evaluate fuel e).bind fun result => ?_
    cases result with
    | error err => exact restores_pure _
    | ok v =>
      refine ih.bind fun results => ?_
      cases results <;> exact restores_pure _

theorem keepsScope_runScript (fuel : Nat) (source : String) (repetitions : Nat) :
    KeepsScope (runScript fuel source repetitions) := by
  refine (restores_compile source).keepsScope.bind fun compiled => ?_
  cases compiled with
  | error p => exact (restores_pure _).keepsScope
  | ok script =>
    refine (keepsScope_defineAll _).bind fun _ => ?_
    refine (restores_repeatedly _ _ _).keepsScope.bind fun results => ?_
    cases results <;> exact (restores_pure _).keepsScope

/-! The two runs. -/

theorem arity?_eq_of_trees {L : Likeness} {e e' : Expr} (h : L.Trees e e') : e.arity? = e'.arity? := by
  cases h <;> rfl

theorem machines_entered (name : Name) {e e' : Expr} (h : respelling.Trees e e')
    (hm : respelling.Machines m m') : respelling.Machines (entered m name e) (entered m' name e') := by
  have hrest := hm.rest.traced (.defining name (e.arity?.getD 0)) (.defining name (e'.arity?.getD 0))
  refine ⟨fun other hother => ?_, fun other hother => ?_, hrest.dice, hrest.reports⟩
  · rw [entered_scope, entered_scope]
    exact hm.scope other hother
  · simp only [entered, Machine.traced_functions, Table.find?_insert]
    split
    · exact .some (.inl h)
    · exact hm.functions other hother

/-- Entering respelt functions leaves like machines. -/
theorem couple_defineAll {functions functions' : Table Name Expr}
    (h : List.Forall₂ RespeltEntry functions functions') (hm : respelling.Machines m m')
    (hverbosity : m.verbosity = m'.verbosity) :
    respelling.Couple (defineAll functions) m (defineAll functions') m' fun _ after _ after' =>
      respelling.Machines after after' := by
  induction h generalizing m m' with
  | nil => exact couple_pure hm
  | @cons entry entry' _ _ hentry _ ih =>
    obtain ⟨name, e⟩ := entry
    obtain ⟨name', e'⟩ := entry'
    obtain rfl : name = name' := hentry.name
    apply couple_bind
    unfold Couple
    rw [define_eq, define_eq, ← hverbosity, ← arity?_eq_of_trees hentry.tree]
    split
    · exact .stopped (.fault (.same _)) hm.rest
    · split
      · exact .stopped (.fault (.same _)) hm.rest
      · refine .values (ih (machines_entered name hentry.tree hm) ?_)
        rw [entered_verbosity, entered_verbosity, hverbosity]

theorem couple_repeatedly (fuel : Nat) {e e' : Expr} (h : respelling.Trees e e') (hshown : e.isShowable = true)
    (hshown' : e'.isShowable = true) (hm : respelling.Machines m m') (count : Nat) :
    respelling.Couple (repeatedly fuel e count) m (repeatedly fuel e' count) m'
      fun result after result' after' => respelling.Outcomes Eq result result' ∧ respelling.Rest after after' := by
  induction count generalizing m m' with
  | zero => exact couple_pure ⟨.values rfl, hm.rest⟩
  | succ count ih =>
    apply couple_bind
    refine (couple_evaluate trivial fuel h hm (by simp [hshown, hshown'])).mono ?_
    rintro result m₁ result' m₁' ⟨hresult, h₁⟩
    cases hresult with
    | errors he => exact couple_pure ⟨.errors he, h₁.rest⟩
    | values hv =>
      apply couple_bind
      refine (ih (hm.beside h₁)).mono ?_
      rintro results m₂ results' m₂' ⟨hresults, h₂⟩
      cases hresults with
      | errors he => exact couple_pure ⟨.errors he, h₂⟩
      | values hvs => exact couple_pure ⟨.values (by rw [Value.eq_of_alike hv, hvs]), h₂⟩

/-- What two runs of scripts have in common: the values, the class of a problem, or the reason for a stop. -/
inductive Answers : Except Stop (Except Problem (List Value)) → Except Stop (Except Problem (List Value)) → Prop
  | values (vs : List Value) : Answers (.ok (.ok vs)) (.ok (.ok vs))
  | problems {p p' : Problem} (h : p.kind = p'.kind) : Answers (.ok (.error p)) (.ok (.error p'))
  | stopped {stop stop' : Stop} (h : stop.Alike respelling.token stop') :
    Answers (.error stop) (.error stop')

/-- The tokens of a text that scans, read. -/
theorem compile_eq {source : String} {tokens : List Token} (hscan : scan source = .ok tokens) (m : Machine) :
    compile source m = ofRead (Script.ofTokens tokens) m := by
  unfold compile scanned
  rw [hscan]
  rfl

/-- Compiling two texts on a machine: scripts to be run on it, or problems of one class. -/
inductive Compilations (m : Machine) : Except Problem Script → Machine → Except Problem Script → Machine → Prop
  | scripts {script script' : Script} (h : script.Respelt script')
    (hshown : script.expression.isShowable = true) (hshown' : script'.expression.isShowable = true) :
    Compilations m (.ok script) m (.ok script') m
  | problems {p p' : Problem} {after after' : Machine} (h : p.kind = p'.kind)
    (hrest : respelling.Rest after after') : Compilations m (.error p) after (.error p') after'

theorem isShowable_of_ofTokens {source : String} {tokens : List Token} (hscan : scan source = .ok tokens)
    (script : Script) (hread : Script.ofTokens tokens = .ok script) : script.expression.isShowable = true :=
  Expr.isShowable_of_isScripted (Grammar.isScripted_of_ofTokens (scan_scanned hscan) hread).1

section

variable {source source' : String} {tokens tokens' : List Token}

theorem couple_compile (hscan : scan source = .ok tokens) (hscan' : scan source' = .ok tokens')
    (h : Read.Meets Script.Respelt (Script.ofTokens tokens) (Script.ofTokens tokens')) (m : Machine) :
    respelling.Couple (compile source) m (compile source') m (Compilations m) := by
  have hshown := isShowable_of_ofTokens hscan
  have hshown' := isShowable_of_ofTokens hscan'
  have hrest := (machines_respelling m).rest
  unfold Couple
  rw [compile_eq hscan, compile_eq hscan']
  generalize Script.ofTokens tokens = reading at h hshown ⊢
  generalize Script.ofTokens tokens' = reading' at h hshown' ⊢
  cases h with
  | values h => exact .values (.scripts h (hshown _ rfl) (hshown' _ rfl))
  | problems cause p p' =>
    refine .values (.problems rfl ⟨hrest.dice, ?_⟩)
    change List.map _ (Machine.reports _) = List.map _ (Machine.reports _)
    rw [Machine.reports_reported, Machine.reports_reported, List.map_append, List.map_append]
    rfl
  | exhausted => exact .stopped (.fault (.same _)) hrest
  | outOfFuel => exact .stopped .outOfFuel hrest

/-- Two texts that are read alike, run on the same machine. -/
theorem couple_runScript (hscan : scan source = .ok tokens) (hscan' : scan source' = .ok tokens')
    (h : Read.Meets Script.Respelt (Script.ofTokens tokens) (Script.ofTokens tokens')) (m : Machine)
    (fuel repetitions : Nat) :
    respelling.Couple (runScript fuel source repetitions) m (runScript fuel source' repetitions) m
      fun result after result' after' =>
        Answers (.ok result) (.ok result') ∧ respelling.Rest after after' := by
  apply couple_bind
  refine (couple_compile hscan hscan' h m).mono ?_
  intro result m₁ result' m₁' hcompiled
  cases hcompiled with
  | problems hkind hrest => exact couple_pure ⟨.problems hkind, hrest⟩
  | scripts h hshown hshown' =>
    apply couple_bind
    refine (couple_defineAll h.functions (machines_respelling m) rfl).mono ?_
    intro _ m₂ _ m₂' h₂
    apply couple_bind
    refine (couple_repeatedly fuel h.expression hshown hshown' h₂ repetitions).mono ?_
    rintro results m₃ results' m₃' ⟨hresults, h₃⟩
    cases hresults with
    | values hvs =>
      subst hvs
      exact couple_pure ⟨.values _, h₃⟩
    | errors he => exact couple_pure ⟨.problems (congrArg Problem.Kind.runtime he.kind_eq), h₃⟩

/-- Let the tokens of two texts agree in kind, in literal and, for names, in spelling. Then they are read as
scripts that differ only in the places and spellings of operators, or both are rejected for the same cause. Run
on the same machine any number of times, they have the same values or a problem of the same class, and they
leave the same bindings and the same random source. Their reports are of the same classes, one by one. -/
theorem runScript_respelt (hscan : scan source = .ok tokens) (hscan' : scan source' = .ok tokens')
    (h : List.Forall₂ Token.Respelt tokens tokens') :
    Read.Meets Script.Respelt (Script.ofTokens tokens) (Script.ofTokens tokens') ∧
      ∀ (m : Machine) (fuel repetitions : Nat),
        let run := runScript fuel source repetitions m
        let run' := runScript fuel source' repetitions m
        Answers (outcome run) (outcome run') ∧
          (machineAfter run).scope = (machineAfter run').scope ∧
          (machineAfter run).dice = (machineAfter run').dice ∧
          (machineAfter run).reports.map Problem.kind = (machineAfter run').reports.map Problem.kind := by
  have hread := Script.ofTokens_respelt (Token.respelt_scanned (scan_scanned hscan) (scan_scanned hscan') h)
  refine ⟨hread, fun m fuel repetitions => ?_⟩
  have hmeets := couple_runScript hscan hscan' hread m fuel repetitions
  have hscope := keepsScope_runScript fuel source repetitions m
  have hscope' := keepsScope_runScript fuel source' repetitions m
  have hrest := hmeets.rest trivial fun _ _ _ _ h => h.2
  refine ⟨?_, hscope.trans hscope'.symm, hrest.dice, hrest.reports⟩
  exact hmeets.outcomes trivial (fun _ _ _ _ h => h.1) fun _ _ h => .stopped h

end

/-- Two dice, once in short and once with a capital letter, a blank, a comment and a line break. -/
theorem runScript_respelt_dice :
    let short : List Token :=
      [Word.at ⟨.integer, .text "2", .integer 2⟩ ⟨1, 1⟩, Word.at ⟨.die, .text "d", .null⟩ ⟨1, 2⟩,
       Word.at ⟨.integer, .text "6", .integer 6⟩ ⟨1, 3⟩, Word.endOfInput.at ⟨1, 4⟩]
    let long : List Token :=
      [Word.at ⟨.integer, .text "2", .integer 2⟩ ⟨1, 1⟩, Word.at ⟨.die, .text "D", .null⟩ ⟨1, 3⟩,
       Word.at ⟨.integer, .text "6", .integer 6⟩ ⟨2, 1⟩, Word.endOfInput.at ⟨2, 2⟩]
    scan "2d6" = .ok short ∧ scan "2 D\\7\n6" = .ok long ∧ List.Forall₂ Token.Respelt short long ∧
      Read.Meets Script.Respelt (Script.ofTokens short) (Script.ofTokens long) ∧
      ∀ (m : Machine) (fuel repetitions : Nat),
        let run := runScript fuel "2d6" repetitions m
        let run' := runScript fuel "2 D\\7\n6" repetitions m
        Answers (outcome run) (outcome run') ∧
          (machineAfter run).scope = (machineAfter run').scope ∧
          (machineAfter run).dice = (machineAfter run').dice ∧
          (machineAfter run).reports.map Problem.kind = (machineAfter run').reports.map Problem.kind := by
  intro short long
  have hshort : scan "2d6" = .ok short := rfl
  have hlong : scan "2 D\\7\n6" = .ok long := rfl
  have h : List.Forall₂ Token.Respelt short long := by
    refine .cons ?_ (.cons ?_ (.cons ?_ (.cons ?_ .nil))) <;> exact ⟨rfl, rfl, by decide⟩
  exact ⟨hshort, hlong, h, runScript_respelt hshort hlong h⟩

end Eval

end DiceScript
