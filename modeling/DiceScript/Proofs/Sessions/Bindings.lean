import DiceScript.Proofs.Evaluation.States
import DiceScript.Proofs.Grammar.Assignments
import DiceScript.Proofs.Scanning.Rescanning
import DiceScript.Proofs.Sessions.Repetitions

/-!
# Bindings from arguments

The arguments of a session are written one after the other and read as assignments. Either each assignment becomes a
binding, and the bindings are pushed in their order, or a problem is reported and nothing is bound.
-/

namespace DiceScript

/-- The binding that an assignment makes: its name with a single number. -/
def Assignment.Binds (a : Assignment) (b : Binding) : Prop :=
  ∃ n, a.number.literal = .integer n ∧ b = ⟨a.name.lexeme, .collection [n]⟩

theorem Assignment.binding?_argument {a : Assignment} {b : Binding} : a.argument.binding? = some b ↔ a.Binds b := by
  unfold Argument.binding? argument Binds
  cases a.number.literal <;> simp [Value.number, eq_comm]

theorem Assignment.mapM_binding? {assignments : List Assignment} {bindings : List Binding} :
    (assignments.map argument).mapM Argument.binding? = some bindings ↔
      List.Forall₂ Binds assignments bindings := by
  induction assignments generalizing bindings with
  | nil => simp [eq_comm]
  | cons a assignments ih =>
    simp only [List.map_cons, List.mapM_cons, Option.bind_eq_bind, Option.bind_eq_some_iff, binding?_argument, ih]
    constructor
    · rintro ⟨b, hb, bindings, hbindings, h⟩
      cases h
      exact .cons hb hbindings
    · rintro (_ | ⟨hb, hbindings⟩)
      exact ⟨_, hb, _, hbindings, rfl⟩

/-- The assignments of a text all make bindings. -/
theorem Assignment.exists_binds {source : String} {tokens : List Token} (hscan : scan source = .ok tokens)
    {assignments : List Assignment} (h : Make assignments tokens) :
    ∃ bindings, List.Forall₂ Binds assignments bindings := by
  have hread := Argument.ofTokens_of_make (scan_ending hscan) h
  rcases Argument.ofTokens_settled (scan_ending hscan) (scan_scanned hscan) with
    ⟨found, bindings, hfound, hbindings⟩ | ⟨t, -, hmalformed⟩
  · cases hread.symm.trans hfound
    exact ⟨bindings, mapM_binding?.1 hbindings⟩
  · cases hread.symm.trans hmalformed

/-- A text stands for the bindings of its assignments. -/
theorem bindings?_eq_some_iff {source : String} {found : List Binding} :
    bindings? source = some found ↔ ∃ tokens assignments, scan source = .ok tokens ∧
      Assignment.Make assignments tokens ∧ List.Forall₂ Assignment.Binds assignments found := by
  cases hscan : scan source with
  | error e => simp [bindings?, hscan, Except.toOption]
  | ok tokens =>
    have hbindings : bindings? source =
        (Argument.ofTokens tokens).toOption.bind fun found => found.mapM Argument.binding? := by
      simp [bindings?, hscan, Except.toOption]
    rw [hbindings]
    have hend := scan_ending hscan
    constructor
    · intro h
      rcases Assignment.make_or_astray hend with ⟨assignments, hmake⟩ | ⟨t, hastray⟩
      · rw [Argument.ofTokens_of_make hend hmake] at h
        exact ⟨tokens, assignments, rfl, hmake, Assignment.mapM_binding?.1 h⟩
      · rw [Argument.ofTokens_of_astray hastray] at h
        cases h
    · rintro ⟨_, assignments, ⟨⟩, hmake, hbinds⟩
      rw [Argument.ofTokens_of_make hend hmake]
      exact Assignment.mapM_binding?.2 hbinds

theorem bindings?_eq_none_iff {source : String} :
    bindings? source = none ↔
      ∀ tokens, scan source = .ok tokens → ¬∃ assignments, Assignment.Make assignments tokens := by
  rw [Option.eq_none_iff_forall_ne_some]
  constructor
  · rintro h tokens hscan ⟨assignments, hmake⟩
    obtain ⟨bindings, hbinds⟩ := Assignment.exists_binds hscan hmake
    exact h bindings (bindings?_eq_some_iff.2 ⟨tokens, assignments, hscan, hmake, hbinds⟩)
  · intro h found hfound
    obtain ⟨tokens, assignments, hscan, hmake, -⟩ := bindings?_eq_some_iff.1 hfound
    exact h tokens hscan ⟨assignments, hmake⟩

/-! Assignments as words. -/

theorem Pieces.wordOf_kind_ne (piece : String) : (wordOf piece).kind ≠ .endOfInput := by
  unfold wordOf
  cases LayoutOp.ofSpelling? piece with
  | none => simp
  | some op => cases op <;> simp [LayoutOp.kind]

/-- A scanned word does not stand for the end of the text. -/
theorem Lexer.StandsBefore.kind_ne {w : Word} {rest : List Char} (h : StandsBefore w rest) :
    w.kind ≠ .endOfInput := by
  obtain ⟨c, tail, -, hmunch⟩ := h
  cases munch_munched hmunch with
  | stretch h =>
    generalize c :: (tail ++ rest).take _ = text at h
    generalize hfound : [w] = found at h
    cases h with
    | word _ _ hkind => exact List.singleton_inj.1 hfound ▸ hkind
    | @literal body =>
      have hw : w ∈ (Pieces.ofText body).toList.map Pieces.wordOf := by
        rw [Pieces.toList, List.map_cons, ← hfound]
        exact List.mem_singleton_self w
      obtain ⟨piece, -, rfl⟩ := List.mem_map.1 hw
      exact Pieces.wordOf_kind_ne piece

/-- A text that scans has one token for its end, the last one. -/
theorem exists_last_of_scan {source : String} {tokens : List Token} (h : scan source = .ok tokens) :
    ∃ front last, tokens = front ++ [last] ∧ last.toWord = .endOfInput ∧ ∀ t ∈ front, t.kind ≠ .endOfInput := by
  have hsource : source.toList ≠ [] := by
    intro hempty
    rw [scan, if_pos (String.isEmpty_iff.2 (String.toList_eq_nil_iff.1 hempty))] at h
    cases h
  have hlexed : Lexer.lexed source.toList = .ok (tokens.map (·.toWord)) := by
    rw [← unplaced_scan hsource, h]
    rfl
  obtain ⟨init, hinit, hstands⟩ := Lexer.lexed_standing hlexed
  obtain ⟨front, rest, rfl, rfl, hrest⟩ := List.map_eq_append_iff.1 hinit
  obtain ⟨last, rfl, hlast⟩ := List.map_eq_singleton_iff.1 hrest
  exact ⟨front, last, rfl, hlast, fun t ht => (hstands _ (List.mem_map_of_mem ht) [] (.inl rfl)).kind_ne⟩

theorem Assignment.make_iff {assignments : List Assignment} {front : List Token} {last : Token}
    (hfront : ∀ t ∈ front, t.kind ≠ .endOfInput) (hlast : last.toWord = .endOfInput) :
    Make assignments (front ++ [last]) ↔ front = assignments.flatMap tokens := by
  have hkind : last.kind = .endOfInput := congrArg Word.kind hlast
  rw [Make, List.takeWhile_append_of_pos fun t ht => by simpa using hfront t ht,
    List.takeWhile_cons_of_neg (by simp [hkind]), List.append_nil]

/-- Words that are assignments one after the other, and the bindings that these make. -/
inductive Assigns : List Word → List Binding → Prop
  | nil : Assigns [] []
  | cons {name sign number : Word} {n : Int} {words : List Word} {bindings : List Binding}
    (hname : name.kind = .identifier) (hsign : sign.kind = .equal) (hnumber : number.kind = .integer)
    (hliteral : number.literal = .integer n) (h : Assigns words bindings) :
    Assigns (name :: sign :: number :: words) (⟨name.lexeme, .number n⟩ :: bindings)

theorem assigns_tokens_iff {ts : List Token} {bindings : List Binding} :
    Assigns (ts.map (·.toWord)) bindings ↔
      ∃ assignments, ts = assignments.flatMap Assignment.tokens ∧
        List.Forall₂ Assignment.Binds assignments bindings := by
  constructor
  · intro h
    generalize hwords : ts.map (·.toWord) = words at h
    induction h generalizing ts with
    | nil => exact ⟨[], List.map_eq_nil_iff.1 hwords, .nil⟩
    | @cons _ _ _ n _ _ hname hsign hnumber hliteral _ ih =>
      obtain ⟨name, ts, rfl, rfl, hsigned⟩ := List.map_eq_cons_iff.1 hwords
      obtain ⟨sign, ts, rfl, rfl, hnumbered⟩ := List.map_eq_cons_iff.1 hsigned
      obtain ⟨number, ts, rfl, rfl, hothers⟩ := List.map_eq_cons_iff.1 hnumbered
      obtain ⟨assignments, rfl, hbinds⟩ := ih hothers
      exact ⟨⟨name, sign, number, hname, hsign, hnumber⟩ :: assignments, rfl, .cons ⟨n, hliteral, rfl⟩ hbinds⟩
  · rintro ⟨assignments, rfl, hbinds⟩
    induction hbinds with
    | nil => exact .nil
    | @cons a b _ _ hb _ ih =>
      obtain ⟨n, hliteral, rfl⟩ := hb
      exact .cons a.isName a.isSign a.isNumber hliteral ih

/-- A text stands for bindings if its words are assignments that make them. -/
theorem bindings?_eq_some_iff_assigns {source : String} {found : List Binding} :
    bindings? source = some found ↔
      ∃ words, unplaced (scan source) = .ok (words ++ [.endOfInput]) ∧ Assigns words found := by
  rw [bindings?_eq_some_iff]
  constructor
  · rintro ⟨tokens, assignments, hscan, hmake, hbinds⟩
    obtain ⟨front, last, rfl, hlast, hfront⟩ := exists_last_of_scan hscan
    refine ⟨front.map (·.toWord), ?_, assigns_tokens_iff.2 ⟨assignments, ?_, hbinds⟩⟩
    · rw [unplaced_eq_ok_iff]
      exact ⟨_, hscan, by simp [hlast]⟩
    · exact (Assignment.make_iff hfront hlast).1 hmake
  · rintro ⟨words, hwords, hassigns⟩
    obtain ⟨tokens, hscan, htokens⟩ := unplaced_eq_ok_iff.1 hwords
    obtain ⟨front, last, rfl, hlast, hfront⟩ := exists_last_of_scan hscan
    rw [List.map_append, List.map_singleton, hlast] at htokens
    obtain rfl := List.append_cancel_right htokens
    obtain ⟨assignments, hmade, hbinds⟩ := assigns_tokens_iff.1 hassigns
    exact ⟨_, assignments, hscan, (Assignment.make_iff hfront hlast).2 hmade, hbinds⟩

namespace Eval

/-- Bindings that are pushed in their order are the innermost ones, the last of them first. -/
theorem state_pushedAll (bindings : List Binding) (m : Machine) :
    (pushedAll m bindings).state = { m.state with scope := bindings.reverse ++ m.scope } := by
  induction bindings generalizing m with
  | nil => rfl
  | cons b bindings ih =>
    let traced := m.traced (.pushing b)
    let pushed : Machine := { traced with scope := traced.scope.push b }
    have hscope : pushed.scope = b :: m.scope := congrArg (b :: ·) (m.traced_scope _)
    have hstate : pushed.state = { m.state with scope := b :: m.scope } := by
      change { traced.state with scope := b :: traced.scope } = _
      rw [m.state_traced, m.traced_scope]
    change (pushedAll pushed bindings).state = _
    rw [ih, hstate, hscope, List.reverse_cons, List.append_assoc]
    rfl

theorem scope_pushedAll (bindings : List Binding) (m : Machine) :
    (pushedAll m bindings).scope = bindings.reverse ++ m.scope :=
  congrArg State.scope (state_pushedAll bindings m)

theorem ofRead_eq_ok_iff {α : Type} {x : Except ReadStop α} {a : α} {m : Machine} :
    ofRead x m = .ok (.ok a) m ↔ x = .ok a := by
  constructor
  · intro h
    rcases x with (e | _ | _) | found <;> cases h
    rfl
  · rintro rfl
    rfl

end Eval

theorem Shell.pushArguments_of_some {arguments : List String} {bindings : List Binding}
    (h : bindings? (String.intercalate " " arguments) = some bindings) (s : Session) :
    pushArguments arguments s = .ok true { s with machine := Eval.pushedAll s.machine bindings } := by
  rcases pushArguments_settled arguments s with ⟨found, hfound, hpush⟩ | ⟨p, hfound, -⟩
  · cases h.symm.trans hfound
    exact hpush
  · cases h.symm.trans hfound

/-- Tokens with an end token are read as arguments exactly if those before the first end token are assignments, and
then the arguments are the names and the numbers of these, in their order. Otherwise the one report is at the first
token that does not belong where it stands. A session that is given texts as arguments binds what the assignments in
them set, one after the other, and nothing else of its machine changes. Or the texts do not scan to assignments, and
then it answers that, with one report, and leaves its bindings, its functions and its random source as they are. -/
theorem arguments_are_assignments {tokens : List Token} (hend : Read.Ending tokens) :
    (∀ m arguments, Eval.ofRead (Argument.ofTokens tokens) m = .ok (.ok arguments) m ↔
      ∃ assignments, Assignment.Make assignments tokens ∧ arguments = assignments.map Assignment.argument) ∧
    (∀ m, (¬∃ assignments, Assignment.Make assignments tokens) →
      ∃ t, Assignment.Astray tokens t ∧
        let p := Problem.parse ⟨.malformedArgument, t.position⟩
        Eval.ofRead (Argument.ofTokens tokens) m = .ok (.error p) (m.reported p)) ∧
    ∀ (texts : List String) (s : Session),
      let source := String.intercalate " " texts
      (∃ scanned assignments bindings m, scan source = .ok scanned ∧ Assignment.Make assignments scanned ∧
        List.Forall₂ Assignment.Binds assignments bindings ∧
        Shell.pushArguments texts s = .ok true { s with machine := m } ∧
        m.scope.toList = s.machine.scope.toList ++ bindings ∧
        m.functions = s.machine.functions ∧ m.dice = s.machine.dice ∧ m.reports = s.machine.reports) ∨
      ((∀ scanned, scan source = .ok scanned → ¬∃ assignments, Assignment.Make assignments scanned) ∧
        ∃ m p, Shell.pushArguments texts s = .ok false { s with machine := m } ∧
          m.scope = s.machine.scope ∧ m.functions = s.machine.functions ∧ m.dice = s.machine.dice ∧
          m.reports = s.machine.reports ++ [p]) := by
  refine ⟨fun m arguments => ?_, fun m hnone => ?_, fun texts s => ?_⟩
  · rw [Eval.ofRead_eq_ok_iff]
    constructor
    · intro h
      rcases Assignment.make_or_astray hend with ⟨assignments, hmake⟩ | ⟨t, hastray⟩
      · cases h.symm.trans (Argument.ofTokens_of_make hend hmake)
        exact ⟨assignments, hmake, rfl⟩
      · cases h.symm.trans (Argument.ofTokens_of_astray hastray)
    · rintro ⟨assignments, hmake, rfl⟩
      exact Argument.ofTokens_of_make hend hmake
  · obtain ⟨t, hastray⟩ := (Assignment.make_or_astray hend).resolve_left hnone
    refine ⟨t, hastray, ?_⟩
    rw [Argument.ofTokens_of_astray hastray]
    rfl
  · intro source
    rcases Shell.pushArguments_settled texts s with ⟨bindings, hfound, hpush⟩ | ⟨p, hfound, -, hpush⟩
    · obtain ⟨scanned, assignments, hscan, hmake, hbinds⟩ := bindings?_eq_some_iff.1 hfound
      have hstate := Eval.state_pushedAll bindings s.machine
      refine .inl ⟨scanned, assignments, bindings, _, hscan, hmake, hbinds, hpush, ?_,
        congrArg State.functions hstate, congrArg State.dice hstate, congrArg State.reports hstate⟩
      simp [Scope.toList, Eval.scope_pushedAll]
    · exact .inr ⟨bindings?_eq_none_iff.1 hfound, _, p, hpush, rfl, rfl, rfl, Machine.reports_reported _ p⟩

/-- An assignment, and a second one that is broken off by the end. The end token goes astray. -/
theorem arguments_are_assignments_cut :
    let token (kind : Kind) (lexeme : String) (literal : Json) (column : Int) : Token :=
      Word.at ⟨kind, .text lexeme, literal⟩ ⟨1, column⟩
    let last := token .endOfInput "" .null 7
    let tokens := [token .identifier "x" .null 1, token .equal "=" .null 2, token .integer "5" (.integer 5) 3,
      token .identifier "y" .null 5, token .equal "=" .null 6, last]
    let m := Machine.initial ⟨[], 0⟩ 0
    let p := Problem.parse ⟨.malformedArgument, last.position⟩
    Read.Ending tokens ∧ (¬∃ assignments, Assignment.Make assignments tokens) ∧
      ∃ t, Assignment.Astray tokens t ∧ t.position = last.position ∧
        Eval.ofRead (Argument.ofTokens tokens) m = .ok (.error p) (m.reported p) := by
  intro token last tokens m p
  have hend : Read.Ending tokens := ⟨last, by decide, rfl⟩
  have hread : Eval.ofRead (Argument.ofTokens tokens) m = .ok (.error p) (m.reported p) := rfl
  obtain ⟨haccepts, hrejects, -⟩ := arguments_are_assignments hend
  have hnone : ¬∃ assignments, Assignment.Make assignments tokens := by
    rintro ⟨assignments, hmake⟩
    have hok := (haccepts m _).2 ⟨assignments, hmake, rfl⟩
    rw [hread] at hok
    cases hok
  obtain ⟨t, hastray, hreport⟩ := hrejects m hnone
  have hplace : t.position = last.position := by
    injection hread.symm.trans hreport with hproblem
    injection hproblem with hproblem
    injection hproblem with hproblem
    injection hproblem with _ hposition
    exact hposition.symm
  exact ⟨hend, hnone, t, hastray, hplace, hread⟩

end DiceScript
