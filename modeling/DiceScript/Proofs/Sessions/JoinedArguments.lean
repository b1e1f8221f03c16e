import DiceScript.Proofs.Scanning.Joining
import DiceScript.Proofs.Sessions.Bindings

/-!
# Arguments that are read together

The arguments of a session are joined with spaces before anything is read, so they are judged together and not one by
one. An assignment may be spread over several of them, an argument may hold any number of assignments, and a comment
that an argument leaves open hides the next one. Apart from this, what is accepted is what each argument says by
itself.
-/

namespace DiceScript

open Lexer

/-- An argument by itself is read as exactly one binding. -/
def Alone (argument : String) (b : Binding) : Prop :=
  ∃ tokens read, scan argument = .ok tokens ∧ Argument.ofTokens tokens = .ok [read] ∧ read.binding? = some b

/-- Arguments taken together are assignments: what is heard of each has words, and all of these, one after the other,
assign the bindings. A single empty argument is no text at all. -/
def Together (arguments : List String) (bindings : List Binding) : Prop :=
  arguments ≠ [""] ∧ ∃ parts, List.Forall₂ Has (heard false (arguments.map String.toList)) parts ∧
    Assigns parts.flatten bindings

/-! Words of several assignments. -/

theorem Assigns.kind_ne {words : List Word} {bindings : List Binding} (h : Assigns words bindings) :
    ∀ w ∈ words, w.kind ≠ .string := by
  induction h with
  | nil => simp
  | cons hname hsign hnumber _ _ ih => simpa [hname, hsign, hnumber] using ih

theorem Assigns.append {words others : List Word} {bindings later : List Binding} (h : Assigns words bindings)
    (hothers : Assigns others later) : Assigns (words ++ others) (bindings ++ later) := by
  induction h with
  | nil => exact hothers
  | cons hname hsign hnumber hliteral _ ih => exact .cons hname hsign hnumber hliteral ih

theorem assigns_flatten {parts : List (List Word)} {bindings : List Binding}
    (h : List.Forall₂ (fun part b => Assigns part [b]) parts bindings) : Assigns parts.flatten bindings := by
  induction h with
  | nil => exact .nil
  | cons hpart _ ih => exact hpart.append ih

/-- Assignments whose words come in threes have one assignment in each three. -/
theorem forall₂_of_assigns {parts : List (List Word)} {bindings : List Binding} (h : Assigns parts.flatten bindings)
    (hthree : ∀ part ∈ parts, part.length = 3) : List.Forall₂ (fun part b => Assigns part [b]) parts bindings := by
  induction parts generalizing bindings with
  | nil =>
    cases h
    exact .nil
  | cons part parts ih =>
    rw [List.forall_mem_cons] at hthree
    obtain ⟨name, sign, number, rfl⟩ := List.length_eq_three.1 hthree.1
    cases h with
    | cons hname hsign hnumber hliteral h =>
      exact .cons (.cons hname hsign hnumber hliteral .nil) (ih h hthree.2)

/-! What a text stands for. -/

theorem bindings?_eq_some_iff_has {source : String} {bindings : List Binding} :
    bindings? source = some bindings ↔ source ≠ "" ∧ ∃ words, Has source.toList words ∧ Assigns words bindings := by
  rw [bindings?_eq_some_iff_assigns]
  by_cases hsource : source = ""
  · subst hsource
    have hempty : unplaced (scan "") = .error .noSource := rfl
    simp [hempty]
  · rw [unplaced_scan (mt String.toList_eq_nil_iff.1 hsource)]
    simp [hsource, Has]

theorem mapM_eq_singleton_iff {found : List Argument} {b : Binding} :
    found.mapM Argument.binding? = some [b] ↔ ∃ read, found = [read] ∧ read.binding? = some b := by
  rcases found with _ | ⟨read, _ | ⟨next, found⟩⟩ <;> simp [Option.bind_eq_some_iff]

theorem alone_iff {argument : String} {b : Binding} : Alone argument b ↔ bindings? argument = some [b] := by
  unfold Alone bindings?
  cases scan argument with
  | error e => simp [Except.toOption]
  | ok tokens =>
    cases hread : Argument.ofTokens tokens with
    | error e => simp [hread, Except.toOption]
    | ok found => simp [hread, Except.toOption, mapM_eq_singleton_iff]

theorem intercalate_eq_empty_iff {arguments : List String} (hsome : arguments ≠ []) :
    String.intercalate " " arguments = "" ↔ arguments = [""] := by
  obtain ⟨first, rest, rfl⟩ := List.exists_cons_of_ne_nil hsome
  cases rest with
  | nil => simp
  | cons second rest => simp [String.intercalate_cons_cons]

/-- Joined arguments stand for the bindings that they assign together. -/
theorem bindings?_intercalate {arguments : List String} (hsome : arguments ≠ []) {bindings : List Binding} :
    bindings? (String.intercalate " " arguments) = some bindings ↔ Together arguments bindings := by
  rw [bindings?_eq_some_iff_has, ne_eq, intercalate_eq_empty_iff hsome, Together]
  refine and_congr_right fun _ => ?_
  have htext : (String.intercalate " " arguments).toList =
      heardOf false ([' '].intercalate (arguments.map String.toList)) := String.toList_intercalate
  rw [htext]
  have htexts : arguments.map String.toList ≠ [] := mt List.map_eq_nil_iff.1 hsome
  constructor
  · rintro ⟨words, hwords, hassigns⟩
    obtain ⟨parts, hparts, rfl⟩ := (has_intercalate htexts false hassigns.kind_ne).1 hwords
    exact ⟨parts, hparts, hassigns⟩
  · rintro ⟨parts, hparts, hassigns⟩
    exact ⟨_, (has_intercalate htexts false hassigns.kind_ne).2 ⟨parts, hparts, rfl⟩, hassigns⟩

/-- Where no comment is left open, every text is heard as it is. -/
theorem heard_eq_self {texts : List (List Char)} (h : ∀ text ∈ texts.dropLast, openAfter false text = false) :
    heard false texts = texts := by
  induction texts with
  | nil => rfl
  | cons text texts ih =>
    cases texts with
    | nil => rfl
    | cons next texts =>
      rw [List.dropLast_cons_cons, List.forall_mem_cons] at h
      rw [heard, h.1, ih h.2]
      rfl

/-- Arguments are each read as one binding if none is empty and each has the words of one assignment. -/
theorem forall₂_alone_iff {arguments : List String} {bindings : List Binding} :
    List.Forall₂ Alone arguments bindings ↔ (∀ argument ∈ arguments, argument ≠ "") ∧
      ∃ parts, List.Forall₂ Has (arguments.map String.toList) parts ∧
        List.Forall₂ (fun part b => Assigns part [b]) parts bindings := by
  constructor
  · intro h
    induction h with
    | nil => exact ⟨by simp, [], .nil, .nil⟩
    | cons halone _ ih =>
      obtain ⟨hempty, words, hwords, hassigns⟩ := bindings?_eq_some_iff_has.1 (alone_iff.1 halone)
      obtain ⟨hrest, parts, hparts, hbindings⟩ := ih
      exact ⟨List.forall_mem_cons.2 ⟨hempty, hrest⟩, words :: parts, .cons hwords hparts, .cons hassigns hbindings⟩
  · rintro ⟨hempty, parts, hparts, hbindings⟩
    induction hbindings generalizing arguments with
    | nil =>
      cases List.map_eq_nil_iff.1 (List.forall₂_nil_right_iff.1 hparts)
      exact .nil
    | cons hassigns _ ih =>
      obtain ⟨text, texts, hwords, hparts, htexts⟩ := List.forall₂_cons_right_iff.1 hparts
      obtain ⟨argument, arguments, rfl, rfl, rfl⟩ := List.map_eq_cons_iff.1 htexts
      rw [List.forall_mem_cons] at hempty
      exact .cons (alone_iff.2 (bindings?_eq_some_iff_has.2 ⟨hempty.1, _, hwords, hassigns⟩)) (ih hempty.2 hparts)

theorem forall_length_of_has {texts : List (List Char)} {parts : List (List Word)} (h : List.Forall₂ Has texts parts)
    (hthree : ∀ text ∈ texts, ∀ words, Has text words → words.length = 3) : ∀ part ∈ parts, part.length = 3 := by
  induction h with
  | nil => simp
  | cons hpart _ ih =>
    rw [List.forall_mem_cons] at hthree ⊢
    exact ⟨hthree.1 _ hpart, ih hthree.2⟩

section

variable {arguments : List String} {bindings : List Binding}
  (hclosed : ∀ argument ∈ arguments.dropLast, openAfter false argument.toList = false)

include hclosed

theorem heard_arguments : heard false (arguments.map String.toList) = arguments.map String.toList := by
  apply heard_eq_self
  rw [← List.map_dropLast, List.forall_mem_map]
  exact hclosed

theorem together_of_alone (h : List.Forall₂ Alone arguments bindings) :
    Together arguments bindings := by
  obtain ⟨hempty, parts, hparts, hbindings⟩ := forall₂_alone_iff.1 h
  refine ⟨?_, parts, ?_, assigns_flatten hbindings⟩
  · rintro rfl
    exact hempty "" List.mem_cons_self rfl
  · rwa [heard_arguments hclosed]

theorem alone_of_together
    (hthree : ∀ argument ∈ arguments, ∀ words, Has argument.toList words → words.length = 3)
    (h : Together arguments bindings) : List.Forall₂ Alone arguments bindings := by
  obtain ⟨-, parts, hparts, hassigns⟩ := h
  rw [heard_arguments hclosed] at hparts
  refine forall₂_alone_iff.2 ⟨?_, parts, hparts, forall₂_of_assigns hassigns ?_⟩
  · rintro argument hmem rfl
    cases hthree "" hmem [] (has_nil.2 rfl)
  · refine forall_length_of_has hparts ?_
    rw [List.forall_mem_map]
    exact hthree

end

/-- Arguments are judged together. If what is heard of them are words that are assignments, then the session answers so
and its bindings grow by exactly those that are assigned, in their order; otherwise it answers that they are malformed,
and its bindings stay as they are. Suppose that no argument but the last one leaves a comment open. If each argument by
itself is read as one binding, then these are what is bound. Conversely, if each argument has three words or does not
scan, then the session accepts them only if each by itself is read as one binding, and binds these. -/
theorem arguments_judged_together {arguments : List String} (hsome : arguments ≠ []) (s : Session) :
    (∀ bindings, Together arguments bindings → ∃ m, Shell.pushArguments arguments s = .ok true { s with machine := m } ∧
      m.scope.toList = s.machine.scope.toList ++ bindings) ∧
    ((¬∃ bindings, Together arguments bindings) →
      ∃ m, Shell.pushArguments arguments s = .ok false { s with machine := m } ∧ m.scope = s.machine.scope) ∧
    ((∀ argument ∈ arguments.dropLast, openAfter false argument.toList = false) → ∀ bindings,
      (List.Forall₂ Alone arguments bindings → Together arguments bindings) ∧
      ((∀ argument ∈ arguments, ∀ words, Has argument.toList words → words.length = 3) →
        Together arguments bindings → List.Forall₂ Alone arguments bindings)) := by
  refine ⟨fun bindings h => ?_, fun hnone => ?_, fun hclosed bindings => ?_⟩
  · refine ⟨_, Shell.pushArguments_of_some ((bindings?_intercalate hsome).2 h) s, ?_⟩
    simp [Scope.toList, Eval.scope_pushedAll]
  · rcases Shell.pushArguments_settled arguments s with ⟨found, hfound, -⟩ | ⟨p, -, -, hpush⟩
    · exact absurd ⟨found, (bindings?_intercalate hsome).1 hfound⟩ hnone
    · exact ⟨_, hpush, rfl⟩
  · exact ⟨together_of_alone hclosed, alone_of_together hclosed⟩

/-- Assignments with a comment behind the last one are bound, and with a name in the place of a number they are not. -/
theorem arguments_judged_together_pair :
    let s : Session := .initial (.initial ⟨[], 0⟩ 0) []
    let x : Binding := ⟨.text "x", .number 5⟩
    let y : Binding := ⟨.text "y", .number 6⟩
    (["x=5", "y = 6 \\ y=7"] ≠ [] ∧ List.Forall₂ Alone ["x=5", "y = 6 \\ y=7"] [x, y] ∧
      ∃ m, Shell.pushArguments ["x=5", "y = 6 \\ y=7"] s = .ok true { s with machine := m } ∧
        m.scope.toList = s.machine.scope.toList ++ [x, y]) ∧
    ["x=5", "y=z"] ≠ [] ∧ (∀ b, ¬Alone "y=z" b) ∧
      ∃ m, Shell.pushArguments ["x=5", "y=z"] s = .ok false { s with machine := m } ∧ m.scope = s.machine.scope := by
  intro s x y
  have hx : Alone "x=5" x := alone_iff.2 (by decide +kernel)
  have hy : Alone "y = 6 \\ y=7" y := alone_iff.2 (by decide +kernel)
  have hz : ∀ b, ¬Alone "y=z" b := by
    intro b hb
    have hnone : bindings? "y=z" = none := by decide +kernel
    cases (alone_iff.1 hb).symm.trans hnone
  have hclosed : openAfter false "x=5".toList = false := by decide
  have hthree {argument : String} (h : (lexed argument.toList).toOption.map List.length = some 4) :
      ∀ words, Has argument.toList words → words.length = 3 := by
    intro words hwords
    rw [show lexed argument.toList = _ from hwords] at h
    simpa [Except.toOption] using h
  constructor
  · have hsome : ["x=5", "y = 6 \\ y=7"] ≠ [] := by simp
    obtain ⟨haccepts, -, hparted⟩ := arguments_judged_together hsome s
    have halone : List.Forall₂ Alone ["x=5", "y = 6 \\ y=7"] [x, y] := .cons hx (.cons hy .nil)
    exact ⟨hsome, halone, haccepts _ ((hparted (by simpa using hclosed) _).1 halone)⟩
  · have hsome : ["x=5", "y=z"] ≠ [] := by simp
    obtain ⟨-, hrejects, hparted⟩ := arguments_judged_together hsome s
    refine ⟨hsome, hz, hrejects ?_⟩
    rintro ⟨bindings, htogether⟩
    have hwords : ∀ argument ∈ ["x=5", "y=z"], ∀ words, Has argument.toList words → words.length = 3 := by
      rw [List.forall_mem_cons, List.forall_mem_singleton]
      exact ⟨hthree (by decide +kernel), hthree (by decide +kernel)⟩
    obtain _ | ⟨-, _ | ⟨hb, -⟩⟩ := (hparted (by simpa using hclosed) bindings).2 hwords htogether
    exact hz _ hb

/-- Three arguments that are one assignment together though none is by itself, and two that are one each though a
comment in the first hides the second. -/
theorem arguments_not_judged_alone :
    let s : Session := .initial (.initial ⟨[], 0⟩ 0) []
    let x : Binding := ⟨.text "x", .number 5⟩
    let y : Binding := ⟨.text "y", .number 6⟩
    (∃ m, Shell.pushArguments ["x", "=", "5"] s = .ok true { s with machine := m } ∧ m.scope = [x] ∧
      ∀ argument ∈ ["x", "=", "5"], ∀ b, ¬Alone argument b) ∧
    ∃ m, Shell.pushArguments ["x=5 \\", "y=6"] s = .ok true { s with machine := m } ∧ m.scope = [x] ∧
      List.Forall₂ Alone ["x=5 \\", "y=6"] [x, y] := by
  intro s x y
  have hspread : bindings? (String.intercalate " " ["x", "=", "5"]) = some [x] := by decide +kernel
  have hhidden : bindings? (String.intercalate " " ["x=5 \\", "y=6"]) = some [x] := by decide +kernel
  refine ⟨⟨_, Shell.pushArguments_of_some hspread s, Eval.scope_pushedAll [x] _, ?_⟩,
    _, Shell.pushArguments_of_some hhidden s, Eval.scope_pushedAll [x] _, ?_⟩
  · intro argument hargument b hb
    have hnone : (["x", "=", "5"].all fun argument => (bindings? argument).isNone) = true := by decide +kernel
    have hargument := List.all_eq_true.1 hnone argument hargument
    rw [alone_iff.1 hb] at hargument
    cases hargument
  · exact .cons (alone_iff.2 (by decide +kernel)) (.cons (alone_iff.2 (by decide +kernel)) .nil)

end DiceScript
