import DiceScript.Proofs.Evaluation.Blame
import DiceScript.Proofs.Scanning.Tokenisation
import DiceScript.Proofs.Sessions.Runs

/-!
# Reports can be shown

A report can be shown if its position is that of a scanned token, or none at all. This holds of whatever comes of
texts: what does not scan is reported where scanning has come to, malformed arguments at a token of their text, and
an error of an evaluation at an operator, which is a token of the text that the operator was compiled from.
-/

namespace DiceScript

def Token.IsPlaced (t : Token) : Prop :=
  ∃ p : Position, t.position = p.mark

def Problem.IsShown (p : Problem) : Prop :=
  p.consoleLine?.isSome

theorem Problem.isShown_of_mark {p : Problem} {place : Position} (h : p.position = place.mark) : p.IsShown := by
  unfold IsShown consoleLine?
  rw [h]
  have hnumber : ∃ before, place.mark.line.before? (.integer 0) = some before := ⟨_, rfl⟩
  obtain ⟨before, hbefore⟩ := hnumber
  rw [hbefore]
  cases before <;> rfl

theorem Problem.isShown_runtime {e : RuntimeError} (h : ∀ op, e.operator? = some op → op.IsPlaced) :
    (Problem.runtime e).IsShown := by
  cases hoperator : e.operator? with
  | none =>
    have hposition : e.position = Position.unknown.mark := by simp [RuntimeError.position, hoperator]
    exact isShown_of_mark hposition
  | some op =>
    obtain ⟨place, hplace⟩ := h op hoperator
    have hposition : e.position = place.mark := by simp [RuntimeError.position, hoperator, hplace]
    exact isShown_of_mark hposition

theorem Tokenised.isPlaced {before cs : List Char} {tokens : List Token} (h : Tokenised before cs tokens) :
    ∀ t ∈ tokens, t.IsPlaced := by
  induction h with
  | done =>
    intro t ht
    obtain rfl := List.mem_singleton.1 ht
    exact ⟨_, rfl⟩
  | stretch _ _ _ ih =>
    intro t ht
    rcases List.mem_append.1 ht with ht | ht
    · obtain ⟨w, -, rfl⟩ := List.mem_map.1 ht
      exact ⟨_, rfl⟩
    · exact ih t ht

theorem scan_isPlaced {source : String} {tokens : List Token} (h : scan source = .ok tokens) :
    ∀ t ∈ tokens, t.IsPlaced := by
  unfold scan at h
  split at h
  · cases h
  · have htokenised : Tokenised [] source.toList tokens := Lexer.scanFrom_tokenised h
    exact htokenised.isPlaced

/-! The operators of a script are tokens of its text. -/

namespace Expr

theorem applies_iff {e : Expr} {op : Token} :
    e.Applies op ↔ e.operator? = some op ∨ ∃ child ∈ e.children, child.Applies op := by
  constructor
  · rintro ⟨node, hnode, hop⟩
    cases hnode with
    | here => exact .inl hop
    | inside hchild hnode => exact .inr ⟨_, hchild, node, hnode, hop⟩
  · rintro (hop | ⟨child, hchild, hop⟩)
    · exact ⟨e, .here, hop⟩
    · exact hop.inside hchild

theorem not_applies_missing (op : Token) : ¬ missing.Applies op := by
  rw [applies_iff]
  simp [operator?, children]

theorem not_applies_ofLiteral (kind : LiteralKind) (content : Json) (op : Token) :
    ¬ (ofLiteral kind content).Applies op := by
  have hform (form : Form) : ¬ (ofForm form).Applies op := by
    unfold ofForm
    rw [applies_iff]
    split <;> simp [operator?, children]
  cases kind <;> exact hform _

end Expr

namespace Grammar

variable {ts : List Token} {op : Token}

theorem mem_of_parts {parts : List (List Token × Expr)} {us : List Token}
    (hlisted : Listed (parts.map Prod.fst) us) (ih : ∀ p ∈ parts, p.2.Applies op → op ∈ p.1) :
    ∀ e ∈ parts.map Prod.snd, e.Applies op → op ∈ us := by
  intro e he hop
  obtain ⟨p, hp, rfl⟩ := List.mem_map.1 he
  exact hlisted.subset (List.mem_map_of_mem hp) (ih p hp hop)

/-- The operators of a derived tree are among the tokens that it is derived from. -/
theorem Derives.mem_of_applies {level : Level} {e : Expr} (h : Derives level ts e) : e.Applies op → op ∈ ts := by
  induction h with
  | tighter _ ih => exact ih
  | name =>
    rw [Expr.applies_iff]
    simp [Expr.operator?, Expr.children, Expr.not_applies_missing]
  | text | number => exact fun hop => absurd hop (Expr.not_applies_ofLiteral _ _ op)
  | probability =>
    rw [Expr.applies_iff]
    rintro (hop | ⟨child, hchild, hop⟩)
    · simp_all [Expr.operator?]
    · obtain rfl := List.mem_singleton.1 hchild
      exact absurd hop (Expr.not_applies_ofLiteral _ _ op)
  | call _ _ _ _ hlisted _ ih | collection _ _ hlisted _ ih =>
    rw [Expr.applies_iff]
    rintro (hop | ⟨child, hchild, hop⟩)
    · cases hop
    · simp [mem_of_parts hlisted ih child hchild hop]
  | _ =>
    -- What is left are rules with a fixed number of parts, each with tokens of its own.
    rw [Expr.applies_iff]
    simp only [Expr.operator?, Expr.children, List.mem_cons, List.mem_append, List.not_mem_nil, or_false,
      exists_eq_or_imp, exists_eq_left, reduceCtorEq, false_or, Option.some.injEq]
    grind

theorem Definitions.mem_of_applies {entries : Table Name Expr} (h : Definitions ts entries) :
    ∀ entry ∈ entries, entry.2.Applies op → op ∈ ts := by
  induction h with
  | none =>
    intro entry hentry
    cases hentry
  | cons _ _ _ _ _ _ _ hbody _ ih =>
    rw [List.forall_mem_cons]
    refine ⟨fun hop => ?_, fun entry hentry hop => ?_⟩
    · rcases Expr.applies_iff.1 hop with hself | ⟨child, hchild, hinside⟩
      · cases hself
      · obtain rfl := List.mem_singleton.1 hchild
        simp [hbody.mem_of_applies hinside]
    · simp [ih entry hentry hop]

/-- Every operator of a script is one of the tokens that it is read from. -/
theorem mem_of_ofTokens {tokens : List Token} {script : Script} (h : Script.ofTokens tokens = .ok script) :
    (script.expression.Applies op → op ∈ tokens) ∧
      ∀ entry ∈ script.functions, entry.2.Applies op → op ∈ tokens := by
  obtain ⟨_, hread⟩ := gives_of_ofTokens h
  obtain ⟨before, main, after, last, rest, earlier, later, rfl, -, hmain, hearlier, hlater, hfunctions, -⟩ :=
    readScript_sound hread
  refine ⟨fun hop => ?_, fun entry hentry hop => ?_⟩
  · simp [hmain.mem_of_applies hop]
  · rw [hfunctions, List.mem_append] at hentry
    rcases hentry with hentry | hentry
    · simp [hearlier.mem_of_applies entry hentry hop]
    · simp [hlater.mem_of_applies entry hentry hop]

end Grammar

/-- The operators of a script that was compiled are at their places. -/
theorem isPlaced_of_compiled? {source : String} {script : Script} (h : compiled? source = some script) :
    (∀ op, script.expression.Applies op → op.IsPlaced) ∧
      ∀ entry ∈ script.functions, ∀ op, entry.2.Applies op → op.IsPlaced := by
  obtain ⟨tokens, hscan, hread⟩ := compiled?_eq_some_iff.1 h
  have hplaced := scan_isPlaced hscan
  refine ⟨fun op hop => ?_, fun entry hentry op hop => ?_⟩
  · exact hplaced op ((Grammar.mem_of_ofTokens hread).1 hop)
  · exact hplaced op ((Grammar.mem_of_ofTokens hread).2 entry hentry hop)

/-! The bindings that a text stands for. -/

namespace Argument

/-- Scanned tokens are read as arguments that all have a number, or one of them is where the arguments are
malformed. -/
theorem ofTokens_settled {tokens : List Token} (hend : Read.Ending tokens)
    (hts : ∀ t ∈ tokens, t.toWord.Scanned) :
    (∃ found bindings, ofTokens tokens = .ok found ∧ found.mapM binding? = some bindings) ∨
      ∃ t ∈ tokens, ofTokens tokens = malformed t := by
  have hnone : ¬ Read.Ending [] := fun h => absurd h.length_pos (by simp)
  have hkind {t : Token} {kind : Kind} (h : ¬ t.kind ≠ kind) (hne : kind ≠ .endOfInput) :
      t.kind ≠ .endOfInput := by
    rw [not_not.1 h]
    exact hne
  fun_induction ofTokens tokens with
  | case1 => exact absurd hend hnone
  | case2 => exact .inl ⟨[], [], rfl, rfl⟩
  | case3 name rest => exact .inr ⟨name, List.mem_cons_self, rfl⟩
  | case4 name hname => exact absurd (hend.tail hname) hnone
  | case5 name _ _ sign rest => exact .inr ⟨sign, by simp, rfl⟩
  | case6 name hname _ sign hsign => exact absurd ((hend.tail hname).tail (hkind hsign (by decide))) hnone
  | case7 name _ _ sign _ number rest => exact .inr ⟨number, by simp, rfl⟩
  | case8 name hname _ sign hsign number rest hnumber ih =>
    have hrest := ((hend.tail hname).tail (hkind hsign (by decide))).tail (hkind hnumber (by decide))
    simp only [List.forall_mem_cons] at hts
    obtain ⟨n, hn⟩ := hts.2.2.1.number (not_not.1 hnumber)
    rcases ih hrest hts.2.2.2 with ⟨found, bindings, hfound, hbindings⟩ | ⟨t, ht, hmalformed⟩
    · refine .inl ⟨_, ⟨name.lexeme, .number n⟩ :: bindings, by rw [hfound]; rfl, ?_⟩
      have hbinding : binding? ⟨name.lexeme, number.literal⟩ = some ⟨name.lexeme, .number n⟩ := by
        simp [binding?, hn]
      simp [List.mapM_cons, hbinding, hbindings]
    · refine .inr ⟨t, by simp [ht], ?_⟩
      rw [hmalformed]
      rfl

end Argument

def bindings? (source : String) : Option (List Binding) :=
  (scan source).toOption.bind fun tokens =>
    (Argument.ofTokens tokens).toOption.bind fun found => found.mapM Argument.binding?

namespace Eval

inductive CompiledBindings (source : String) (m : Machine) :
    EStateM.Result Stop Machine (Except Problem (List Binding)) → Prop
  | bindings {found : List Binding} (h : bindings? source = some found) : CompiledBindings source m (.ok (.ok found) m)
  | malformed {p : Problem} (h : bindings? source = none) (hshown : p.IsShown) :
    CompiledBindings source m (.ok (.error p) (m.reported p))

theorem compileBindings_settled (source : String) (m : Machine) :
    CompiledBindings source m (compileBindings source m) := by
  unfold compileBindings scanned
  cases hscan : scan source with
  | error e => exact .malformed (by simp [bindings?, hscan, Except.toOption]) (Problem.isShown_of_mark rfl)
  | ok tokens =>
    rcases Argument.ofTokens_settled (scan_ending hscan) (scan_scanned hscan) with
      ⟨found, bindings, hfound, hbindings⟩ | ⟨t, ht, hmalformed⟩
    · have hsome : bindings? source = some bindings := by simp [bindings?, hscan, hfound, hbindings, Except.toOption]
      simp only [hfound, ofRead, bind, EStateM.bind, pure, EStateM.pure, hbindings]
      exact .bindings hsome
    · obtain ⟨place, hplace⟩ := scan_isPlaced hscan t ht
      have hnone : bindings? source = none := by
        simp [bindings?, hscan, hmalformed, Argument.malformed, Except.toOption]
      simp only [hmalformed, Argument.malformed, ofRead, bind, EStateM.bind, pure, EStateM.pure]
      exact .malformed hnone (Problem.isShown_of_mark hplace)

def pushedAll (m : Machine) (bindings : List Binding) : Machine :=
  bindings.foldl (fun m b => { m.traced (.pushing b) with scope := (m.traced (.pushing b)).scope.push b }) m

theorem pushAll_eq (bindings : List Binding) (m : Machine) : pushAll bindings m = .ok () (pushedAll m bindings) := by
  induction bindings generalizing m with
  | nil => rfl
  | cons b rest ih => exact ih _

theorem pushedAll_told (bindings : List Binding) (m : Machine) : Tells m [] (pushedAll m bindings) := by
  induction bindings generalizing m with
  | nil => exact tells_self m
  | cons b rest ih =>
    have htold := (tells_self m).traced (.pushing b)
    have hpushed : Tells m []
        { m.traced (.pushing b) with scope := (m.traced (.pushing b)).scope.push b } :=
      ⟨htold.functions, htold.reports⟩
    exact hpushed.trans (ih _)

theorem reports_enteredAll (functions : Table Name Expr) (m : Machine) :
    (enteredAll m functions).reports = m.reports := by
  induction functions generalizing m with
  | nil => rfl
  | cons entry rest ih => exact (ih _).trans (Machine.reports_traced m _)

end Eval

end DiceScript
