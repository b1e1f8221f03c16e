import DiceScript.Machine.Run
import DiceScript.Proofs.Grammar.Soundness
import DiceScript.Proofs.Grammar.Trees
import DiceScript.Proofs.Scanning.Words

/-!
# Trees that scripts stand for

A tree may hold what no script contains. `isScripted` rules this out: there are no missing expressions, no
functions inside expressions and no literals without a value, every operator has the operands that are its
own, and names are texts. A tree that the grammar derives from scanned tokens is such a tree, so those of a
compiled script are.
-/

namespace DiceScript

namespace Kind

/-- What has a schema between two operands is an operator there. -/
theorem isBinary_of_binarySchema? {kind : Kind} {schema : BinarySchema} (h : kind.binarySchema? = some schema) :
    kind.isBinary = true := by
  cases kind <;> first | rfl | cases h

theorem isUnary_of_unarySchema? {kind : Kind} {schema : UnarySchema} (h : kind.unarySchema? = some schema) :
    kind.isUnary = true := by
  cases kind <;> first | rfl | cases h

end Kind

namespace Expr

mutual

def isScripted : Expr → Bool
  | .missing | .misfit _ | .function _ _ _ => false
  | .literal _ => true
  | .var name .missing => name.isText
  | .var name fallback => name.isText && fallback.isScripted
  | .binary l op schema r => op.kind.binarySchema? = some schema && l.isScripted && r.isScripted
  | .unary op schema e =>
    op.kind.unarySchema? = some schema && op.lexeme.isText && e.isScripted
  | .conditional c t f => c.isScripted && t.isScripted && f.isScripted
  | .foreach _ source body => source.isScripted && body.isScripted
  | .loop _ _ body _ test => body.isScripted && test.isScripted
  | .binding _ definition use => definition.isScripted && use.isScripted
  | .call name arguments => name.isText && allScripted arguments
  | .collection elements => allScripted elements
  | .pair a b => a.isScripted && b.isScripted
  | .group e => e.isScripted

def allScripted : List Expr → Bool
  | [] => true
  | e :: rest => e.isScripted && allScripted rest

end

def isCallable : Expr → Bool
  | .function _ _ body => body.isScripted
  | _ => false

theorem allScripted_iff {es : List Expr} : allScripted es = true ↔ ∀ e ∈ es, e.isScripted = true := by
  induction es with
  | nil => simp [allScripted]
  | cons e es ih => simp [allScripted, ih]

/-- Whether a node may stand in the tree of a script, whatever is below it. -/
def isFit : Expr → Bool
  | .missing | .misfit _ | .function _ _ _ => false
  | .var name _ | .call name _ => name.isText
  | .binary _ op schema _ => op.kind.binarySchema? = some schema
  | .unary op schema _ => op.kind.unarySchema? = some schema && op.lexeme.isText
  | _ => true

/-- A tree is scripted if its nodes are fit, where a variable may do without a fallback. -/
theorem isScripted_iff {e : Expr} :
    e.isScripted = true ↔
      e.isFit = true ∧ ((∀ name, e ≠ .var name .missing) → ∀ child ∈ e.children, child.isScripted = true) := by
  cases e with
  | var name fallback => cases fallback <;> simp [isScripted, isFit, children]
  | call name arguments => simp [isScripted, isFit, children, allScripted_iff]
  | collection elements => simp [isScripted, isFit, children, allScripted_iff]
  | _ => simp [isScripted, isFit, children, and_assoc]

theorem isScripted_of_children {e : Expr} (hfit : e.isFit = true)
    (h : ∀ child ∈ e.children, child.isScripted = true) : e.isScripted = true :=
  isScripted_iff.2 ⟨hfit, fun _ => h⟩

/-- What every fit node has if those right below it have it, all scripted trees have. -/
theorem scripted_induction {p : Expr → Prop}
    (h : ∀ e : Expr, e.isFit = true → ((∀ name, e ≠ .var name .missing) → ∀ child ∈ e.children, p child) → p e)
    {e : Expr} (he : e.isScripted = true) : p e := by
  induction e using children_induction with
  | h e ih =>
    obtain ⟨hfit, hchildren⟩ := isScripted_iff.1 he
    exact h e hfit fun hvar child hchild => ih child hchild (hchildren hvar child hchild)

theorem allShowable_iff {es : List Expr} : allShowable es = true ↔ ∀ e ∈ es, e.isShowable = true := by
  induction es with
  | nil => simp [allShowable]
  | cons e es ih => simp [allShowable, ih]

/-- What a script stands for can be shown. -/
theorem isShowable_of_isScripted {e : Expr} (he : e.isScripted = true) : e.isShowable = true := by
  refine scripted_induction (p := fun e => e.isShowable = true) (fun e hfit h => ?_) he
  cases e with
  | missing | misfit form | function name parameters body => cases hfit
  | var name fallback => cases fallback <;> simp_all [isShowable, isFit, children]
  | _ => simp_all [isShowable, children, allShowable_iff]

end Expr

namespace Grammar

variable {ts : List Token}

theorem Listed.scanned {parts : List (List Token)} (h : Listed parts ts)
    (hts : ∀ t ∈ ts, t.toWord.Scanned) : ∀ p ∈ parts, ∀ t ∈ p, t.toWord.Scanned :=
  fun _ hp t ht => hts t (h.subset hp ht)

/-- What every part of scanned tokens has, all that are listed have. -/
theorem Listed.forall_parts {p : Expr → Prop} {parts : List (List Token × Expr)}
    (h : Listed (parts.map Prod.fst) ts) (hts : ∀ t ∈ ts, t.toWord.Scanned)
    (hp : ∀ part ∈ parts, (∀ t ∈ part.1, t.toWord.Scanned) → p part.2) : ∀ e ∈ parts.map Prod.snd, p e := by
  intro e he
  obtain ⟨part, hpart, rfl⟩ := List.mem_map.1 he
  exact hp part hpart (h.scanned hts part.1 (List.mem_map_of_mem hpart))

/-! The literals of scanned tokens have values. -/

theorem isScripted_text {t : Token} (h : t.toWord.Scanned) (ht : t.kind = .string) :
    (Expr.ofLiteral .text t.literal).isScripted = true := by
  obtain ⟨s, hs⟩ := h.text ht
  simp [hs, Expr.ofLiteral, Expr.ofForm, Form.toValue?, Expr.isScripted]

theorem isScripted_number {t : Token} (h : t.toWord.Scanned) (ht : t.kind = .integer) :
    (Expr.ofLiteral .number t.literal).isScripted = true := by
  obtain ⟨n, hn⟩ := h.number ht
  simp [hn, Expr.ofLiteral, Expr.ofForm, Form.toValue?, Form.number?, Expr.isScripted]

theorem isScripted_real {t : Token} (h : t.toWord.Scanned) (ht : t.kind = .real) :
    (Expr.ofLiteral .real t.literal).isScripted = true := by
  obtain ⟨x, hx⟩ := h.real ht
  simp [hx, Expr.ofLiteral, Expr.ofForm, Form.toValue?, Expr.isScripted]

/-- An operator before an operand, under the schema that the operator has. -/
theorem isScripted_unary {op : Token} {schema : UnarySchema} {e : Expr} (hop : op.toWord.Scanned)
    (hschema : op.kind.unarySchema? = some schema) (he : e.isScripted = true) :
    (Expr.unary op schema e).isScripted = true :=
  Expr.isScripted_of_children (by simp [Expr.isFit, hschema, hop.spelt]) (by simpa [Expr.children] using he)

theorem unarySchema?_of_dieWord {k : Kind} (h : k ∈ dieWords) : k.unarySchema? = some .singleton := by
  have hall : ∀ k ∈ dieWords, k.unarySchema? = some .singleton := by decide
  exact hall k h

theorem binarySchema?_of_pairWord {k : Kind} (h : k ∈ pairWords) : k.binarySchema? = some .singletonCollection := by
  have hall : ∀ k ∈ pairWords, k.binarySchema? = some .singletonCollection := by decide
  exact hall k h

/-- A tree derived from scanned tokens is one that a script may stand for. -/
theorem Derives.isScripted {level : Level} {e : Expr} (h : Derives level ts e) (hts : ∀ t ∈ ts, t.toWord.Scanned) :
    e.isScripted = true := by
  induction h with
  | tighter _ ih => exact ih hts
  | name => exact (hts _ List.mem_cons_self).spelt
  | text ht => exact isScripted_text (hts _ List.mem_cons_self) ht
  | number ht => exact isScripted_number (hts _ List.mem_cons_self) ht
  | probability hop ht =>
    simp only [List.forall_mem_cons] at hts
    exact isScripted_unary hts.1 (by rw [hop]; rfl) (isScripted_real hts.2.1 ht)
  | negate hop _ ih =>
    obtain ⟨hscanned, he⟩ := List.forall_mem_cons.1 hts
    exact isScripted_unary hscanned (by rw [hop]; rfl) (ih he)
  | apply _ hschema _ ih =>
    obtain ⟨hscanned, he⟩ := List.forall_mem_cons.1 hts
    exact isScripted_unary hscanned hschema (ih he)
  | die hop _ ih =>
    obtain ⟨hscanned, he⟩ := List.forall_mem_cons.1 hts
    exact isScripted_unary hscanned (unarySchema?_of_dieWord hop) (ih he)
  | applyPair hop _ _ _ ihl ihr =>
    refine Expr.isScripted_of_children (decide_eq_true (binarySchema?_of_pairWord hop)) ?_
    simp_all [Expr.children]
  | operation _ _ hschema _ ihl ihr =>
    refine Expr.isScripted_of_children (decide_eq_true hschema) ?_
    simp_all [Expr.children]
  | fallback _ _ _ ihl ihr =>
    simp only [List.forall_mem_append, List.forall_mem_cons] at hts
    refine Expr.isScripted_of_children (Expr.isScripted_iff.1 (ihl hts.1)).1 ?_
    simpa [Expr.children] using ihr hts.2.2
  | call _ _ _ _ hlisted _ ih =>
    simp only [List.forall_mem_append, List.forall_mem_cons] at hts
    obtain ⟨⟨-, hname, -, harguments⟩, -⟩ := hts
    exact Expr.isScripted_of_children hname.spelt (hlisted.forall_parts harguments ih)
  | collection _ _ hlisted _ ih =>
    simp only [List.forall_mem_append, List.forall_mem_cons] at hts
    exact Expr.isScripted_of_children rfl (hlisted.forall_parts hts.1.2 ih)
  | _ =>
    -- What is left are rules with a fixed number of parts, each with tokens of its own.
    refine Expr.isScripted_of_children rfl ?_
    simp_all [Expr.children]

/-- What every function has that is read from scanned tokens, all entries have. -/
theorem Definitions.forall_entries {p : Name × Expr → Prop} {entries : Table Name Expr} (h : Definitions ts entries)
    (hp : ∀ (name : Token) (parameters : List Name) (bs : List Token) (body : Expr), name.toWord.Scanned →
      (∀ t ∈ bs, t.toWord.Scanned) → Derives .expression bs body →
        p (name.lexeme, .function name.lexeme parameters body)) :
    (∀ t ∈ ts, t.toWord.Scanned) → ∀ entry ∈ entries, p entry := by
  induction h with
  | none =>
    intro _ entry hentry
    cases hentry
  | cons _ _ _ _ _ _ _ hbody _ ih =>
    intro hts
    simp only [List.forall_mem_append, List.forall_mem_cons] at hts ⊢
    obtain ⟨⟨⟨-, hname, -⟩, -, -, hbs⟩, hrest⟩ := hts
    exact ⟨hp _ _ _ _ hname hbs hbody, ih hrest⟩

theorem Definitions.isCallable {entries : Table Name Expr} (h : Definitions ts entries) :
    (∀ t ∈ ts, t.toWord.Scanned) → ∀ entry ∈ entries, entry.2.isCallable = true :=
  h.forall_entries fun _ _ _ _ _ hbs hbody => hbody.isScripted hbs

/-- The functions of scanned tokens are entered under their own names, which are texts. -/
theorem Definitions.isNamed {entries : Table Name Expr} (h : Definitions ts entries) :
    (∀ t ∈ ts, t.toWord.Scanned) → ∀ entry ∈ entries, entry.1.isText = true ∧ entry.2.name? = some entry.1 :=
  h.forall_entries fun _ _ _ _ hname _ _ => ⟨hname.spelt, rfl⟩

/-- What scanned tokens are read as. -/
theorem isScripted_of_ofTokens {tokens : List Token} {script : Script}
    (hts : ∀ t ∈ tokens, t.toWord.Scanned) (h : Script.ofTokens tokens = .ok script) :
    script.expression.isScripted = true ∧ ∀ entry ∈ script.functions, entry.2.isCallable = true := by
  obtain ⟨_, hread⟩ := gives_of_ofTokens h
  obtain ⟨before, main, after, last, rest, earlier, later, rfl, -, hmain, hearlier, hlater,
    hfunctions, -⟩ := readScript_sound hread
  simp only [List.forall_mem_append] at hts
  obtain ⟨⟨⟨hbefore, hmain'⟩, hafter⟩, -⟩ := hts
  refine ⟨hmain.isScripted hmain', ?_⟩
  rw [hfunctions, List.forall_mem_append]
  exact ⟨hearlier.isCallable hbefore, hlater.isCallable hafter⟩

end Grammar

namespace Eval

theorem ofTokens_of_compile {source : String} {before after : Machine} {script : Script}
    (h : compile source before = .ok (.ok script) after) :
    ∃ tokens, scan source = .ok tokens ∧ Script.ofTokens tokens = .ok script := by
  unfold compile scanned at h
  cases hscan : scan source with
  | error e =>
    rw [hscan] at h
    cases h
  | ok tokens =>
    rw [hscan] at h
    refine ⟨tokens, rfl, ?_⟩
    change ofRead (Script.ofTokens tokens) before = _ at h
    cases hread : Script.ofTokens tokens with
    | ok found =>
      rw [hread] at h
      cases h
      rfl
    | error stop =>
      rw [hread] at h
      cases stop <;> cases h

theorem compile_of_ofTokens {source : String} {tokens : List Token} {script : Script}
    (hscan : (scan source).toOption = some tokens) (hread : Script.ofTokens tokens = .ok script)
    (m : Machine) : compile source m = .ok (.ok script) m := by
  unfold compile scanned
  cases hs : scan source with
  | error e =>
    rw [hs] at hscan
    cases hscan
  | ok found =>
    rw [hs] at hscan
    cases hscan
    change ofRead (Script.ofTokens tokens) m = _
    rw [hread]
    rfl

/-- Compiling yields a tree that a script may stand for, and functions with such bodies. -/
theorem isScripted_of_compile {source : String} {before after : Machine} {script : Script}
    (h : compile source before = .ok (.ok script) after) :
    script.expression.isScripted = true ∧ ∀ entry ∈ script.functions, entry.2.isCallable = true := by
  obtain ⟨tokens, hscan, hread⟩ := ofTokens_of_compile h
  exact Grammar.isScripted_of_ofTokens (scan_scanned hscan) hread

end Eval

end DiceScript
