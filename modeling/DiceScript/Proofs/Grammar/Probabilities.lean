import DiceScript.Proofs.Evaluation.Mentions
import DiceScript.Proofs.Grammar.Scripts

/-!
# Where reals stand

A real is a probability, and the grammar has one place for it: right behind the operator `?`. In the tree of a script
no other node has a real below it, and no other operator asks for one. `RealsBehindQuestions` says so of a tree.
-/

namespace DiceScript

def Value.holdsReal : Value → Bool
  | .real _ => true
  | .pair a b => a.holdsReal || b.holdsReal
  | .collection _ | .text _ => false

namespace Expr

def holdsReal : Expr → Bool
  | .literal v => v.holdsReal
  | _ => false

def probability (op : Token) (x : Binary64) : Expr := .unary op .real (.literal (.real x))

def asksReal : Expr → Bool
  | .unary _ .real _ => true
  | _ => false

theorem asksReal_unary {op : Token} {schema : UnarySchema} {operand : Expr} :
    (unary op schema operand).asksReal = false ↔ schema ≠ .real := by
  cases schema <;> simp [asksReal]

/-- A node has to do with a real: one stands right below it, or its operator asks for one. -/
def TakesReal (node : Expr) : Prop :=
  (∃ child ∈ node.children, child.holdsReal = true) ∨ node.asksReal = true

/-- A tree that is no real, and in which only `?` has to do with reals. -/
structure RealsBehindQuestions (e : Expr) : Prop where
  self : e.holdsReal = false
  below : ∀ node : Expr, node.Occurs e → node.TakesReal → ∃ op x, op.kind = .question ∧ node = probability op x

variable {e child : Expr}

theorem realsBehindQuestions_of_children (hself : e.holdsReal = false) (hasks : e.asksReal = false)
    (h : ∀ child ∈ e.children, child.RealsBehindQuestions) : e.RealsBehindQuestions := by
  refine ⟨hself, forall_occurs ?_ fun child hchild => (h child hchild).below⟩
  rintro (⟨child, hchild, hreal⟩ | he)
  · rw [(h child hchild).self] at hreal
    cases hreal
  · rw [hasks] at he
    cases he

theorem realsBehindQuestions_probability {op : Token} (hop : op.kind = .question) (x : Binary64) :
    (probability op x).RealsBehindQuestions := by
  refine ⟨rfl, forall_occurs (fun _ => ⟨op, x, hop, rfl⟩) fun child hchild node hnode htakes => ?_⟩
  obtain rfl := List.mem_singleton.1 hchild
  cases hnode with
  | here =>
    rcases htakes with ⟨_, hnone, -⟩ | h
    · cases hnone
    · cases h
  | inside hnone => cases hnone

/-- A node of such a tree is a `?` on a real, or it has nothing to do with reals and neither have those below. -/
theorem RealsBehindQuestions.eq_probability_or (h : e.RealsBehindQuestions) :
    (∃ op x, op.kind = .question ∧ e = probability op x) ∨
      e.asksReal = false ∧ ∀ child ∈ e.children, child.RealsBehindQuestions := by
  by_cases htakes : e.TakesReal
  · exact .inl (h.below e .here htakes)
  · obtain ⟨hchildren, hasks⟩ := not_or.1 htakes
    refine .inr ⟨Bool.eq_false_iff.2 hasks, fun child hchild => ⟨?_, ?_⟩⟩
    · exact Bool.eq_false_iff.2 fun hreal => hchildren ⟨child, hchild, hreal⟩
    · exact fun node hnode => h.below node (.inside hchild hnode)

theorem realsBehindQuestions_missing : RealsBehindQuestions .missing :=
  realsBehindQuestions_of_children rfl rfl (List.forall_mem_nil _)

end Expr

namespace Grammar

variable {ts : List Token}

/-- A tree derived from scanned tokens has reals only where it has a `?`. -/
theorem Derives.realsBehindQuestions {level : Level} {e : Expr} (h : Derives level ts e) :
    (∀ t ∈ ts, t.toWord.Scanned) → e.RealsBehindQuestions := by
  induction h with
  | tighter _ ih => exact ih
  | probability hop ht =>
    intro hts
    simp only [List.forall_mem_cons] at hts
    obtain ⟨x, hx⟩ := hts.2.1.real ht
    rw [hx]
    exact Expr.realsBehindQuestions_probability hop x
  | text ht =>
    intro hts
    obtain ⟨s, hs⟩ := (hts _ List.mem_cons_self).text ht
    rw [hs]
    exact Expr.realsBehindQuestions_of_children rfl rfl (List.forall_mem_nil _)
  | number ht =>
    intro hts
    obtain ⟨n, hn⟩ := (hts _ List.mem_cons_self).number ht
    rw [hn]
    exact Expr.realsBehindQuestions_of_children rfl rfl (List.forall_mem_nil _)
  | name =>
    intro _
    refine Expr.realsBehindQuestions_of_children rfl rfl ?_
    simpa [Expr.children] using Expr.realsBehindQuestions_missing
  | call _ _ _ _ hlisted _ ih | collection _ _ hlisted _ ih =>
    intro hts
    have hparts := hlisted.forall_parts (fun t ht => hts t (by simp [ht])) ih
    exact Expr.realsBehindQuestions_of_children rfl rfl hparts
  | apply hop hschema _ ih =>
    intro hts
    have hreal : ∀ k ∈ applyWords, k.unarySchema? ≠ some .real := by decide
    refine Expr.realsBehindQuestions_of_children rfl (Expr.asksReal_unary.2 fun h => ?_) ?_
    · exact hreal _ hop (by rw [hschema, h])
    · simp_all [Expr.children]
  | _ =>
    -- What is left are rules with a fixed number of parts, each with tokens of its own.
    intro hts
    refine Expr.realsBehindQuestions_of_children rfl rfl ?_
    simp_all [Expr.children]

theorem Definitions.realsBehindQuestions {entries : Table Name Expr} (h : Definitions ts entries) :
    (∀ t ∈ ts, t.toWord.Scanned) → ∀ entry ∈ entries, entry.2.RealsBehindQuestions := by
  refine h.forall_entries fun _ _ _ _ _ hbs hbody => Expr.realsBehindQuestions_of_children rfl rfl ?_
  simpa [Expr.children] using hbody.realsBehindQuestions hbs

end Grammar

namespace Eval

/-- Compiling yields trees that have reals only where they have a `?`. -/
theorem realsBehindQuestions_of_compile {source : String} {before after : Machine} {script : Script}
    (h : compile source before = .ok (.ok script) after) :
    script.expression.RealsBehindQuestions ∧ ∀ entry ∈ script.functions, entry.2.RealsBehindQuestions := by
  obtain ⟨tokens, hscan, hread⟩ := ofTokens_of_compile h
  have hts := scan_scanned hscan
  obtain ⟨_, hread⟩ := Grammar.gives_of_ofTokens hread
  obtain ⟨before, main, after, last, rest, earlier, later, rfl, -, hmain, hearlier, hlater, hfunctions, -⟩ :=
    Grammar.readScript_sound hread
  simp only [List.forall_mem_append] at hts
  obtain ⟨⟨⟨hbefore, hmain'⟩, hafter⟩, -⟩ := hts
  refine ⟨hmain.realsBehindQuestions hmain', ?_⟩
  rw [hfunctions, List.forall_mem_append]
  exact ⟨hearlier.realsBehindQuestions hbefore, hlater.realsBehindQuestions hafter⟩

end Eval

end DiceScript
