import DiceScript.Proofs.Grammar.Completeness

/-!
# Trees that respect the ladder are read back

`Expr.yield` writes a tree as tokens: its own operator tokens, and the keywords, brackets and other signs
that the grammar asks for. Parentheses stand for groups only, so a tree is read back from its tokens only if
each operand is at the level that its place requires. `isLaddered` says so, and it is all that is needed.
-/

namespace DiceScript

open Grammar

/-- Parts with a comma between each two. -/
def joined (word : Kind → Token) : List (List Token) → List Token
  | [] => []
  | [part] => part
  | part :: parts => part ++ word .comma :: joined word parts

def nameToken (word : Kind → Token) (name : Name) : Token :=
  { word .identifier with lexeme := name }

namespace Expr

variable (word : Kind → Token)

mutual

/-- The tokens of a tree in order. The words that the tree does not hold are those that `word` gives. -/
def yield : Expr → List Token
  | .missing | .misfit _ | .function _ _ _ => []
  | .literal (.collection [n]) => [{ word .integer with literal := .integer n }]
  | .literal (.real x) => [{ word .real with literal := .real x }]
  | .literal (.text s) => [{ word .string with literal := .text s }]
  | .literal _ => []
  | .var name .missing => [nameToken word name]
  | .var name fallback => nameToken word name :: word .tilde :: fallback.yield
  | .binary l op _ r =>
    if op.kind ∈ pairWords then op :: l.yield ++ r.yield else l.yield ++ op :: r.yield
  | .unary op _ e => op :: e.yield
  | .conditional c t f =>
    word .wordIf :: c.yield ++ word .wordThen :: t.yield ++ word .wordElse :: f.yield
  | .foreach name source body =>
    word .wordForeach :: nameToken word name :: word .wordIn :: source.yield ++
      word .wordDo :: body.yield
  | .loop mode name body style test =>
    word (loopKind mode) :: nameToken word name :: word .assign :: body.yield ++
      word (endKind style) :: test.yield
  | .binding name definition use =>
    nameToken word name :: word .assign :: definition.yield ++ word .semicolon :: use.yield
  | .call name arguments =>
    word .wordCall :: nameToken word name :: word .leftParen :: joined word (yields arguments) ++
      [word .rightParen]
  | .collection elements =>
    word .leftBrace :: joined word (yields elements) ++ [word .rightBrace]
  | .pair a b =>
    word .leftBracket :: a.yield ++ word .comma :: b.yield ++ [word .rightBracket]
  | .group e => word .leftParen :: e.yield ++ [word .rightParen]

def yields : List Expr → List (List Token)
  | [] => []
  | e :: rest => e.yield :: yields rest

end

/-- The tightest level that a tree stands at: the one of its operator. -/
def level : Expr → Level
  | .conditional _ _ _ | .foreach _ _ _ | .loop _ _ _ _ _ | .binding _ _ _ => .expression
  | .binary _ op _ _ => op.kind.signLevel?.getD .apply
  | .unary op _ _ => op.kind.headLevel?.getD .primary
  | .var _ .missing => .primary
  | .var _ _ => .dice
  | _ => .primary

def isAt (e : Expr) (required : Level) : Bool :=
  required.rank ≤ e.level.rank

mutual

/-- Whether every operand is at the level that its place requires, each operator has its own operands,
numbers and texts are literals and reals stand behind a question mark only. -/
def isLaddered : Expr → Bool
  | .literal (.collection [_]) | .literal (.text _) => true
  | .var _ .missing => true
  | .var _ fallback => fallback.isLaddered && fallback.isAt .die
  | .binary l op schema r =>
    op.kind.binarySchema? = some schema && l.isLaddered && r.isLaddered &&
      match op.kind.signLevel? with
      | some level => l.isAt level.left && r.isAt level.right
      | none => l.isAt .apply && r.isAt .apply && decide (Apart (r.yield word))
  | .unary op .real (.literal (.real _)) => op.kind = .question
  | .unary op schema e =>
    op.kind.unarySchema? = some schema && schema ≠ .real && e.isLaddered &&
      e.isAt (op.kind.headLevel?.getD .primary)
  | .conditional c t f => c.isLaddered && t.isLaddered && f.isLaddered
  | .foreach _ source body => source.isLaddered && body.isLaddered
  | .loop _ _ body _ test => body.isLaddered && test.isLaddered
  | .binding _ definition use => definition.isLaddered && use.isLaddered
  | .call _ arguments => allLaddered arguments
  | .collection elements => allLaddered elements
  | .pair a b => a.isLaddered && b.isLaddered
  | .group e => e.isLaddered
  | .missing | .literal _ | .misfit _ | .function _ _ _ => false

def allLaddered : List Expr → Bool
  | [] => true
  | e :: rest => e.isLaddered && allLaddered rest

end

end Expr

namespace Grammar

variable {word : Kind → Token}

theorem Derives.of_le {level tighter : Level} {ts : List Token} {e : Expr}
    (h : Derives tighter ts e) (hle : level.rank ≤ tighter.rank) : Derives level ts e := by
  obtain ⟨n, hn⟩ := Nat.exists_eq_add_of_le hle
  induction n generalizing level with
  | zero =>
    have hsame : level = tighter := Level.rank_injective hn.symm
    rw [hsame]
    exact h
  | succ n ih =>
    have hbelow : level.below.rank = level.rank + 1 := by
      refine Level.rank_below_eq fun hprimary => ?_
      have := Level.rank_le_primary tighter
      rw [hprimary] at hn
      omega
    exact .tighter (ih (by omega) (by omega))

theorem listed_joined (hword : ∀ k, (word k).kind = k) (parts : List (List Token)) :
    Listed parts (joined word parts) := by
  have hseparated (part : List Token) (parts : List (List Token)) :
      Separated (part :: parts) (joined word (part :: parts)) := by
    induction parts generalizing part with
    | nil => exact .single part
    | cons next parts ih => exact .cons part (hword .comma) (ih next)
  cases parts with
  | nil => exact .none
  | cons part parts => exact .some (hseparated part parts)

theorem yields_eq_map (es : List Expr) : Expr.yields word es = es.map (Expr.yield word) := by
  induction es with
  | nil => rfl
  | cons e es ih => simp [Expr.yields, ih]

/-- An operator with two operands that stands between none is before both. -/
theorem mem_pairWords {k : Kind} {schema : BinarySchema} (hschema : k.binarySchema? = some schema)
    (hsign : k.signLevel? = none) : k ∈ pairWords ∧ schema = .singletonCollection := by
  cases k <;> cases hschema <;> first | exact ⟨by decide, rfl⟩ | cases hsign

theorem unary_cases {k : Kind} {schema : UnarySchema} (hschema : k.unarySchema? = some schema)
    (hreal : schema ≠ .real) :
    k = .minus ∧ schema = .singleton ∨ k ∈ dieWords ∧ schema = .singleton ∨ k ∈ applyWords := by
  cases k <;> cases hschema <;> simp [dieWords, applyWords] at hreal ⊢

theorem Derives.at {level : Level} {ts : List Token} {e : Expr} (h : Derives e.level ts e)
    (hlevel : e.isAt level = true) : Derives level ts e :=
  h.of_le (by simpa [Expr.isAt] using hlevel)

theorem Derives.loosest {level : Level} {ts : List Token} {e : Expr} (h : Derives level ts e) :
    Derives .expression ts e :=
  h.of_le (Nat.zero_le _)

/-- A variable that has a fallback. -/
theorem var_of_ne_missing (word : Kind → Token) (name : Name) {fallback : Expr}
    (h : fallback ≠ .missing) :
    (Expr.var name fallback).level = .dice ∧
    (Expr.var name fallback).yield word =
      nameToken word name :: word .tilde :: fallback.yield word ∧
    (Expr.var name fallback).isLaddered word = (fallback.isLaddered word && fallback.isAt .die) := by
  cases fallback <;> first | exact absurd rfl h | exact ⟨rfl, rfl, rfl⟩

/-- A unary operator has a real behind a question mark, or an operand of its own level. -/
theorem unary_of_isLaddered {op : Token} {schema : UnarySchema} {e : Expr}
    (h : (Expr.unary op schema e).isLaddered word = true) :
    (∃ x, schema = .real ∧ e = .literal (.real x) ∧ op.kind = .question) ∨
    (op.kind.unarySchema? = some schema ∧ schema ≠ .real ∧ e.isLaddered word = true ∧
      e.isAt (op.kind.headLevel?.getD .primary) = true) := by
  by_cases hreal : ∃ x, schema = .real ∧ e = .literal (.real x)
  · obtain ⟨x, rfl, rfl⟩ := hreal
    exact .inl ⟨x, rfl, rfl, by simpa [Expr.isLaddered] using h⟩
  · right
    unfold Expr.isLaddered at h
    split at h <;> simp_all

theorem literal_of_isLaddered {v : Value} (h : (Expr.literal v).isLaddered word = true) :
    (∃ n, v = .collection [n]) ∨ ∃ s, v = .text s := by
  unfold Expr.isLaddered at h
  split at h <;> simp_all

def yieldParts (word : Kind → Token) (es : List Expr) : List (List Token × Expr) :=
  es.map fun e => (e.yield word, e)

theorem yieldParts_snd (es : List Expr) : (yieldParts word es).map Prod.snd = es := by
  simp [yieldParts, Function.comp_def]

theorem listed_yieldParts (hword : ∀ k, (word k).kind = k) (es : List Expr) :
    Listed ((yieldParts word es).map Prod.fst) (joined word (Expr.yields word es)) := by
  have hfirst : (yieldParts word es).map Prod.fst = Expr.yields word es := by
    simp [yieldParts, yields_eq_map]
  rw [hfirst]
  exact listed_joined hword _

theorem call_yield (hword : ∀ k, (word k).kind = k) {name : Name} {arguments : List Expr}
    (h : ∀ e ∈ arguments, Derives .expression (e.yield word) e) :
    Derives .primary ((Expr.call name arguments).yield word) (.call name arguments) := by
  have hcall : Derives .primary ((Expr.call name arguments).yield word)
      (.call name ((yieldParts word arguments).map Prod.snd)) :=
    .call (hword .wordCall) (hword .identifier) (hword .leftParen) (by simpa [yieldParts] using h)
      (listed_yieldParts hword arguments) (hword .rightParen)
  rwa [yieldParts_snd] at hcall

theorem collection_yield (hword : ∀ k, (word k).kind = k) {elements : List Expr}
    (h : ∀ e ∈ elements, Derives .expression (e.yield word) e) :
    Derives .primary ((Expr.collection elements).yield word) (.collection elements) := by
  have hcollection : Derives .primary ((Expr.collection elements).yield word)
      (.collection ((yieldParts word elements).map Prod.snd)) :=
    .collection (hword .leftBrace) (by simpa [yieldParts] using h) (listed_yieldParts hword elements)
      (hword .rightBrace)
  rwa [yieldParts_snd] at hcollection

theorem literal_yield (hword : ∀ k, (word k).kind = k) {v : Value} (h : (Expr.literal v).isLaddered word = true) :
    Derives .primary ((Expr.literal v).yield word) (.literal v) := by
  rcases literal_of_isLaddered h with ⟨n, rfl⟩ | ⟨s, rfl⟩
  · exact Derives.number (hword .integer)
  · exact Derives.text (hword .string)

section

variable {e l r : Expr} (he : e.isLaddered word = true → Derives e.level (e.yield word) e)
  (hl : l.isLaddered word = true → Derives l.level (l.yield word) l)
  (hr : r.isLaddered word = true → Derives r.level (r.yield word) r)

include he in
theorem var_yield (hword : ∀ k, (word k).kind = k) {name : Name} (h : (Expr.var name e).isLaddered word = true) :
    Derives (Expr.var name e).level ((Expr.var name e).yield word) (.var name e) := by
  by_cases hfallback : e = .missing
  · subst hfallback
    exact Derives.name (hword .identifier)
  · obtain ⟨hlevel, hyield, hladdered⟩ := var_of_ne_missing word name hfallback
    rw [hladdered, Bool.and_eq_true] at h
    rw [hlevel, hyield]
    have hname : Derives .dice [nameToken word name] (.var name .missing) :=
      (Derives.name (t := nameToken word name) (hword .identifier)).of_le (by decide)
    exact .fallback hname (hword .tilde) ((he h.1).at h.2)

include hl hr in
/-- A sign between its operands, or a word before both. -/
theorem binary_yield {op : Token} {schema : BinarySchema} (h : (Expr.binary l op schema r).isLaddered word = true) :
    Derives (Expr.binary l op schema r).level ((Expr.binary l op schema r).yield word) (.binary l op schema r) := by
  simp only [Expr.isLaddered, Bool.and_eq_true, decide_eq_true_eq] at h
  obtain ⟨⟨⟨hschema, hleft⟩, hright⟩, hplaces⟩ := h
  cases hsign : op.kind.signLevel? with
  | some level =>
    have hpair : op.kind ∉ pairWords := by
      intro hpair
      have hnone : ∀ k ∈ pairWords, k.signLevel? = none := by decide
      rw [hnone _ hpair] at hsign
      cases hsign
    simp only [hsign, Bool.and_eq_true] at hplaces
    simp only [Expr.level, Expr.yield, hsign, if_neg hpair, Option.getD_some]
    exact .operation ((hl hleft).at hplaces.1) (Level.mem_signs_iff.2 hsign) hschema ((hr hright).at hplaces.2)
  | none =>
    obtain ⟨hpair, rfl⟩ := mem_pairWords hschema hsign
    simp only [hsign, Bool.and_eq_true, decide_eq_true_eq] at hplaces
    simp only [Expr.level, Expr.yield, hsign, if_pos hpair, Option.getD_none]
    exact .applyPair hpair ((hl hleft).at hplaces.1.1) ((hr hright).at hplaces.1.2) hplaces.2

include he in
theorem unary_yield (hword : ∀ k, (word k).kind = k) {op : Token} {schema : UnarySchema}
    (h : (Expr.unary op schema e).isLaddered word = true) :
    Derives (Expr.unary op schema e).level ((Expr.unary op schema e).yield word) (.unary op schema e) := by
  simp only [Expr.level]
  rcases unary_of_isLaddered h with ⟨x, rfl, rfl, hop⟩ | ⟨hschema, hreal, hoperand, hplace⟩
  · rw [hop]
    exact .probability hop (hword .real)
  · have de := (he hoperand).at hplace
    rcases unary_cases hschema hreal with ⟨hop, rfl⟩ | ⟨hop, rfl⟩ | hop
    · rw [hop] at de ⊢
      exact .negate hop de
    · rw [headLevel?_of_dieWord _ hop] at de ⊢
      exact .die hop de
    · rw [headLevel?_of_applyWord _ hop] at de ⊢
      exact .apply hop hschema de

end

mutual

/-- The tokens of a tree derive it, at the level of its operator. -/
theorem derives_yield (hword : ∀ k, (word k).kind = k) :
    (e : Expr) → e.isLaddered word = true → Derives e.level (e.yield word) e
  | .literal _, h => literal_yield hword h
  | .var _ fallback, h => var_yield (derives_yield hword fallback) hword h
  | .binary l _ _ r, h => binary_yield (derives_yield hword l) (derives_yield hword r) h
  | .unary _ _ e, h => unary_yield (derives_yield hword e) hword h
  | .conditional c t f, h => by
    simp only [Expr.isLaddered, Bool.and_eq_true] at h
    exact .conditional (hword .wordIf) (derives_yield hword c h.1.1).loosest (hword .wordThen)
      (derives_yield hword t h.1.2).loosest (hword .wordElse) (derives_yield hword f h.2).loosest
  | .foreach name source body, h => by
    simp only [Expr.isLaddered, Bool.and_eq_true] at h
    exact Derives.foreach (hword .wordForeach) (hword .identifier) (hword .wordIn)
      (derives_yield hword source h.1).loosest (hword .wordDo) (derives_yield hword body h.2).loosest
  | .loop mode name body style test, h => by
    simp only [Expr.isLaddered, Bool.and_eq_true] at h
    exact Derives.loop (hword (loopKind mode)) (hword .identifier) (hword .assign)
      (derives_yield hword body h.1).loosest (hword (endKind style)) (derives_yield hword test h.2).loosest
  | .binding name definition use, h => by
    simp only [Expr.isLaddered, Bool.and_eq_true] at h
    exact Derives.binding (hword .identifier) (hword .assign) (derives_yield hword definition h.1).loosest
      (hword .semicolon) (derives_yield hword use h.2).loosest
  | .call _ arguments, h => call_yield hword (derives_yields hword arguments h)
  | .collection elements, h => collection_yield hword (derives_yields hword elements h)
  | .pair a b, h => by
    simp only [Expr.isLaddered, Bool.and_eq_true] at h
    exact .pair (hword .leftBracket) (derives_yield hword a h.1).loosest (hword .comma)
      (derives_yield hword b h.2).loosest (hword .rightBracket)
  | .group e, h => .group (hword .leftParen) (derives_yield hword e h).loosest (hword .rightParen)
  | .missing, h | .misfit _, h | .function _ _ _, h => absurd h (by simp [Expr.isLaddered])

theorem derives_yields (hword : ∀ k, (word k).kind = k) :
    (es : List Expr) → Expr.allLaddered word es = true → ∀ e ∈ es, Derives .expression (e.yield word) e
  | [], _, e, he => absurd he (by simp)
  | e :: rest, h, e', he' => by
    simp only [Expr.allLaddered, Bool.and_eq_true] at h
    rcases List.mem_cons.1 he' with hsame | hmem
    · rw [hsame]
      exact (derives_yield hword e h.1).loosest
    · exact derives_yields hword rest h.2 e' hmem

end

structure Definition where
  name : Name
  parameters : List Name
  body : Expr

namespace Definition

def entry (d : Definition) : Name × Expr :=
  (d.name, .function d.name d.parameters d.body)

def yield (word : Kind → Token) (d : Definition) : List Token :=
  word .wordFunction :: nameToken word d.name :: word .leftParen ::
    joined word (d.parameters.map fun p => [nameToken word p]) ++
      word .rightParen :: word .equal :: d.body.yield word

end Definition

theorem definitions_yield (hword : ∀ k, (word k).kind = k) (ds : List Definition)
    (h : ∀ d ∈ ds, d.body.isLaddered word = true) :
    Definitions (ds.flatMap (·.yield word)) (ds.map (·.entry)) := by
  induction ds with
  | nil => exact .none
  | cons d ds ih =>
    let parameters := d.parameters.map (nameToken word)
    have hlexemes : parameters.map (·.lexeme) = d.parameters := by
      simp [parameters, nameToken, Function.comp_def]
    have hparameters : ∀ p ∈ parameters, p.kind = .identifier := by
      intro p hp
      obtain ⟨name, -, rfl⟩ := List.mem_map.1 hp
      exact hword .identifier
    have hlisted : Listed (parameters.map ([·]))
        (joined word (d.parameters.map fun p => [nameToken word p])) := by
      rw [List.map_map]
      exact listed_joined hword _
    have hbody := (derives_yield hword d.body (h d List.mem_cons_self)).loosest
    have hrest := ih fun d hd => h d (List.mem_cons_of_mem _ hd)
    have hcons : Definitions (d.yield word ++ ds.flatMap (·.yield word))
        ((d.name, .function d.name (parameters.map (·.lexeme)) d.body) :: ds.map (·.entry)) :=
      .cons (hword .wordFunction) (hword .identifier) (hword .leftParen) hparameters hlisted
        (hword .rightParen) (hword .equal) hbody hrest
    rwa [hlexemes] at hcons

/-- A tree that respects the ladder, followed by definitions of distinct names whose bodies do, is read from
its tokens with exactly these definitions. -/
theorem ofTokens_yield (hword : ∀ k, (word k).kind = k) {t : Expr} (ht : t.isLaddered word = true)
    {definitions : List Definition} (hbodies : ∀ d ∈ definitions, d.body.isLaddered word = true)
    (hdistinct : (definitions.map (·.name)).Nodup) :
    Script.ofTokens (t.yield word ++ definitions.flatMap (·.yield word) ++ [word .endOfInput]) =
      .ok ⟨t, definitions.map (·.entry)⟩ := by
  have hnames : Table.names (definitions.map (·.entry)) = definitions.map (·.name) := by
    simp [Table.names, Definition.entry, Function.comp_def]
  refine ofTokens_of_derives (derives_yield hword t ht).loosest
    (definitions_yield hword definitions hbodies) ?_ (hword .endOfInput)
  rw [hnames]
  exact hdistinct

/-- A binding of a difference grouped to the left, with one grouped by parentheses in its use and a
definition behind it. -/
theorem ofTokens_yield_least :
    let word : Kind → Token := fun k => Word.at ⟨k, .text k.name, .null⟩ .start
    let x : Expr := .var (.text "x") .missing
    let minus (l r : Expr) : Expr := .binary l (word .minus) .singletonSingleton r
    let t : Expr := .binding (.text "x") (minus (minus x x) (.unary (word .minus) .singleton x))
      (.binary (.group (minus x (.group (minus x x)))) (word .least) .singletonCollection
        (.collection [x, .literal (.number 2), .call (.text "f") [x]]))
    let f : Definition := ⟨.text "f", [.text "y"], .var (.text "y") (.literal (.number 1))⟩
    t.isLaddered word = true ∧ f.body.isLaddered word = true ∧
      Script.ofTokens (t.yield word ++ [f].flatMap (·.yield word) ++ [word .endOfInput]) =
        .ok ⟨t, [f].map (·.entry)⟩ :=
  ⟨rfl, rfl, ofTokens_yield (fun _ => rfl) rfl (by decide) (by decide)⟩

end Grammar

end DiceScript
