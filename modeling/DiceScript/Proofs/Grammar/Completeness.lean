import DiceScript.Proofs.Grammar.Heads

/-!
# What is in the grammar is read

Whatever the grammar derives from tokens is read from them, if what follows may follow. Reading is followed
forwards along the derivation: at each place the next token decides, by the words that may start or follow
an expression, for the rule that the derivation has there. A level whose operators are grouped to the left
is read in a loop, so there a derivation says how the loop comes to its left operand, whatever it does after
it. The depth that a reading takes is bounded by the tokens left and the level.
-/

namespace DiceScript.Grammar

open Read Ladder

/-- A depth that is enough for a goal: each token may be read at every level. -/
def depth : Goal → List Token → Nat
  | .at level, ts => 16 * ts.length + (13 - level.rank)
  | .more _ _, ts => 16 * ts.length

/-- A goal is reached with `e`, leaving `rest`, at every depth that is enough. -/
def Reads (goal : Goal) (ts : List Token) (e : Expr) (rest : List Token) : Prop :=
  ∀ fuel, depth goal ts < fuel → Gives (readGoal fuel goal) ts e rest

/-- Before everything that may follow, the tokens are read as an expression of the level. -/
def Complete (level : Level) (ts : List Token) (e : Expr) : Prop :=
  ∀ rest, Stops level rest → Reads (.at level) (ts ++ rest) e rest

/-- Whatever follows, the tokens are read as an expression of the level. -/
def Whole (level : Level) (ts : List Token) (e : Expr) : Prop :=
  ∀ rest, Reads (.at level) (ts ++ rest) e rest

/-- Reading the level comes to the operators that follow, with the tokens as their left operand. -/
def Leads (level : Level) (ts : List Token) (e : Expr) : Prop :=
  ∀ rest e' rest', Stops level.below rest → Reads (.more level e) rest e' rest' →
    Reads (.at level) (ts ++ rest) e' rest'

def leftward : List Level := [.layout, .select, .union, .sum, .product, .dice]

def Found (level : Level) (ts : List Token) (e : Expr) : Prop :=
  Complete level ts e ∧ (level ∈ leftward → Leads level ts e)

theorem sides_of_leftward {level : Level} (h : level ∈ leftward) :
    level.left = level ∧ level.right = level.below := by
  simp only [leftward, List.mem_cons, List.not_mem_nil, or_false] at h
  rcases h with rfl | rfl | rfl | rfl | rfl | rfl <;> exact ⟨rfl, rfl⟩

section

variable {goal : Goal} {level : Level} {fuel : Nat} {ts rest : List Token} {e : Expr}

theorem reads_of_step
    (h : ∀ fuel, depth goal ts ≤ fuel → Gives (step (readGoal fuel) fuel goal) ts e rest) :
    Reads goal ts e rest := by
  intro fuel hfuel
  cases fuel with
  | zero => exact absurd hfuel (Nat.not_lt_zero _)
  | succ fuel => exact h fuel (Nat.le_of_lt_succ hfuel)

theorem depth_lt_of_length {goal' : Goal} {ts' : List Token} (h : ts'.length < ts.length) :
    depth goal' ts' < depth goal ts := by
  cases goal <;> cases goal' <;> simp only [depth] <;> omega

theorem length_le_depth (goal : Goal) (ts : List Token) : ts.length ≤ depth goal ts := by
  cases goal <;> simp only [depth] <;> omega

/-- With a token less every goal is in reach. -/
theorem Reads.later {goal' : Goal} {ts' : List Token} (h : Reads goal' ts' e rest)
    (hfuel : depth goal ts ≤ fuel) (hlength : ts'.length < ts.length) :
    Gives (readGoal fuel goal') ts' e rest :=
  h fuel (Nat.lt_of_lt_of_le (depth_lt_of_length hlength) hfuel)

theorem depth_below_lt (hlevel : level ≠ .primary) (ts : List Token) :
    depth (.at level.below) ts < depth (.at level) ts := by
  cases level <;> simp [depth, Level.below, Level.rank] at hlevel ⊢

/-- On the same tokens the next tighter level is in reach. -/
theorem gives_below (hfuel : depth (.at level) ts ≤ fuel) (hlevel : level ≠ .primary)
    (h : Reads (.at level.below) ts e rest) : Gives (readGoal fuel (.at level.below)) ts e rest :=
  h fuel (Nat.lt_of_lt_of_le (depth_below_lt hlevel ts) hfuel)

theorem takeWhen_some {α : Type} {select : Kind → Option α} {t : Token} {a : α}
    (hend : select .endOfInput = none) (h : select t.kind = some a) :
    Gives (takeWhen select) (t :: ts) (some (t, a)) ts :=
  (gives_takeWhen hend).2 (.inl ⟨t, a, rfl, h, rfl⟩)

theorem takeWhen_none {α : Type} {select : Kind → Option α} {t : Token}
    (hend : select .endOfInput = none) (h : select t.kind = none) :
    Gives (takeWhen select) (t :: ts) none (t :: ts) :=
  (gives_takeWhen hend).2 (.inr ⟨t, ts, rfl, h, rfl, rfl⟩)

theorem take_statement (statement : Statement) {word : Token} (hword : word.kind = statement.kind) :
    Gives (takeWhen statement?) (word :: ts) (some (word, statement)) ts :=
  takeWhen_some rfl (statement?_eq_some_iff.2 hword)

theorem take_opening (opening : Opening) {t : Token} (ht : t.kind = opening.kind) :
    Gives (takeWhen opening?) (t :: ts) (some (t, opening)) ts :=
  takeWhen_some rfl (opening?_eq_some_iff.2 ht)

/-! The operators of a level. -/

theorem reads_more_none (h : Stops level ts) : Reads (.more level e) ts e ts := by
  obtain ⟨t, later, rfl, hcontinues, -⟩ := h
  have hsign := Level.not_mem_signs hcontinues
  refine reads_of_step fun fuel _ => ?_
  by_cases hdice : level = .dice
  · subst hdice
    exact gives_bind.2 ⟨_, _, takeWhen_none rfl (diceOperator?_eq_none_iff.2 hsign),
      gives_pure.2 ⟨rfl, rfl⟩⟩
  · have hnone := (Level.operator?_eq_none_iff hdice).2 hsign
    have hstep : Gives (chainMore (readGoal fuel) level e) (t :: later) e (t :: later) :=
      gives_bind.2 ⟨_, _, takeWhen_none (Level.operator?_endOfInput level) hnone,
        gives_pure.2 ⟨rfl, rfl⟩⟩
    cases level <;> first | exact hstep | exact absurd rfl hdice

/-- A sign is followed by its right operand, and then by what follows both. -/
theorem step_more_sign {read : Goal → Read Expr} {op : Token} {schema : BinarySchema} {l : Expr}
    (hsign : op.kind ∈ level.signs) (hschema : op.kind.binarySchema? = some schema) :
    step read fuel (.more level l) (op :: ts) =
      (do let r ← read (.at level.right); read (.more level (.binary l op schema r))) ts := by
  by_cases hdice : level = .dice
  · subst hdice
    exact bind_of_gives (takeWhen_some rfl (diceOperator?_eq_some_iff.2 ⟨hsign, hschema⟩))
  · have hsome := Level.operator?_eq_some_iff.2 ⟨hsign, hschema⟩
    have hstep : chainMore read level l (op :: ts) =
        (do let r ← read (.at level.right); read (.more level (.binary l op schema r))) ts :=
      bind_of_gives (takeWhen_some (Level.operator?_endOfInput level) hsome)
    cases level <;> first | exact hstep | exact absurd rfl hdice

theorem reads_more_sign {op : Token} {schema : BinarySchema} {rs : List Token} {l r : Expr}
    (hsign : op.kind ∈ level.signs) (hschema : op.kind.binarySchema? = some schema)
    (hright : Reads (.at level.right) (rs ++ ts) r ts)
    (hmore : Reads (.more level (.binary l op schema r)) ts e rest) :
    Reads (.more level l) (op :: rs ++ ts) e rest := by
  refine reads_of_step fun fuel hfuel => (step_more_sign hsign hschema).trans ?_
  exact gives_bind.2 ⟨_, _, hright.later hfuel (by simp), hmore.later hfuel (by grind)⟩

/-- A tilde is followed by the fallback. -/
theorem step_more_tilde {read : Goal → Read Expr} {tilde : Token} {name : Name} {old : Expr}
    (htilde : tilde.kind = .tilde) :
    step read fuel (.more .dice (.var name old)) (tilde :: ts) =
      (do let r ← read (.at .die); read (.more .dice (.var name r))) ts := by
  have hselect : diceOperator? tilde.kind = some none := by rw [htilde]; rfl
  exact bind_of_gives (takeWhen_some rfl hselect)

theorem reads_more_tilde {tilde : Token} {rs : List Token} {name : Name} {old new : Expr}
    (htilde : tilde.kind = .tilde) (hright : Reads (.at .die) (rs ++ ts) new ts)
    (hmore : Reads (.more .dice (.var name new)) ts e rest) :
    Reads (.more .dice (.var name old)) (tilde :: rs ++ ts) e rest := by
  refine reads_of_step fun fuel hfuel => (step_more_tilde htilde).trans ?_
  exact gives_bind.2 ⟨_, _, hright.later hfuel (by simp), hmore.later hfuel (by grind)⟩

/-- A left operand is read before the operators of its level. -/
theorem gives_chain {ls : List Token} {l : Expr} (hlevel : level ≠ .primary)
    (hl : Complete level.below ls l) (hls : ls ≠ []) (hstops : Stops level.below ts)
    (hmore : Reads (.more level l) ts e rest) (hfuel : depth (.at level) (ls ++ ts) ≤ fuel) :
    Gives (chain (readGoal fuel) level) (ls ++ ts) e rest := by
  have hlength := List.length_pos_iff.2 hls
  exact gives_bind.2 ⟨_, _, gives_below hfuel hlevel (hl ts hstops),
    hmore.later hfuel (by grind)⟩

theorem Whole.complete (h : Whole level ts e) : Complete level ts e :=
  fun rest _ => h rest

theorem Leads.complete (h : Leads level ts e) : Complete level ts e :=
  fun rest hrest => h rest e rest (stops_below hrest) (reads_more_none hrest)

theorem Leads.found (h : Leads level ts e) : Found level ts e :=
  ⟨h.complete, fun _ => h⟩

theorem Complete.found (h : Complete level ts e) (hlevel : level ∉ leftward) : Found level ts e :=
  ⟨h, fun hleftward => absurd hleftward hlevel⟩

theorem Derives.ne_nil (h : Derives level ts e) : ts ≠ [] := by
  obtain ⟨t, later, rfl, -⟩ := h.starts
  simp

theorem leads_of_below (hlevel : level ∈ leftward) (hderives : Derives level.below ts e)
    (h : Complete level.below ts e) : Leads level ts e := by
  intro rest e' rest' hstops hmore
  refine reads_of_step fun fuel hfuel => ?_
  have hprimary : level ≠ .primary := by rintro rfl; exact absurd hlevel (by decide)
  have hchain := gives_chain hprimary h hderives.ne_nil hstops hmore hfuel
  simp only [leftward, List.mem_cons, List.not_mem_nil, or_false] at hlevel
  rcases hlevel with rfl | rfl | rfl | rfl | rfl | rfl <;> exact hchain

theorem leads_operation {op : Token} {schema : BinarySchema} {ls rs : List Token} {l r : Expr}
    (hlevel : level ∈ leftward) (hl : Leads level ls l) (hsign : op.kind ∈ level.signs)
    (hschema : op.kind.binarySchema? = some schema) (hr : Complete level.below rs r) :
    Leads level (ls ++ op :: rs) (.binary l op schema r) := by
  intro rest e' rest' hstops hmore
  rw [List.append_assoc]
  refine hl _ _ _ (stops_of_sign hsign) (reads_more_sign hsign hschema ?_ hmore)
  rw [(sides_of_leftward hlevel).2]
  exact hr rest hstops

theorem leads_fallback {tilde : Token} {ls rs : List Token} {name : Name} {old new : Expr}
    (hl : Leads .dice ls (.var name old)) (htilde : tilde.kind = .tilde)
    (hr : Complete .die rs new) : Leads .dice (ls ++ tilde :: rs) (.var name new) := by
  intro rest e' rest' hstops hmore
  rw [List.append_assoc]
  refine hl _ _ _ (stops_of_sign ?_) (reads_more_tilde htilde (hr rest hstops) hmore)
  simp [htilde, Level.signs]

/-! The levels that look at their first token, and those whose operators are not grouped to the left. -/

/-- An expression that is tighter than its place starts with a word that the place does not ask for. -/
theorem head_ne_of_below (level : Level) (hlevel : level ≠ .primary) (h : Derives level.below ts e) :
    ∃ t later, ts = t :: later ∧ t.kind.headLevel? ≠ some level := by
  obtain ⟨t, later, rfl, hopens, -⟩ := h.starts
  exact ⟨t, later, rfl, hopens.headLevel?_ne hlevel⟩

theorem gives_chain_below (hlevel : level ≠ .primary) (hderives : Derives level.below ts e)
    (h : Complete level.below ts e) (hstops : Stops level rest)
    (hfuel : depth (.at level) (ts ++ rest) ≤ fuel) :
    Gives (chain (readGoal fuel) level) (ts ++ rest) e rest :=
  gives_chain hlevel h hderives.ne_nil (stops_below hstops) (reads_more_none hstops) hfuel

theorem gives_chain_operation {op : Token} {schema : BinarySchema} {ls rs : List Token}
    {l r : Expr} (hlevel : level.right = level) (hprimary : level ≠ .primary)
    (hderives : Derives level.below ls l) (hl : Complete level.below ls l)
    (hsign : op.kind ∈ level.signs) (hschema : op.kind.binarySchema? = some schema)
    (hr : Complete level rs r) (hstops : Stops level rest)
    (hfuel : depth (.at level) (ls ++ (op :: rs ++ rest)) ≤ fuel) :
    Gives (chain (readGoal fuel) level) (ls ++ (op :: rs ++ rest)) (.binary l op schema r) rest := by
  have hright : Reads (.at level.right) (rs ++ rest) r rest := by
    rw [hlevel]
    exact hr rest hstops
  exact gives_chain hprimary hl hderives.ne_nil (stops_of_sign hsign)
    (reads_more_sign hsign hschema hright (reads_more_none hstops)) hfuel

theorem compare_below (hderives : Derives .dice ts e) (h : Complete .dice ts e) :
    Complete .compare ts e :=
  fun _ hstops => reads_of_step fun _ hfuel =>
    gives_chain_below (by decide) hderives h hstops hfuel

theorem compare_operation {op : Token} {schema : BinarySchema} {ls rs : List Token} {l r : Expr}
    (hderives : Derives .dice ls l) (hl : Complete .dice ls l) (hsign : op.kind ∈ Level.compare.signs)
    (hschema : op.kind.binarySchema? = some schema) (hr : Complete .compare rs r) :
    Complete .compare (ls ++ op :: rs) (.binary l op schema r) := by
  intro rest hstops
  rw [List.append_assoc]
  exact reads_of_step fun _ hfuel =>
    gives_chain_operation rfl (by decide) hderives hl hsign hschema hr hstops hfuel

theorem apply_of_head {read : Goal → Read Expr} {t : Token} (hhead : t.kind.headLevel? ≠ some .apply) :
    Ladder.apply read (t :: ts) = chain read .apply (t :: ts) := by
  have happly : applyOperator? t.kind = none := by
    rw [Option.eq_none_iff_forall_ne_some]
    intro schema hschema
    exact hhead (headLevel?_of_applyWord _ (applyOperator?_eq_some_iff.1 hschema).1)
  have hpair : applyPair? t.kind = none := by
    rw [Option.eq_none_iff_forall_ne_some]
    intro schema hschema
    exact hhead (headLevel?_of_pairWord _ (applyPair?_eq_some_iff.1 hschema).1)
  exact (bind_of_gives (takeWhen_none rfl happly)).trans (bind_of_gives (takeWhen_none rfl hpair))

theorem apply_below (hderives : Derives .compare ts e) (h : Complete .compare ts e) :
    Complete .apply ts e := by
  intro rest hstops
  refine reads_of_step fun fuel hfuel => ?_
  have hchain : Gives (chain (readGoal fuel) .apply) (ts ++ rest) e rest :=
    gives_chain_below (by decide) hderives h hstops hfuel
  obtain ⟨t, later, rfl, hhead⟩ := head_ne_of_below .apply (by decide) hderives
  exact (apply_of_head hhead).trans hchain

theorem apply_operation {op : Token} {schema : BinarySchema} {ls rs : List Token} {l r : Expr}
    (hderives : Derives .compare ls l) (hl : Complete .compare ls l)
    (hsign : op.kind ∈ Level.apply.signs) (hschema : op.kind.binarySchema? = some schema)
    (hr : Complete .apply rs r) : Complete .apply (ls ++ op :: rs) (.binary l op schema r) := by
  intro rest hstops
  rw [List.append_assoc]
  refine reads_of_step fun fuel hfuel => ?_
  have hchain : Gives (chain (readGoal fuel) .apply) (ls ++ (op :: rs ++ rest))
      (.binary l op schema r) rest :=
    gives_chain_operation rfl (by decide) hderives hl hsign hschema hr hstops hfuel
  obtain ⟨t, later, rfl, hhead⟩ := head_ne_of_below .apply (by decide) hderives
  exact (apply_of_head hhead).trans hchain

theorem apply_apply {schema : UnarySchema} {op : Token} (hop : op.kind ∈ applyWords)
    (hschema : op.kind.unarySchema? = some schema) (h : Complete .apply ts e) :
    Complete .apply (op :: ts) (.unary op schema e) := by
  intro rest hstops
  refine reads_of_step fun fuel hfuel => ?_
  exact gives_bind.2 ⟨_, _, takeWhen_some rfl (applyOperator?_eq_some_iff.2 ⟨hop, hschema⟩),
    gives_bind.2 ⟨_, _, (h rest hstops).later hfuel (by simp), gives_pure.2 ⟨rfl, rfl⟩⟩⟩

theorem apply_of_pair {read : Goal → Read Expr} {op : Token} (hop : op.kind ∈ pairWords) :
    Ladder.apply read (op :: ts) =
      (do
        let left ← read (.at .apply)
        let right ← read (.at .apply)
        pure (Expr.binary left op .singletonCollection right)) ts := by
  have happly : applyOperator? op.kind = none := by
    have hall : ∀ k ∈ pairWords, applyOperator? k = none := by decide
    exact hall _ hop
  exact (bind_of_gives (takeWhen_none rfl happly)).trans
    (bind_of_gives (takeWhen_some rfl (applyPair?_eq_some_iff.2 ⟨hop, rfl⟩)))

theorem apply_pair {op : Token} {ls rs : List Token} {l r : Expr} (hop : op.kind ∈ pairWords)
    (hl : Complete .apply ls l) (hderives : Derives .apply rs r) (hr : Complete .apply rs r)
    (hapart : Apart rs) : Complete .apply (op :: ls ++ rs) (.binary l op .singletonCollection r) := by
  intro rest hstops
  rw [List.append_assoc]
  refine reads_of_step fun fuel hfuel => (apply_of_pair hop).trans ?_
  have gl := (hl _ (stops_of_apart hderives.starts hapart rest)).later hfuel (by simp)
  have gr := (hr rest hstops).later hfuel (by grind)
  exact gives_bind.2 ⟨_, _, gl, gives_bind.2 ⟨_, _, gr, gives_pure.2 ⟨rfl, rfl⟩⟩⟩

theorem negate_of_head {read : Goal → Read Expr} {t : Token} (hhead : t.kind.headLevel? ≠ some .negate) :
    Ladder.negate read (t :: ts) = read (.at .apply) (t :: ts) := by
  have hminus : t.kind ≠ .minus := by
    intro hminus
    rw [hminus] at hhead
    exact hhead rfl
  exact bind_of_gives ((gives_take? (by decide)).2 (.inr ⟨t, ts, rfl, hminus, rfl, rfl⟩))

theorem negate_below (hderives : Derives .apply ts e) (h : Complete .apply ts e) :
    Complete .negate ts e := by
  intro rest hstops
  refine reads_of_step fun fuel hfuel => ?_
  have hbelow := gives_below hfuel (by decide) (h rest (stops_below hstops))
  obtain ⟨t, later, rfl, hhead⟩ := head_ne_of_below .negate (by decide) hderives
  exact (negate_of_head hhead).trans hbelow

theorem negate_negate {op : Token} (hop : op.kind = .minus) (h : Complete .negate ts e) :
    Complete .negate (op :: ts) (.unary op .singleton e) := by
  intro rest hstops
  refine reads_of_step fun fuel hfuel => ?_
  exact gives_bind.2 ⟨_, _, (gives_take? (by decide)).2 (.inl ⟨op, rfl, hop, rfl⟩),
    gives_bind.2 ⟨_, _, (h rest hstops).later hfuel (by simp), gives_pure.2 ⟨rfl, rfl⟩⟩⟩

theorem die_of_head {read : Goal → Read Expr} {t : Token} (hhead : t.kind.headLevel? ≠ some .die) :
    Ladder.die read (t :: ts) = read (.at .primary) (t :: ts) := by
  have hdie : dieOperator? t.kind = none := by
    rw [Option.eq_none_iff_forall_ne_some]
    intro schema hschema
    exact hhead (headLevel?_of_dieWord _ (dieOperator?_eq_some_iff.1 hschema).1)
  exact bind_of_gives (takeWhen_none rfl hdie)

theorem die_below (hderives : Derives .primary ts e) (h : Reads (.at .primary) (ts ++ rest) e rest) :
    Reads (.at .die) (ts ++ rest) e rest := by
  refine reads_of_step fun fuel hfuel => ?_
  have hbelow := gives_below hfuel (by decide) h
  obtain ⟨t, later, rfl, hhead⟩ := head_ne_of_below .die (by decide) hderives
  exact (die_of_head hhead).trans hbelow

theorem die_die {op : Token} (hop : op.kind ∈ dieWords) (h : Reads (.at .die) (ts ++ rest) e rest) :
    Reads (.at .die) (op :: ts ++ rest) (.unary op .singleton e) rest := by
  refine reads_of_step fun fuel hfuel => ?_
  exact gives_bind.2 ⟨_, _, takeWhen_some rfl (dieOperator?_eq_some_iff.2 ⟨hop, rfl⟩),
    gives_bind.2 ⟨_, _, h.later hfuel (by simp), gives_pure.2 ⟨rfl, rfl⟩⟩⟩

theorem range_below (h : Complete .select ts e) : Complete .range ts e := by
  intro rest hstops
  refine reads_of_step fun fuel hfuel => ?_
  have hbelow := gives_below hfuel (by decide) (h rest (stops_below hstops))
  obtain ⟨t, later, rfl, hcontinues, -⟩ := hstops
  have hnone : Level.operator? .range t.kind = none :=
    (Level.operator?_eq_none_iff (by decide)).2 (Level.not_mem_signs hcontinues)
  exact gives_bind.2 ⟨_, _, hbelow,
    gives_bind.2 ⟨_, _, takeWhen_none rfl hnone, gives_pure.2 ⟨rfl, rfl⟩⟩⟩

theorem range_operation {op : Token} {schema : BinarySchema} {ls rs : List Token} {l r : Expr}
    (hl : Complete .select ls l) (hsign : op.kind ∈ Level.range.signs)
    (hschema : op.kind.binarySchema? = some schema) (hr : Complete .select rs r) :
    Complete .range (ls ++ op :: rs) (.binary l op schema r) := by
  intro rest hstops
  rw [List.append_assoc]
  refine reads_of_step fun fuel hfuel => ?_
  have gl := gives_below hfuel (by decide) (hl (op :: rs ++ rest) (stops_of_sign hsign))
  have gr := (hr rest (stops_below hstops)).later hfuel (by grind)
  exact gives_bind.2 ⟨_, _, gl,
    gives_bind.2 ⟨_, _, takeWhen_some rfl (Level.operator?_eq_some_iff.2 ⟨hsign, hschema⟩),
      gives_bind.2 ⟨_, _, gr, gives_pure.2 ⟨rfl, rfl⟩⟩⟩⟩

/-! Statements, bindings and primary expressions. Here each operand is closed by a word of its own. -/

theorem stops_of_word {k : Kind} {t : Token} (ht : t.kind = k) (hsign : k.signLevel? = none)
    (hassign : k ≠ .assign) : Stops level (t :: ts) :=
  stops_of_kind (ht ▸ hsign) (ht ▸ hassign)

theorem gives_word {kind : Kind} (hkind : kind ≠ .endOfInput) {cause : ParseError.Cause} {t : Token}
    (ht : t.kind = kind) : Gives (expect kind cause) (t :: ts) t ts :=
  (gives_expect hkind).2 ⟨rfl, ht⟩

/-- An operand before the word that closes it. -/
theorem Complete.closed {us : List Token} {k : Kind} {t : Token} (h : Complete level us e)
    (ht : t.kind = k) (hfuel : depth goal ts ≤ fuel) (hsign : k.signLevel? = none)
    (hassign : k ≠ .assign) (hlength : (us ++ t :: rest).length < ts.length) :
    Gives (readGoal fuel (.at level)) (us ++ t :: rest) e (t :: rest) :=
  (h _ (stops_of_word ht hsign hassign)).later hfuel hlength

theorem expression_conditional {word thenWord elseWord : Token} {cs ts fs : List Token}
    {c t f : Expr} (hword : word.kind = .wordIf) (hc : Complete .expression cs c)
    (hthen : thenWord.kind = .wordThen) (ht : Complete .expression ts t)
    (helse : elseWord.kind = .wordElse) (hf : Complete .expression fs f) :
    Complete .expression (word :: cs ++ thenWord :: ts ++ elseWord :: fs) (.conditional c t f) := by
  intro rest hstops
  simp only [List.append_assoc, List.cons_append]
  refine reads_of_step fun fuel hfuel => ?_
  refine gives_bind.2 ⟨_, _, take_statement .conditional hword, ?_⟩
  refine gives_bind.2 ⟨_, _, hc.closed hthen hfuel rfl (by decide) (by simp), ?_⟩
  refine gives_bind.2 ⟨_, _, gives_word (by decide) hthen, ?_⟩
  refine gives_bind.2 ⟨_, _, ht.closed helse hfuel rfl (by decide) (by grind), ?_⟩
  refine gives_bind.2 ⟨_, _, gives_word (by decide) helse, ?_⟩
  refine gives_bind.2 ⟨_, _, (hf rest hstops).later hfuel (by grind), ?_⟩
  exact gives_pure.2 ⟨rfl, rfl⟩

theorem expression_foreach {word name inWord doWord : Token} {ss bs : List Token}
    {source body : Expr} (hword : word.kind = .wordForeach) (hname : name.kind = .identifier)
    (hin : inWord.kind = .wordIn) (hsource : Complete .expression ss source)
    (hdo : doWord.kind = .wordDo) (hbody : Complete .expression bs body) :
    Complete .expression (word :: name :: inWord :: ss ++ doWord :: bs)
      (.foreach name.lexeme source body) := by
  intro rest hstops
  simp only [List.append_assoc, List.cons_append]
  refine reads_of_step fun fuel hfuel => ?_
  refine gives_bind.2 ⟨_, _, take_statement .foreach hword, ?_⟩
  refine gives_bind.2 ⟨_, _, gives_word (by decide) hname, ?_⟩
  refine gives_bind.2 ⟨_, _, gives_word (by decide) hin, ?_⟩
  refine gives_bind.2 ⟨_, _, hsource.closed hdo hfuel rfl (by decide) (by grind), ?_⟩
  refine gives_bind.2 ⟨_, _, gives_word (by decide) hdo, ?_⟩
  refine gives_bind.2 ⟨_, _, (hbody rest hstops).later hfuel (by grind), ?_⟩
  exact gives_pure.2 ⟨rfl, rfl⟩

theorem expression_loop {mode : LoopMode} {style : EndStyle} {word name sign mark : Token}
    {bs ts : List Token} {body test : Expr} (hword : word.kind = loopKind mode)
    (hname : name.kind = .identifier) (hsign : sign.kind = .assign)
    (hbody : Complete .expression bs body) (hmark : mark.kind = endKind style)
    (htest : Complete .expression ts test) :
    Complete .expression (word :: name :: sign :: bs ++ mark :: ts)
      (.loop mode name.lexeme body style test) := by
  intro rest hstops
  simp only [List.append_assoc, List.cons_append]
  refine reads_of_step fun fuel hfuel => ?_
  have hmarkSign : (endKind style).signLevel? = none := by cases style <;> rfl
  have hmarkAssign : endKind style ≠ .assign := by cases style <;> decide
  refine gives_bind.2 ⟨_, _, take_statement (.loop mode) hword, ?_⟩
  refine gives_bind.2 ⟨_, _, gives_word (by decide) hname, ?_⟩
  refine gives_bind.2 ⟨_, _, gives_word (by decide) hsign, ?_⟩
  refine gives_bind.2 ⟨_, _, hbody.closed hmark hfuel hmarkSign hmarkAssign (by grind), ?_⟩
  refine gives_bind.2 ⟨_, _, takeWhen_some rfl (endStyle?_eq_some_iff.2 hmark), ?_⟩
  refine gives_bind.2 ⟨_, _, (htest rest hstops).later hfuel (by grind), ?_⟩
  exact gives_pure.2 ⟨rfl, rfl⟩

/-- Without a statement word, the first two tokens decide whether a binding starts. -/
theorem expression_of_head {read : Goal → Read Expr} {t : Token}
    (hhead : t.kind.headLevel? ≠ some .expression) (starts : Bool)
    (hstarts : starts = true ↔ ∃ name sign later, t :: ts = name :: sign :: later ∧
      name.kind = .identifier ∧ sign.kind = .assign) :
    Ladder.expression read (t :: ts) = (if starts then binding read else read (.at .layout)) (t :: ts) := by
  have hstatement : statement? t.kind = none := by
    rw [Option.eq_none_iff_forall_ne_some]
    intro statement hstatement
    rw [statement?_eq_some_iff.1 hstatement] at hhead
    rcases statement with _ | _ | (_ | _) <;> exact hhead rfl
  exact (bind_of_gives (takeWhen_none rfl hstatement)).trans (bind_of_gives (gives_startsBinding.2 ⟨rfl, hstarts⟩))

theorem expression_of_binding {read : Goal → Read Expr} {name sign : Token} (hname : name.kind = .identifier)
    (hsign : sign.kind = .assign) :
    Ladder.expression read (name :: sign :: ts) = binding read (name :: sign :: ts) :=
  expression_of_head (by rw [hname]; decide) true ⟨fun _ => ⟨name, sign, ts, rfl, hname, hsign⟩, fun _ => rfl⟩

/-- What starts a tighter expression starts neither a statement nor a binding. -/
theorem expression_of_starts {read : Goal → Read Expr} (h : Starts .layout ts) :
    Ladder.expression read ts = read (.at .layout) ts := by
  obtain ⟨t, later, rfl, hopens, hbinding⟩ := h
  refine expression_of_head (Level.Opens.headLevel?_ne (by decide) hopens) false ⟨fun h => absurd h (by decide), ?_⟩
  rintro ⟨name, sign, others, hnames, hname, hsign⟩
  cases hnames
  exact absurd hsign (hbinding (by decide) hname sign rfl)

theorem expression_binding {name sign semicolon : Token} {ds us : List Token}
    {definition use : Expr} (hname : name.kind = .identifier) (hsign : sign.kind = .assign)
    (hdefinition : Complete .expression ds definition) (hend : semicolon.kind = .semicolon)
    (huse : Complete .expression us use) :
    Complete .expression (name :: sign :: ds ++ semicolon :: us)
      (.binding name.lexeme definition use) := by
  intro rest hstops
  simp only [List.append_assoc, List.cons_append]
  refine reads_of_step fun fuel hfuel => (expression_of_binding hname hsign).trans ?_
  refine gives_bind.2 ⟨_, _, gives_word (by decide) hname, ?_⟩
  refine gives_bind.2 ⟨_, _, gives_word (by decide) hsign, ?_⟩
  refine gives_bind.2 ⟨_, _, hdefinition.closed hend hfuel rfl (by decide) (by grind), ?_⟩
  refine gives_bind.2 ⟨_, _, gives_word (by decide) hend, ?_⟩
  refine gives_bind.2 ⟨_, _, (huse rest hstops).later hfuel (by grind), ?_⟩
  exact gives_pure.2 ⟨rfl, rfl⟩

theorem expression_below (hderives : Derives .layout ts e) (h : Complete .layout ts e) :
    Complete .expression ts e := by
  intro rest hstops
  refine reads_of_step fun fuel hfuel => ?_
  have hbelow := gives_below hfuel (by decide) (h rest (stops_below hstops))
  obtain ⟨s, later, rfl, -, hassign⟩ := hstops
  exact (expression_of_starts (hderives.starts.append hassign later)).trans hbelow

/-! Lists. -/

theorem items_complete {α : Type} {item : Read α} {n : Nat} {parts : List (List Token × α)}
    {us : List Token} (hlisted : Separated (parts.map Prod.fst) us)
    (hitem : ∀ p ∈ parts, ∀ rest, Stops .expression rest → (p.1 ++ rest).length ≤ n →
      Gives item (p.1 ++ rest) p.2 rest)
    (hfuel : parts.length ≤ fuel) {closing : Token} (hstops : Stops .expression (closing :: rest))
    (hclosing : closing.kind ≠ .comma) (hn : (us ++ closing :: rest).length ≤ n) :
    Gives (items item fuel) (us ++ closing :: rest) (parts.map Prod.snd) (closing :: rest) := by
  generalize hfirst : parts.map Prod.fst = firsts at hlisted
  induction hlisted generalizing parts fuel with
  | single part =>
    obtain ⟨⟨_, a⟩, rfl, rfl⟩ := List.map_eq_singleton_iff.1 hfirst
    cases fuel with
    | zero => exact absurd hfuel (by simp)
    | succ fuel =>
      refine gives_bind.2 ⟨_, _, hitem _ (by simp) _ hstops hn, ?_⟩
      refine gives_bind.2 ⟨_, _, (gives_take? (by decide)).2 (.inr ⟨_, _, rfl, hclosing, rfl, rfl⟩), ?_⟩
      exact gives_pure.2 ⟨rfl, rfl⟩
  | @cons comma others ts part hcomma _ ih =>
    obtain ⟨⟨_, a⟩, parts, rfl, rfl, rfl⟩ := List.map_eq_cons_iff.1 hfirst
    cases fuel with
    | zero => exact absurd hfuel (by simp)
    | succ fuel =>
      rw [List.append_assoc] at hn ⊢
      have hrest := ih (fun p hp => hitem p (List.mem_cons_of_mem _ hp))
        (Nat.le_of_succ_le_succ hfuel) (by simp at hn ⊢; omega) rfl
      refine gives_bind.2 ⟨_, _, hitem _ (by simp) _ (stops_of_word hcomma rfl (by decide)) hn, ?_⟩
      refine gives_bind.2 ⟨_, _, (gives_take? (by decide)).2 (.inl ⟨_, rfl, hcomma, rfl⟩), ?_⟩
      exact gives_bind.2 ⟨_, _, hrest, gives_pure.2 ⟨rfl, rfl⟩⟩

theorem Separated.length_le {parts : List (List Token)} {us : List Token} (h : Separated parts us) :
    parts.length ≤ us.length + 1 := by
  induction h with
  | single part => simp
  | cons part _ _ ih =>
    simp only [List.length_cons, List.length_append]
    omega

theorem Separated.starts {parts : List (List Token)} {us : List Token} (h : Separated parts us)
    (hparts : ∀ part ∈ parts, Starts level part) :
    ∃ t later, us = t :: later ∧ level.Opens t.kind := by
  cases h with
  | single part =>
    obtain ⟨t, later, rfl, hopens, -⟩ := hparts _ List.mem_cons_self
    exact ⟨t, later, rfl, hopens⟩
  | cons part =>
    obtain ⟨t, later, rfl, hopens, -⟩ := hparts _ List.mem_cons_self
    exact ⟨t, _, rfl, hopens⟩

/-- A list between its brackets. The closing one is no word that could start an item. -/
theorem enclosed_complete {α : Type} {item : Read α} {n : Nat} {parts : List (List Token × α)}
    {us : List Token} (hlisted : Listed (parts.map Prod.fst) us)
    (hitem : ∀ p ∈ parts, ∀ rest, Stops .expression rest → (p.1 ++ rest).length ≤ n →
      Gives item (p.1 ++ rest) p.2 rest)
    (hstarts : ∀ part ∈ parts.map Prod.fst, Starts .expression part) {what : Expected}
    {closing : Token} {k : Kind} (hclosing : closing.kind = k) (hk : k ∈ [.rightParen, .rightBrace, .rightBracket])
    (hn : (us ++ closing :: rest).length ≤ n) (hfuel : n < fuel) :
    Gives (enclosed item fuel k what) (us ++ closing :: rest) (parts.map Prod.snd, closing) rest := by
  have hbrackets : ∀ k ∈ [Kind.rightParen, .rightBrace, .rightBracket],
      k.headLevel? = none ∧ k.signLevel? = none ∧ k ≠ .assign ∧ k ≠ .comma ∧ k ≠ .endOfInput := by
    decide
  obtain ⟨hhead, hsign, hassign, hcomma, hend⟩ := hbrackets k hk
  generalize hfirsts : parts.map Prod.fst = firsts at hlisted hstarts
  cases hlisted with
  | none =>
    obtain rfl := List.map_eq_nil_iff.1 hfirsts
    exact gives_bind.2 ⟨_, _, (gives_take? hend).2 (.inl ⟨closing, rfl, hclosing, rfl⟩),
      gives_pure.2 ⟨rfl, rfl⟩⟩
  | some hseparated =>
    have hcount : parts.length ≤ fuel := by
      have := hseparated.length_le
      simp only [← hfirsts, List.length_map] at this
      simp only [List.length_append, List.length_cons] at hn
      omega
    have hitems := items_complete (hfirsts ▸ hseparated) hitem hcount
      (stops_of_word hclosing hsign hassign) (hclosing ▸ hcomma) hn
    obtain ⟨t, later, rfl, hopens⟩ := hseparated.starts hstarts
    have hother : t.kind ≠ k := by
      rintro rfl
      exact hopens.headLevel?_ne_none hhead
    exact gives_bind.2 ⟨_, _, (gives_take? hend).2 (.inr ⟨t, _, rfl, hother, rfl, rfl⟩),
      gives_bind.2 ⟨_, _, hitems, gives_bind.2 ⟨_, _, gives_word hend hclosing,
        gives_pure.2 ⟨rfl, rfl⟩⟩⟩⟩

/-- A list of expressions between its brackets. -/
theorem enclosed_expressions {parts : List (List Token × Expr)} {us : List Token}
    (hlisted : Listed (parts.map Prod.fst) us) (hderives : ∀ p ∈ parts, Derives .expression p.1 p.2)
    (hparts : ∀ p ∈ parts, Complete .expression p.1 p.2) {what : Expected} {closing : Token}
    {k : Kind} (hclosing : closing.kind = k) (hk : k ∈ [.rightParen, .rightBrace, .rightBracket])
    (hfuel : depth goal ts ≤ fuel) (hlength : (us ++ closing :: rest).length < ts.length) :
    Gives (enclosed (readGoal fuel (.at .expression)) fuel k what) (us ++ closing :: rest)
      (parts.map Prod.snd, closing) rest := by
  refine enclosed_complete hlisted ?_ ?_ hclosing hk (Nat.le_refl _)
    (Nat.lt_of_lt_of_le hlength (Nat.le_trans (length_le_depth goal ts) hfuel))
  · intro p hp rest' hstops hlength'
    exact (hparts p hp rest' hstops).later hfuel (Nat.lt_of_le_of_lt hlength' hlength)
  · intro part hpart
    obtain ⟨p, hp, rfl⟩ := List.mem_map.1 hpart
    exact (hderives p hp).starts

theorem primary_probability {op t : Token} (hop : op.kind = .question) (ht : t.kind = .real) :
    Whole .primary [op, t] (.unary op .real (.ofLiteral .real t.literal)) := by
  intro rest
  refine reads_of_step fun fuel _ => ?_
  refine gives_bind.2 ⟨_, _, take_opening .probability hop, ?_⟩
  exact gives_bind.2 ⟨_, _, gives_word (by decide) ht, gives_pure.2 ⟨rfl, rfl⟩⟩

theorem primary_name {t : Token} (ht : t.kind = .identifier) :
    Whole .primary [t] (.var t.lexeme .missing) := by
  intro rest
  refine reads_of_step fun fuel _ => ?_
  exact gives_bind.2 ⟨_, _, take_opening .name ht, gives_pure.2 ⟨rfl, rfl⟩⟩

theorem primary_text {t : Token} (ht : t.kind = .string) :
    Whole .primary [t] (.ofLiteral .text t.literal) := by
  intro rest
  refine reads_of_step fun fuel _ => ?_
  exact gives_bind.2 ⟨_, _, take_opening .text ht, gives_pure.2 ⟨rfl, rfl⟩⟩

theorem primary_number {t : Token} (ht : t.kind = .integer) :
    Whole .primary [t] (.ofLiteral .number t.literal) := by
  intro rest
  refine reads_of_step fun fuel _ => ?_
  exact gives_bind.2 ⟨_, _, take_opening .number ht, gives_pure.2 ⟨rfl, rfl⟩⟩

theorem primary_group {opening closing : Token} (hopening : opening.kind = .leftParen)
    (h : Complete .expression ts e) (hclosing : closing.kind = .rightParen) :
    Whole .primary (opening :: ts ++ [closing]) (.group e) := by
  intro rest
  simp only [List.append_assoc, List.cons_append, List.nil_append]
  refine reads_of_step fun fuel hfuel => ?_
  refine gives_bind.2 ⟨_, _, take_opening .group hopening, ?_⟩
  refine gives_bind.2 ⟨_, _, h.closed hclosing hfuel rfl (by decide) (by simp), ?_⟩
  exact gives_bind.2 ⟨_, _, gives_word (by decide) hclosing, gives_pure.2 ⟨rfl, rfl⟩⟩

theorem primary_call {word name opening closing : Token} {parts : List (List Token × Expr)}
    (hword : word.kind = .wordCall) (hname : name.kind = .identifier)
    (hopening : opening.kind = .leftParen) (hderives : ∀ p ∈ parts, Derives .expression p.1 p.2)
    (hparts : ∀ p ∈ parts, Complete .expression p.1 p.2) (hlisted : Listed (parts.map Prod.fst) ts)
    (hclosing : closing.kind = .rightParen) :
    Whole .primary (word :: name :: opening :: ts ++ [closing])
      (.call name.lexeme (parts.map Prod.snd)) := by
  intro rest
  simp only [List.append_assoc, List.cons_append, List.nil_append]
  refine reads_of_step fun fuel hfuel => ?_
  refine gives_bind.2 ⟨_, _, take_opening .call hword, ?_⟩
  refine gives_bind.2 ⟨_, _, gives_word (by decide) hname, ?_⟩
  refine gives_bind.2 ⟨_, _, gives_word (by decide) hopening, ?_⟩
  exact gives_bind.2 ⟨_, _, enclosed_expressions hlisted hderives hparts hclosing (by decide) hfuel
    (by grind), gives_pure.2 ⟨rfl, rfl⟩⟩

theorem primary_collection {opening closing : Token} {parts : List (List Token × Expr)}
    (hopening : opening.kind = .leftBrace) (hderives : ∀ p ∈ parts, Derives .expression p.1 p.2)
    (hparts : ∀ p ∈ parts, Complete .expression p.1 p.2) (hlisted : Listed (parts.map Prod.fst) ts)
    (hclosing : closing.kind = .rightBrace) :
    Whole .primary (opening :: ts ++ [closing]) (.collection (parts.map Prod.snd)) := by
  intro rest
  simp only [List.append_assoc, List.cons_append, List.nil_append]
  refine reads_of_step fun fuel hfuel => ?_
  refine gives_bind.2 ⟨_, _, take_opening .collection hopening, ?_⟩
  exact gives_bind.2 ⟨_, _, enclosed_expressions hlisted hderives hparts hclosing (by decide) hfuel
    (by simp), gives_pure.2 ⟨rfl, rfl⟩⟩

theorem primary_pair {opening comma closing : Token} {as bs : List Token} {a b : Expr}
    (hopening : opening.kind = .leftBracket) (hderives : Derives .expression as a)
    (ha : Complete .expression as a) (hcomma : comma.kind = .comma)
    (hderives' : Derives .expression bs b) (hb : Complete .expression bs b)
    (hclosing : closing.kind = .rightBracket) :
    Whole .primary (opening :: as ++ comma :: bs ++ [closing]) (.pair a b) := by
  intro rest
  have hlisted : Listed ([(as, a), (bs, b)].map Prod.fst) (as ++ comma :: bs) :=
    .some (.cons as hcomma (.single bs))
  have hsplit : opening :: as ++ comma :: bs ++ [closing] ++ rest =
      opening :: ((as ++ comma :: bs) ++ closing :: rest) := by simp
  rw [hsplit]
  refine reads_of_step fun fuel hfuel => ?_
  refine gives_bind.2 ⟨_, _, take_opening .tuple hopening, ?_⟩
  exact gives_bind.2 ⟨_, _, enclosed_expressions hlisted (by simp [hderives, hderives'])
    (by simp [ha, hb]) hclosing (by decide) hfuel (by simp), gives_pure.2 ⟨rfl, rfl⟩⟩

/-- An expression that stands at a looser level is read there too. -/
theorem found_of_below (hderives : Derives level.below ts e) (h : Found level.below ts e) :
    Found level ts e := by
  by_cases hleftward : level ∈ leftward
  · exact (leads_of_below hleftward hderives h.1).found
  · refine Complete.found ?_ hleftward
    cases level with
    | expression => exact expression_below hderives h.1
    | range => exact range_below h.1
    | negate => exact negate_below hderives h.1
    | apply => exact apply_below hderives h.1
    | compare => exact compare_below hderives h.1
    | die => exact fun rest hstops => die_below hderives (h.1 rest (stops_below hstops))
    | primary => exact h.1
    | layout | select | union | sum | product | dice => exact absurd (by decide) hleftward

theorem found_operation {op : Token} {schema : BinarySchema} {ls rs : List Token} {l r : Expr}
    (hderives : Derives level.left ls l) (hl : Found level.left ls l) (hsign : op.kind ∈ level.signs)
    (hschema : op.kind.binarySchema? = some schema) (hr : Found level.right rs r) :
    Found level (ls ++ op :: rs) (.binary l op schema r) := by
  by_cases hleftward : level ∈ leftward
  · obtain ⟨hleft, hright⟩ := sides_of_leftward hleftward
    rw [hleft] at hl
    rw [hright] at hr
    exact (leads_operation hleftward (hl.2 hleftward) hsign hschema hr.1).found
  · refine Complete.found ?_ hleftward
    cases level with
    | range => exact range_operation hl.1 hsign hschema hr.1
    | apply => exact apply_operation hderives hl.1 hsign hschema hr.1
    | compare => exact compare_operation hderives hl.1 hsign hschema hr.1
    | expression | negate | die | primary => exact absurd hsign (by simp [Level.signs])
    | layout | select | union | sum | product | dice => exact absurd (by decide) hleftward

/-- What the grammar derives is found, before everything that may follow. -/
theorem Derives.found (h : Derives level ts e) : Found level ts e := by
  induction h with
  | tighter h ih => exact found_of_below h ih
  | operation h hsign hschema _ ihl ihr => exact found_operation h ihl hsign hschema ihr
  | fallback _ htilde _ ihl ihr => exact (leads_fallback (ihl.2 (by decide)) htilde ihr.1).found
  | conditional hword _ hthen _ helse _ ihc iht ihf =>
    exact (expression_conditional hword ihc.1 hthen iht.1 helse ihf.1).found (by decide)
  | foreach hword hname hin _ hdo _ ihsource ihbody =>
    exact (expression_foreach hword hname hin ihsource.1 hdo ihbody.1).found (by decide)
  | loop hword hname hsign _ hmark _ ihbody ihtest =>
    exact (expression_loop hword hname hsign ihbody.1 hmark ihtest.1).found (by decide)
  | binding hname hsign _ hend _ ihdefinition ihuse =>
    exact (expression_binding hname hsign ihdefinition.1 hend ihuse.1).found (by decide)
  | negate hop _ ih => exact (negate_negate hop ih.1).found (by decide)
  | apply hop hschema _ ih => exact (apply_apply hop hschema ih.1).found (by decide)
  | applyPair hop _ hr hapart ihl ihr =>
    exact (apply_pair hop ihl.1 hr ihr.1 hapart).found (by decide)
  | die hop _ ih => exact Complete.found (fun rest hstops => die_die hop (ih.1 rest hstops)) (by decide)
  | probability hop ht => exact (primary_probability hop ht).complete.found (by decide)
  | name ht => exact (primary_name ht).complete.found (by decide)
  | text ht => exact (primary_text ht).complete.found (by decide)
  | number ht => exact (primary_number ht).complete.found (by decide)
  | group hopening _ hclosing ih => exact (primary_group hopening ih.1 hclosing).complete.found (by decide)
  | call hword hname hopening hparts hlisted hclosing ih =>
    exact (primary_call hword hname hopening hparts (fun p hp => (ih p hp).1) hlisted hclosing).complete.found
      (by decide)
  | collection hopening hparts hlisted hclosing ih =>
    exact (primary_collection hopening hparts (fun p hp => (ih p hp).1) hlisted hclosing).complete.found
      (by decide)
  | pair hopening ha hcomma hb hclosing iha ihb =>
    exact (primary_pair hopening ha iha.1 hcomma hb ihb.1 hclosing).complete.found (by decide)

theorem Derives.complete (h : Derives level ts e) : Complete level ts e :=
  h.found.1

/-- A die or a primary expression is over where its tokens end. -/
theorem Derives.whole (h : Derives level ts e) (hlevel : Level.die.rank ≤ level.rank) : Whole level ts e := by
  induction h with
  | @tighter level ts e h ih =>
    cases level with
    | die => exact fun rest => die_below h (ih (by decide) rest)
    | primary => exact ih (by decide)
    | _ => exact absurd hlevel (by decide)
  | @operation level _ _ _ _ _ _ _ hsign =>
    cases level <;> first | exact absurd hlevel (by decide) | exact absurd hsign (by simp [Level.signs])
  | die hop _ ih => exact fun rest => die_die hop (ih (by decide) rest)
  | probability hop ht => exact primary_probability hop ht
  | name ht => exact primary_name ht
  | text ht => exact primary_text ht
  | number ht => exact primary_number ht
  | group hopening h hclosing => exact primary_group hopening h.complete hclosing
  | call hword hname hopening hparts hlisted hclosing =>
    exact primary_call hword hname hopening hparts (fun p hp => (hparts p hp).complete) hlisted hclosing
  | collection hopening hparts hlisted hclosing =>
    exact primary_collection hopening hparts (fun p hp => (hparts p hp).complete) hlisted hclosing
  | pair hopening ha hcomma hb hclosing => exact primary_pair hopening ha ha.complete hcomma hb hb.complete hclosing
  | _ => exact absurd hlevel (by decide)

/-! Definitions and scripts. -/

/-- A list of parameters between its brackets. -/
theorem enclosed_parameters {parameters : List Token} {ps : List Token}
    (hparameters : ∀ p ∈ parameters, p.kind = .identifier)
    (hlisted : Listed (parameters.map ([·])) ps) {closing : Token}
    (hclosing : closing.kind = .rightParen) (hfuel : (ps ++ closing :: rest).length < fuel) :
    Gives (enclosed (expect .identifier (.expected .parameterName)) fuel .rightParen
      .parametersClosing) (ps ++ closing :: rest) (parameters, closing) rest := by
  let parts : List (List Token × Token) := parameters.map fun p => ([p], p)
  have hfirst : parts.map Prod.fst = parameters.map ([·]) := by simp [parts]
  have hsecond : parts.map Prod.snd = parameters := by simp [parts, Function.comp_def]
  rw [← hsecond]
  rw [← hfirst] at hlisted
  refine enclosed_complete hlisted ?_ ?_ hclosing (by decide) (Nat.le_refl _) hfuel
  · intro part hpart rest _ _
    obtain ⟨p, hp, rfl⟩ := List.mem_map.1 hpart
    exact gives_word (by decide) (hparameters p hp)
  · intro part hpart
    rw [hfirst] at hpart
    obtain ⟨p, hp, rfl⟩ := List.mem_map.1 hpart
    exact (Derives.name (hparameters p hp)).starts.of_le (by decide) (by decide)

theorem readFunction_complete {name opening closing sign : Token} {parameters : List Token}
    {ps bs us : List Token} {body : Expr} (hname : name.kind = .identifier)
    (hopening : opening.kind = .leftParen) (hparameters : ∀ p ∈ parameters, p.kind = .identifier)
    (hlisted : Listed (parameters.map ([·])) ps) (hclosing : closing.kind = .rightParen)
    (hsign : sign.kind = .equal) (hbody : Derives .expression bs body)
    (hstops : Stops .expression rest) (hfuel : depth goal us ≤ fuel)
    (hlength : (name :: opening :: ps ++ closing :: sign :: bs ++ rest).length < us.length) :
    Gives (Script.readFunction fuel) (name :: opening :: ps ++ closing :: sign :: bs ++ rest)
      (name.lexeme, .function name.lexeme (parameters.map (·.lexeme)) body) rest := by
  have hdepth := length_le_depth goal us
  simp only [List.append_assoc, List.cons_append, List.length_cons, List.length_append] at hlength ⊢
  refine gives_bind.2 ⟨_, _, gives_word (by decide) hname, ?_⟩
  refine gives_bind.2 ⟨_, _, gives_word (by decide) hopening, ?_⟩
  refine gives_bind.2 ⟨_, _, enclosed_parameters hparameters hlisted hclosing (by grind), ?_⟩
  refine gives_bind.2 ⟨_, _, gives_word (by decide) hsign, ?_⟩
  refine gives_bind.2 ⟨_, _, (hbody.complete rest hstops).later hfuel (by grind), ?_⟩
  exact gives_pure.2 ⟨rfl, rfl⟩

theorem Definitions.stops {us : List Token} {entries : Table Name Expr} (h : Definitions us entries)
    (hrest : Stops .expression rest) : Stops .expression (us ++ rest) := by
  cases h with
  | none => exact hrest
  | cons hword => exact stops_of_word hword rfl (by decide)

theorem readFunctions_none {known : Table Name Expr} {rounds : Nat} (hrounds : 0 < rounds) {t : Token}
    (ht : t.kind ≠ .wordFunction) :
    Gives (Script.readFunctions fuel rounds known) (t :: ts) known (t :: ts) := by
  obtain ⟨rounds, rfl⟩ := Nat.exists_eq_succ_of_ne_zero (Nat.pos_iff_ne_zero.1 hrounds)
  exact gives_bind.2 ⟨_, _, (gives_take? (by decide)).2 (.inr ⟨t, ts, rfl, ht, rfl, rfl⟩),
    gives_pure.2 ⟨rfl, rfl⟩⟩

theorem not_mem_names_of_nodup {known entries : Table Name Expr} {entry : Name × Expr}
    (h : (Table.names (known ++ entry :: entries)).Nodup) : entry.1 ∉ known.names := by
  simp only [Table.names, List.map_append, List.map_cons] at h ⊢
  intro hmem
  exact (List.nodup_append.1 h).2.2 _ hmem _ List.mem_cons_self rfl

/-- A definition under a new name is added behind those known, and reading goes on. -/
theorem readFunctions_definition {word name opening closing sign : Token} {parameters : List Token}
    {ps bs whole : List Token} {body : Expr} {known : Table Name Expr} {rounds : Nat}
    (hword : word.kind = .wordFunction) (hname : name.kind = .identifier) (hopening : opening.kind = .leftParen)
    (hparameters : ∀ p ∈ parameters, p.kind = .identifier) (hlisted : Listed (parameters.map ([·])) ps)
    (hclosing : closing.kind = .rightParen) (hsign : sign.kind = .equal) (hbody : Derives .expression bs body)
    (hknown : name.lexeme ∉ known.names) (hstops : Stops .expression rest) (hfuel : depth goal whole ≤ fuel)
    (hlength : (word :: name :: opening :: ps ++ closing :: sign :: bs ++ rest).length ≤ whole.length) :
    Script.readFunctions fuel (rounds + 1) known
        (word :: name :: opening :: ps ++ closing :: sign :: bs ++ rest) =
      Script.readFunctions fuel rounds
        (known ++ [(name.lexeme, .function name.lexeme (parameters.map (·.lexeme)) body)]) rest := by
  have hnew : ¬ (known.find? name.lexeme).isSome := by
    simp [(Table.find?_eq_none_iff known name.lexeme).2 hknown]
  have hfunction := readFunction_complete hname hopening hparameters hlisted hclosing hsign hbody hstops hfuel hlength
  refine (bind_of_gives ((gives_take? (by decide)).2 (.inl ⟨word, rfl, hword, rfl⟩))).trans ?_
  refine (bind_of_gives hfunction).trans ?_
  simp only [if_neg hnew, Table.insert_of_not_mem _ _ _ hknown]

/-- Definitions are added behind those known, up to a token that starts none. -/
theorem readFunctions_complete {us whole : List Token} {known entries : Table Name Expr}
    (h : Definitions us entries) {last : Token} (hlast : last.kind ≠ .wordFunction)
    (hstops : us ≠ [] → Stops .expression (last :: rest)) {rounds : Nat}
    (hrounds : us.length < rounds) (hfuel : depth goal whole ≤ fuel)
    (hlength : (us ++ last :: rest).length ≤ whole.length)
    (hdistinct : (Table.names (known ++ entries)).Nodup) :
    Gives (Script.readFunctions fuel rounds known) (us ++ last :: rest) (known ++ entries)
      (last :: rest) := by
  induction h generalizing known rounds with
  | none =>
    rw [List.append_nil]
    exact readFunctions_none hrounds hlast
  | @cons word name opening closing sign parameters ps bs others body entries hword hname hopening
      hparameters hlisted hclosing hsign hbody hothers ih =>
    cases rounds with
    | zero => exact absurd hrounds (Nat.not_lt_zero _)
    | succ rounds =>
      have hnext : Stops .expression (last :: rest) := hstops (by simp)
      rw [List.append_assoc] at hlength ⊢
      have hrest := @ih (known ++ [(name.lexeme, _)]) (fun _ => hnext) rounds (by grind) (by grind)
        (by simpa using hdistinct)
      rw [List.append_assoc, List.singleton_append] at hrest
      exact (readFunctions_definition hword hname hopening hparameters hlisted hclosing hsign hbody
        (not_mem_names_of_nodup hdistinct) (hothers.stops hnext) hfuel hlength).trans hrest

theorem depth_lt_enoughFuel {us : List Token} (h : us.length ≤ ts.length) :
    depth (.at .expression) us < Script.enoughFuel ts := by
  simp only [Script.enoughFuel, depth, Level.rank]
  omega

theorem Starts.ne_wordFunction {t : Token} (h : Starts .expression (t :: ts)) : t.kind ≠ .wordFunction := by
  obtain ⟨_, _, ⟨⟩, hopens, -⟩ := h
  intro hword
  rw [hword] at hopens
  exact hopens.headLevel?_ne_none rfl

/-- An expression and definitions behind it, up to the end of input, are read as the script that they are. -/
theorem ofTokens_of_derives {main us : List Token} {entries : Table Name Expr}
    (hmain : Derives .expression main e) (hentries : Definitions us entries)
    (hdistinct : entries.names.Nodup) {last : Token} (hlast : last.kind = .endOfInput) :
    Script.ofTokens (main ++ us ++ last :: rest) = .ok ⟨e, entries⟩ := by
  generalize hfuel : Script.enoughFuel (main ++ us ++ last :: rest) = fuel
  have hdepth : depth (.at .expression) (main ++ us ++ last :: rest) < fuel :=
    hfuel ▸ depth_lt_enoughFuel (Nat.le_refl _)
  have hstops : Stops .expression (last :: rest) := stops_of_word hlast rfl (by decide)
  have hexpression := hmain.complete (us ++ last :: rest) (hentries.stops hstops) fuel
    (by rwa [← List.append_assoc])
  have hlength : 16 * (main ++ us ++ last :: rest).length < fuel := by
    simp only [depth] at hdepth
    omega
  simp only [List.length_append, List.length_cons] at hlength
  have hfunctions : Gives (Script.readFunctions fuel fuel []) (us ++ last :: rest) entries
      (last :: rest) :=
    readFunctions_complete hentries (by simp [hlast]) (fun _ => hstops) (by omega) (Nat.le_of_lt hdepth) (by simp)
      hdistinct
  have hbefore : Gives (Script.readFunctions fuel fuel []) (main ++ (us ++ last :: rest)) []
      (main ++ (us ++ last :: rest)) := by
    obtain ⟨t, later, rfl, -⟩ := id hmain.starts
    exact readFunctions_none (by omega) hmain.starts.ne_wordFunction
  have hread : Gives (Script.readScript fuel) (main ++ (us ++ last :: rest)) ⟨e, entries⟩
      (last :: rest) := by
    refine gives_bind.2 ⟨_, _, hbefore, ?_⟩
    refine gives_bind.2 ⟨_, _, hexpression, ?_⟩
    refine gives_bind.2 ⟨_, _, hfunctions, ?_⟩
    refine gives_bind.2 ⟨_, _, gives_peek.2 ⟨rfl, rfl⟩, ?_⟩
    rw [if_pos hlast]
    exact gives_pure.2 ⟨rfl, rfl⟩
  rw [← List.append_assoc] at hread
  simp only [Script.ofTokens, hfuel, StateT.run]
  rw [hread]
  rfl

end

end DiceScript.Grammar
