import DiceScript.Proofs.Grammar.Reading

/-!
# What is read is in the grammar

Reading succeeds only with a tree that the grammar derives from exactly the tokens taken. The invariant
has two parts. One is the derivation itself, from which it follows that every token is accounted for. The
other is where reading stops: after an expression of a tight level there is never a word that would go on
with it. It is what keeps comparisons and the infix quote from taking an operand of their own level on the
left, though they are read in a loop, and what sets the two operands of `least` apart.
-/

namespace DiceScript.Grammar

open Read

/-- No word that goes on with an expression of a level is next. Nothing is said of levels as loose as a
range, after which another range sign may be left over. -/
def Ended (level : Level) (ts : List Token) : Prop :=
  Level.range.rank < level.rank → ∀ t ∈ ts.head?, ¬ level.Continues t.kind

section

variable {level : Level} {ts : List Token}

theorem ended_of_below (hbelow : Ended level.below ts) (hsigns : ∀ t ∈ ts.head?, t.kind ∉ level.signs) :
    Ended level ts := by
  intro htight t ht hcontinues
  rcases Level.continues_iff.1 hcontinues with hsign | hcontinues
  · exact hsigns t ht hsign
  · exact hbelow (Nat.lt_of_lt_of_le htight (Level.rank_below level)) t ht hcontinues

theorem ended_below (htight : Level.range.rank < level.rank) (h : Ended level ts) :
    Ended level.below ts := by
  intro _ t ht hcontinues
  exact h htight t ht (hcontinues.of_le (Level.rank_below level))

theorem ended_loose (hloose : level.rank ≤ Level.range.rank) : Ended level ts :=
  fun htight => absurd htight (Nat.not_lt.2 hloose)

theorem not_continues_die {k : Kind} : ¬ Level.die.Continues k := by
  rintro ⟨l, hrank, hsign⟩
  cases l <;> simp [Level.rank, Level.signs] at hrank hsign

theorem ended_die : Ended .die ts :=
  fun _ _ _ => not_continues_die

theorem ended_primary : Ended .primary ts :=
  fun _ _ _ h => not_continues_die (h.of_le (by decide))

/-- What may follow an operand of `least` starts no word that goes on with it. -/
theorem apart_of_ended {used rest : List Token} (h : Ended .apply (used ++ rest)) : Apart used := by
  intro t ht
  have hhead : t ∈ (used ++ rest).head? := by
    rw [List.head?_append, Option.mem_def.1 ht]
    rfl
  have hnot := h (by decide) t hhead
  refine ⟨?_, ?_, ?_⟩ <;> intro hkind <;> apply hnot <;> rw [hkind]
  · exact ⟨.dice, by decide, by decide⟩
  · exact ⟨.dice, by decide, by decide⟩
  · exact ⟨.apply, by decide, by decide⟩

end

/-- What it means for a goal to be reached. The operators after a left operand are read only with the left
operand in place: it is of a level that the signs take on their left, or no sign follows. -/
def Reached (goal : Goal) (ts : List Token) (e : Expr) (rest : List Token) : Prop :=
  match goal with
  | .at level => ∃ used, ts = used ++ rest ∧ Derives level used e ∧ Ended level rest
  | .more level left => level ≠ .range → ∀ ls, Derives level ls left →
      (Derives level.left ls left ∨ ∀ t ∈ ts.head?, t.kind ∉ level.signs) → Ended level.below ts →
      ∃ used, ts = used ++ rest ∧ Derives level (ls ++ used) e ∧ Ended level rest

def Sound (read : Goal → Read Expr) : Prop :=
  ∀ {goal ts e rest}, Gives (read goal) ts e rest → Reached goal ts e rest

theorem items_sound {α : Type} {item : Read α} {P : List Token → α → Prop}
    (hitem : ∀ {ts a rest}, Gives item ts a rest → ∃ used, ts = used ++ rest ∧ P used a)
    {fuel : Nat} {ts rest : List Token} {as : List α} (h : Gives (Ladder.items item fuel) ts as rest) :
    ∃ (used : List Token) (parts : List (List Token × α)), ts = used ++ rest ∧
      Separated (parts.map Prod.fst) used ∧ parts.map Prod.snd = as ∧ ∀ p ∈ parts, P p.1 p.2 := by
  induction fuel generalizing ts as with
  | zero => exact absurd h not_gives_throw
  | succ fuel ih =>
    simp only [Ladder.items, gives_bind] at h
    obtain ⟨a, middle, ha, taken, middle', htaken, h⟩ := h
    obtain ⟨used, rfl, hused⟩ := hitem ha
    rcases (gives_take? (by decide)).1 htaken with
      ⟨comma, rfl, hcomma, rfl⟩ | ⟨t, later, rfl, -, rfl, rfl⟩
    · simp only [gives_bind, gives_pure] at h
      obtain ⟨others, middle'', hothers, rfl, rfl⟩ := h
      obtain ⟨used', parts, rfl, hseparated, rfl, hparts⟩ := ih hothers
      refine ⟨used ++ comma :: used', (used, a) :: parts, by simp, ?_, rfl, ?_⟩
      · exact .cons used hcomma hseparated
      · simpa [hused] using hparts
    · obtain ⟨rfl, rfl⟩ := gives_pure.1 h
      exact ⟨used, [(used, a)], rfl, .single used, rfl, by simpa using hused⟩

theorem enclosed_sound {α : Type} {item : Read α} {P : List Token → α → Prop}
    (hitem : ∀ {ts a rest}, Gives item ts a rest → ∃ used, ts = used ++ rest ∧ P used a)
    {fuel : Nat} {closing : Kind} (hclosing : closing ≠ .endOfInput) {what : Expected}
    {ts rest : List Token} {as : List α} {t : Token}
    (h : Gives (Ladder.enclosed item fuel closing what) ts (as, t) rest) :
    ∃ (used : List Token) (parts : List (List Token × α)), ts = used ++ t :: rest ∧
      t.kind = closing ∧ Listed (parts.map Prod.fst) used ∧ parts.map Prod.snd = as ∧
      ∀ p ∈ parts, P p.1 p.2 := by
  simp only [Ladder.enclosed, gives_bind] at h
  obtain ⟨taken, middle, htaken, h⟩ := h
  rcases (gives_take? hclosing).1 htaken with ⟨t', rfl, ht, rfl⟩ | ⟨t', later, rfl, -, rfl, rfl⟩
  · obtain ⟨heq, rfl⟩ := gives_pure.1 h
    cases heq
    exact ⟨[], [], rfl, ht, .none, rfl, by simp⟩
  · simp only [gives_bind, gives_pure, gives_expect hclosing] at h
    obtain ⟨read, middle, hread, t'', middle', ⟨rfl, hkind⟩, heq, rfl⟩ := h
    cases heq
    obtain ⟨used, parts, hused, hseparated, rfl, hparts⟩ := items_sound hitem hread
    exact ⟨used, parts, hused, hkind, .some hseparated, rfl, hparts⟩

section

variable {read : Goal → Read Expr} {fuel : Nat} {ts rest : List Token} {e : Expr}

theorem Sound.at (hread : Sound read) {level : Level} (h : Gives (read (.at level)) ts e rest) :
    ∃ used, ts = used ++ rest ∧ Derives level used e ∧ Ended level rest :=
  hread h

theorem conditional_sound (hread : Sound read) {word : Token} (hword : word.kind = .wordIf)
    (h : Gives (Ladder.conditional read) ts e rest) :
    Reached (.at .expression) (word :: ts) e rest := by
  simp only [Ladder.conditional, gives_bind, gives_pure, ne_eq, reduceCtorEq, not_false_eq_true,
    gives_expect] at h
  obtain ⟨c, ts₁, gc, thenWord, ts₂, ⟨rfl, hthen⟩, t, ts₃, gt, elseWord, ts₄, ⟨rfl, helse⟩,
    f, ts₅, gf, rfl, rfl⟩ := h
  obtain ⟨cs, rfl, hc, -⟩ := hread.at gc
  obtain ⟨ts, rfl, ht, -⟩ := hread.at gt
  obtain ⟨fs, rfl, hf, hended⟩ := hread.at gf
  exact ⟨word :: cs ++ thenWord :: ts ++ elseWord :: fs, by simp,
    .conditional hword hc hthen ht helse hf, hended⟩

theorem foreach_sound (hread : Sound read) {word : Token} (hword : word.kind = .wordForeach)
    (h : Gives (Ladder.foreach read) ts e rest) :
    Reached (.at .expression) (word :: ts) e rest := by
  simp only [Ladder.foreach, gives_bind, gives_pure, ne_eq, reduceCtorEq, not_false_eq_true,
    gives_expect] at h
  obtain ⟨name, ts₁, ⟨rfl, hname⟩, inWord, ts₂, ⟨rfl, hin⟩, source, ts₃, gsource, doWord, ts₄,
    ⟨rfl, hdo⟩, body, ts₅, gbody, rfl, rfl⟩ := h
  obtain ⟨ss, rfl, hsource, -⟩ := hread.at gsource
  obtain ⟨bs, rfl, hbody, hended⟩ := hread.at gbody
  exact ⟨word :: name :: inWord :: ss ++ doWord :: bs, by simp,
    .foreach hword hname hin hsource hdo hbody, hended⟩

theorem loop_sound (hread : Sound read) {mode : LoopMode} {word : Token}
    (hword : word.kind = loopKind mode) (h : Gives (Ladder.loop read mode) ts e rest) :
    Reached (.at .expression) (word :: ts) e rest := by
  simp only [Ladder.loop, gives_bind, ne_eq, reduceCtorEq, not_false_eq_true, gives_expect] at h
  obtain ⟨name, ts₁, ⟨rfl, hname⟩, sign, ts₂, ⟨rfl, hsign⟩, body, ts₃, gbody, taken, ts₄, htaken,
    h⟩ := h
  obtain ⟨bs, rfl, hbody, -⟩ := hread.at gbody
  rcases (gives_takeWhen rfl).1 htaken with
    ⟨mark, style, rfl, hmark, rfl⟩ | ⟨t, later, rfl, -, rfl, rfl⟩
  · simp only [gives_bind, gives_pure] at h
    obtain ⟨test, ts₅, gtest, rfl, rfl⟩ := h
    obtain ⟨us, rfl, htest, hended⟩ := hread.at gtest
    exact ⟨word :: name :: sign :: bs ++ mark :: us, by simp,
      .loop hword hname hsign hbody (endStyle?_eq_some_iff.1 hmark) htest, hended⟩
  · exact absurd h not_gives_fail

theorem binding_sound (hread : Sound read) (h : Gives (Ladder.binding read) ts e rest) :
    Reached (.at .expression) ts e rest := by
  simp only [Ladder.binding, gives_bind, gives_pure, ne_eq, reduceCtorEq, not_false_eq_true,
    gives_expect] at h
  obtain ⟨name, ts₁, ⟨rfl, hname⟩, sign, ts₂, ⟨rfl, hsign⟩, definition, ts₃, gdefinition,
    semicolon, ts₄, ⟨rfl, hend⟩, use, ts₅, guse, rfl, rfl⟩ := h
  obtain ⟨ds, rfl, hdefinition, -⟩ := hread.at gdefinition
  obtain ⟨us, rfl, huse, hended⟩ := hread.at guse
  exact ⟨name :: sign :: ds ++ semicolon :: us, by simp,
    .binding hname hsign hdefinition hend huse, hended⟩

theorem Sound.tighter (hread : Sound read) {level : Level} (hsigns : level.signs = [])
    (h : Gives (read (.at level.below)) ts e rest) : Reached (.at level) ts e rest := by
  obtain ⟨used, rfl, he, hended⟩ := hread.at h
  exact ⟨used, rfl, .tighter he, ended_of_below hended (by simp [hsigns])⟩

theorem expression_sound (hread : Sound read) (h : Gives (Ladder.expression read) ts e rest) :
    Reached (.at .expression) ts e rest := by
  simp only [Ladder.expression, gives_bind] at h
  obtain ⟨taken, middle, htaken, h⟩ := h
  rcases (gives_takeWhen rfl).1 htaken with
    ⟨word, statement, rfl, hword, rfl⟩ | ⟨t, later, rfl, -, rfl, rfl⟩
  · cases statement with
    | conditional => exact conditional_sound hread (statement?_eq_some_iff.1 hword) h
    | foreach => exact foreach_sound hread (statement?_eq_some_iff.1 hword) h
    | loop mode => exact loop_sound hread (statement?_eq_some_iff.1 hword) h
  · simp only [gives_bind] at h
    obtain ⟨starts, middle, hstarts, h⟩ := h
    obtain ⟨rfl, -⟩ := Ladder.gives_startsBinding.1 hstarts
    cases starts with
    | true => exact binding_sound hread h
    | false => exact hread.tighter rfl h

/-- The levels that are read as a left operand and the signs after it. -/
theorem chain_sound (hread : Sound read) {level : Level} (hrange : level ≠ .range)
    (h : Gives (Ladder.chain read level) ts e rest) : Reached (.at level) ts e rest := by
  simp only [Ladder.chain, gives_bind] at h
  obtain ⟨l, middle, gl, h⟩ := h
  obtain ⟨ls, rfl, hl, hended⟩ := hread.at gl
  have hplaced : Derives level.left ls l := by
    rcases level.left_eq with hleft | hleft <;> rw [hleft]
    · exact .tighter hl
    · exact hl
  obtain ⟨used, rfl, he, hended'⟩ := hread h hrange ls (.tighter hl) (.inl hplaced) hended
  exact ⟨ls ++ used, by simp, he, hended'⟩

theorem chainMore_sound (hread : Sound read) {level : Level} (hdice : level ≠ .dice) {l : Expr}
    (h : Gives (Ladder.chainMore read level l) ts e rest) : Reached (.more level l) ts e rest := by
  intro hrange ls hl hplaced hended
  simp only [Ladder.chainMore, gives_bind] at h
  obtain ⟨taken, middle, htaken, h⟩ := h
  rcases (gives_takeWhen (level.operator?_endOfInput)).1 htaken with
    ⟨op, schema, rfl, hop, rfl⟩ | ⟨t, later, rfl, hop, rfl, rfl⟩
  · obtain ⟨hsign, hschema⟩ := level.operator?_eq_some_iff.1 hop
    simp only [gives_bind] at h
    obtain ⟨r, middle', gr, h⟩ := h
    obtain ⟨rs, rfl, hr, hended'⟩ := hread.at gr
    have hl' : Derives level.left ls l := by
      rcases hplaced with hplaced | hnone
      · exact hplaced
      · exact absurd hsign (hnone op rfl)
    have hnew : Derives level (ls ++ op :: rs) (.binary l op schema r) :=
      .operation hl' hsign hschema hr
    -- After one sign, a level either allows its own level on the left, or has left no further sign
    -- behind the right operand.
    have hnext : (Derives level.left (ls ++ op :: rs) (.binary l op schema r) ∨
        ∀ t ∈ middle'.head?, t.kind ∉ level.signs) ∧ Ended level.below middle' := by
      rcases Level.sides hrange with ⟨hleft, hright⟩ | ⟨hright, htight⟩
      · rw [hleft]
        rw [hright] at hended'
        exact ⟨.inl hnew, hended'⟩
      · rw [hright] at hended'
        refine ⟨.inr fun t ht hsign => ?_, ended_below htight hended'⟩
        exact hended' htight t ht (Level.continues_iff.2 (.inl hsign))
    obtain ⟨used, rfl, he, hended''⟩ := hread h hrange _ hnew hnext.1 hnext.2
    exact ⟨op :: rs ++ used, by simp, by simpa using he, hended''⟩
  · obtain ⟨rfl, rfl⟩ := gives_pure.1 h
    refine ⟨[], rfl, by simpa using hl, ended_of_below hended fun t' ht' => ?_⟩
    cases ht'
    exact (Level.operator?_eq_none_iff hdice).1 hop

theorem range_sound (hread : Sound read) (h : Gives (Ladder.range read) ts e rest) :
    Reached (.at .range) ts e rest := by
  simp only [Ladder.range, gives_bind] at h
  obtain ⟨l, middle, gl, taken, middle', htaken, h⟩ := h
  obtain ⟨ls, rfl, hl, -⟩ := hread.at gl
  rcases (gives_takeWhen rfl).1 htaken with
    ⟨op, schema, rfl, hop, rfl⟩ | ⟨t, later, rfl, -, rfl, rfl⟩
  · simp only [gives_bind, gives_pure] at h
    obtain ⟨r, middle'', gr, rfl, rfl⟩ := h
    obtain ⟨hsign, hschema⟩ := Level.operator?_eq_some_iff.1 hop
    obtain ⟨rs, rfl, hr, -⟩ := hread.at gr
    exact ⟨ls ++ op :: rs, by simp, .operation hl hsign hschema hr, ended_loose (Nat.le_refl _)⟩
  · obtain ⟨rfl, rfl⟩ := gives_pure.1 h
    exact ⟨ls, rfl, .tighter hl, ended_loose (Nat.le_refl _)⟩

theorem negate_sound (hread : Sound read) (h : Gives (Ladder.negate read) ts e rest) :
    Reached (.at .negate) ts e rest := by
  simp only [Ladder.negate, gives_bind] at h
  obtain ⟨taken, middle, htaken, h⟩ := h
  rcases (gives_take? (by decide)).1 htaken with
    ⟨op, rfl, hop, rfl⟩ | ⟨t, later, rfl, -, rfl, rfl⟩
  · simp only [gives_bind, gives_pure] at h
    obtain ⟨e, middle', ge, rfl, rfl⟩ := h
    obtain ⟨used, rfl, he, hended⟩ := hread.at ge
    exact ⟨op :: used, rfl, .negate hop he, hended⟩
  · exact hread.tighter rfl h

theorem apply_sound (hread : Sound read) (h : Gives (Ladder.apply read) ts e rest) :
    Reached (.at .apply) ts e rest := by
  simp only [Ladder.apply, gives_bind] at h
  obtain ⟨taken, middle, htaken, h⟩ := h
  rcases (gives_takeWhen rfl).1 htaken with
    ⟨op, schema, rfl, hop, rfl⟩ | ⟨t, later, rfl, -, rfl, rfl⟩
  · simp only [gives_bind, gives_pure] at h
    obtain ⟨e, middle', ge, rfl, rfl⟩ := h
    obtain ⟨hword, hschema⟩ := applyOperator?_eq_some_iff.1 hop
    obtain ⟨used, rfl, he, hended⟩ := hread.at ge
    exact ⟨op :: used, rfl, .apply hword hschema he, hended⟩
  · simp only [gives_bind] at h
    obtain ⟨taken, middle, htaken', h⟩ := h
    rcases (gives_takeWhen rfl).1 htaken' with
      ⟨op, schema, hts, hop, rfl⟩ | ⟨t', later', -, -, rfl, rfl⟩
    · cases hts
      simp only [gives_bind, gives_pure] at h
      obtain ⟨l, middle', gl, r, middle'', gr, rfl, rfl⟩ := h
      obtain ⟨hword, rfl⟩ := applyPair?_eq_some_iff.1 hop
      obtain ⟨ls, rfl, hl, hended⟩ := hread.at gl
      obtain ⟨rs, rfl, hr, hended'⟩ := hread.at gr
      exact ⟨t :: ls ++ rs, by simp, .applyPair hword hl hr (apart_of_ended hended), hended'⟩
    · exact chain_sound hread (by decide) h

theorem diceMore_sound (hread : Sound read) {l : Expr}
    (h : Gives (Ladder.diceMore read l) ts e rest) : Reached (.more .dice l) ts e rest := by
  intro hrange ls hl _ hended
  simp only [Ladder.diceMore, gives_bind] at h
  obtain ⟨taken, middle, htaken, h⟩ := h
  rcases (gives_takeWhen rfl).1 htaken with
    ⟨op, found, rfl, hop, rfl⟩ | ⟨t, later, rfl, hop, rfl, rfl⟩
  · obtain ⟨hsign, rfl⟩ := diceOperator?_eq_some_iff.1 hop
    cases hschema : op.kind.binarySchema? with
    | some schema =>
      simp only [hschema, gives_bind] at h
      obtain ⟨r, middle', gr, h⟩ := h
      obtain ⟨rs, rfl, hr, hended'⟩ := hread.at gr
      have hnew : Derives .dice (ls ++ op :: rs) (.binary l op schema r) :=
        .operation hl hsign hschema hr
      obtain ⟨used, rfl, he, hended''⟩ := hread h hrange _ hnew (.inl hnew) hended'
      exact ⟨op :: rs ++ used, by simp, by simpa using he, hended''⟩
    | none =>
      simp only [hschema, gives_bind] at h
      obtain ⟨r, middle', gr, h⟩ := h
      obtain ⟨rs, rfl, hr, hended'⟩ := hread.at gr
      have htilde := tilde_of_sign hsign hschema
      cases l with
      | var name old =>
        have hnew : Derives .dice (ls ++ op :: rs) (.var name r) := .fallback hl htilde hr
        obtain ⟨used, rfl, he, hended''⟩ := hread h hrange _ hnew (.inl hnew) hended'
        exact ⟨op :: rs ++ used, by simp, by simpa using he, hended''⟩
      | _ => exact absurd h not_gives_fail
  · obtain ⟨rfl, rfl⟩ := gives_pure.1 h
    refine ⟨[], rfl, by simpa using hl, ended_of_below hended fun t' ht' => ?_⟩
    cases ht'
    exact diceOperator?_eq_none_iff.1 hop

theorem die_sound (hread : Sound read) (h : Gives (Ladder.die read) ts e rest) :
    Reached (.at .die) ts e rest := by
  simp only [Ladder.die, gives_bind] at h
  obtain ⟨taken, middle, htaken, h⟩ := h
  rcases (gives_takeWhen rfl).1 htaken with
    ⟨op, schema, rfl, hop, rfl⟩ | ⟨t, later, rfl, -, rfl, rfl⟩
  · simp only [gives_bind, gives_pure] at h
    obtain ⟨e, middle', ge, rfl, rfl⟩ := h
    obtain ⟨hword, rfl⟩ := dieOperator?_eq_some_iff.1 hop
    obtain ⟨used, rfl, he, -⟩ := hread.at ge
    exact ⟨op :: used, rfl, .die hword he, ended_die⟩
  · exact hread.tighter rfl h

theorem Sound.item (hread : Sound read) {ts rest : List Token} {e : Expr}
    (h : Gives (read (.at .expression)) ts e rest) :
    ∃ used, ts = used ++ rest ∧ Derives .expression used e := by
  obtain ⟨used, hused, he, -⟩ := hread.at h
  exact ⟨used, hused, he⟩

theorem probability_sound {op : Token} (hop : op.kind = .question)
    (h : Gives (Ladder.probability op) ts e rest) : Reached (.at .primary) (op :: ts) e rest := by
  simp only [Ladder.probability, gives_bind, gives_pure, ne_eq, reduceCtorEq, not_false_eq_true,
    gives_expect] at h
  obtain ⟨t, middle, ⟨rfl, ht⟩, rfl, rfl⟩ := h
  exact ⟨[op, t], rfl, .probability hop ht, ended_primary⟩

theorem call_sound (hread : Sound read) {word : Token} (hword : word.kind = .wordCall)
    (h : Gives (Ladder.call read fuel) ts e rest) : Reached (.at .primary) (word :: ts) e rest := by
  simp only [Ladder.call, gives_bind, gives_pure, ne_eq, reduceCtorEq, not_false_eq_true,
    gives_expect] at h
  obtain ⟨name, ts₁, ⟨rfl, hname⟩, opening, ts₂, ⟨rfl, hopening⟩, ⟨arguments, closing⟩, ts₃,
    henclosed, rfl, rfl⟩ := h
  obtain ⟨used, parts, rfl, hclosing, hlisted, rfl, hparts⟩ :=
    enclosed_sound hread.item (by decide) henclosed
  exact ⟨word :: name :: opening :: used ++ [closing], by simp,
    .call hword hname hopening hparts hlisted hclosing, ended_primary⟩

theorem group_sound (hread : Sound read) {opening : Token} (hopening : opening.kind = .leftParen)
    (h : Gives (Ladder.group read) ts e rest) : Reached (.at .primary) (opening :: ts) e rest := by
  simp only [Ladder.group, gives_bind, gives_pure, ne_eq, reduceCtorEq, not_false_eq_true,
    gives_expect] at h
  obtain ⟨inner, ts₁, ginner, closing, ts₂, ⟨rfl, hclosing⟩, rfl, rfl⟩ := h
  obtain ⟨used, rfl, hinner, -⟩ := hread.at ginner
  exact ⟨opening :: used ++ [closing], by simp, .group hopening hinner hclosing, ended_primary⟩

theorem collection_sound (hread : Sound read) {opening : Token}
    (hopening : opening.kind = .leftBrace) (h : Gives (Ladder.collection read fuel) ts e rest) :
    Reached (.at .primary) (opening :: ts) e rest := by
  simp only [Ladder.collection, gives_bind, gives_pure] at h
  obtain ⟨⟨elements, closing⟩, ts₁, henclosed, rfl, rfl⟩ := h
  obtain ⟨used, parts, rfl, hclosing, hlisted, rfl, hparts⟩ :=
    enclosed_sound hread.item (by decide) henclosed
  exact ⟨opening :: used ++ [closing], by simp, .collection hopening hparts hlisted hclosing,
    ended_primary⟩

theorem tuple_sound (hread : Sound read) {opening : Token} (hopening : opening.kind = .leftBracket)
    (h : Gives (Ladder.tuple read fuel) ts e rest) :
    Reached (.at .primary) (opening :: ts) e rest := by
  simp only [Ladder.tuple, gives_bind] at h
  obtain ⟨⟨elements, closing⟩, ts₁, henclosed, h⟩ := h
  obtain ⟨used, parts, rfl, hclosing, hlisted, rfl, hparts⟩ :=
    enclosed_sound hread.item (by decide) henclosed
  match parts, h with
  | [(as, a), (bs, b)], h =>
    obtain ⟨rfl, rfl⟩ := gives_pure.1 h
    obtain ⟨comma, hcomma, rfl⟩ := hlisted.two
    exact ⟨opening :: as ++ comma :: bs ++ [closing], by simp,
      .pair hopening (hparts (as, a) (by simp)) hcomma (hparts (bs, b) (by simp)) hclosing, ended_primary⟩
  | [], h => exact absurd h not_gives_throw
  | [_], h => exact absurd h not_gives_throw
  | _ :: _ :: _ :: _, h => exact absurd h not_gives_throw

theorem primary_sound (hread : Sound read) (h : Gives (Ladder.primary read fuel) ts e rest) :
    Reached (.at .primary) ts e rest := by
  simp only [Ladder.primary, gives_bind] at h
  obtain ⟨taken, middle, htaken, h⟩ := h
  rcases (gives_takeWhen rfl).1 htaken with
    ⟨t, opening, rfl, ht, rfl⟩ | ⟨t, later, rfl, -, rfl, rfl⟩
  · have hkind := opening?_eq_some_iff.1 ht
    cases opening with
    | probability => exact probability_sound hkind h
    | call => exact call_sound hread hkind h
    | name =>
      obtain ⟨rfl, rfl⟩ := gives_pure.1 h
      exact ⟨[t], rfl, .name hkind, ended_primary⟩
    | text =>
      obtain ⟨rfl, rfl⟩ := gives_pure.1 h
      exact ⟨[t], rfl, .text hkind, ended_primary⟩
    | number =>
      obtain ⟨rfl, rfl⟩ := gives_pure.1 h
      exact ⟨[t], rfl, .number hkind, ended_primary⟩
    | group => exact group_sound hread hkind h
    | collection => exact collection_sound hread hkind h
    | tuple => exact tuple_sound hread hkind h
  · exact absurd h not_gives_fail

/-- One step reaches its goal, if the reader for other goals does. -/
theorem step_sound (hread : Sound read) : Sound (Ladder.step read fuel) := by
  intro goal ts e rest h
  cases goal with
  | «at» level =>
    cases level with
    | expression => exact expression_sound hread h
    | range => exact range_sound hread h
    | negate => exact negate_sound hread h
    | apply => exact apply_sound hread h
    | die => exact die_sound hread h
    | primary => exact primary_sound hread h
    | layout => exact chain_sound hread (by decide) h
    | select => exact chain_sound hread (by decide) h
    | union => exact chain_sound hread (by decide) h
    | sum => exact chain_sound hread (by decide) h
    | product => exact chain_sound hread (by decide) h
    | compare => exact chain_sound hread (by decide) h
    | dice => exact chain_sound hread (by decide) h
  | more level l =>
    by_cases hdice : level = .dice
    · subst hdice
      exact diceMore_sound hread h
    · exact chainMore_sound hread hdice (by cases level <;> first | exact h | exact absurd rfl hdice)

end

theorem readGoal_sound (fuel : Nat) : Sound (Ladder.readGoal fuel) := by
  induction fuel with
  | zero => exact fun h => absurd h not_gives_throw
  | succ fuel ih => exact step_sound ih

section

variable {fuel : Nat} {ts rest : List Token}

theorem readFunction_sound {entry : Name × Expr} (h : Gives (Script.readFunction fuel) ts entry rest)
    {word : Token} (hword : word.kind = .wordFunction) :
    ∃ used, ts = used ++ rest ∧ Definitions (word :: used) [entry] := by
  simp only [Script.readFunction, gives_bind, gives_pure, ne_eq, reduceCtorEq, not_false_eq_true,
    gives_expect] at h
  obtain ⟨name, ts₁, ⟨rfl, hname⟩, opening, ts₂, ⟨rfl, hopening⟩, ⟨parameters, closing⟩, ts₃,
    henclosed, sign, ts₄, ⟨rfl, hsign⟩, body, ts₅, gbody, rfl, rfl⟩ := h
  have hparameter {ts rest : List Token} {t : Token}
      (h : Gives (expect .identifier (.expected .parameterName)) ts t rest) :
      ∃ used, ts = used ++ rest ∧ used = [t] ∧ t.kind = .identifier := by
    obtain ⟨rfl, ht⟩ := (gives_expect (by decide)).1 h
    exact ⟨[t], rfl, rfl, ht⟩
  obtain ⟨used, parts, rfl, hclosing, hlisted, rfl, hparts⟩ :=
    enclosed_sound hparameter (by decide) henclosed
  obtain ⟨bs, rfl, hbody, -⟩ := Sound.at (readGoal_sound fuel) gbody
  -- Each part of the list is one token, the parameter itself.
  have hsingle : parts.map Prod.fst = (parts.map Prod.snd).map ([·]) := by
    rw [List.map_map]
    exact List.map_congr_left fun p hp => (hparts p hp).1
  rw [hsingle] at hlisted
  have hnames : ∀ t ∈ parts.map Prod.snd, t.kind = .identifier := by
    intro t ht
    obtain ⟨p, hp, rfl⟩ := List.mem_map.1 ht
    exact (hparts p hp).2
  refine ⟨name :: opening :: used ++ closing :: sign :: bs, by simp, ?_⟩
  simpa using Definitions.cons hword hname hopening hnames hlisted hclosing hsign hbody .none

theorem Definitions.append {ts us : List Token} {fs gs : Table Name Expr} (h : Definitions ts fs)
    (h' : Definitions us gs) : Definitions (ts ++ us) (fs ++ gs) := by
  induction h with
  | none => exact h'
  | cons hword hname hopening hparameters hlisted hclosing hsign hbody _ ih =>
    simpa using Definitions.cons hword hname hopening hparameters hlisted hclosing hsign hbody ih

/-- Definitions that are read are added behind those known, under names that are new. -/
theorem readFunctions_sound {rounds : Nat} {known found : Table Name Expr}
    (h : Gives (Script.readFunctions fuel rounds known) ts found rest)
    (hdistinct : known.names.Nodup) :
    ∃ used entries, ts = used ++ rest ∧ Definitions used entries ∧ found = known ++ entries ∧
      found.names.Nodup := by
  induction rounds generalizing ts known with
  | zero => exact absurd h not_gives_throw
  | succ rounds ih =>
    simp only [Script.readFunctions, gives_bind] at h
    obtain ⟨taken, middle, htaken, h⟩ := h
    rcases (gives_take? (by decide)).1 htaken with
      ⟨word, rfl, hword, rfl⟩ | ⟨t, later, rfl, -, rfl, rfl⟩
    · simp only [gives_bind] at h
      obtain ⟨⟨name, definition⟩, middle', hfunction, h⟩ := h
      obtain ⟨used, rfl, hdefinition⟩ := readFunction_sound hfunction hword
      split at h
      · exact absurd h not_gives_fail
      · next hnew =>
        have habsent : name ∉ known.names := by
          rw [← Table.find?_eq_none_iff]
          simpa using hnew
        have hnames := Table.names_insert_of_not_mem known name definition habsent
        obtain ⟨used', entries, rfl, hentries, rfl, hdistinct'⟩ := ih h (by
          rw [hnames]
          refine List.nodup_append.2 ⟨hdistinct, by simp, fun a ha b hb hab => ?_⟩
          rw [List.mem_singleton] at hb
          exact habsent (hb ▸ hab ▸ ha))
        refine ⟨word :: used ++ used', (name, definition) :: entries, by simp, ?_, ?_, hdistinct'⟩
        · exact hdefinition.append hentries
        · rw [Table.insert_of_not_mem _ _ _ habsent, List.append_assoc]
          rfl
    · obtain ⟨rfl, rfl⟩ := gives_pure.1 h
      exact ⟨[], [], rfl, .none, by simp, hdistinct⟩

theorem ne_end_of_sign {level : Level} {k : Kind} (h : k ∈ level.signs) : k ≠ .endOfInput := by
  rintro rfl
  cases level <;> simp [Level.signs] at h

theorem ne_end_of_mem {words : List Kind} {k : Kind} (h : k ∈ words) (hwords : .endOfInput ∉ words) :
    k ≠ .endOfInput := by
  rintro rfl
  exact hwords h

theorem loopKind_ne_end (mode : LoopMode) : loopKind mode ≠ .endOfInput := by
  cases mode <;> decide

theorem endKind_ne_end (style : EndStyle) : endKind style ≠ .endOfInput := by
  cases style <;> decide

theorem Listed.ne_end {parts : List (List Token × Expr)} {us : List Token}
    (h : Listed (parts.map Prod.fst) us)
    (hparts : ∀ p ∈ parts, ∀ t ∈ p.1, t.kind ≠ .endOfInput) : ∀ t ∈ us, t.kind ≠ .endOfInput := by
  intro t ht
  rcases h.mem ht with hcomma | ⟨part, hpart, ht⟩
  · simp [hcomma]
  · obtain ⟨p, hp, rfl⟩ := List.mem_map.1 hpart
    exact hparts p hp t ht

/-- No token of an expression ends the input. -/
theorem Derives.ne_end {level : Level} {e : Expr} (h : Derives level ts e) :
    ∀ t ∈ ts, t.kind ≠ .endOfInput := by
  induction h with
  | tighter _ ih => exact ih
  | conditional hword _ hthen _ helse _ ihc iht ihf =>
    simp only [List.forall_mem_append, List.forall_mem_cons]
    exact ⟨⟨⟨by simp [hword], ihc⟩, by simp [hthen], iht⟩, by simp [helse], ihf⟩
  | foreach hword hname hin _ hdo _ ihsource ihbody =>
    simp only [List.forall_mem_append, List.forall_mem_cons]
    exact ⟨⟨by simp [hword], by simp [hname], by simp [hin], ihsource⟩, by simp [hdo], ihbody⟩
  | loop hword hname hsign _ hmark _ ihbody ihtest =>
    simp only [List.forall_mem_append, List.forall_mem_cons]
    exact ⟨⟨by simp [hword, loopKind_ne_end], by simp [hname], by simp [hsign], ihbody⟩,
      by simp [hmark, endKind_ne_end], ihtest⟩
  | binding hname hsign _ hend _ ihdefinition ihuse =>
    simp only [List.forall_mem_append, List.forall_mem_cons]
    exact ⟨⟨by simp [hname], by simp [hsign], ihdefinition⟩, by simp [hend], ihuse⟩
  | operation _ hsign _ _ ihl ihr =>
    simp only [List.forall_mem_append, List.forall_mem_cons]
    exact ⟨ihl, ne_end_of_sign hsign, ihr⟩
  | fallback _ htilde _ ihl ihr =>
    simp only [List.forall_mem_append, List.forall_mem_cons]
    exact ⟨ihl, by simp [htilde], ihr⟩
  | negate hop _ ih => exact List.forall_mem_cons.2 ⟨by simp [hop], ih⟩
  | apply hop _ _ ih => exact List.forall_mem_cons.2 ⟨ne_end_of_mem hop (by decide), ih⟩
  | applyPair hop _ _ _ ihl ihr =>
    exact List.forall_mem_append.2 ⟨List.forall_mem_cons.2 ⟨ne_end_of_mem hop (by decide), ihl⟩, ihr⟩
  | die hop _ ih => exact List.forall_mem_cons.2 ⟨ne_end_of_mem hop (by decide), ih⟩
  | probability hop ht => simp [hop, ht]
  | name ht => simp [ht]
  | text ht => simp [ht]
  | number ht => simp [ht]
  | group hopening _ hclosing ih =>
    simp only [List.forall_mem_append, List.forall_mem_cons]
    exact ⟨⟨by simp [hopening], ih⟩, by simp [hclosing], by simp⟩
  | call hword hname hopening _ hlisted hclosing ih =>
    simp only [List.forall_mem_append, List.forall_mem_cons]
    exact ⟨⟨by simp [hword], by simp [hname], by simp [hopening], hlisted.ne_end ih⟩,
      by simp [hclosing], by simp⟩
  | collection hopening _ hlisted hclosing ih =>
    simp only [List.forall_mem_append, List.forall_mem_cons]
    exact ⟨⟨by simp [hopening], hlisted.ne_end ih⟩, by simp [hclosing], by simp⟩
  | pair hopening _ hcomma _ hclosing iha ihb =>
    simp only [List.forall_mem_append, List.forall_mem_cons]
    exact ⟨⟨⟨by simp [hopening], iha⟩, by simp [hcomma], ihb⟩, by simp [hclosing], by simp⟩

theorem Definitions.ne_end {entries : Table Name Expr} (h : Definitions ts entries) :
    ∀ t ∈ ts, t.kind ≠ .endOfInput := by
  induction h with
  | none => simp
  | @cons _ _ _ _ _ parameters ps _ _ _ _ hword hname hopening hparameters hlisted hclosing hsign
      hbody _ ih =>
    have hps : ∀ t ∈ ps, t.kind ≠ .endOfInput := by
      intro t ht
      rcases hlisted.mem ht with hcomma | ⟨part, hpart, ht⟩
      · simp [hcomma]
      · obtain ⟨p, hp, rfl⟩ := List.mem_map.1 hpart
        obtain rfl := List.mem_singleton.1 ht
        simp [hparameters t hp]
    simp only [List.forall_mem_append, List.forall_mem_cons]
    exact ⟨⟨⟨by simp [hword], by simp [hname], by simp [hopening], hps⟩, by simp [hclosing],
      by simp [hsign], hbody.ne_end⟩, ih⟩

/-- A script that is read is definitions, an expression and further definitions, up to the end of input. -/
theorem readScript_sound {tokens : List Token} {script : Script}
    (h : Gives (Script.readScript fuel) tokens script rest) :
    ∃ (before main after : List Token) (last : Token) (more : List Token)
      (earlier later : Table Name Expr),
      tokens = before ++ main ++ after ++ last :: more ∧ last.kind = .endOfInput ∧
      Derives .expression main script.expression ∧
      Definitions before earlier ∧ Definitions after later ∧
      script.functions = earlier ++ later ∧ script.functions.names.Nodup := by
  simp only [Script.readScript, gives_bind] at h
  obtain ⟨earlier, ts₁, gearlier, e, ts₂, ge, functions, ts₃, gfunctions, last, ts₄, hpeek, hend⟩ := h
  obtain ⟨before, _, rfl, hearlier, rfl, hdistinct⟩ :=
    readFunctions_sound gearlier List.nodup_nil
  obtain ⟨main, rfl, he, -⟩ := Sound.at (readGoal_sound _) ge
  obtain ⟨after, later, rfl, hlater, rfl, hdistinct'⟩ := readFunctions_sound gfunctions hdistinct
  obtain ⟨hlast, rfl⟩ := gives_peek.1 hpeek
  obtain ⟨more, rfl⟩ := List.head?_eq_some_iff.1 hlast
  split at hend
  · next hkind =>
    obtain ⟨rfl, rfl⟩ := gives_pure.1 hend
    exact ⟨before, main, after, last, more, earlier, later, by simp, hkind, he, hearlier, hlater, rfl,
      hdistinct'⟩
  · exact absurd hend not_gives_fail

theorem gives_of_ofTokens {tokens : List Token} {script : Script}
    (h : Script.ofTokens tokens = .ok script) :
    ∃ rest, Gives (Script.readScript (Script.enoughFuel tokens)) tokens script rest := by
  simp only [Script.ofTokens, StateT.run] at h
  cases hread : Script.readScript (Script.enoughFuel tokens) tokens with
  | error stop => simp [hread, Except.map] at h
  | ok result =>
    obtain ⟨found, rest⟩ := result
    simp only [hread, Except.map, Except.ok.injEq] at h
    exact ⟨rest, h ▸ hread⟩

/-- If tokens are read as a script, those before the first end of input are definitions, an expression and
further definitions. The expression derives from its tokens in the grammar, and the definitions are the
entries of the table in order, each name once. -/
theorem ofTokens_sound {tokens : List Token} {script : Script}
    (h : Script.ofTokens tokens = .ok script) :
    ∃ (before main after : List Token) (last : Token) (rest : List Token)
      (earlier later : Table Name Expr),
      tokens = before ++ main ++ after ++ last :: rest ∧ last.kind = .endOfInput ∧
      (∀ t ∈ before ++ main ++ after, t.kind ≠ .endOfInput) ∧
      Derives .expression main script.expression ∧
      Definitions before earlier ∧ Definitions after later ∧
      script.functions = earlier ++ later ∧ script.functions.names.Nodup := by
  obtain ⟨_, hread⟩ := gives_of_ofTokens h
  obtain ⟨before, main, after, last, rest, earlier, later, htokens, hlast, hmain, hearlier, hlater,
    hfunctions⟩ := readScript_sound hread
  refine ⟨before, main, after, last, rest, earlier, later, htokens, hlast, ?_, hmain, hearlier,
    hlater, hfunctions⟩
  simp only [List.forall_mem_append]
  exact ⟨⟨hearlier.ne_end, hmain.ne_end⟩, hlater.ne_end⟩

/-- A definition before a difference of three operands, which is grouped to the left. -/
theorem ofTokens_sound_difference :
    let x : Token := Word.at ⟨.identifier, .text "x", .null⟩ .start
    let minus : Token := Word.at ⟨.minus, .text "-", .null⟩ .start
    let function : List Token :=
      [Word.at ⟨.wordFunction, .text "function", .null⟩ .start,
       Word.at ⟨.identifier, .text "f", .null⟩ .start, Word.at ⟨.leftParen, .text "(", .null⟩ .start,
       x, Word.at ⟨.rightParen, .text ")", .null⟩ .start, Word.at ⟨.equal, .text "=", .null⟩ .start, x]
    let tokens := function ++ [x, minus, x, minus, x, Word.endOfInput.at .start]
    let v : Expr := .var (.text "x") .missing
    let script : Script :=
      ⟨.binary (.binary v minus .singletonSingleton v) minus .singletonSingleton v,
       [(.text "f", .function (.text "f") [.text "x"] v)]⟩
    Script.ofTokens tokens = .ok script ∧
      ∃ (before main after : List Token) (last : Token) (rest : List Token)
        (earlier later : Table Name Expr),
        tokens = before ++ main ++ after ++ last :: rest ∧ last.kind = .endOfInput ∧
        (∀ t ∈ before ++ main ++ after, t.kind ≠ .endOfInput) ∧
        Derives .expression main script.expression ∧
        Definitions before earlier ∧ Definitions after later ∧
        script.functions = earlier ++ later ∧ script.functions.names.Nodup :=
  ⟨rfl, ofTokens_sound rfl⟩

end

end DiceScript.Grammar
