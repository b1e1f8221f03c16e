import DiceScript.Proofs.Grammar.Completeness

/-!
# Problems in any place

Reading goes forwards and never tries again, so a problem with an operand is the problem of everything that the
operand stands in. `Asks` lists the places where an expression is read within another, with what comes before
each, and `Ahead` chains them. What is rejected in a place is rejected as a whole, with the same problem, up to the
script.
-/

namespace DiceScript

namespace Read

variable {α β : Type}

def Refuses (x : Read α) (ts : List Token) (e : ParseError) : Prop :=
  x ts = .error (.problem e)

variable {x : Read α} {f : α → Read β} {ts rest : List Token} {a : α} {e : ParseError}

theorem Refuses.bind (h : Refuses x ts e) : Refuses (x >>= f) ts e := by
  unfold Refuses at *
  simp only [Bind.bind, StateT.bind, h]
  rfl

theorem Gives.refuses (h : Gives x ts a rest) (hf : Refuses (f a) rest e) : Refuses (x >>= f) ts e :=
  (bind_of_gives h).trans hf

theorem refuses_fail (cause : ParseError.Cause) (t : Token) (ts : List Token) :
    Refuses (fail cause : Read α) (t :: ts) ⟨cause, t.position⟩ :=
  rfl

end Read

namespace Grammar

open Read Ladder

/-- A goal is missed with a problem, at every depth that is enough. -/
def Rejects (goal : Goal) (ts : List Token) (e : ParseError) : Prop :=
  ∀ fuel, depth goal ts < fuel → Refuses (readGoal fuel goal) ts e

section

variable {goal : Goal} {level : Level} {fuel : Nat} {ts us : List Token} {e : ParseError}

theorem rejects_of_step (h : ∀ fuel, depth goal ts ≤ fuel → Refuses (step (readGoal fuel) fuel goal) ts e) :
    Rejects goal ts e := by
  intro fuel hfuel
  cases fuel with
  | zero => exact absurd hfuel (Nat.not_lt_zero _)
  | succ fuel => exact h fuel (Nat.le_of_lt_succ hfuel)

theorem Rejects.later {goal' : Goal} (h : Rejects goal' us e) (hfuel : depth goal ts ≤ fuel)
    (hlength : us.length < ts.length) : Refuses (readGoal fuel goal') us e :=
  h fuel (Nat.lt_of_lt_of_le (depth_lt_of_length hlength) hfuel)

theorem Rejects.below (h : Rejects (.at level.below) ts e) (hfuel : depth (.at level) ts ≤ fuel)
    (hlevel : level ≠ .primary) : Refuses (readGoal fuel (.at level.below)) ts e :=
  h fuel (Nat.lt_of_lt_of_le (depth_below_lt hlevel ts) hfuel)

/-- The same tokens at the next tighter level. -/
theorem rejects_tighter (hlevel : level ≠ .primary) (hstarts : Starts level.below us)
    (h : Rejects (.at level.below) us e) : Rejects (.at level) us e := by
  refine rejects_of_step fun fuel hfuel => ?_
  have hbelow := h.below hfuel hlevel
  have hhead : ∃ t later, us = t :: later ∧ t.kind.headLevel? ≠ some level := by
    obtain ⟨t, later, rfl, hopens, -⟩ := hstarts
    exact ⟨t, later, rfl, hopens.headLevel?_ne hlevel⟩
  cases level with
  | expression => exact (expression_of_starts hstarts).trans hbelow
  | negate =>
    obtain ⟨t, later, rfl, hhead⟩ := hhead
    exact (negate_of_head hhead).trans hbelow
  | apply =>
    obtain ⟨t, later, rfl, hhead⟩ := hhead
    exact (apply_of_head hhead).trans hbelow.bind
  | die =>
    obtain ⟨t, later, rfl, hhead⟩ := hhead
    exact (die_of_head hhead).trans hbelow
  | primary => exact absurd rfl hlevel
  | _ => exact hbelow.bind

/-! The operands of a sign. -/

theorem rejects_more_right {op : Token} {schema : BinarySchema} {l : Expr} (hsign : op.kind ∈ level.signs)
    (hschema : op.kind.binarySchema? = some schema) (h : Rejects (.at level.right) us e) :
    Rejects (.more level l) (op :: us) e :=
  rejects_of_step fun _ hfuel => (step_more_sign hsign hschema).trans (h.later hfuel (by simp)).bind

theorem rejects_more_sign {op : Token} {schema : BinarySchema} {rs : List Token} {l r : Expr}
    (hsign : op.kind ∈ level.signs) (hschema : op.kind.binarySchema? = some schema)
    (hright : Reads (.at level.right) (rs ++ ts) r ts) (h : Rejects (.more level (.binary l op schema r)) ts e) :
    Rejects (.more level l) (op :: rs ++ ts) e := by
  refine rejects_of_step fun fuel hfuel => (step_more_sign hsign hschema).trans ?_
  exact (hright.later hfuel (by simp)).refuses (h.later hfuel (by grind))

theorem rejects_more_tilde {tilde : Token} {rs : List Token} {name : Name} {old new : Expr}
    (htilde : tilde.kind = .tilde) (hright : Reads (.at .die) (rs ++ ts) new ts)
    (h : Rejects (.more .dice (.var name new)) ts e) : Rejects (.more .dice (.var name old)) (tilde :: rs ++ ts) e := by
  refine rejects_of_step fun fuel hfuel => (step_more_tilde htilde).trans ?_
  exact (hright.later hfuel (by simp)).refuses (h.later hfuel (by grind))

/-- A left operand is read before the signs of its level. -/
theorem refuses_chain {ls : List Token} {l : Expr} (hlevel : level ≠ .primary) (hl : Derives level.below ls l)
    (hstops : Stops level.below ts) (h : Rejects (.more level l) ts e) (hfuel : depth (.at level) (ls ++ ts) ≤ fuel) :
    Refuses (chain (readGoal fuel) level) (ls ++ ts) e := by
  have hlength := List.length_pos_iff.2 hl.ne_nil
  exact (gives_below hfuel hlevel (hl.complete ts hstops)).refuses (h.later hfuel (by grind))

/-- Where signs are grouped to the left, reading comes to those that follow with what was read before them. -/
theorem Derives.rejects_more {ls : List Token} {l : Expr} (h : Derives level ls l) (hleftward : level ∈ leftward)
    (hstops : Stops level.below ts) (hmore : Rejects (.more level l) ts e) : Rejects (.at level) (ls ++ ts) e := by
  induction h generalizing ts with
  | @tighter level ls l h =>
    have hprimary : level ≠ .primary := by
      rintro rfl
      exact absurd hleftward (by decide)
    refine rejects_of_step fun fuel hfuel => ?_
    have hchain := refuses_chain hprimary h hstops hmore hfuel
    cases level <;> first | exact hchain | exact absurd hleftward (by decide)
  | @operation level schema op ls rs l r hl hsign hschema hr ihl =>
    obtain ⟨hleft, hright⟩ := sides_of_leftward hleftward
    rw [hleft] at ihl
    rw [hright] at hr
    have hoperand : Reads (.at level.right) (rs ++ ts) r ts := by
      rw [hright]
      exact hr.complete ts hstops
    rw [List.append_assoc]
    exact ihl hleftward (stops_of_sign hsign) (rejects_more_sign hsign hschema hoperand hmore)
  | @fallback tilde ls rs name old r hl htilde hr ihl =>
    have hsign : tilde.kind ∈ Level.dice.signs := by simp [htilde, Level.signs]
    rw [List.append_assoc]
    exact ihl hleftward (stops_of_sign hsign) (rejects_more_tilde htilde (hr.complete ts hstops) hmore)
  | _ => exact absurd hleftward (by decide)

/-- Whatever its level, the right operand of a sign is read where the left one is over. -/
theorem rejects_right {op : Token} {schema : BinarySchema} {ls : List Token} {l : Expr} (hl : Derives level.left ls l)
    (hsign : op.kind ∈ level.signs) (hschema : op.kind.binarySchema? = some schema)
    (h : Rejects (.at level.right) us e) : Rejects (.at level) (ls ++ op :: us) e := by
  have hstops : Stops level.below (op :: us) := stops_of_sign hsign
  have hmore : Rejects (.more level l) (op :: us) e := rejects_more_right hsign hschema h
  by_cases hleftward : level ∈ leftward
  · rw [(sides_of_leftward hleftward).1] at hl
    exact hl.rejects_more hleftward hstops hmore
  · refine rejects_of_step fun fuel hfuel => ?_
    cases level with
    | compare => exact refuses_chain (by decide) hl hstops hmore hfuel
    | apply =>
      have hchain : Refuses (chain (readGoal fuel) .apply) (ls ++ op :: us) e :=
        refuses_chain (by decide) hl hstops hmore hfuel
      obtain ⟨t, later, rfl, hhead⟩ := head_ne_of_below .apply (by decide) hl
      exact (apply_of_head hhead).trans hchain
    | range =>
      refine (gives_below hfuel (by decide) (hl.complete _ hstops)).refuses ?_
      refine (takeWhen_some rfl (Level.operator?_eq_some_iff.2 ⟨hsign, hschema⟩)).refuses ?_
      exact (h.later hfuel (by grind)).bind
    | expression | negate | die | primary => exact absurd hsign (by simp [Level.signs])
    | layout | select | union | sum | product | dice => exact absurd (by decide) hleftward

/-- The fallback of whatever comes before a tilde is read before that is looked at. -/
theorem rejects_fallback {tilde : Token} {ls : List Token} {l : Expr} (hl : Derives .dice ls l)
    (htilde : tilde.kind = .tilde) (h : Rejects (.at .die) us e) : Rejects (.at .dice) (ls ++ tilde :: us) e := by
  have hsign : tilde.kind ∈ Level.dice.signs := by simp [htilde, Level.signs]
  have hselect : diceOperator? tilde.kind = some none := by rw [htilde]; rfl
  refine hl.rejects_more (by decide) (stops_of_sign hsign) (rejects_of_step fun fuel hfuel => ?_)
  exact (takeWhen_some rfl hselect).refuses (h.later hfuel (by simp)).bind

/-- A tilde after anything but a variable is a problem at the token behind its right operand. -/
theorem rejects_tilde {ls rs rest : List Token} {tilde last : Token} {l r : Expr} (hl : Derives .dice ls l)
    (htilde : tilde.kind = .tilde) (hr : Derives .die rs r) (hvar : ∀ name old, l ≠ .var name old) :
    Rejects (.at .dice) (ls ++ tilde :: rs ++ last :: rest) ⟨.needsVariable, last.position⟩ := by
  have hsign : tilde.kind ∈ Level.dice.signs := by simp [htilde, Level.signs]
  have hselect : diceOperator? tilde.kind = some none := by rw [htilde]; rfl
  rw [List.append_assoc]
  refine hl.rejects_more (by decide) (stops_of_sign hsign) (rejects_of_step fun fuel hfuel => ?_)
  refine (takeWhen_some rfl hselect).refuses ?_
  -- the right operand is read to its end before the left one is looked at
  refine ((hr.whole (Nat.le_refl _) (last :: rest)).later hfuel (by simp)).refuses ?_
  cases l with
  | var name old => exact absurd rfl (hvar name old)
  | _ => exact refuses_fail _ _ _

/-- The second operand of `least` is read where the first one is over. -/
theorem rejects_second {op : Token} {ls : List Token} {l : Expr} (hop : op.kind ∈ pairWords)
    (hl : Derives .apply ls l) (hstops : Stops .apply us) (h : Rejects (.at .apply) us e) :
    Rejects (.at .apply) (op :: ls ++ us) e := by
  refine rejects_of_step fun fuel hfuel => (apply_of_pair hop).trans ?_
  exact ((hl.complete us hstops).later hfuel (by simp)).refuses (h.later hfuel (by grind)).bind

end

/-! The places of the grammar. -/

/-- What comes before an expression of a statement or a binding. -/
inductive Clause : List Token → Prop
  | condition {word : Token} (hword : word.kind = .wordIf) : Clause [word]
  | whenTrue {word thenWord : Token} {cs : List Token} {c : Expr} (hword : word.kind = .wordIf)
    (hc : Derives .expression cs c) (hthen : thenWord.kind = .wordThen) : Clause (word :: cs ++ [thenWord])
  | whenFalse {word thenWord elseWord : Token} {cs ts : List Token} {c t : Expr} (hword : word.kind = .wordIf)
    (hc : Derives .expression cs c) (hthen : thenWord.kind = .wordThen) (ht : Derives .expression ts t)
    (helse : elseWord.kind = .wordElse) : Clause (word :: cs ++ thenWord :: ts ++ [elseWord])
  | source {word name inWord : Token} (hword : word.kind = .wordForeach) (hname : name.kind = .identifier)
    (hin : inWord.kind = .wordIn) : Clause [word, name, inWord]
  | body {word name inWord doWord : Token} {ss : List Token} {source : Expr} (hword : word.kind = .wordForeach)
    (hname : name.kind = .identifier) (hin : inWord.kind = .wordIn) (hsource : Derives .expression ss source)
    (hdo : doWord.kind = .wordDo) : Clause (word :: name :: inWord :: ss ++ [doWord])
  | loop {mode : LoopMode} {word name sign : Token} (hword : word.kind = loopKind mode)
    (hname : name.kind = .identifier) (hsign : sign.kind = .assign) : Clause [word, name, sign]
  | test {mode : LoopMode} {style : EndStyle} {word name sign mark : Token} {bs : List Token} {body : Expr}
    (hword : word.kind = loopKind mode) (hname : name.kind = .identifier) (hsign : sign.kind = .assign)
    (hbody : Derives .expression bs body) (hmark : mark.kind = endKind style) :
    Clause (word :: name :: sign :: bs ++ [mark])
  | definition {name sign : Token} (hname : name.kind = .identifier) (hsign : sign.kind = .assign) : Clause [name, sign]
  | use {name sign semicolon : Token} {ds : List Token} {definition : Expr} (hname : name.kind = .identifier)
    (hsign : sign.kind = .assign) (hdefinition : Derives .expression ds definition)
    (hend : semicolon.kind = .semicolon) : Clause (name :: sign :: ds ++ [semicolon])

/-- Expressions with a comma behind each. -/
inductive Items : List Token → Prop
  | nil : Items []
  | cons {part rest : List Token} {comma : Token} {a : Expr} (hpart : Derives .expression part a)
    (hcomma : comma.kind = .comma) (h : Items rest) : Items (part ++ comma :: rest)

/-- What comes before an expression in brackets. -/
inductive Opened : List Token → Prop
  | group {opening : Token} (hopening : opening.kind = .leftParen) : Opened [opening]
  | call {word name opening : Token} {front : List Token} (hword : word.kind = .wordCall)
    (hname : name.kind = .identifier) (hopening : opening.kind = .leftParen) (hfront : Items front) :
    Opened (word :: name :: opening :: front)
  | collection {opening : Token} {front : List Token} (hopening : opening.kind = .leftBrace) (hfront : Items front) :
    Opened (opening :: front)
  | tuple {opening : Token} {front : List Token} (hopening : opening.kind = .leftBracket) (hfront : Items front) :
    Opened (opening :: front)

/-- Reading tokens at one level comes to reading the tokens behind a place at another. -/
inductive Asks : Level → List Token → Level → List Token → Prop
  | tighter {level : Level} {us : List Token} (hlevel : level ≠ .primary) (hstarts : Starts level.below us) :
    Asks level us level.below us
  | clause {front : List Token} (us : List Token) (h : Clause front) : Asks .expression (front ++ us) .expression us
  | right {level : Level} {op : Token} {schema : BinarySchema} {ls : List Token} {l : Expr} (us : List Token)
    (hl : Derives level.left ls l) (hsign : op.kind ∈ level.signs) (hschema : op.kind.binarySchema? = some schema) :
    Asks level (ls ++ op :: us) level.right us
  | fallback {tilde : Token} {ls : List Token} {l : Expr} (us : List Token) (hl : Derives .dice ls l)
    (htilde : tilde.kind = .tilde) : Asks .dice (ls ++ tilde :: us) .die us
  | negate {op : Token} (us : List Token) (hop : op.kind = .minus) : Asks .negate (op :: us) .negate us
  | apply {op : Token} {schema : UnarySchema} (us : List Token) (hop : op.kind ∈ applyWords)
    (hschema : op.kind.unarySchema? = some schema) : Asks .apply (op :: us) .apply us
  | first {op : Token} (us : List Token) (hop : op.kind ∈ pairWords) : Asks .apply (op :: us) .apply us
  | second {op : Token} {ls us : List Token} {l : Expr} (hop : op.kind ∈ pairWords) (hl : Derives .apply ls l)
    (hstops : Stops .apply us) : Asks .apply (op :: ls ++ us) .apply us
  | die {op : Token} (us : List Token) (hop : op.kind ∈ dieWords) : Asks .die (op :: us) .die us
  | opened {front us : List Token} (h : Opened front) (hstarts : Starts .expression us) :
    Asks .primary (front ++ us) .expression us

/-- Reading tokens at one level comes to reading others at another, through any number of places. -/
inductive Ahead : Level → List Token → Level → List Token → Prop
  | here (level : Level) (us : List Token) : Ahead level us level us
  | next {outer middle inner : Level} {ts ms us : List Token} (h : Asks outer ts middle ms)
    (hrest : Ahead middle ms inner us) : Ahead outer ts inner us

section

variable {outer inner : Level} {fuel : Nat} {goal : Goal} {ts us front : List Token} {e : ParseError}

theorem Clause.rejects (hfront : Clause front) (h : Rejects (.at .expression) us e) :
    Rejects (.at .expression) (front ++ us) e := by
  refine rejects_of_step fun fuel hfuel => ?_
  cases hfront with
  | condition hword => exact (take_statement .conditional hword).refuses (h.later hfuel (by simp)).bind
  | whenTrue hword hc hthen =>
    simp only [List.append_assoc, List.cons_append, List.nil_append] at hfuel ⊢
    refine (take_statement .conditional hword).refuses ?_
    refine (hc.complete.closed hthen hfuel rfl (by decide) (by simp)).refuses ?_
    exact (gives_word (by decide) hthen).refuses (h.later hfuel (by grind)).bind
  | whenFalse hword hc hthen ht helse =>
    simp only [List.append_assoc, List.cons_append, List.nil_append] at hfuel ⊢
    refine (take_statement .conditional hword).refuses ?_
    refine (hc.complete.closed hthen hfuel rfl (by decide) (by simp)).refuses ?_
    refine (gives_word (by decide) hthen).refuses ?_
    refine (ht.complete.closed helse hfuel rfl (by decide) (by grind)).refuses ?_
    exact (gives_word (by decide) helse).refuses (h.later hfuel (by grind)).bind
  | source hword hname hin =>
    refine (take_statement .foreach hword).refuses ?_
    refine (gives_word (by decide) hname).refuses ?_
    exact (gives_word (by decide) hin).refuses (h.later hfuel (by grind)).bind
  | body hword hname hin hsource hdo =>
    simp only [List.append_assoc, List.cons_append, List.nil_append] at hfuel ⊢
    refine (take_statement .foreach hword).refuses ?_
    refine (gives_word (by decide) hname).refuses ?_
    refine (gives_word (by decide) hin).refuses ?_
    refine (hsource.complete.closed hdo hfuel rfl (by decide) (by grind)).refuses ?_
    exact (gives_word (by decide) hdo).refuses (h.later hfuel (by grind)).bind
  | @loop mode _ _ _ hword hname hsign =>
    refine (take_statement (.loop mode) hword).refuses ?_
    refine (gives_word (by decide) hname).refuses ?_
    exact (gives_word (by decide) hsign).refuses (h.later hfuel (by grind)).bind
  | @test mode style _ _ _ _ _ _ hword hname hsign hbody hmark =>
    simp only [List.append_assoc, List.cons_append, List.nil_append] at hfuel ⊢
    have hmarkSign : (endKind style).signLevel? = none := by cases style <;> rfl
    have hmarkAssign : endKind style ≠ .assign := by cases style <;> decide
    refine (take_statement (.loop mode) hword).refuses ?_
    refine (gives_word (by decide) hname).refuses ?_
    refine (gives_word (by decide) hsign).refuses ?_
    refine (hbody.complete.closed hmark hfuel hmarkSign hmarkAssign (by grind)).refuses ?_
    exact (takeWhen_some rfl (endStyle?_eq_some_iff.2 hmark)).refuses (h.later hfuel (by grind)).bind
  | definition hname hsign =>
    refine (expression_of_binding hname hsign).trans ?_
    refine (gives_word (by decide) hname).refuses ?_
    exact (gives_word (by decide) hsign).refuses (h.later hfuel (by grind)).bind
  | use hname hsign hdefinition hend =>
    simp only [List.append_assoc, List.cons_append, List.nil_append] at hfuel ⊢
    refine (expression_of_binding hname hsign).trans ?_
    refine (gives_word (by decide) hname).refuses ?_
    refine (gives_word (by decide) hsign).refuses ?_
    refine (hdefinition.complete.closed hend hfuel rfl (by decide) (by grind)).refuses ?_
    exact (gives_word (by decide) hend).refuses (h.later hfuel (by grind)).bind

/-- The items before the one that is rejected are read. -/
theorem Items.refuses (hfront : Items front) (h : Rejects (.at .expression) us e) (hfuel : depth goal ts ≤ fuel)
    (hlength : (front ++ us).length < ts.length) {rounds : Nat} (hrounds : front.length < rounds) :
    Refuses (items (readGoal fuel (.at .expression)) rounds) (front ++ us) e := by
  induction hfront generalizing rounds with
  | nil =>
    obtain ⟨rounds, rfl⟩ := Nat.exists_eq_succ_of_ne_zero (Nat.ne_of_gt hrounds)
    exact (h.later hfuel hlength).bind
  | cons hpart hcomma _ ih =>
    obtain ⟨rounds, rfl⟩ := Nat.exists_eq_succ_of_ne_zero (Nat.ne_of_gt (Nat.zero_lt_of_lt hrounds))
    simp only [List.append_assoc, List.cons_append, List.length_append, List.length_cons] at hlength hrounds ⊢
    refine (hpart.complete.closed hcomma hfuel rfl (by decide) (by grind)).refuses ?_
    refine ((gives_take? (by decide)).2 (.inl ⟨_, rfl, hcomma, rfl⟩)).refuses ?_
    exact (ih (by grind) (by omega)).bind

/-- Items do not begin with the bracket that closes them. -/
theorem Items.refuses_enclosed (hfront : Items front) (hstarts : Starts .expression us)
    (h : Rejects (.at .expression) us e) (hfuel : depth goal ts ≤ fuel) (hlength : (front ++ us).length < ts.length)
    {k : Kind} (hk : k ∈ [.rightParen, .rightBrace, .rightBracket]) (what : Expected) :
    Refuses (enclosed (readGoal fuel (.at .expression)) fuel k what) (front ++ us) e := by
  have hbrackets : ∀ k ∈ [Kind.rightParen, .rightBrace, .rightBracket], k.headLevel? = none ∧ k ≠ .endOfInput := by
    decide
  obtain ⟨hhead, hend⟩ := hbrackets k hk
  have hrounds : front.length < fuel := by
    have hdepth := length_le_depth goal ts
    simp only [List.length_append] at hlength
    omega
  have hitems := hfront.refuses h hfuel hlength hrounds
  have hopens : ∃ t later, front ++ us = t :: later ∧ Level.expression.Opens t.kind := by
    cases hfront with
    | nil =>
      obtain ⟨t, later, rfl, hopens, -⟩ := hstarts
      exact ⟨t, later, rfl, hopens⟩
    | cons hpart =>
      obtain ⟨t, later, rfl, hopens, -⟩ := hpart.starts
      exact ⟨t, _, rfl, hopens⟩
  obtain ⟨t, later, heq, hopens⟩ := hopens
  rw [heq] at hitems ⊢
  have hother : t.kind ≠ k := by
    rintro rfl
    exact hopens.headLevel?_ne_none hhead
  exact ((gives_take? hend).2 (.inr ⟨t, later, rfl, hother, rfl, rfl⟩)).refuses hitems.bind

theorem Opened.rejects (hfront : Opened front) (hstarts : Starts .expression us)
    (h : Rejects (.at .expression) us e) : Rejects (.at .primary) (front ++ us) e := by
  refine rejects_of_step fun fuel hfuel => ?_
  cases hfront with
  | group hopening => exact (take_opening .group hopening).refuses (h.later hfuel (by simp)).bind
  | call hword hname hopening hitems =>
    refine (take_opening .call hword).refuses ?_
    refine (gives_word (by decide) hname).refuses ?_
    refine (gives_word (by decide) hopening).refuses ?_
    exact (hitems.refuses_enclosed hstarts h hfuel (by grind) (by decide) _).bind
  | collection hopening hitems =>
    refine (take_opening .collection hopening).refuses ?_
    exact (hitems.refuses_enclosed hstarts h hfuel (by simp) (by decide) _).bind
  | tuple hopening hitems =>
    refine (take_opening .tuple hopening).refuses ?_
    exact (hitems.refuses_enclosed hstarts h hfuel (by simp) (by decide) _).bind

/-- What is rejected in a place is rejected as a whole. -/
theorem Asks.rejects (hplace : Asks outer ts inner us) (h : Rejects (.at inner) us e) : Rejects (.at outer) ts e := by
  cases hplace with
  | tighter hlevel hstarts => exact rejects_tighter hlevel hstarts h
  | clause _ hfront => exact hfront.rejects h
  | right _ hl hsign hschema => exact rejects_right hl hsign hschema h
  | fallback _ hl htilde => exact rejects_fallback hl htilde h
  | @negate op _ hop =>
    have htake : Gives (take? .minus) (op :: us) (some op) us := (gives_take? (by decide)).2 (.inl ⟨op, rfl, hop, rfl⟩)
    exact rejects_of_step fun _ hfuel => htake.refuses (h.later hfuel (by simp)).bind
  | apply _ hop hschema =>
    have htake := applyOperator?_eq_some_iff.2 ⟨hop, hschema⟩
    exact rejects_of_step fun _ hfuel => (takeWhen_some rfl htake).refuses (h.later hfuel (by simp)).bind
  | first _ hop => exact rejects_of_step fun _ hfuel => (apply_of_pair hop).trans (h.later hfuel (by simp)).bind
  | second hop hl hstops => exact rejects_second hop hl hstops h
  | die _ hop =>
    have htake := dieOperator?_eq_some_iff.2 ⟨hop, rfl⟩
    exact rejects_of_step fun _ hfuel => (takeWhen_some rfl htake).refuses (h.later hfuel (by simp)).bind
  | opened hfront hstarts => exact hfront.rejects hstarts h

theorem Ahead.rejects (hplace : Ahead outer ts inner us) (h : Rejects (.at inner) us e) :
    Rejects (.at outer) ts e := by
  induction hplace with
  | here => exact h
  | next hfirst _ ih => exact hfirst.rejects (ih h)

/-- Every looser level comes to the same tokens. -/
theorem Ahead.tighter {level tighter : Level} {vs : List Token} (h : Ahead tighter us inner vs)
    (hstarts : Starts tighter us) (hne : tighter ≠ .expression) (hle : level.rank ≤ tighter.rank) :
    Ahead level us inner vs := by
  obtain ⟨n, hn⟩ := Nat.exists_eq_add_of_le hle
  induction n generalizing level with
  | zero =>
    have hsame : tighter = level := Level.rank_injective hn
    exact hsame ▸ h
  | succ n ih =>
    have hprimary : level ≠ .primary := by
      rintro rfl
      have hrank := Level.rank_le_primary tighter
      omega
    have hbelow := Level.rank_below_eq hprimary
    exact .next (.tighter hprimary (hstarts.of_le (by omega) hne)) (ih (by omega) (by omega))

end

/-! Places in scripts. -/

inductive Header : List Token → Prop
  | mk {word name opening closing sign : Token} {parameters ps : List Token} (hword : word.kind = .wordFunction)
    (hname : name.kind = .identifier) (hopening : opening.kind = .leftParen)
    (hparameters : ∀ p ∈ parameters, p.kind = .identifier) (hlisted : Listed (parameters.map ([·])) ps)
    (hclosing : closing.kind = .rightParen) (hsign : sign.kind = .equal) :
    Header (word :: name :: opening :: ps ++ [closing, sign])

/-- Reading a script comes to reading the tokens behind a place as an expression: the expression of the script, or the
body of a function before or after it. -/
inductive Entry : List Token → List Token → Prop
  | expression {before us : List Token} {earlier : Table Name Expr} (hbefore : Definitions before earlier)
    (hdistinct : earlier.names.Nodup) (hstops : before ≠ [] → Stops .expression us) (hstarts : Starts .expression us) :
    Entry (before ++ us) us
  | earlier {before header : List Token} {earlier : Table Name Expr} (us : List Token)
    (hbefore : Definitions before earlier) (hdistinct : earlier.names.Nodup) (hheader : Header header) :
    Entry (before ++ header ++ us) us
  | later {before main after header : List Token} {a : Expr} {earlier later : Table Name Expr} (us : List Token)
    (hbefore : Definitions before earlier) (hstops : before ≠ [] → Stops .expression main)
    (hmain : Derives .expression main a) (hafter : Definitions after later)
    (hdistinct : (earlier ++ later).names.Nodup) (hheader : Header header) :
    Entry (before ++ main ++ after ++ header ++ us) us

section

variable {fuel rounds : Nat} {goal : Goal} {ts us whole header : List Token} {known entries : Table Name Expr}
  {e : ParseError}

theorem Header.stops (h : Header header) (us : List Token) : Stops .expression (header ++ us) := by
  cases h with
  | mk hword => exact stops_of_word hword rfl (by decide)

/-- A definition whose body is rejected. -/
theorem Header.refuses (hheader : Header header) (h : Rejects (.at .expression) us e) (hfuel : depth goal whole ≤ fuel)
    (hlength : (header ++ us).length ≤ whole.length) (hrounds : 0 < rounds) :
    Refuses (Script.readFunctions fuel rounds known) (header ++ us) e := by
  obtain ⟨rounds, rfl⟩ := Nat.exists_eq_succ_of_ne_zero (Nat.ne_of_gt hrounds)
  have hdepth := length_le_depth goal whole
  cases hheader with
  | mk hword hname hopening hparameters hlisted hclosing hsign =>
    simp only [List.append_assoc, List.cons_append, List.nil_append] at hlength ⊢
    refine ((gives_take? (by decide)).2 (.inl ⟨_, rfl, hword, rfl⟩)).refuses (Refuses.bind ?_)
    refine (gives_word (by decide) hname).refuses ?_
    refine (gives_word (by decide) hopening).refuses ?_
    refine (enclosed_parameters hparameters hlisted hclosing (by grind)).refuses ?_
    refine (gives_word (by decide) hsign).refuses (Refuses.bind ?_)
    exact h.later hfuel (by grind)

/-- Definitions before one whose body is rejected are read. -/
theorem Definitions.refuses (hts : Definitions ts entries) (hheader : Header header)
    (h : Rejects (.at .expression) us e) (hfuel : depth goal whole ≤ fuel)
    (hlength : (ts ++ (header ++ us)).length ≤ whole.length) (hrounds : ts.length < rounds)
    (hdistinct : (Table.names (known ++ entries)).Nodup) :
    Refuses (Script.readFunctions fuel rounds known) (ts ++ (header ++ us)) e := by
  induction hts generalizing known rounds with
  | none => exact hheader.refuses h hfuel hlength hrounds
  | @cons _ name _ _ _ parameters _ _ _ body _ hword hname hopening hparameters hlisted hclosing hsign hbody hothers
      ih =>
    obtain ⟨rounds, rfl⟩ := Nat.exists_eq_succ_of_ne_zero (Nat.ne_of_gt (Nat.zero_lt_of_lt hrounds))
    rw [List.append_assoc] at hlength ⊢
    have hrest := @ih rounds (known ++ [(name.lexeme, .function name.lexeme (parameters.map (·.lexeme)) body)])
      (by grind) (by grind) (by simpa using hdistinct)
    exact (readFunctions_definition hword hname hopening hparameters hlisted hclosing hsign hbody
      (not_mem_names_of_nodup hdistinct) (hothers.stops (hheader.stops us)) hfuel hlength).trans hrest

/-- The definitions before the expression of a script are read. -/
theorem Definitions.gives {before : List Token} (hbefore : Definitions before entries) (hdistinct : entries.names.Nodup)
    (hstops : before ≠ [] → Stops .expression us) (hstarts : Starts .expression us)
    (hlength : (before ++ us).length ≤ ts.length) :
    Gives (Script.readFunctions (Script.enoughFuel ts) (Script.enoughFuel ts) []) (before ++ us) entries us := by
  have hdepth : depth (.at .expression) ts < Script.enoughFuel ts := depth_lt_enoughFuel (Nat.le_refl _)
  have hrounds : before.length < Script.enoughFuel ts := by
    have hle := length_le_depth (.at .expression) ts
    simp only [List.length_append] at hlength
    omega
  obtain ⟨t, later, rfl, -⟩ := id hstarts
  exact readFunctions_complete hbefore hstarts.ne_wordFunction hstops hrounds (Nat.le_of_lt hdepth) hlength hdistinct

/-- A script is rejected for what is rejected in one of its expressions. -/
theorem Entry.ofTokens_eq (hplace : Entry ts us) (h : Rejects (.at .expression) us e) :
    Script.ofTokens ts = .error (.problem e) := by
  have hread : Refuses (Script.readScript (Script.enoughFuel ts)) ts e := by
    have hdepth : depth (.at .expression) ts ≤ Script.enoughFuel ts :=
      Nat.le_of_lt (depth_lt_enoughFuel (Nat.le_refl _))
    have hrounds : ts.length < Script.enoughFuel ts := by
      simp only [Script.enoughFuel]
      omega
    cases hplace with
    | expression hbefore hdistinct hstops hstarts =>
      refine (hbefore.gives hdistinct hstops hstarts (Nat.le_refl _)).refuses (Refuses.bind ?_)
      exact h _ (depth_lt_enoughFuel (by simp))
    | earlier us hbefore hdistinct hheader =>
      rw [List.append_assoc] at hdepth hrounds ⊢
      exact Refuses.bind (hbefore.refuses hheader h hdepth (Nat.le_refl _) (by grind) hdistinct)
    | @later before main after header _ earlier later us hbefore hstops hmain hafter hdistinct hheader =>
      simp only [List.append_assoc] at hdepth hrounds ⊢
      have hnext := hafter.stops (hheader.stops us)
      have hstarts : Starts .expression (main ++ (after ++ (header ++ us))) := by
        obtain ⟨_, _, hhead, -, hassign⟩ := hnext
        rw [hhead]
        exact hmain.starts.append hassign _
      have hearlier : earlier.names.Nodup := by
        simp only [Table.names, List.map_append] at hdistinct ⊢
        exact (List.nodup_append.1 hdistinct).1
      refine (hbefore.gives hearlier (fun hne => (hstops hne).append _) hstarts (Nat.le_refl _)).refuses ?_
      refine (hmain.complete _ hnext _ (depth_lt_enoughFuel (by simp))).refuses (Refuses.bind ?_)
      exact hafter.refuses hheader h hdepth (by grind) (by grind) hdistinct
  unfold Refuses at hread
  simp only [Script.ofTokens, StateT.run, hread]
  rfl

end

end Grammar

end DiceScript
