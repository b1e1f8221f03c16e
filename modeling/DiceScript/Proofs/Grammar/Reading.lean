import DiceScript.Proofs.Grammar.Derivation

/-!
# What one step of reading does

`Gives x ts a rest` says that reading `ts` with `x` succeeds with `a` and leaves `rest`. There is one
equivalence for each way to build a reader, used from left to right to take a successful reading apart and
from right to left to put one together. The tables that a reader asks are those of the grammar.
-/

namespace DiceScript

namespace Read

variable {α β : Type}

/-- Reading `ts` succeeds with `a` and leaves `rest`. -/
def Gives (x : Read α) (ts : List Token) (a : α) (rest : List Token) : Prop :=
  x ts = .ok (a, rest)

section

variable {ts rest : List Token}

theorem gives_pure {a b : α} : Gives (pure a) ts b rest ↔ a = b ∧ ts = rest := by
  change Except.ok (a, ts) = .ok (b, rest) ↔ _
  rw [Except.ok.injEq, Prod.mk.injEq]

theorem gives_bind {x : Read α} {f : α → Read β} {b : β} :
    Gives (x >>= f) ts b rest ↔ ∃ a middle, Gives x ts a middle ∧ Gives (f a) middle b rest := by
  simp only [Gives, bind, StateT.bind, Except.bind]
  cases hx : x ts with
  | error stop => simp
  | ok result =>
    obtain ⟨a, middle⟩ := result
    constructor
    · intro h
      exact ⟨a, middle, rfl, h⟩
    · rintro ⟨a', middle', h, h'⟩
      cases h
      exact h'

/-- After a success reading goes on as what comes next does. -/
theorem bind_of_gives {x : Read α} {f : α → Read β} {a : α} (h : Gives x ts a rest) : (x >>= f) ts = f a rest := by
  unfold Gives at h
  simp only [bind, StateT.bind, h]
  rfl

theorem not_gives_throw {stop : ReadStop} {a : α} : ¬ Gives (throw stop) ts a rest := by
  simp [Gives, throw, throwThe, MonadExceptOf.throw, StateT.lift, bind, Except.bind]

theorem not_gives_fail {cause : ParseError.Cause} {a : α} : ¬ Gives (fail cause) ts a rest := by
  intro h
  obtain ⟨t, middle, -, h⟩ := gives_bind.1 h
  exact not_gives_throw h

theorem gives_get {seen : List Token} : Gives get ts seen rest ↔ ts = seen ∧ ts = rest := by
  change Except.ok (ts, ts) = .ok (seen, rest) ↔ _
  rw [Except.ok.injEq, Prod.mk.injEq]

theorem gives_set {new : List Token} {u : PUnit} : Gives (set new) ts u rest ↔ new = rest := by
  change Except.ok (PUnit.unit, new) = .ok (u, rest) ↔ _
  simp

theorem gives_peek {t : Token} : Gives peek ts t rest ↔ ts.head? = some t ∧ ts = rest := by
  simp only [peek, gives_bind, gives_get]
  constructor
  · rintro ⟨seen, middle, ⟨rfl, rfl⟩, h⟩
    cases ts with
    | nil => exact absurd h not_gives_throw
    | cons t' ts => simpa [gives_pure] using h
  · rintro ⟨h, rfl⟩
    cases ts with
    | nil => cases h
    | cons t' ts => exact ⟨_, _, ⟨rfl, rfl⟩, by simpa [gives_pure] using h⟩

/-- A token is taken if it is selected, and otherwise stays. -/
theorem gives_takeWhen {select : Kind → Option α} (hend : select .endOfInput = none)
    {result : Option (Token × α)} :
    Gives (takeWhen select) ts result rest ↔
      (∃ t a, ts = t :: rest ∧ select t.kind = some a ∧ result = some (t, a)) ∨
      (∃ t later, ts = t :: later ∧ select t.kind = none ∧ result = none ∧ rest = ts) := by
  simp only [takeWhen, gives_bind, gives_get]
  cases ts with
  | nil =>
    constructor
    · rintro ⟨seen, middle, ⟨rfl, rfl⟩, h⟩
      exact absurd h not_gives_throw
    · rintro (⟨t, a, h, -⟩ | ⟨t, later, h, -⟩) <;> cases h
  | cons t ts =>
    constructor
    · rintro ⟨seen, middle, ⟨rfl, rfl⟩, h⟩
      simp only at h
      split at h
      · next hkind =>
        obtain ⟨rfl, rfl⟩ := gives_pure.1 h
        exact .inr ⟨t, ts, rfl, by rw [hkind, hend], rfl, rfl⟩
      · split at h
        · next a ha =>
          obtain ⟨u, middle, hset, h⟩ := gives_bind.1 h
          obtain rfl := gives_set.1 hset
          obtain ⟨rfl, rfl⟩ := gives_pure.1 h
          exact .inl ⟨t, a, rfl, ha, rfl⟩
        · next ha =>
          obtain ⟨rfl, rfl⟩ := gives_pure.1 h
          exact .inr ⟨t, ts, rfl, ha, rfl, rfl⟩
    · rintro (⟨t', a, h, ha, rfl⟩ | ⟨t', later, h, ha, rfl, rfl⟩)
      · cases h
        have hkind : t.kind ≠ .endOfInput := by
          intro hkind
          rw [hkind, hend] at ha
          cases ha
        refine ⟨_, _, ⟨rfl, rfl⟩, ?_⟩
        simp only [hkind, if_false, ha]
        exact gives_bind.2 ⟨⟨⟩, rest, gives_set.2 rfl, gives_pure.2 ⟨rfl, rfl⟩⟩
      · cases h
        refine ⟨_, _, ⟨rfl, rfl⟩, ?_⟩
        simp only [ha]
        split <;> exact gives_pure.2 ⟨rfl, rfl⟩

theorem gives_take? {kind : Kind} (hkind : kind ≠ .endOfInput) {result : Option Token} :
    Gives (take? kind) ts result rest ↔
      (∃ t, ts = t :: rest ∧ t.kind = kind ∧ result = some t) ∨
      (∃ t later, ts = t :: later ∧ t.kind ≠ kind ∧ result = none ∧ rest = ts) := by
  let select : Kind → Option Unit := fun k => if k = kind then some () else none
  have hend : select .endOfInput = none := if_neg (Ne.symm hkind)
  change Gives (takeWhen select >>= fun taken => pure (taken.map Prod.fst)) ts result rest ↔ _
  simp only [gives_bind, gives_takeWhen hend, gives_pure]
  constructor
  · rintro ⟨taken, middle, ⟨t, a, rfl, ha, rfl⟩ | ⟨t, later, rfl, ha, rfl, rfl⟩, rfl, rfl⟩
    · exact .inl ⟨t, rfl, by simpa [select] using ha, rfl⟩
    · exact .inr ⟨t, later, rfl, by simpa [select] using ha, rfl, rfl⟩
  · rintro (⟨t, rfl, ht, rfl⟩ | ⟨t, later, rfl, ht, rfl, rfl⟩)
    · exact ⟨_, _, .inl ⟨t, (), rfl, if_pos ht, rfl⟩, rfl, rfl⟩
    · exact ⟨_, _, .inr ⟨t, later, rfl, if_neg ht, rfl, rfl⟩, rfl, rfl⟩

theorem gives_expect {kind : Kind} (hkind : kind ≠ .endOfInput) {cause : ParseError.Cause}
    {t : Token} : Gives (expect kind cause) ts t rest ↔ ts = t :: rest ∧ t.kind = kind := by
  simp only [expect, gives_bind, gives_take? hkind]
  constructor
  · rintro ⟨taken, middle, ⟨t', rfl, ht, rfl⟩ | ⟨t', later, rfl, ht, rfl, rfl⟩, h⟩
    · obtain ⟨rfl, rfl⟩ := gives_pure.1 h
      exact ⟨rfl, ht⟩
    · exact absurd h not_gives_fail
  · rintro ⟨rfl, ht⟩
    exact ⟨_, _, .inl ⟨t, rfl, ht, rfl⟩, gives_pure.2 ⟨rfl, rfl⟩⟩

end

end Read

/-- Looking for the start of a binding takes nothing. -/
theorem Ladder.gives_startsBinding {ts rest : List Token} {starts : Bool} :
    Read.Gives Ladder.startsBinding ts starts rest ↔
      ts = rest ∧ (starts = true ↔ ∃ name sign later, ts = name :: sign :: later ∧
        name.kind = .identifier ∧ sign.kind = .assign) := by
  match ts with
  | [] =>
    change Except.ok (false, []) = Except.ok (starts, rest) ↔ _
    cases starts <;> simp
  | [t] =>
    change Except.ok (false, [t]) = Except.ok (starts, rest) ↔ _
    cases starts <;> simp
  | name :: sign :: later =>
    change Except.ok (decide (name.kind = .identifier) && decide (sign.kind = .assign),
      name :: sign :: later) = Except.ok (starts, rest) ↔ _
    have hmatch : (∃ n s l, name :: sign :: later = n :: s :: l ∧ n.kind = Kind.identifier ∧
        s.kind = Kind.assign) ↔ name.kind = .identifier ∧ sign.kind = .assign := by
      constructor
      · rintro ⟨n, s, l, heq, hn, hs⟩
        cases heq
        exact ⟨hn, hs⟩
      · rintro ⟨hn, hs⟩
        exact ⟨name, sign, later, rfl, hn, hs⟩
    rw [hmatch, Except.ok.injEq, Prod.mk.injEq, and_comm, Bool.eq_iff_iff, Bool.and_eq_true,
      decide_eq_true_iff, decide_eq_true_iff]
    exact and_congr_right fun _ => iff_comm

/-! The tables of the reader are those of the grammar. -/

namespace Level

theorem operator?_eq (level : Level) (k : Kind) :
    level.operator? k = if k ∈ level.signs then k.binarySchema? else none := by
  cases level <;> cases k <;> rfl

theorem operator?_endOfInput (level : Level) : level.operator? .endOfInput = none := by
  cases level <;> rfl

theorem operator?_eq_some_iff {level : Level} {k : Kind} {schema : BinarySchema} :
    level.operator? k = some schema ↔ k ∈ level.signs ∧ k.binarySchema? = some schema := by
  rw [operator?_eq]
  split <;> simp_all

theorem operator?_eq_none_iff {level : Level} (hdice : level ≠ .dice) {k : Kind} :
    level.operator? k = none ↔ k ∉ level.signs := by
  rw [operator?_eq]
  split
  · next hsign =>
    have : k.binarySchema?.isSome := by
      cases level <;> simp [signs] at hsign hdice
      all_goals rcases hsign with rfl | rfl | rfl | rfl | rfl | rfl <;> rfl
    simp [hsign, Option.isSome_iff_ne_none.1 this]
  · next hsign => simp [hsign]

end Level

def Statement.kind : Statement → Kind
  | .conditional => .wordIf
  | .foreach => .wordForeach
  | .loop mode => Grammar.loopKind mode

def Opening.kind : Opening → Kind
  | .probability => .question
  | .call => .wordCall
  | .name => .identifier
  | .text => .string
  | .number => .integer
  | .group => .leftParen
  | .collection => .leftBrace
  | .tuple => .leftBracket

namespace Grammar

theorem statement?_eq_some_iff {k : Kind} {statement : Statement} :
    statement? k = some statement ↔ k = statement.kind := by
  constructor
  · intro h
    unfold statement? at h
    split at h <;> cases h <;> rfl
  · rintro rfl
    rcases statement with _ | _ | (_ | _) <;> rfl

theorem opening?_eq_some_iff {k : Kind} {opening : Opening} :
    opening? k = some opening ↔ k = opening.kind := by
  constructor
  · intro h
    unfold opening? at h
    split at h <;> cases h <;> rfl
  · rintro rfl
    cases opening <;> rfl

theorem endStyle?_eq_some_iff {k : Kind} {style : EndStyle} :
    endStyle? k = some style ↔ k = endKind style := by
  constructor
  · intro h
    unfold endStyle? at h
    split at h <;> cases h <;> rfl
  · rintro rfl
    cases style <;> rfl

theorem applyOperator?_eq_some_iff {k : Kind} {schema : UnarySchema} :
    applyOperator? k = some schema ↔ k ∈ applyWords ∧ k.unarySchema? = some schema := by
  have h : applyOperator? k = if k ∈ applyWords then k.unarySchema? else none := by
    cases k <;> rfl
  rw [h]
  split <;> simp_all

theorem applyPair?_eq_some_iff {k : Kind} {schema : BinarySchema} :
    applyPair? k = some schema ↔ k ∈ pairWords ∧ schema = .singletonCollection := by
  have h : applyPair? k = if k ∈ pairWords then some .singletonCollection else none := by
    cases k <;> rfl
  rw [h]
  split <;> simp_all [eq_comm]

theorem dieOperator?_eq_some_iff {k : Kind} {schema : UnarySchema} :
    dieOperator? k = some schema ↔ k ∈ dieWords ∧ schema = .singleton := by
  have h : dieOperator? k = if k ∈ dieWords then some .singleton else none := by
    cases k <;> rfl
  rw [h]
  split <;> simp_all [eq_comm]

theorem diceOperator?_eq (k : Kind) :
    diceOperator? k = if k ∈ Level.dice.signs then some k.binarySchema? else none := by
  cases k <;> rfl

theorem diceOperator?_eq_some_iff {k : Kind} {found : Option BinarySchema} :
    diceOperator? k = some found ↔ k ∈ Level.dice.signs ∧ k.binarySchema? = found := by
  rw [diceOperator?_eq]
  split <;> simp_all

theorem diceOperator?_eq_none_iff {k : Kind} :
    diceOperator? k = none ↔ k ∉ Level.dice.signs := by
  rw [diceOperator?_eq]
  split <;> simp_all

/-- The sign that gives a variable a fallback is the only one without operands of its own. -/
theorem tilde_of_sign {k : Kind} (hsign : k ∈ Level.dice.signs) (hschema : k.binarySchema? = none) :
    k = .tilde := by
  simp only [Level.signs, List.mem_cons, List.not_mem_nil, or_false] at hsign
  rcases hsign with rfl | rfl | rfl | rfl
  · cases hschema
  · cases hschema
  · cases hschema
  · rfl

end Grammar

end DiceScript
