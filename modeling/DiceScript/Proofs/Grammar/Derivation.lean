import DiceScript.Script.Reader

/-!
# The grammar of scripts

`Derives level ts e` says that the tokens `ts` are an expression of a level and that `e` is its tree. Each
rule names the tokens that it takes, in order, and the levels of its operands; nothing is said about how
tokens are read. An expression of a level may be one of any tighter level, and a group in parentheses is
of the tightest, so parentheses lift every restriction on operands.

The levels differ in their signs and in the side on which they allow an operand of their own level: on the
left at most levels, on the right for comparisons and the infix quote, on neither for a range. `least` and
`largest` have their operands side by side. There the second does not start with a word that goes on with
the first, or the two would be one operand.
-/

namespace DiceScript

namespace Level

def rank : Level → Nat
  | .expression => 0
  | .layout => 1
  | .range => 2
  | .select => 3
  | .union => 4
  | .sum => 5
  | .product => 6
  | .negate => 7
  | .apply => 8
  | .compare => 9
  | .dice => 10
  | .die => 11
  | .primary => 12

def signs : Level → List Kind
  | .layout => [.aboveLeft, .aboveRight, .aboveCentre, .beside]
  | .range => [.dotDot]
  | .select => [.drop, .keep, .pick, .setMinus]
  | .union => [.union, .and]
  | .sum => [.plus, .minus]
  | .product => [.times, .divide, .modulo]
  | .apply => [.sample]
  | .compare => [.equal, .unequal, .less, .greater, .atMost, .atLeast]
  | .dice => [.die, .zeroDie, .hash, .tilde]
  | .expression | .negate | .die | .primary => []

def left : Level → Level
  | .range => .select
  | .apply => .compare
  | .compare => .dice
  | level => level

/-- Whether a word after an expression of a level would go on with it. -/
def Continues (level : Level) (k : Kind) : Prop :=
  ∃ tighter : Level, level.rank ≤ tighter.rank ∧ k ∈ tighter.signs

theorem rank_below (level : Level) : level.rank ≤ level.below.rank := by
  cases level <;> decide

theorem rank_left (level : Level) : level.rank ≤ level.left.rank := by
  cases level <;> decide

theorem rank_below_eq {level : Level} (h : level ≠ .primary) : level.below.rank = level.rank + 1 := by
  cases level <;> simp [rank, below] at h ⊢

theorem rank_injective {l l' : Level} (h : l.rank = l'.rank) : l = l' := by
  cases l <;> cases l' <;> first | rfl | cases h

theorem rank_le_primary (level : Level) : level.rank ≤ Level.primary.rank := by
  cases level <;> decide

theorem left_eq (level : Level) : level.left = level ∨ level.left = level.below := by
  cases level <;> simp [left, below]

/-- A sign that is repeated takes its own level on exactly one side. -/
theorem sides {level : Level} (h : level ≠ .range) :
    level.left = level ∧ level.right = level.below ∨
      level.right = level ∧ Level.range.rank < level.rank := by
  cases level <;> simp [left, right, below, rank] at h ⊢

/-- Between a level and the next tighter one there is nothing. -/
theorem eq_or_below_le {level tighter : Level} (h : level.rank ≤ tighter.rank) :
    tighter = level ∨ level.below.rank ≤ tighter.rank := by
  cases level <;> cases tighter <;> simp [rank, below] at h ⊢

theorem Continues.of_le {level tighter : Level} {k : Kind} (hle : level.rank ≤ tighter.rank)
    (h : tighter.Continues k) : level.Continues k := by
  obtain ⟨l, hl, hk⟩ := h
  exact ⟨l, Nat.le_trans hle hl, hk⟩

theorem continues_iff {level : Level} {k : Kind} :
    level.Continues k ↔ k ∈ level.signs ∨ level.below.Continues k := by
  constructor
  · rintro ⟨l, hl, hk⟩
    rcases eq_or_below_le hl with rfl | hl
    · exact .inl hk
    · exact .inr ⟨l, hl, hk⟩
  · rintro (hk | h)
    · exact ⟨level, Nat.le_refl _, hk⟩
    · exact h.of_le (rank_below level)

end Level

namespace Kind

def binarySchema? : Kind → Option BinarySchema
  | .and | .drop | .keep | .setMinus | .union => some .collectionCollection
  | .pick => some .collectionSingleton
  | .equal | .unequal | .less | .greater | .atMost | .atLeast | .least | .largest =>
    some .singletonCollection
  | .dotDot | .die | .zeroDie | .plus | .minus | .times | .divide | .modulo =>
    some .singletonSingleton
  | .beside | .aboveLeft | .aboveRight | .aboveCentre => some .stringString
  | .sample | .hash => some .deferred
  | _ => none

def unarySchema? : Kind → Option UnarySchema
  | .count | .different | .choose | .sum | .minimum | .maximum | .median | .minimal | .maximal
  | .bang => some .collection
  | .die | .zeroDie | .minus | .sign => some .singleton
  | .question => some .real
  | .first | .second => some .tuple
  | .sample => some .deferred
  | _ => none

end Kind

namespace Grammar

def applyWords : List Kind :=
  [.count, .sum, .minimum, .maximum, .minimal, .maximal, .median, .choose, .different, .bang, .sign,
   .sample, .first, .second]

def pairWords : List Kind := [.least, .largest]

def dieWords : List Kind := [.die, .zeroDie]

def loopKind : LoopMode → Kind
  | .last => .wordRepeat
  | .accumulated => .wordAccumulate

def endKind : EndStyle → Kind
  | .untilTrue => .wordUntil
  | .whileTrue => .wordWhile

/-- Tokens that do not go on with an operand of the `apply` level before them. -/
def Apart (ts : List Token) : Prop :=
  ∀ t ∈ ts.head?, t.kind ≠ .die ∧ t.kind ≠ .zeroDie ∧ t.kind ≠ .sample

instance (ts : List Token) : Decidable (Apart ts) :=
  match ts with
  | [] => isTrue (by simp [Apart])
  | t :: _ => decidable_of_iff (t.kind ≠ .die ∧ t.kind ≠ .zeroDie ∧ t.kind ≠ .sample) (by simp [Apart])

/-- One part or more, with a comma between each two. -/
inductive Separated : List (List Token) → List Token → Prop
  | single (part : List Token) : Separated [part] part
  | cons {comma : Token} {parts : List (List Token)} {ts : List Token} (part : List Token)
      (hcomma : comma.kind = .comma) (hrest : Separated parts ts) :
      Separated (part :: parts) (part ++ comma :: ts)

inductive Listed : List (List Token) → List Token → Prop
  | none : Listed [] []
  | some {parts : List (List Token)} {ts : List Token} (h : Separated parts ts) : Listed parts ts

theorem Separated.mem {parts : List (List Token)} {ts : List Token} (h : Separated parts ts)
    {t : Token} (ht : t ∈ ts) : t.kind = .comma ∨ ∃ p ∈ parts, t ∈ p := by
  induction h with
  | single part => exact .inr ⟨part, by simp, ht⟩
  | cons part hcomma _ ih =>
    rcases List.mem_append.1 ht with ht | ht
    · exact .inr ⟨part, by simp, ht⟩
    · rcases List.mem_cons.1 ht with rfl | ht
      · exact .inl hcomma
      · rcases ih ht with hkind | ⟨p, hp, ht⟩
        · exact .inl hkind
        · exact .inr ⟨p, List.mem_cons_of_mem _ hp, ht⟩

theorem Listed.mem {parts : List (List Token)} {ts : List Token} (h : Listed parts ts) {t : Token}
    (ht : t ∈ ts) : t.kind = .comma ∨ ∃ p ∈ parts, t ∈ p := by
  cases h with
  | none => cases ht
  | some h => exact h.mem ht

theorem Listed.subset {parts : List (List Token)} {ts : List Token} (h : Listed parts ts)
    {p : List Token} (hp : p ∈ parts) : p ⊆ ts := by
  cases h with
  | none => cases hp
  | some h =>
    induction h with
    | single part =>
      obtain rfl := List.mem_singleton.1 hp
      exact List.Subset.refl _
    | cons part _ _ ih =>
      rcases List.mem_cons.1 hp with rfl | hp
      · exact List.subset_append_left _ _
      · intro t ht
        exact List.mem_append_right _ (List.mem_cons_of_mem _ (ih hp ht))

theorem Listed.two {as bs ts : List Token} (h : Listed [as, bs] ts) :
    ∃ comma : Token, comma.kind = .comma ∧ ts = as ++ comma :: bs := by
  cases h with
  | some h =>
    cases h with
    | cons _ hcomma hrest =>
      cases hrest with
      | single => exact ⟨_, hcomma, rfl⟩
      | cons _ _ hnone => cases hnone

/-- The tokens of an expression of a level, and its tree. -/
inductive Derives : Level → List Token → Expr → Prop
  | tighter {level : Level} {ts : List Token} {e : Expr} (h : Derives level.below ts e) :
      Derives level ts e
  | conditional {word thenWord elseWord : Token} {cs ts fs : List Token} {c t f : Expr}
      (hword : word.kind = .wordIf) (hc : Derives .expression cs c)
      (hthen : thenWord.kind = .wordThen) (ht : Derives .expression ts t)
      (helse : elseWord.kind = .wordElse) (hf : Derives .expression fs f) :
      Derives .expression (word :: cs ++ thenWord :: ts ++ elseWord :: fs) (.conditional c t f)
  | foreach {word name inWord doWord : Token} {ss bs : List Token} {source body : Expr}
      (hword : word.kind = .wordForeach) (hname : name.kind = .identifier)
      (hin : inWord.kind = .wordIn) (hsource : Derives .expression ss source)
      (hdo : doWord.kind = .wordDo) (hbody : Derives .expression bs body) :
      Derives .expression (word :: name :: inWord :: ss ++ doWord :: bs)
        (.foreach name.lexeme source body)
  | loop {mode : LoopMode} {style : EndStyle} {word name sign mark : Token} {bs ts : List Token}
      {body test : Expr} (hword : word.kind = loopKind mode)
      (hname : name.kind = .identifier) (hsign : sign.kind = .assign)
      (hbody : Derives .expression bs body) (hmark : mark.kind = endKind style)
      (htest : Derives .expression ts test) :
      Derives .expression (word :: name :: sign :: bs ++ mark :: ts)
        (.loop mode name.lexeme body style test)
  | binding {name sign semicolon : Token} {ds us : List Token} {definition use : Expr}
      (hname : name.kind = .identifier) (hsign : sign.kind = .assign)
      (hdefinition : Derives .expression ds definition) (hend : semicolon.kind = .semicolon)
      (huse : Derives .expression us use) :
      Derives .expression (name :: sign :: ds ++ semicolon :: us)
        (.binding name.lexeme definition use)
  | operation {level : Level} {schema : BinarySchema} {op : Token} {ls rs : List Token}
      {l r : Expr} (hl : Derives level.left ls l) (hsign : op.kind ∈ level.signs)
      (hschema : op.kind.binarySchema? = some schema) (hr : Derives level.right rs r) :
      Derives level (ls ++ op :: rs) (.binary l op schema r)
  | fallback {tilde : Token} {ls rs : List Token} {name : Name} {old e : Expr}
      (hl : Derives .dice ls (.var name old)) (htilde : tilde.kind = .tilde)
      (hr : Derives .die rs e) : Derives .dice (ls ++ tilde :: rs) (.var name e)
  | negate {op : Token} {ts : List Token} {e : Expr} (hop : op.kind = .minus)
      (h : Derives .negate ts e) : Derives .negate (op :: ts) (.unary op .singleton e)
  | apply {schema : UnarySchema} {op : Token} {ts : List Token} {e : Expr}
      (hop : op.kind ∈ applyWords) (hschema : op.kind.unarySchema? = some schema)
      (h : Derives .apply ts e) : Derives .apply (op :: ts) (.unary op schema e)
  | applyPair {op : Token} {ls rs : List Token} {l r : Expr} (hop : op.kind ∈ pairWords)
      (hl : Derives .apply ls l) (hr : Derives .apply rs r) (hapart : Apart rs) :
      Derives .apply (op :: ls ++ rs) (.binary l op .singletonCollection r)
  | die {op : Token} {ts : List Token} {e : Expr} (hop : op.kind ∈ dieWords)
      (h : Derives .die ts e) : Derives .die (op :: ts) (.unary op .singleton e)
  | probability {op t : Token} (hop : op.kind = .question) (ht : t.kind = .real) :
      Derives .primary [op, t] (.unary op .real (.ofLiteral .real t.literal))
  | name {t : Token} (ht : t.kind = .identifier) : Derives .primary [t] (.var t.lexeme .missing)
  | text {t : Token} (ht : t.kind = .string) : Derives .primary [t] (.ofLiteral .text t.literal)
  | number {t : Token} (ht : t.kind = .integer) :
      Derives .primary [t] (.ofLiteral .number t.literal)
  | group {opening closing : Token} {ts : List Token} {e : Expr}
      (hopening : opening.kind = .leftParen) (h : Derives .expression ts e)
      (hclosing : closing.kind = .rightParen) :
      Derives .primary (opening :: ts ++ [closing]) (.group e)
  | call {word name opening closing : Token} {parts : List (List Token × Expr)} {ts : List Token}
      (hword : word.kind = .wordCall) (hname : name.kind = .identifier)
      (hopening : opening.kind = .leftParen) (hparts : ∀ p ∈ parts, Derives .expression p.1 p.2)
      (hlisted : Listed (parts.map Prod.fst) ts) (hclosing : closing.kind = .rightParen) :
      Derives .primary (word :: name :: opening :: ts ++ [closing])
        (.call name.lexeme (parts.map Prod.snd))
  | collection {opening closing : Token} {parts : List (List Token × Expr)} {ts : List Token}
      (hopening : opening.kind = .leftBrace) (hparts : ∀ p ∈ parts, Derives .expression p.1 p.2)
      (hlisted : Listed (parts.map Prod.fst) ts) (hclosing : closing.kind = .rightBrace) :
      Derives .primary (opening :: ts ++ [closing]) (.collection (parts.map Prod.snd))
  | pair {opening comma closing : Token} {as bs : List Token} {a b : Expr}
      (hopening : opening.kind = .leftBracket) (ha : Derives .expression as a)
      (hcomma : comma.kind = .comma) (hb : Derives .expression bs b)
      (hclosing : closing.kind = .rightBracket) :
      Derives .primary (opening :: as ++ comma :: bs ++ [closing]) (.pair a b)

/-- The tokens of function definitions one after the other, and the entries that they make. -/
inductive Definitions : List Token → Table Name Expr → Prop
  | none : Definitions [] []
  | cons {word name opening closing sign : Token} {parameters : List Token}
      {ps bs rest : List Token} {body : Expr} {entries : Table Name Expr}
      (hword : word.kind = .wordFunction) (hname : name.kind = .identifier)
      (hopening : opening.kind = .leftParen) (hparameters : ∀ p ∈ parameters, p.kind = .identifier)
      (hlisted : Listed (parameters.map ([·])) ps) (hclosing : closing.kind = .rightParen)
      (hsign : sign.kind = .equal) (hbody : Derives .expression bs body)
      (hrest : Definitions rest entries) :
      Definitions (word :: name :: opening :: ps ++ closing :: sign :: bs ++ rest)
        ((name.lexeme, .function name.lexeme (parameters.map (·.lexeme)) body) :: entries)

end Grammar

end DiceScript
