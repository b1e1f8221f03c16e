import DiceScript.Proofs.Grammar.Reading

/-!
# First words and following words

A reader that looks at one token decides by it whether an operand starts, goes on or is over. `Opens` says
which words may start an expression of a level and `Stops` which tokens may follow one. Each word starts
expressions of one level and goes on with those of one level, which is why looking at one token is enough.
Only the start of a binding takes a second token, and no other expression starts with a name and the
assignment sign.
-/

namespace DiceScript

namespace Kind

def signLevel? : Kind → Option Level
  | .aboveLeft | .aboveRight | .aboveCentre | .beside => some .layout
  | .dotDot => some .range
  | .drop | .keep | .pick | .setMinus => some .select
  | .union | .and => some .union
  | .plus | .minus => some .sum
  | .times | .divide | .modulo => some .product
  | .sample => some .apply
  | .equal | .unequal | .less | .greater | .atMost | .atLeast => some .compare
  | .die | .zeroDie | .hash | .tilde => some .dice
  | _ => none

/-- The tightest level of an expression that starts with a word. -/
def headLevel? : Kind → Option Level
  | .wordIf | .wordForeach | .wordRepeat | .wordAccumulate => some .expression
  | .minus => some .negate
  | .count | .sum | .minimum | .maximum | .minimal | .maximal | .median | .choose | .different
  | .bang | .sign | .sample | .first | .second | .least | .largest => some .apply
  | .die | .zeroDie => some .die
  | .question | .wordCall | .identifier | .string | .integer | .leftParen | .leftBrace
  | .leftBracket => some .primary
  | _ => none

/-- The words that both start an operand and stand between two. -/
theorem eq_of_headLevel?_of_signLevel? {k : Kind} (hhead : k.headLevel? ≠ none)
    (hsign : k.signLevel? ≠ none) : k = .minus ∨ k = .sample ∨ k = .die ∨ k = .zeroDie := by
  revert hhead hsign
  cases k <;> decide

end Kind

namespace Level

theorem mem_signs_iff {level : Level} {k : Kind} : k ∈ level.signs ↔ k.signLevel? = some level := by
  constructor
  · have hall : ∀ k ∈ level.signs, k.signLevel? = some level := by
      cases level <;> simp [signs, Kind.signLevel?]
    exact hall k
  · intro h
    cases k <;> cases h <;> decide

/-- A sign of a level does not go on with an operand that is tighter. -/
theorem not_continues_below {level : Level} {k : Kind} (h : k ∈ level.signs) :
    ¬ level.below.Continues k := by
  rintro ⟨l, hrank, hk⟩
  have hsame : some l = some level := by
    rw [← mem_signs_iff.1 hk, ← mem_signs_iff.1 h]
  cases hsame
  cases level <;> simp [rank, below, signs] at hrank h

theorem not_continues_of_signLevel? {level : Level} {k : Kind} (h : k.signLevel? = none) :
    ¬ level.Continues k := by
  rintro ⟨l, -, hk⟩
  rw [mem_signs_iff.1 hk] at h
  cases h

theorem not_mem_signs {level : Level} {k : Kind} (h : ¬ level.Continues k) : k ∉ level.signs :=
  fun hk => h ⟨level, Nat.le_refl _, hk⟩

theorem ne_assign_of_mem {level : Level} {k : Kind} (h : k ∈ level.signs) : k ≠ .assign := by
  rintro rfl
  cases mem_signs_iff.1 h

theorem below_ne_expression (level : Level) : level.below ≠ .expression := by
  cases level <;> decide

theorem left_ne_expression {level : Level} {k : Kind} (h : k ∈ level.signs) :
    level.left ≠ .expression := by
  cases level <;> simp [signs, left] at h ⊢

def Opens (level : Level) (k : Kind) : Prop :=
  ∃ tighter : Level, k.headLevel? = some tighter ∧ level.rank ≤ tighter.rank

theorem Opens.of_le {level tighter : Level} {k : Kind} (hle : level.rank ≤ tighter.rank)
    (h : tighter.Opens k) : level.Opens k := by
  obtain ⟨l, hk, hl⟩ := h
  exact ⟨l, hk, Nat.le_trans hle hl⟩

theorem opens_of_headLevel? {level : Level} {k : Kind} (h : k.headLevel? = some level) :
    level.Opens k :=
  ⟨level, h, Nat.le_refl _⟩

theorem Opens.headLevel?_ne_none {level : Level} {k : Kind} (h : level.Opens k) :
    k.headLevel? ≠ none := by
  obtain ⟨l, hk, -⟩ := h
  simp [hk]

/-- A word that starts a tighter expression starts none of the level itself. -/
theorem Opens.headLevel?_ne {level : Level} (hlevel : level ≠ .primary) {k : Kind}
    (h : level.below.Opens k) : k.headLevel? ≠ some level := by
  obtain ⟨l, hk, hrank⟩ := h
  rw [hk]
  rintro ⟨⟩
  cases level <;> simp [rank, below] at hrank hlevel

end Level

namespace Grammar

/-- What may follow an expression of a level: no word that goes on with it, and no assignment sign, which
would make a name before it the start of a binding. -/
def Stops (level : Level) (ts : List Token) : Prop :=
  ∃ t later, ts = t :: later ∧ ¬ level.Continues t.kind ∧ t.kind ≠ .assign

def Starts (level : Level) (ts : List Token) : Prop :=
  ∃ t later, ts = t :: later ∧ level.Opens t.kind ∧
    (level ≠ .expression → t.kind = .identifier → ∀ s ∈ later.head?, s.kind ≠ .assign)

section

variable {level : Level} {t : Token} {ts : List Token}

theorem stops_of_le {tighter : Level} (hle : level.rank ≤ tighter.rank) (h : Stops level ts) :
    Stops tighter ts := by
  obtain ⟨t, later, rfl, hcontinues, hassign⟩ := h
  exact ⟨t, later, rfl, fun h => hcontinues (h.of_le hle), hassign⟩

theorem stops_below (h : Stops level ts) : Stops level.below ts :=
  stops_of_le (Level.rank_below level) h

theorem Stops.append (h : Stops level ts) (rest : List Token) : Stops level (ts ++ rest) := by
  obtain ⟨t, later, rfl, hfollows⟩ := h
  exact ⟨t, later ++ rest, rfl, hfollows⟩

/-- A word that is no sign at all may follow every expression. -/
theorem stops_of_kind (hsign : t.kind.signLevel? = none) (hassign : t.kind ≠ .assign) :
    Stops level (t :: ts) :=
  ⟨t, ts, rfl, Level.not_continues_of_signLevel? hsign, hassign⟩

theorem stops_of_sign (hsign : t.kind ∈ level.signs) : Stops level.below (t :: ts) :=
  ⟨t, ts, rfl, Level.not_continues_below hsign, Level.ne_assign_of_mem hsign⟩

/-- A second operand of `least` may follow the first one. -/
theorem stops_of_apart (hstarts : Starts .apply ts) (hapart : Apart ts) (rest : List Token) :
    Stops .apply (ts ++ rest) := by
  obtain ⟨t, later, rfl, ⟨l, hhead, hrank⟩, -⟩ := hstarts
  obtain ⟨hdie, hzeroDie, hsample⟩ := hapart t rfl
  refine ⟨t, later ++ rest, rfl, ?_, ?_⟩
  · rintro ⟨tighter, -, hsign⟩
    have hhead' : t.kind.headLevel? ≠ none := by simp [hhead]
    have hsign' : t.kind.signLevel? ≠ none := by simp [Level.mem_signs_iff.1 hsign]
    rcases Kind.eq_of_headLevel?_of_signLevel? hhead' hsign' with h | h | h | h
    · rw [h] at hhead
      cases hhead
      exact absurd hrank (by decide)
    · exact hsample h
    · exact hdie h
    · exact hzeroDie h
  · intro hassign
    rw [hassign] at hhead
    cases hhead

theorem Starts.append (h : Starts level ts) {op : Token} (hop : op.kind ≠ .assign)
    (rs : List Token) : Starts level (ts ++ op :: rs) := by
  obtain ⟨t, later, rfl, hopens, hassign⟩ := h
  refine ⟨t, later ++ op :: rs, rfl, hopens, fun hlevel hname s hs => ?_⟩
  cases later with
  | nil =>
    cases hs
    exact hop
  | cons s' later => exact hassign hlevel hname s hs

theorem starts_of_not_name (hhead : t.kind.headLevel? = some level) (hname : t.kind ≠ .identifier) :
    Starts level (t :: ts) :=
  ⟨t, ts, rfl, Level.opens_of_headLevel? hhead, fun _ h => absurd h hname⟩

theorem starts_of_headLevel? (hhead : t.kind.headLevel? = some level)
    (hlevel : level ≠ .primary) : Starts level (t :: ts) := by
  refine starts_of_not_name hhead fun hname => ?_
  rw [hname] at hhead
  cases hhead
  exact hlevel rfl

theorem Starts.of_le {tighter : Level} (hle : level.rank ≤ tighter.rank)
    (htighter : tighter ≠ .expression) (h : Starts tighter ts) : Starts level ts := by
  obtain ⟨t, later, rfl, hopens, hassign⟩ := h
  exact ⟨t, later, rfl, hopens.of_le hle, fun _ => hassign htighter⟩

theorem headLevel?_of_applyWord : ∀ k ∈ applyWords, k.headLevel? = some .apply := by decide

theorem headLevel?_of_pairWord : ∀ k ∈ pairWords, k.headLevel? = some .apply := by decide

theorem headLevel?_of_dieWord : ∀ k ∈ dieWords, k.headLevel? = some .die := by decide

/-- Every expression starts with a word for its level, and only a binding with a name and the assignment
sign. -/
theorem Derives.starts {e : Expr} (h : Derives level ts e) : Starts level ts := by
  induction h with
  | tighter _ ih => exact ih.of_le (Level.rank_below _) (Level.below_ne_expression _)
  | conditional hword => exact starts_of_headLevel? (by rw [hword]; rfl) (by decide)
  | foreach hword => exact starts_of_headLevel? (by rw [hword]; rfl) (by decide)
  | @loop mode _ _ _ _ _ _ _ _ _ hword =>
    exact starts_of_headLevel? (by rw [hword]; cases mode <;> rfl) (by decide)
  | binding hname =>
    exact ⟨_, _, rfl, ⟨.primary, by rw [hname]; rfl, by decide⟩, fun h => absurd rfl h⟩
  | operation _ hsign _ _ ihl _ =>
    refine Starts.of_le (Level.rank_left _) (Level.left_ne_expression hsign) ?_
    exact ihl.append (Level.ne_assign_of_mem hsign) _
  | fallback _ htilde _ ihl _ => exact ihl.append (by simp [htilde]) _
  | negate hop => exact starts_of_headLevel? (by rw [hop]; rfl) (by decide)
  | apply hop => exact starts_of_headLevel? (headLevel?_of_applyWord _ hop) (by decide)
  | applyPair hop => exact starts_of_headLevel? (headLevel?_of_pairWord _ hop) (by decide)
  | die hop => exact starts_of_headLevel? (headLevel?_of_dieWord _ hop) (by decide)
  | name ht => exact ⟨_, _, rfl, ⟨.primary, by rw [ht]; rfl, by decide⟩, by simp⟩
  | probability hop => exact starts_of_not_name (by rw [hop]; rfl) (by simp [hop])
  | text ht => exact starts_of_not_name (by rw [ht]; rfl) (by simp [ht])
  | number ht => exact starts_of_not_name (by rw [ht]; rfl) (by simp [ht])
  | group hopening => exact starts_of_not_name (by rw [hopening]; rfl) (by simp [hopening])
  | call hword => exact starts_of_not_name (by rw [hword]; rfl) (by simp [hword])
  | collection hopening => exact starts_of_not_name (by rw [hopening]; rfl) (by simp [hopening])
  | pair hopening => exact starts_of_not_name (by rw [hopening]; rfl) (by simp [hopening])

end

end Grammar

end DiceScript
