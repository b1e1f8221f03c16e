import DiceScript.Proofs.Grammar.Places
import DiceScript.Proofs.Grammar.Soundness
import DiceScript.Proofs.Grammar.Yield

/-!
# Fallbacks and tildes

A tilde gives the variable before it a fallback, and a variable that has one already is given another in its place:
the old one is lost, and so are the fallbacks within it. So there are at most as many variables with a fallback as
tildes, and fewer just if somewhere the fallback after a tilde is followed by a tilde again. `Accounts` says this of
a stretch of tokens, with one rule for each way to build a stretch.
-/

namespace DiceScript

mutual

def Expr.fallbacks : Expr → Nat
  | .missing | .literal _ | .misfit _ => 0
  | .var _ .missing => 0
  | .var _ fallback => 1 + fallback.fallbacks
  | .binary left _ _ right => left.fallbacks + right.fallbacks
  | .unary _ _ operand => operand.fallbacks
  | .conditional condition whenTrue whenFalse => condition.fallbacks + whenTrue.fallbacks + whenFalse.fallbacks
  | .foreach _ source body => source.fallbacks + body.fallbacks
  | .loop _ _ body _ test => body.fallbacks + test.fallbacks
  | .binding _ definition use => definition.fallbacks + use.fallbacks
  | .call _ arguments => allFallbacks arguments
  | .collection elements => allFallbacks elements
  | .pair first second => first.fallbacks + second.fallbacks
  | .group inner => inner.fallbacks
  | .function _ _ body => body.fallbacks

def Expr.allFallbacks : List Expr → Nat
  | [] => 0
  | e :: rest => e.fallbacks + allFallbacks rest

end

def Script.fallbacks (s : Script) : Nat :=
  s.expression.fallbacks + Expr.allFallbacks (s.functions.map Prod.snd)

theorem Expr.allFallbacks_append (es fs : List Expr) :
    allFallbacks (es ++ fs) = allFallbacks es + allFallbacks fs := by
  induction es with
  | nil => simp [allFallbacks]
  | cons e es ih => simp [allFallbacks, ih, Nat.add_assoc]

theorem Expr.fallbacks_var {name : Name} {e : Expr} (h : e ≠ .missing) :
    (Expr.var name e).fallbacks = 1 + e.fallbacks := by
  cases e <;> first | rfl | exact absurd rfl h

theorem Expr.fallbacks_ofLiteral (kind : LiteralKind) (content : Json) : (ofLiteral kind content).fallbacks = 0 := by
  cases kind <;> simp only [ofLiteral, ofForm] <;> split <;> rfl

namespace Grammar

def tildes (ts : List Token) : Nat := ts.countP (·.kind = .tilde)

/-- Somewhere the fallback after a tilde is followed by a tilde again. -/
def Refills (ts : List Token) : Prop :=
  ∃ (front : List Token) (tilde : Token) (rs : List Token) (r : Expr) (again : Token) (back : List Token),
    ts = front ++ tilde :: rs ++ again :: back ∧ tilde.kind = .tilde ∧ Derives .die rs r ∧ again.kind = .tilde

section

variable {level : Level} {ts us : List Token} {t : Token} {e : Expr}

@[simp] theorem tildes_append (ts us : List Token) : tildes (ts ++ us) = tildes ts + tildes us :=
  List.countP_append

theorem tildes_cons (ht : t.kind ≠ .tilde) (ts : List Token) : tildes (t :: ts) = tildes ts := by
  simp [tildes, ht]

theorem tildes_tilde (ht : t.kind = .tilde) (ts : List Token) : tildes (t :: ts) = tildes ts + 1 := by
  simp [tildes, ht]

theorem Refills.within (h : Refills ts) (front back : List Token) : Refills (front ++ ts ++ back) := by
  obtain ⟨before, tilde, rs, r, again, after, rfl, h⟩ := h
  exact ⟨front ++ before, tilde, rs, r, again, after ++ back, by simp, h⟩

theorem Derives.ne_missing (h : Derives level ts e) : e ≠ .missing := by
  induction h with
  | tighter _ ih => exact ih
  | text | number => simp only [Expr.ofLiteral, Expr.ofForm]; split <;> simp
  | _ => simp

/-- Among the tight levels a variable is its name and nothing else. -/
theorem Derives.bare {name : Name} {old : Expr} (h : Derives level ts (.var name old))
    (hlevel : Level.die.rank ≤ level.rank) : ∃ t, ts = [t] ∧ t.kind = .identifier := by
  generalize hvar : Expr.var name old = e at h
  induction h with
  | @tighter level _ _ _ ih => exact ih (Nat.le_trans hlevel (Level.rank_below level)) hvar
  | fallback => exact absurd hlevel (by decide)
  | @name t ht => exact ⟨t, rfl, ht⟩
  | text | number =>
    simp only [Expr.ofLiteral, Expr.ofForm] at hvar
    split at hvar <;> cases hvar
  | _ => cases hvar

/-- A variable with tildes in it ends with a fallback after a tilde. -/
theorem Derives.filled {name : Name} {old : Expr} (h : Derives .dice ts (.var name old)) (htildes : 0 < tildes ts) :
    ∃ (front : List Token) (tilde : Token) (rs : List Token) (r : Expr),
      ts = front ++ tilde :: rs ∧ tilde.kind = .tilde ∧ Derives .die rs r := by
  cases h with
  | tighter h =>
    obtain ⟨t, rfl, ht⟩ := h.bare (Nat.le_refl _)
    rw [tildes_cons (by simp [ht])] at htildes
    exact absurd htildes (Nat.lt_irrefl 0)
  | fallback _ htilde hr => exact ⟨_, _, _, _, rfl, htilde, hr⟩

/-- Where a die ends is decided by the tokens before. -/
theorem Derives.die_unique {rs rs' more more' : List Token} {r r' : Expr} (h : Derives .die rs r)
    (h' : Derives .die rs' r') (hsame : rs ++ more = rs' ++ more') : more = more' := by
  have hread := h.whole (Nat.le_refl _) more _ (Nat.lt_succ_self _)
  have hread' := h'.whole (Nat.le_refl _) more' _ (Nat.lt_succ_self _)
  rw [← hsame] at hread'
  cases hread.symm.trans hread'
  rfl

end

/-- Of the tildes in a stretch of tokens, `n` are still there as the fallback of a variable. Each one stands between
a variable and a die, and it is lost if a tilde follows the die. -/
structure Accounts (ts : List Token) (n : Nat) : Prop where
  le : n ≤ tildes ts
  refills : n < tildes ts → Refills ts
  left : ∀ {front tilde back}, ts = front ++ tilde :: back → tilde.kind = .tilde →
    ∃ before ls name old, front = before ++ ls ∧ Derives .dice ls (.var name old)
  right : ∀ {front tilde back}, ts = front ++ tilde :: back → tilde.kind = .tilde →
    ∃ rs r after, back = rs ++ after ∧ Derives .die rs r ∧ ∀ t ∈ after.head?, t.kind = .tilde → n < tildes ts

section

variable {ts us : List Token} {t : Token} {n m : Nat}

theorem accounts_nil : Accounts [] 0 where
  le := Nat.le_refl 0
  refills h := absurd h (Nat.lt_irrefl 0)
  left h := absurd h (by simp)
  right h := absurd h (by simp)

theorem Accounts.cons (ht : t.kind ≠ .tilde) (h : Accounts ts n) : Accounts (t :: ts) n := by
  have hcut {front tilde back} (hts : t :: ts = front ++ tilde :: back) (htilde : tilde.kind = .tilde) :
      ∃ front', front = t :: front' ∧ ts = front' ++ tilde :: back := by
    cases front with
    | nil =>
      cases hts
      exact absurd htilde ht
    | cons s front' =>
      cases hts
      exact ⟨front', rfl, rfl⟩
  constructor
  · rw [tildes_cons ht]
    exact h.le
  · intro hlost
    rw [tildes_cons ht] at hlost
    simpa using (h.refills hlost).within [t] []
  · intro front tilde back hts htilde
    obtain ⟨front', rfl, hts'⟩ := hcut hts htilde
    obtain ⟨before, ls, name, old, rfl, hl⟩ := h.left hts' htilde
    exact ⟨t :: before, ls, name, old, rfl, hl⟩
  · intro front tilde back hts htilde
    obtain ⟨front', -, hts'⟩ := hcut hts htilde
    rw [tildes_cons ht]
    exact h.right hts' htilde

/-- A token of two stretches is in the first or in the second. -/
theorem cut_append {front back : List Token} (h : ts ++ us = front ++ t :: back) :
    (∃ inner, ts = front ++ t :: inner ∧ back = inner ++ us) ∨
      ∃ inner, front = ts ++ inner ∧ us = inner ++ t :: back := by
  rcases List.append_eq_append_iff.1 h with ⟨inner, hfront, hus⟩ | ⟨inner, hts, hback⟩
  · exact .inr ⟨inner, hfront, hus⟩
  · cases inner with
    | nil => exact .inr ⟨[], by simpa using hts.symm, hback.symm⟩
    | cons s inner =>
      cases hback
      exact .inl ⟨inner, hts, rfl⟩

/-- Two stretches, of which the second does not begin with a tilde. -/
theorem Accounts.append (h : Accounts ts n) (h' : Accounts us m) (hhead : ∀ t ∈ us.head?, t.kind ≠ .tilde) :
    Accounts (ts ++ us) (n + m) := by
  have hle := h.le
  have hle' := h'.le
  have hsum := tildes_append ts us
  constructor
  · omega
  · intro hlost
    by_cases hfirst : n < tildes ts
    · simpa using (h.refills hfirst).within [] us
    · simpa using (h'.refills (by omega)).within ts []
  · intro front tilde back hts htilde
    rcases cut_append hts with ⟨inner, hts', -⟩ | ⟨inner, rfl, hus⟩
    · exact h.left hts' htilde
    · obtain ⟨before, ls, name, old, rfl, hl⟩ := h'.left hus htilde
      exact ⟨ts ++ before, ls, name, old, by simp, hl⟩
  · intro front tilde back hts htilde
    rcases cut_append hts with ⟨inner, hts', rfl⟩ | ⟨inner, -, hus⟩
    · obtain ⟨rs, r, after, rfl, hr, hafter⟩ := h.right hts' htilde
      refine ⟨rs, r, after ++ us, by simp, hr, fun t ht htilde' => ?_⟩
      rw [List.head?_append, Option.mem_def, Option.or_eq_some_iff] at ht
      rcases ht with ht | ⟨-, ht⟩
      · have hlost := hafter t ht htilde'
        omega
      · exact absurd htilde' (hhead t ht)
    · obtain ⟨rs, r, after, rfl, hr, hafter⟩ := h'.right hus htilde
      refine ⟨rs, r, after, rfl, hr, fun t ht htilde' => ?_⟩
      have hlost := hafter t ht htilde'
      omega

/-- A variable, a tilde and a die: what was the fallback of the variable is lost. -/
theorem Accounts.fallback {tilde : Token} {rs : List Token} {name : Name} {old r : Expr} (h : Accounts ts n)
    (hl : Derives .dice ts (.var name old)) (htilde : tilde.kind = .tilde) (h' : Accounts rs m)
    (hr : Derives .die rs r) :
    Accounts (ts ++ tilde :: rs) (1 + m) := by
  have hle' := h'.le
  have hsum : tildes (ts ++ tilde :: rs) = tildes ts + (tildes rs + 1) := by
    rw [tildes_append, tildes_tilde htilde]
  constructor
  · omega
  · intro hlost
    by_cases hlast : m < tildes rs
    · simpa using (h'.refills hlast).within (ts ++ [tilde]) []
    · obtain ⟨front, tilde', rs', r', rfl, htilde', hr'⟩ := hl.filled (by omega)
      exact ⟨front, tilde', rs', r', tilde, rs, rfl, htilde', hr', htilde⟩
  · intro front tilde' back hts htilde'
    rcases cut_append hts with ⟨inner, hts', -⟩ | ⟨inner, rfl, hback⟩
    · exact h.left hts' htilde'
    · cases inner with
      | nil => exact ⟨[], ts, name, old, by simp, hl⟩
      | cons t inner =>
        cases hback
        obtain ⟨before, ls, name, old, rfl, hl⟩ := h'.left rfl htilde'
        exact ⟨ts ++ tilde :: before, ls, name, old, by simp, hl⟩
  · intro front tilde' back hts htilde'
    rcases cut_append hts with ⟨inner, hts', rfl⟩ | ⟨inner, rfl, hback⟩
    · obtain ⟨rs', r', after, rfl, hr', -⟩ := h.right hts' htilde'
      refine ⟨rs', r', after ++ tilde :: rs, by simp, hr', fun t ht _ => ?_⟩
      have hpos : tildes ts = tildes front + (tildes (rs' ++ after) + 1) := by
        rw [hts', tildes_append, tildes_tilde htilde']
      omega
    · cases inner with
      | nil =>
        cases hback
        exact ⟨rs, r, [], by simp, hr, by simp⟩
      | cons t inner =>
        cases hback
        obtain ⟨rs', r', after, rfl, hr', hafter⟩ := h'.right rfl htilde'
        refine ⟨rs', r', after, rfl, hr', fun t ht htilde => ?_⟩
        have hlost := hafter t ht htilde
        omega

/-- A tilde is lost just if a fallback is followed by a tilde. -/
theorem Accounts.lt_iff (h : Accounts ts n) : n < tildes ts ↔ Refills ts := by
  refine ⟨h.refills, ?_⟩
  rintro ⟨front, tilde, rs, r, again, back, hts, htilde, hr, hagain⟩
  rw [List.append_assoc] at hts
  obtain ⟨rs', r', after, hback, hr', hafter⟩ := h.right hts htilde
  have hsame : again :: back = after := hr.die_unique hr' hback
  exact hafter again (by simp [← hsame]) hagain

/-- Tokens without a tilde. -/
theorem accounts_of_ne (h : ∀ t ∈ ts, t.kind ≠ .tilde) : Accounts ts 0 := by
  induction ts with
  | nil => exact accounts_nil
  | cons t ts ih =>
    rw [List.forall_mem_cons] at h
    exact (ih h.2).cons h.1

/-- A stretch, a word and another stretch. -/
theorem Accounts.word (h : Accounts ts n) (ht : t.kind ≠ .tilde) (h' : Accounts us m) :
    Accounts (ts ++ t :: us) (n + m) := by
  refine h.append (h'.cons ht) fun s hs => ?_
  cases hs
  exact ht

/-- A word at the end. -/
theorem Accounts.closed (h : Accounts ts n) (ht : t.kind ≠ .tilde) : Accounts (ts ++ [t]) n :=
  h.word ht accounts_nil

theorem accounts_listed {parts : List (List Token × Expr)} (hlisted : Listed (parts.map Prod.fst) ts)
    (hparts : ∀ p ∈ parts, Accounts p.1 p.2.fallbacks) : Accounts ts (Expr.allFallbacks (parts.map Prod.snd)) := by
  generalize hfirsts : parts.map Prod.fst = firsts at hlisted
  cases hlisted with
  | none =>
    obtain rfl := List.map_eq_nil_iff.1 hfirsts
    exact accounts_nil
  | some h =>
    induction h generalizing parts with
    | single part =>
      obtain ⟨⟨_, e⟩, rfl, rfl⟩ := List.map_eq_singleton_iff.1 hfirsts
      exact hparts _ (List.mem_singleton_self _)
    | cons part hcomma _ ih =>
      obtain ⟨⟨_, e⟩, parts, rfl, rfl, rfl⟩ := List.map_eq_cons_iff.1 hfirsts
      rw [List.forall_mem_cons] at hparts
      exact hparts.1.word (by simp [hcomma]) (ih hparts.2 rfl)

end

theorem ne_tilde {t : Token} {k : Kind} (ht : t.kind = k) (hk : k ≠ .tilde := by decide) : t.kind ≠ .tilde :=
  ht ▸ hk

theorem ne_tilde_of_mem {k : Kind} {words : List Kind} (hk : k ∈ words) (hwords : .tilde ∉ words := by decide) :
    k ≠ .tilde := by
  rintro rfl
  exact hwords hk

theorem ne_tilde_of_schema {k : Kind} {schema : BinarySchema} (h : k.binarySchema? = some schema) : k ≠ .tilde := by
  rintro rfl
  cases h

/-- An expression does not begin with a tilde. -/
theorem Derives.head_ne_tilde {level : Level} {ts : List Token} {e : Expr} (h : Derives level ts e) :
    ∀ t ∈ ts.head?, t.kind ≠ .tilde := by
  obtain ⟨t, later, rfl, hopens, -⟩ := h.starts
  rintro s ⟨⟩ htilde
  rw [htilde] at hopens
  exact hopens.headLevel?_ne_none rfl

/-- What becomes of the tildes of an expression. -/
theorem Derives.accounts {level : Level} {ts : List Token} {e : Expr} (h : Derives level ts e) :
    Accounts ts e.fallbacks := by
  induction h with
  | tighter _ ih => exact ih
  | conditional hword _ hthen _ helse _ ihc iht ihf =>
    exact ((ihc.cons (ne_tilde hword)).word (ne_tilde hthen) iht).word (ne_tilde helse) ihf
  | foreach hword hname hin _ hdo _ ihsource ihbody =>
    have hfront := ((ihsource.cons (ne_tilde hin)).cons (ne_tilde hname)).cons (ne_tilde hword)
    exact hfront.word (ne_tilde hdo) ihbody
  | @loop mode style _ _ _ _ _ _ _ _ hword hname hsign _ hmark _ ihbody ihtest =>
    have hfront := (ihbody.cons (ne_tilde hsign)).cons (ne_tilde hname)
    have hloop := hfront.cons (ne_tilde hword (by cases mode <;> decide))
    exact hloop.word (ne_tilde hmark (by cases style <;> decide)) ihtest
  | binding hname hsign _ hend _ ihdefinition ihuse =>
    have hfront := (ihdefinition.cons (ne_tilde hsign)).cons (ne_tilde hname)
    exact hfront.word (ne_tilde hend) ihuse
  | operation _ _ hschema _ ihl ihr => exact ihl.word (ne_tilde_of_schema hschema) ihr
  | fallback hl htilde hr ihl ihr =>
    rw [Expr.fallbacks_var hr.ne_missing]
    exact ihl.fallback hl htilde ihr hr
  | negate hop _ ih => exact ih.cons (ne_tilde hop)
  | apply hop _ _ ih => exact ih.cons (ne_tilde_of_mem hop)
  | applyPair hop _ hr _ ihl ihr =>
    have hfront := ihl.cons (ne_tilde_of_mem hop)
    exact hfront.append ihr hr.head_ne_tilde
  | die hop _ ih => exact ih.cons (ne_tilde_of_mem hop)
  | probability hop ht =>
    simp only [Expr.fallbacks, Expr.fallbacks_ofLiteral]
    exact accounts_of_ne (by simp [hop, ht])
  | name ht => exact accounts_of_ne (by simp [ht])
  | text ht | number ht =>
    rw [Expr.fallbacks_ofLiteral]
    exact accounts_of_ne (by simp [ht])
  | group hopening _ hclosing ih => exact (ih.cons (ne_tilde hopening)).closed (ne_tilde hclosing)
  | call hword hname hopening _ hlisted hclosing ih =>
    have hfront := ((accounts_listed hlisted ih).cons (ne_tilde hopening)).cons (ne_tilde hname)
    exact (hfront.cons (ne_tilde hword)).closed (ne_tilde hclosing)
  | collection hopening _ hlisted hclosing ih =>
    exact ((accounts_listed hlisted ih).cons (ne_tilde hopening)).closed (ne_tilde hclosing)
  | pair hopening _ hcomma _ hclosing iha ihb =>
    exact ((iha.cons (ne_tilde hopening)).word (ne_tilde hcomma) ihb).closed (ne_tilde hclosing)

theorem Definitions.head_ne_tilde {ts : List Token} {entries : Table Name Expr} (h : Definitions ts entries) :
    ∀ t ∈ ts.head?, t.kind ≠ .tilde := by
  cases h with
  | none => simp
  | cons hword =>
    rintro t ⟨⟩
    exact ne_tilde hword

theorem Definitions.accounts {ts : List Token} {entries : Table Name Expr} (h : Definitions ts entries) :
    Accounts ts (Expr.allFallbacks (entries.map Prod.snd)) := by
  induction h with
  | none => exact accounts_nil
  | @cons _ _ _ _ _ parameters ps _ _ _ _ hword hname hopening hparameters hlisted hclosing hsign hbody hrest ih =>
    have hps : ∀ t ∈ ps, t.kind ≠ .tilde := by
      intro t ht
      rcases hlisted.mem ht with hcomma | ⟨part, hpart, ht⟩
      · exact ne_tilde hcomma
      · obtain ⟨p, hp, rfl⟩ := List.mem_map.1 hpart
        obtain rfl := List.mem_singleton.1 ht
        exact ne_tilde (hparameters t hp)
    have hfront := ((accounts_of_ne hps).cons (ne_tilde hopening)).cons (ne_tilde hname)
    have hdefinition := (hfront.cons (ne_tilde hword)).word (ne_tilde hclosing)
      (hbody.accounts.cons (ne_tilde hsign))
    rw [Nat.zero_add] at hdefinition
    exact hdefinition.append ih hrest.head_ne_tilde

/-- What becomes of the tildes of a script. -/
theorem accounts_of_ofTokens {tokens : List Token} {script : Script} (h : Script.ofTokens tokens = .ok script) :
    Accounts (tokens.takeWhile (·.kind ≠ .endOfInput)) script.fallbacks := by
  obtain ⟨_, hread⟩ := gives_of_ofTokens h
  obtain ⟨before, main, after, last, more, earlier, later, rfl, hlast, hmain, hearlier, hlater, hfunctions, -⟩ :=
    readScript_sound hread
  have hne : ∀ t ∈ before ++ main ++ after, decide (t.kind ≠ .endOfInput) = true := by
    simp only [List.forall_mem_append, decide_eq_true_eq]
    exact ⟨⟨hearlier.ne_end, hmain.ne_end⟩, hlater.ne_end⟩
  have hcount : script.fallbacks = Expr.allFallbacks (earlier.map Prod.snd) + script.expression.fallbacks +
      Expr.allFallbacks (later.map Prod.snd) := by
    rw [Script.fallbacks, hfunctions, List.map_append, Expr.allFallbacks_append]
    omega
  rw [List.takeWhile_append_of_pos hne, List.takeWhile_cons_of_neg (by simp [hlast]), List.append_nil, hcount]
  exact (hearlier.accounts.append hmain.accounts hmain.head_ne_tilde).append hlater.accounts hlater.head_ne_tilde

/-- In a script that is read, each tilde stands between a variable and a die, and there are as many variables with a
fallback as tildes, unless somewhere the fallback after a tilde is followed by a tilde again: then there are fewer. For
a variable takes a tilde whether or not it has a fallback, and keeps the last one only. Any other left operand,
wherever it stands in a script, is a problem at the token behind the right operand. -/
theorem tildes_fill_variables (tokens : List Token) :
    (∀ script, Script.ofTokens tokens = .ok script →
      let body := tokens.takeWhile (·.kind ≠ .endOfInput)
      script.fallbacks ≤ tildes body ∧ (script.fallbacks = tildes body ↔ ¬ Refills body) ∧
      ∀ front tilde back, body = front ++ tilde :: back → tilde.kind = .tilde →
        (∃ before ls name old, front = before ++ ls ∧ Derives .dice ls (.var name old)) ∧
        ∃ rs r after, back = rs ++ after ∧ Derives .die rs r) ∧
    (∀ ls name old tilde rs r last rest, tokens = ls ++ tilde :: rs ++ last :: rest → Derives .dice ls (.var name old) →
      tilde.kind = .tilde → Derives .die rs r → last.kind = .endOfInput →
      Script.ofTokens tokens = .ok ⟨.var name r, []⟩) ∧
    ∀ ms ls l tilde rs r last rest, Entry tokens ms →
      Ahead .expression ms .dice (ls ++ tilde :: rs ++ last :: rest) → Derives .dice ls l → tilde.kind = .tilde →
      Derives .die rs r → (∀ name old, l ≠ .var name old) →
      Script.ofTokens tokens = .error (.problem ⟨.needsVariable, last.position⟩) := by
  refine ⟨?_, ?_, ?_⟩
  · intro script h body
    have haccounts : Accounts body script.fallbacks := accounts_of_ofTokens h
    refine ⟨haccounts.le, ?_, fun front tilde back hbody htilde => ⟨haccounts.left hbody htilde, ?_⟩⟩
    · rw [← haccounts.lt_iff, Nat.not_lt]
      exact ⟨fun heq => heq ▸ Nat.le_refl _, Nat.le_antisymm haccounts.le⟩
    · obtain ⟨rs, r, after, hback, hr, -⟩ := haccounts.right hbody htilde
      exact ⟨rs, r, after, hback, hr⟩
  · rintro ls name old tilde rs r last rest rfl hl htilde hr hlast
    have hmain : Derives .expression (ls ++ tilde :: rs) (.var name r) := (hl.fallback htilde hr).loosest
    rw [← List.append_nil (ls ++ tilde :: rs)]
    exact ofTokens_of_derives hmain .none List.nodup_nil hlast
  · intro ms ls l tilde rs r last rest hentry hahead hl htilde hr hvar
    exact hentry.ofTokens_eq (hahead.rejects (rejects_tilde hl htilde hr hvar))

/-- In `x~y#z` no fallback is lost, and in `(x~y#z~w)` the second tilde comes after a sample. -/
theorem tildes_fill_variables_chain :
    let word (kind : Kind) (lexeme : String) (column : Int) : Token := Word.at ⟨kind, .text lexeme, .null⟩ ⟨1, column⟩
    let x := word .identifier "x" 2
    let y := word .identifier "y" 4
    let z := word .identifier "z" 6
    let sample := [x, word .tilde "~" 3, y, word .hash "#" 5, z]
    let grouped := word .leftParen "(" 1 :: sample ++ [word .tilde "~" 7, word .identifier "w" 8,
      word .rightParen ")" 9, word .endOfInput "" 10]
    let tree := Expr.binary (.var x.lexeme (.var y.lexeme .missing)) (word .hash "#" 5) .deferred
      (.var z.lexeme .missing)
    Script.ofTokens (sample ++ [word .endOfInput "" 7]) = .ok ⟨tree, []⟩ ∧ ¬ Refills sample ∧
      Derives .dice sample tree ∧ Entry grouped grouped ∧ Ahead .expression grouped .dice grouped.tail ∧
      Script.ofTokens grouped = .error (.problem ⟨.needsVariable, .mk (.integer 1) (.integer 9)⟩) := by
  intro word x y z sample grouped tree
  have hname (t : Token) (ht : t.kind = .identifier) : Derives .die [t] (.var t.lexeme .missing) := .tighter (.name ht)
  have hfilled : Derives .dice [x, word .tilde "~" 3, y] (.var x.lexeme (.var y.lexeme .missing)) :=
    .fallback (.tighter (hname x rfl)) rfl (hname y rfl)
  have hsample : Derives .dice sample tree :=
    @Derives.operation .dice .deferred (word .hash "#" 5) _ [z] _ _ hfilled (by decide) rfl (hname z rfl)
  have hstarts : Starts .dice grouped.tail := hsample.starts.append (by decide) _
  have hgrouped : Starts .primary grouped := starts_of_not_name rfl (by decide)
  have hentry : Entry grouped grouped :=
    .expression .none List.nodup_nil (fun hne => absurd rfl hne) (hgrouped.of_le (Nat.zero_le _) (by decide))
  have hopened : Asks .primary ([word .leftParen "(" 1] ++ grouped.tail) .expression grouped.tail :=
    .opened (.group rfl) (hstarts.of_le (Nat.zero_le _) (by decide))
  have hinside : Ahead .primary grouped .dice grouped.tail :=
    .next hopened ((Ahead.here .dice grouped.tail).tighter hstarts (by decide) (Nat.zero_le _))
  have hahead : Ahead .expression grouped .dice grouped.tail := hinside.tighter hgrouped (by decide) (Nat.zero_le _)
  have hread : Script.ofTokens (sample ++ [word .endOfInput "" 7]) = .ok ⟨tree, []⟩ := rfl
  refine ⟨hread, ((tildes_fill_variables _).1 _ hread).2.1.1 rfl, hsample, hentry, hahead, ?_⟩
  exact (tildes_fill_variables grouped).2.2 grouped sample tree (word .tilde "~" 7) [word .identifier "w" 8] _
    (word .rightParen ")" 9) [word .endOfInput "" 10] hentry hahead hsample rfl (hname _ rfl) (by simp [tree])

/-- In `x~1~2` the second tilde is accepted, and the first one is lost. -/
theorem tilde_replaces_fallback :
    let word (kind : Kind) (lexeme : String) (literal : Json) (column : Int) : Token :=
      Word.at ⟨kind, .text lexeme, literal⟩ ⟨1, column⟩
    let tokens := [word .identifier "x" .null 1, word .tilde "~" .null 2, word .integer "1" (.integer 1) 3,
      word .tilde "~" .null 4, word .integer "2" (.integer 2) 5, word .endOfInput "" .null 6]
    ∃ script, Script.ofTokens tokens = .ok script ∧ script.fallbacks = 1 ∧
      tildes (tokens.takeWhile (·.kind ≠ .endOfInput)) = 2 := by
  intro word tokens
  exact ⟨⟨.var (.text "x") (.ofLiteral .number (.integer 2)), []⟩, rfl, rfl, rfl⟩

end Grammar

end DiceScript
