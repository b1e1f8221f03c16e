import DiceScript.Machine.Run
import DiceScript.Proofs.Grammar.Sight
import DiceScript.Proofs.Grammar.Soundness
import DiceScript.Proofs.Grammar.Totality

/-!
# Nothing behind the end is read

Any tokens among which there is an end token are read to a result or to a problem, as a script and as arguments.
Nothing is taken from the first end token on, whatever is read and however deep, so the reading never runs out of
tokens. Nor is anything looked at behind it: the same tokens up to the first end token have the same outcome, and
where the outcome is a problem it is at one of them.
-/

namespace DiceScript

namespace Read

/-- The tokens up to the first end token, with that one. -/
def seen : List Token → List Token
  | [] => []
  | t :: ts => if t.kind = .endOfInput then [t] else t :: seen ts

/-- From one list of tokens reading has come to the other, and has not taken an end token. -/
def Within (ts rest : List Token) : Prop :=
  ∃ taken, ts = taken ++ rest ∧ ∀ t ∈ taken, t.kind ≠ .endOfInput

section

variable {t : Token} {ts : List Token}

theorem seen_of_end (h : t.kind = .endOfInput) (ts : List Token) : seen (t :: ts) = [t] := by
  rw [seen, if_pos h]

theorem seen_of_ne_end (h : t.kind ≠ .endOfInput) (ts : List Token) : seen (t :: ts) = t :: seen ts := by
  rw [seen, if_neg h]

theorem seen_cons (t : Token) (ts : List Token) : ∃ later, seen (t :: ts) = t :: later := by
  by_cases h : t.kind = .endOfInput
  · exact ⟨[], seen_of_end h ts⟩
  · exact ⟨seen ts, seen_of_ne_end h ts⟩

theorem mem_seen (t : Token) (ts : List Token) : t ∈ seen (t :: ts) := by
  obtain ⟨later, hlater⟩ := seen_cons t ts
  simp [hlater]

theorem Ending.seen (h : Ending ts) : Ending (seen ts) := by
  induction ts with
  | nil => exact h
  | cons t ts ih =>
    by_cases ht : t.kind = .endOfInput
    · exact ⟨t, by simp [seen_of_end ht], ht⟩
    · obtain ⟨last, hlast, hkind⟩ := ih (h.tail ht)
      exact ⟨last, by simp [seen_of_ne_end ht, hlast], hkind⟩

theorem Ending.of_seen (h : Ending (Read.seen ts)) : Ending ts := by
  induction ts with
  | nil => exact h
  | cons t ts ih =>
    by_cases ht : t.kind = .endOfInput
    · exact ⟨t, List.mem_cons_self, ht⟩
    · rw [seen_of_ne_end ht] at h
      obtain ⟨last, hlast, hkind⟩ := ih (h.tail ht)
      exact ⟨last, List.mem_cons_of_mem t hlast, hkind⟩

/-- What is seen of a list cannot be told from the list. -/
theorem same_seen {place : Mark → Prop} (h : ∀ t ∈ seen ts, place t.position) : Same place ts (seen ts) := by
  induction ts with
  | nil => exact .nil
  | cons t ts ih =>
    by_cases ht : t.kind = .endOfInput
    · rw [seen_of_end ht] at h ⊢
      exact .last ht (h t (List.mem_singleton_self t)) ts []
    · rw [seen_of_ne_end ht] at h ⊢
      rw [List.forall_mem_cons] at h
      exact .next h.1 (ih h.2)

theorem Within.cons {rest : List Token} (ht : t.kind ≠ .endOfInput) (h : Within ts rest) : Within (t :: ts) rest := by
  obtain ⟨taken, rfl, htaken⟩ := h
  exact ⟨t :: taken, rfl, List.forall_mem_cons.2 ⟨ht, htaken⟩⟩

end

end Read

open Read

namespace Ladder

/-- Whatever goal is read for, to whatever depth, the tokens do not run out: they do not at a depth that is enough. -/
theorem readGoal_ne_exhausted (fuel : Nat) (goal : Goal) {ts : List Token} (h : Ending ts) :
    readGoal fuel goal ts ≠ .error .exhausted := by
  have hsettled : Settles (readGoal (Grammar.depth goal ts + 1) goal) ts goal.taken :=
    settles_readGoal goal h (Nat.lt_succ_self _)
  have hsame : Same (fun _ => True) ts ts := same_self fun _ _ => trivial
  have hmeet := agree_readGoal fuel (Grammar.depth goal ts + 1) goal ts ts hsame
  unfold Settles at hsettled
  generalize readGoal (Grammar.depth goal ts + 1) goal ts = found at hsettled hmeet
  intro hread
  rw [hread] at hmeet
  cases hmeet <;> cases hsettled

/-- Whatever level is read, to whatever depth, no end token is taken. -/
theorem within_readGoal {fuel : Nat} {level : Level} {ts rest : List Token} {e : Expr}
    (h : Gives (readGoal fuel (.at level)) ts e rest) : Within ts rest := by
  obtain ⟨used, hused, hderives, -⟩ := Grammar.Sound.at (Grammar.readGoal_sound fuel) h
  exact ⟨used, hused, hderives.ne_end⟩

end Ladder

namespace Script

/-- A script is read up to the first end token. -/
theorem within_readScript {fuel : Nat} {ts rest : List Token} {script : Script}
    (h : Gives (readScript fuel) ts script rest) : Within ts rest ∧ ∃ last ∈ rest.head?, last.kind = .endOfInput := by
  simp only [readScript, gives_bind] at h
  obtain ⟨earlier, ts₁, hearlier, e, ts₂, he, functions, ts₃, hlater, last, ts₄, hpeek, hend⟩ := h
  obtain ⟨before, _, rfl, hbefore, -, hdistinct⟩ := Grammar.readFunctions_sound hearlier List.nodup_nil
  obtain ⟨main, rfl, hmain, -⟩ := Grammar.Sound.at (Grammar.readGoal_sound fuel) he
  obtain ⟨after, _, rfl, hafter, -, -⟩ := Grammar.readFunctions_sound hlater hdistinct
  obtain ⟨hlast, rfl⟩ := gives_peek.1 hpeek
  split at hend
  · next hkind =>
    obtain ⟨-, rfl⟩ := gives_pure.1 hend
    refine ⟨⟨before ++ (main ++ after), by simp, ?_⟩, last, hlast, hkind⟩
    simp only [List.forall_mem_append]
    exact ⟨hbefore.ne_end, hmain.ne_end, hafter.ne_end⟩
  · exact absurd hend not_gives_fail

/-- What is seen of tokens decides what script they are, and a problem is at a token that is seen. -/
theorem ofTokens_seen {tokens : List Token} (h : Ending tokens) :
    ofTokens (seen tokens) = ofTokens tokens ∧
      ((∃ script, ofTokens tokens = .ok script) ∨
        ∃ e, ofTokens tokens = .error (.problem e) ∧ ∃ t ∈ seen tokens, e.position = t.position) := by
  have hsame : Same (fun p => ∃ t ∈ seen tokens, p = t.position) tokens (seen tokens) :=
    same_seen fun t ht => ⟨t, ht, rfl⟩
  have hmeet := agree_readScript (enoughFuel tokens) (enoughFuel (seen tokens)) tokens (seen tokens) hsame
  have hsettled := ofTokens_settled h
  have hsettled' := ofTokens_settled h.seen
  unfold ofTokens StateT.run at *
  generalize readScript (enoughFuel tokens) tokens = found at *
  generalize readScript (enoughFuel (seen tokens)) (seen tokens) = found' at *
  cases hmeet with
  | success => exact ⟨rfl, .inl ⟨_, rfl⟩⟩
  | problem hplace => exact ⟨rfl, .inr ⟨_, rfl, hplace⟩⟩
  -- There is an end token and the depth is enough, so neither reading gives up.
  | exhausted | left => rcases hsettled with ⟨_, hnot⟩ | ⟨_, hnot⟩ <;> cases hnot
  | right => rcases hsettled' with ⟨_, hnot⟩ | ⟨_, hnot⟩ <;> cases hnot

end Script

namespace Argument

theorem ne_end_of_kind {t : Token} {kind : Kind} (h : ¬t.kind ≠ kind) (hkind : kind ≠ .endOfInput) :
    t.kind ≠ .endOfInput := by
  rw [Decidable.not_not.1 h]
  exact hkind

/-- What is seen of tokens decides what arguments they are. -/
theorem ofTokens_seen (tokens : List Token) : ofTokens (seen tokens) = ofTokens tokens := by
  fun_induction ofTokens tokens with
  | case1 => rfl
  | case2 name rest hname => rw [seen_of_end hname, ofTokens, if_pos hname]
  | case3 name rest hname hidentifier =>
    rw [seen_of_ne_end hname, ofTokens.eq_def]
    exact (if_neg hname).trans (if_pos hidentifier)
  | case4 name hname hidentifier => rw [seen_of_ne_end hname, seen, ofTokens, if_neg hname, if_neg hidentifier]
  | case5 name hname hidentifier sign rest hsign =>
    obtain ⟨later, hlater⟩ := seen_cons sign rest
    rw [seen_of_ne_end hname, hlater, ofTokens.eq_def]
    exact (if_neg hname).trans ((if_neg hidentifier).trans (if_pos hsign))
  | case6 name hname hidentifier sign hsign =>
    have hsign' := ne_end_of_kind hsign (by decide)
    rw [seen_of_ne_end hname, seen_of_ne_end hsign', seen, ofTokens, if_neg hname, if_neg hidentifier]
    exact if_neg hsign
  | case7 name hname hidentifier sign hsign number rest hnumber =>
    obtain ⟨later, hlater⟩ := seen_cons number rest
    have hsign' := ne_end_of_kind hsign (by decide)
    rw [seen_of_ne_end hname, seen_of_ne_end hsign', hlater, ofTokens, if_neg hname, if_neg hidentifier]
    exact (if_neg hsign).trans (if_pos hnumber)
  | case8 name hname hidentifier sign hsign number rest hnumber ih =>
    have hsign' := ne_end_of_kind hsign (by decide)
    have hnumber' := ne_end_of_kind hnumber (by decide)
    rw [seen_of_ne_end hname, seen_of_ne_end hsign', seen_of_ne_end hnumber', ofTokens, if_neg hname,
      if_neg hidentifier, ← ih]
    exact (if_neg hsign).trans (if_neg hnumber)

/-- Tokens that hold an end token are arguments of three tokens each up to the first end token, or one of them is
where the arguments are malformed. -/
theorem ofTokens_ending {tokens : List Token} (h : Ending tokens) :
    (∃ arguments rest, ofTokens tokens = .ok arguments ∧ Within tokens rest ∧
      (∃ last ∈ rest.head?, last.kind = .endOfInput) ∧ tokens.length = 3 * arguments.length + rest.length) ∨
    ∃ t ∈ seen tokens, ofTokens tokens = malformed t := by
  have hnone : ¬Ending [] := fun h => absurd h.length_pos (by simp)
  fun_induction ofTokens tokens with
  | case1 => exact absurd h hnone
  | case2 name rest hname =>
    exact .inl ⟨[], name :: rest, rfl, ⟨[], rfl, by simp⟩, ⟨name, rfl, hname⟩, by simp⟩
  | case3 name rest hname => exact .inr ⟨name, by simp [seen_of_ne_end hname], rfl⟩
  | case4 name hname => exact absurd (h.tail hname) hnone
  | case5 name hname _ sign rest =>
    exact .inr ⟨sign, by simp [seen_of_ne_end hname, mem_seen], rfl⟩
  | case6 name hname _ sign hsign => exact absurd ((h.tail hname).tail (ne_end_of_kind hsign (by decide))) hnone
  | case7 name hname _ sign hsign number rest =>
    have hsign' := ne_end_of_kind hsign (by decide)
    exact .inr ⟨number, by simp [seen_of_ne_end hname, seen_of_ne_end hsign', mem_seen], rfl⟩
  | case8 name hname _ sign hsign number rest hnumber ih =>
    have hsign' := ne_end_of_kind hsign (by decide)
    have hnumber' := ne_end_of_kind hnumber (by decide)
    rcases ih (((h.tail hname).tail hsign').tail hnumber') with
      ⟨arguments, later, hfound, hwithin, hlast, hlength⟩ | ⟨t, ht, hmalformed⟩
    · refine .inl ⟨_, later, by rw [hfound]; rfl, ((hwithin.cons hnumber').cons hsign').cons hname, hlast, ?_⟩
      simp only [List.length_cons]
      omega
    · refine .inr ⟨t, ?_, ?_⟩
      · simp [seen_of_ne_end hname, seen_of_ne_end hsign', seen_of_ne_end hnumber', ht]
      · rw [hmalformed]
        rfl

end Argument

/-- Whatever tokens there are, if an end token is among them, then reading them as a script and reading them as
arguments both end with a result and no report, or with the one report of a problem at a token up to the first end
token. For no goal and at no depth does reading run out of tokens, and at no level does it take an end token: a
script is read just up to the first one, and so are arguments, of three tokens each. What comes behind it makes no
difference. -/
theorem reading_ends_at_first_end {tokens : List Token} (h : Ending tokens) :
    (∀ m, (∃ script, Eval.ofRead (Script.ofTokens tokens) m = .ok (.ok script) m) ∨
      ∃ e, (∃ t ∈ seen tokens, e.position = t.position) ∧
        Eval.ofRead (Script.ofTokens tokens) m = .ok (.error (.parse e)) (m.reported (.parse e))) ∧
    (∀ m, (∃ arguments, Eval.ofRead (Argument.ofTokens tokens) m = .ok (.ok arguments) m) ∨
      ∃ e, (∃ t ∈ seen tokens, e.position = t.position) ∧
        Eval.ofRead (Argument.ofTokens tokens) m = .ok (.error (.parse e)) (m.reported (.parse e))) ∧
    (∀ fuel goal ts, Ending ts → Ladder.readGoal fuel goal ts ≠ .error .exhausted) ∧
    (∀ fuel level ts e rest, Gives (Ladder.readGoal fuel (.at level)) ts e rest → Within ts rest) ∧
    (∀ script, Script.ofTokens tokens = .ok script →
      ∃ rest, Gives (Script.readScript (Script.enoughFuel tokens)) tokens script rest ∧ Within tokens rest ∧
        ∃ last ∈ rest.head?, last.kind = .endOfInput) ∧
    (∀ arguments, Argument.ofTokens tokens = .ok arguments →
      ∃ rest, Within tokens rest ∧ (∃ last ∈ rest.head?, last.kind = .endOfInput) ∧
        tokens.length = 3 * arguments.length + rest.length) ∧
    ∀ others, seen others = seen tokens →
      Script.ofTokens others = Script.ofTokens tokens ∧ Argument.ofTokens others = Argument.ofTokens tokens := by
  have hscript := (Script.ofTokens_seen h).2
  refine ⟨fun m => ?_, fun m => ?_, fun fuel goal _ => Ladder.readGoal_ne_exhausted fuel goal,
    fun _ _ _ _ _ => Ladder.within_readGoal, ?_, ?_, ?_⟩
  · rcases hscript with ⟨script, hread⟩ | ⟨e, hread, hplace⟩
    · exact .inl ⟨script, by rw [hread]; rfl⟩
    · exact .inr ⟨e, hplace, by rw [hread]; rfl⟩
  · rcases Argument.ofTokens_ending h with ⟨arguments, -, hread, -⟩ | ⟨t, ht, hread⟩
    · exact .inl ⟨arguments, by rw [hread]; rfl⟩
    · exact .inr ⟨⟨.malformedArgument, t.position⟩, ⟨t, ht, rfl⟩, by rw [hread]; rfl⟩
  · intro script hread
    obtain ⟨rest, hgives⟩ := Grammar.gives_of_ofTokens hread
    exact ⟨rest, hgives, Script.within_readScript hgives⟩
  · intro arguments hread
    rcases Argument.ofTokens_ending h with ⟨found, rest, hfound, hrest⟩ | ⟨t, -, hmalformed⟩
    · cases hread.symm.trans hfound
      exact ⟨rest, hrest⟩
    · cases hread.symm.trans hmalformed
  · intro others hothers
    have hending : Ending others := .of_seen (hothers ▸ h.seen)
    constructor
    · rw [← (Script.ofTokens_seen hending).1, hothers, (Script.ofTokens_seen h).1]
    · rw [← Argument.ofTokens_seen others, hothers, Argument.ofTokens_seen]

/-- A definition that lacks its body, with tokens behind the end that would be one. -/
theorem reading_ends_at_first_end_unfinished :
    let word (kind : Kind) (lexeme : String) (column : Int) : Token := Word.at ⟨kind, .text lexeme, .null⟩ ⟨1, column⟩
    let tokens := [word .wordFunction "function" 1, word .identifier "f" 10, word .leftParen "(" 11,
      word .rightParen ")" 12, word .equal "=" 13, word .endOfInput "" 14]
    Ending (tokens ++ tokens) ∧ Script.ofTokens (tokens ++ tokens) = Script.ofTokens tokens ∧
      Script.ofTokens tokens = .error (.problem ⟨.noOperand, .mk (.integer 1) (.integer 14)⟩) := by
  intro word tokens
  have hend : Ending (tokens ++ tokens) := ⟨word .endOfInput "" 14, by decide, rfl⟩
  have hsame := (reading_ends_at_first_end hend).2.2.2.2.2.2 tokens rfl
  exact ⟨hend, hsame.1.symm, rfl⟩

end DiceScript
