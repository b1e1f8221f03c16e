import Mathlib.Data.List.TakeWhile
import DiceScript.Proofs.Grammar.Totality

/-!
# Assignments

Arguments are assignments `name = number`, any number of them one after the other, up to the first end token. Tokens
that are not have a first one that does not belong where it stands, and there the reading stops. An end token belongs
between two assignments and nowhere else, so assignments that break off go astray at it.
-/

namespace DiceScript

structure Assignment where
  name : Token
  sign : Token
  number : Token
  isName : name.kind = .identifier
  isSign : sign.kind = .equal
  isNumber : number.kind = .integer

namespace Assignment

def tokens (a : Assignment) : List Token := [a.name, a.sign, a.number]

def argument (a : Assignment) : Argument := ⟨a.name.lexeme, a.number.literal⟩

/-- The tokens before the first end token are these assignments. -/
def Make (assignments : List Assignment) (ts : List Token) : Prop :=
  ts.takeWhile (·.kind ≠ .endOfInput) = assignments.flatMap tokens

def kindAt (place : Nat) : Kind :=
  match place % 3 with
  | 0 => .identifier
  | 1 => .equal
  | _ => .integer

def Astray (ts : List Token) (t : Token) : Prop :=
  ∃ before after, ts = before ++ t :: after ∧ (∀ place u, before[place]? = some u → u.kind = kindAt place) ∧
    t.kind ≠ kindAt before.length ∧ (before.length % 3 = 0 → t.kind ≠ .endOfInput)

theorem kindAt_add_three (place : Nat) : kindAt (place + 3) = kindAt place := by
  simp only [kindAt, Nat.add_mod_right]

section

variable {ts : List Token} {t : Token} {assignments : List Assignment}

theorem make_nil (ht : t.kind = .endOfInput) (ts : List Token) : Make [] (t :: ts) :=
  List.takeWhile_cons_of_neg (by simp [ht])

theorem make_cons_iff {a : Assignment} :
    Make (a :: assignments) (a.name :: a.sign :: a.number :: ts) ↔ Make assignments ts := by
  have hkinds : a.name.kind ≠ .endOfInput ∧ a.sign.kind ≠ .endOfInput ∧ a.number.kind ≠ .endOfInput := by
    simp [a.isName, a.isSign, a.isNumber]
  unfold Make
  rw [List.takeWhile_cons_of_pos (by simp [hkinds]), List.takeWhile_cons_of_pos (by simp [hkinds]),
    List.takeWhile_cons_of_pos (by simp [hkinds]), List.flatMap_cons]
  exact List.append_right_inj a.tokens

/-- What is made of assignments begins with the tokens of the first one. -/
theorem Make.exists_eq {a : Assignment} (h : Make (a :: assignments) ts) :
    ∃ rest, ts = a.name :: a.sign :: a.number :: rest := by
  have hfront : a.tokens <+: ts := by
    refine List.IsPrefix.trans ?_ <| List.takeWhile_prefix (·.kind ≠ .endOfInput)
    rw [show ts.takeWhile _ = _ from h, List.flatMap_cons]
    exact List.prefix_append _ _
  obtain ⟨rest, rfl⟩ := hfront
  exact ⟨rest, rfl⟩

theorem Astray.cons (h : Astray ts t) (a : Assignment) : Astray (a.name :: a.sign :: a.number :: ts) t := by
  obtain ⟨before, after, rfl, hbefore, ht, hend⟩ := h
  refine ⟨a.name :: a.sign :: a.number :: before, after, rfl, ?_, ?_, ?_⟩
  · intro place u hu
    rcases place with _ | _ | _ | place
    · exact Option.some.inj hu ▸ a.isName
    · exact Option.some.inj hu ▸ a.isSign
    · exact Option.some.inj hu ▸ a.isNumber
    · exact (hbefore place u hu).trans (kindAt_add_three place).symm
  · exact (kindAt_add_three before.length).symm ▸ ht
  · exact fun hplace => hend (by simpa [Nat.add_assoc] using hplace)

theorem ending_rest (a : Assignment) (h : Read.Ending (a.name :: a.sign :: a.number :: ts)) : Read.Ending ts := by
  have hkinds : a.name.kind ≠ .endOfInput ∧ a.sign.kind ≠ .endOfInput ∧ a.number.kind ≠ .endOfInput := by
    simp [a.isName, a.isSign, a.isNumber]
  exact ((h.tail hkinds.1).tail hkinds.2.1).tail hkinds.2.2

/-- Tokens with an end token are assignments up to it, or one of them goes astray. -/
theorem make_or_astray (hend : Read.Ending ts) : (∃ assignments, Make assignments ts) ∨ ∃ t, Astray ts t := by
  have hnone : ¬Read.Ending [] := fun h => absurd h.length_pos (by simp)
  have hkind {t : Token} {kind : Kind} (h : ¬t.kind ≠ kind) (hne : kind ≠ .endOfInput) : t.kind ≠ .endOfInput := by
    rw [not_not.1 h]
    exact hne
  fun_induction Argument.ofTokens ts with
  | case1 => exact absurd hend hnone
  | case2 name rest hname => exact .inl ⟨[], make_nil hname rest⟩
  | case3 name rest hname hidentifier =>
    exact .inr ⟨name, [], rest, rfl, by simp, hidentifier, fun _ => hname⟩
  | case4 name hname => exact absurd (hend.tail hname) hnone
  | case5 name hname hidentifier sign rest hsign =>
    refine .inr ⟨sign, [name], rest, rfl, ?_, hsign, by simp⟩
    intro place u hu
    rcases place with _ | place
    · exact Option.some.inj hu ▸ not_not.1 hidentifier
    · cases hu
  | case6 name hname hidentifier sign hsign =>
    exact absurd ((hend.tail hname).tail (hkind hsign (by decide))) hnone
  | case7 name hname hidentifier sign hsign number rest hnumber =>
    refine .inr ⟨number, [name, sign], rest, rfl, ?_, hnumber, by simp⟩
    intro place u hu
    rcases place with _ | _ | place
    · exact Option.some.inj hu ▸ not_not.1 hidentifier
    · exact Option.some.inj hu ▸ not_not.1 hsign
    · cases hu
  | case8 name hname hidentifier sign hsign number rest hnumber ih =>
    let a : Assignment := ⟨name, sign, number, not_not.1 hidentifier, not_not.1 hsign, not_not.1 hnumber⟩
    rcases ih (a.ending_rest hend) with ⟨assignments, hmake⟩ | ⟨t, hastray⟩
    · exact .inl ⟨a :: assignments, make_cons_iff.2 hmake⟩
    · exact .inr ⟨t, hastray.cons a⟩

end

end Assignment

namespace Argument

open Assignment

variable {ts : List Token} {t : Token} {assignments : List Assignment}

theorem ofTokens_cons (a : Assignment) (ts : List Token) :
    ofTokens (a.name :: a.sign :: a.number :: ts) = (ofTokens ts).map (a.argument :: ·) := by
  rw [ofTokens.eq_def]
  simp [a.isName, a.isSign, a.isNumber, Assignment.argument]

/-- Assignments are read as what they set. -/
theorem ofTokens_of_make (hend : Read.Ending ts) (h : Make assignments ts) :
    ofTokens ts = .ok (assignments.map Assignment.argument) := by
  induction assignments generalizing ts with
  | nil =>
    cases ts with
    | nil => exact absurd hend.length_pos (by simp)
    | cons t ts =>
      have ht : t.kind = .endOfInput := by
        by_contra ht
        rw [Make, List.takeWhile_cons_of_pos (by simpa using ht)] at h
        cases h
      rw [ofTokens.eq_def]
      exact if_pos ht
  | cons a assignments ih =>
    obtain ⟨rest, rfl⟩ := h.exists_eq
    rw [ofTokens_cons, ih (a.ending_rest hend) (make_cons_iff.1 h)]
    rfl

/-- The reading stops at the first token that goes astray. -/
theorem ofTokens_of_astray (h : Astray ts t) : ofTokens ts = malformed t := by
  obtain ⟨before, after, rfl, hbefore, ht, hend⟩ := h
  -- Whole assignments are passed over, so the induction is on how much comes before.
  induction hsize : before.length using Nat.strongRecOn generalizing before with
  | ind size ih =>
    rcases before with _ | ⟨name, _ | ⟨sign, _ | ⟨number, before⟩⟩⟩
    · rw [List.nil_append, ofTokens.eq_def]
      exact (if_neg (hend rfl)).trans (if_pos ht)
    · have hname : name.kind = .identifier := hbefore 0 name rfl
      rw [List.cons_append, List.nil_append, ofTokens.eq_def]
      simp [hname, show t.kind ≠ .equal from ht]
    · have hname : name.kind = .identifier := hbefore 0 name rfl
      have hsign : sign.kind = .equal := hbefore 1 sign rfl
      rw [List.cons_append, List.cons_append, List.nil_append, ofTokens.eq_def]
      simp [hname, hsign, show t.kind ≠ .integer from ht]
    · let a : Assignment := ⟨name, sign, number, hbefore 0 name rfl, hbefore 1 sign rfl, hbefore 2 number rfl⟩
      have hrest : ofTokens (before ++ t :: after) = malformed t := by
        refine ih before.length (by simp only [← hsize, List.length_cons]; omega) before ?_ ?_ ?_ rfl
        · exact fun place u hu => (hbefore (place + 3) u hu).trans (kindAt_add_three place)
        · exact kindAt_add_three before.length ▸ ht
        · exact fun hplace => hend (by simpa [Nat.add_assoc] using hplace)
      have hcons := ofTokens_cons a (before ++ t :: after)
      rw [hrest] at hcons
      exact hcons

end Argument

end DiceScript
