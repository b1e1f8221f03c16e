import DiceScript.Token.Lexer

/-!
# Scanned words

A word that was scanned is spelt by a text. If it is a number, a real or a string, it carries a literal of
that sort. Both hold of what is taken at one character, so they hold of all tokens of a text.
-/

namespace DiceScript

structure Word.Scanned (w : Word) : Prop where
  spelt : w.lexeme.isText = true
  number : w.kind = .integer → ∃ n, w.literal = .integer n
  real : w.kind = .real → ∃ x, w.literal = .real x
  text : w.kind = .string → ∃ s, w.literal = .text s

namespace Lexer

def literalKinds : List Kind := [.integer, .real, .string]

theorem scanned_of_kind {w : Word} (hspelt : w.lexeme.isText = true) (hkind : w.kind ∉ literalKinds) :
    w.Scanned := by
  refine ⟨hspelt, ?_, ?_, ?_⟩ <;> intro h <;> rw [h] at hkind <;> exact absurd (by decide) hkind

theorem single_scanned {kind : Kind} (spelling : List Char) (hkind : kind ∉ literalKinds) :
    ∀ w ∈ (single kind spelling .null).words, w.Scanned := by
  intro w hw
  obtain rfl := List.mem_singleton.1 hw
  exact scanned_of_kind rfl hkind

theorem punctuation?_not_literal {c : Char} {kind : Kind} (h : punctuation? c = some kind) :
    kind ∉ literalKinds := by
  unfold punctuation? at h
  split at h <;> cases h <;> decide

theorem wordKind_not_literal (letters : String) : wordKind letters ∉ literalKinds := by
  unfold wordKind
  split <;> decide

theorem operator?_scanned {c : Char} {rest : List Char} {found : Munch}
    (h : operator? c rest = some (.ok found)) : ∀ w ∈ found.words, w.Scanned := by
  unfold operator? at h
  split at h <;> cases h <;> exact single_scanned _ (by decide)

theorem number_scanned (c : Char) (rest : List Char) : ∀ w ∈ (number c rest).words, w.Scanned := by
  have hinteger (spelling : List Char) (n : Int) :
      ∀ w ∈ (single .integer spelling (.integer n)).words, w.Scanned := by
    intro w hw
    obtain rfl := List.mem_singleton.1 hw
    exact ⟨rfl, fun _ => ⟨n, rfl⟩, nofun, nofun⟩
  have hreal (spelling : List Char) (x : Binary64) :
      ∀ w ∈ (single .real spelling (.real x)).words, w.Scanned := by
    intro w hw
    obtain rfl := List.mem_singleton.1 hw
    exact ⟨rfl, nofun, fun _ => ⟨x, rfl⟩, nofun⟩
  unfold number
  split
  · split
    · split
      · exact hinteger _ _
      · exact hreal _ _
    · exact hinteger _ _
  · exact hinteger _ _

theorem pieces_scanned (p : Pieces) : ∀ w ∈ p.words, w.Scanned := by
  have htext (piece : List Char) : (Pieces.textWord piece).Scanned :=
    ⟨rfl, nofun, nofun, fun _ => ⟨_, rfl⟩⟩
  have hoperator (op : LayoutOp) : (Pieces.operatorWord op).Scanned :=
    scanned_of_kind rfl (by cases op <;> decide)
  intro w hw
  simp only [Pieces.words, List.mem_cons, List.mem_flatMap, List.not_mem_nil, or_false] at hw
  rcases hw with rfl | ⟨part, -, rfl | rfl⟩
  · exact htext _
  · exact hoperator _
  · exact htext _

theorem stringLiteral_scanned {rest : List Char} {found : Munch}
    (h : stringLiteral rest = .ok found) : ∀ w ∈ found.words, w.Scanned := by
  simp only [stringLiteral] at h
  split at h
  · cases h
    exact pieces_scanned _
  · cases h

/-- The words that start at a character. -/
theorem munch_scanned {c : Char} {rest : List Char} {found : Munch} (h : munch c rest = .ok found) :
    ∀ w ∈ found.words, w.Scanned := by
  have hsilent (extra : Nat) : ∀ w ∈ (silent extra).words, w.Scanned := by simp [silent]
  unfold munch at h
  split at h
  · next kind hkind =>
    cases h
    exact single_scanned _ (punctuation?_not_literal hkind)
  · split at h
    · next hoperator => exact operator?_scanned (h ▸ hoperator)
    · split at h
      · exact stringLiteral_scanned h
      · split at h
        · cases h
          exact hsilent _
        · split at h
          · cases h
            exact hsilent _
          · split at h
            · cases h
              exact number_scanned c rest
            · split at h
              · cases h
                exact single_scanned _ (wordKind_not_literal _)
              · cases h

theorem scanFrom_scanned {p : Position} {taken : Nat} {cs : List Char} {tokens : List Token}
    (h : scanFrom p taken cs = .ok tokens) : ∀ t ∈ tokens, t.toWord.Scanned := by
  induction cs generalizing p taken tokens with
  | nil =>
    cases h
    intro t ht
    obtain rfl := List.mem_singleton.1 ht
    have hend : Kind.endOfInput ∉ literalKinds := by decide
    exact scanned_of_kind rfl hend
  | cons c rest ih =>
    cases taken with
    | succ taken => exact ih h
    | zero =>
      simp only [scanFrom] at h
      split at h
      · cases h
      · next found hfound =>
        cases hrest : scanFrom (p.next c) found.extra rest with
        | error e =>
          rw [hrest] at h
          cases h
        | ok others =>
          rw [hrest] at h
          cases h
          intro t ht
          rcases List.mem_append.1 ht with ht | ht
          · obtain ⟨w, hw, rfl⟩ := List.mem_map.1 ht
            exact munch_scanned hfound w hw
          · exact ih hrest t ht

end Lexer

theorem scan_scanned {source : String} {tokens : List Token} (h : scan source = .ok tokens) :
    ∀ t ∈ tokens, t.toWord.Scanned := by
  unfold scan at h
  split at h
  · cases h
  · exact Lexer.scanFrom_scanned h

end DiceScript
