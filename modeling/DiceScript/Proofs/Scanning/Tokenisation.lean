import DiceScript.Proofs.Scanning.Words
import Mathlib.Data.List.Basic
import Mathlib.Data.List.TakeWhile

/-!
# Nothing of a text is lost

A text that scans is made of stretches that stand for words, with gaps of blanks and comments before, between
and after them. The tokens are the words of the stretches in their order, each at the place where its stretch
begins, and the token for the end of input at the place where the text ends. `Tokenised` says this without
reference to scanning, with places found by counting; the main theorem says that scanning yields nothing else.
-/

namespace DiceScript

/-- The place after a text, found by counting its lines and the characters of the last one. -/
def Position.counted (before : List Char) : Position :=
  ⟨1 + before.count '\n', 1 + (before.reverse.takeWhile (· ≠ '\n')).length⟩

namespace Position

theorem counted_snoc (before : List Char) (c : Char) : counted (before ++ [c]) = (counted before).next c := by
  by_cases hc : c = '\n'
  · subst hc
    have hline : (before ++ ['\n']).count '\n' = before.count '\n' + 1 := by simp
    have hcolumn : ((before ++ ['\n']).reverse.takeWhile (· ≠ '\n')).length = 0 := by simp
    rw [next, if_pos rfl]
    simp only [counted, hline, hcolumn, Position.mk.injEq]
    omega
  · have hline : (before ++ [c]).count '\n' = before.count '\n' := by simp [hc]
    have hcolumn : ((before ++ [c]).reverse.takeWhile (· ≠ '\n')).length =
        (before.reverse.takeWhile (· ≠ '\n')).length + 1 := by simp [hc]
    rw [next, if_neg hc]
    simp only [counted, hline, hcolumn, Position.mk.injEq, true_and]
    omega

/-- Advancing over a text counts its characters. -/
theorem after_counted (before cs : List Char) : (counted before).after cs = counted (before ++ cs) := by
  induction cs generalizing before with
  | nil => simp
  | cons c cs ih =>
    rw [after_cons, ← counted_snoc, ih, List.append_assoc]
    rfl

end Position

/-! The words of a string literal. -/

def LayoutOp.all : List LayoutOp := [.beside, .aboveLeft, .aboveRight, .aboveCentre]

def LayoutOp.ofSpelling? (piece : String) : Option LayoutOp :=
  all.find? fun op => String.ofList op.spelling = piece

theorem LayoutOp.length_spelling (op : LayoutOp) : op.spelling.length = 2 := by
  cases op <;> rfl

namespace Pieces

/-- The word of a piece of a string literal: an operator if it spells one, and else the piece in quotes. -/
def wordOf (piece : String) : Word :=
  match LayoutOp.ofSpelling? piece with
  | some op => ⟨op.kind, .text piece, .null⟩
  | none => ⟨.string, .text ("\"" ++ piece ++ "\""), .text piece⟩

theorem wordOf_spelling (op : LayoutOp) : wordOf (String.ofList op.spelling) = operatorWord op := by
  cases op <;> decide

theorem wordOf_of_ne_spelling {piece : List Char} (h : ∀ op : LayoutOp, piece ≠ op.spelling) :
    wordOf (String.ofList piece) = textWord piece := by
  have hnone : LayoutOp.ofSpelling? (String.ofList piece) = none := by
    rw [LayoutOp.ofSpelling?, List.find?_eq_none]
    intro op _ hop
    have hspelling := congrArg String.toList (of_decide_eq_true hop)
    rw [String.toList_ofList, String.toList_ofList] at hspelling
    exact h op hspelling.symm
  rw [wordOf, hnone]
  rfl

/-- The first piece of a text that is not cut at once begins as the text does. -/
theorem ofText_cons_fst (b : Char) (rest : List Char) :
    (ofText (b :: rest)).1 = [] ∨ ∃ tail, (ofText (b :: rest)).1 = b :: tail := by
  cases rest with
  | nil => exact .inr ⟨[], rfl⟩
  | cons c rest =>
    rw [ofText]
    split
    · exact .inl rfl
    · exact .inr ⟨_, rfl⟩

/-- No piece between the operators is itself an operator. -/
theorem ofText_ne_spelling (cs : List Char) :
    (∀ op : LayoutOp, (ofText cs).1 ≠ op.spelling) ∧
      ∀ part ∈ (ofText cs).2, ∀ op : LayoutOp, part.2 ≠ op.spelling := by
  have hlength {piece : List Char} (h : piece.length ≠ 2) (op : LayoutOp) : piece ≠ op.spelling := by
    rintro rfl
    exact h op.length_spelling
  fun_induction ofText cs with
  | case1 => exact ⟨hlength (by decide), by simp⟩
  | case2 a => exact ⟨hlength (by simp), by simp⟩
  | case3 a b rest op spelt cut ih =>
    refine ⟨hlength (by simp), ?_⟩
    rw [List.forall_mem_cons]
    exact ih
  | case4 a b rest spelt cut ih =>
    refine ⟨fun op hop => ?_, ih.2⟩
    have hlength : cut.1.length = 1 := by
      have h := congrArg List.length hop
      rw [op.length_spelling, List.length_cons] at h
      omega
    rcases ofText_cons_fst b rest with hfirst | ⟨tail, hfirst⟩
    · rw [hfirst] at hlength
      cases hlength
    · rw [hfirst, List.length_cons, Nat.add_eq_right, List.length_eq_zero_iff] at hlength
      subst hlength
      rw [hfirst] at hop
      rw [LayoutOp.ofChars?_eq_some_iff.2 hop.symm] at spelt
      cases spelt

theorem words_ofText (cs : List Char) : (ofText cs).words = (ofText cs).toList.map wordOf := by
  obtain ⟨hfirst, hparts⟩ := ofText_ne_spelling cs
  rw [words, toList, List.map_cons, wordOf_of_ne_spelling hfirst, List.map_flatMap]
  congr 1
  refine List.flatMap_congr fun part hpart => ?_
  rw [List.map_cons, List.map_cons, List.map_nil, wordOf_spelling, wordOf_of_ne_spelling (hparts part hpart)]

end Pieces

/-! Stretches and gaps. -/

def blanks : List Char := [' ', '\r', '\t', '\n']

/-- A gap in front of the rest of a text: blanks and comments. A comment runs from a backslash up to the next
line break, or to the end of the text. -/
inductive Gap : List Char → List Char → Prop
  | none (rest : List Char) : Gap [] rest
  | blank {c : Char} {gap rest : List Char} (hc : c ∈ blanks) (h : Gap gap rest) : Gap (c :: gap) rest
  | comment {text gap rest : List Char} (hline : '\n' ∉ text)
    (hend : (gap ++ rest).head? = none ∨ (gap ++ rest).head? = some '\n') (h : Gap gap rest) :
    Gap ('\\' :: text ++ gap) rest

/-- The words that a stretch of a text stands for: one word that it spells, or those of a string literal. -/
inductive Spells : List Char → List Word → Prop
  | word {text : List Char} {w : Word} (hsome : text ≠ []) (hspelt : w.lexeme = .text (String.ofList text))
    (hkind : w.kind ≠ .endOfInput) : Spells text [w]
  | literal {body : List Char} (hquote : '\x22' ∉ body) (hline : '\n' ∉ body) :
    Spells ('\x22' :: (body ++ ['\x22'])) ((Pieces.ofText body).toList.map Pieces.wordOf)

/-- The tokens of what is left of a text after the part before. -/
inductive Tokenised : List Char → List Char → List Token → Prop
  | done {before gap : List Char} (hgap : Gap gap []) :
    Tokenised before gap [Word.endOfInput.at (.counted (before ++ gap))]
  | stretch {before gap text rest : List Char} {words : List Word} {tokens : List Token}
    (hgap : Gap gap (text ++ rest)) (htext : Spells text words)
    (h : Tokenised (before ++ gap ++ text) rest tokens) :
    Tokenised before (gap ++ text ++ rest) (words.map (·.at (.counted (before ++ gap))) ++ tokens)

/-- A gap may be extended to the front. -/
theorem Tokenised.skip {before part rest : List Char} {tokens : List Token}
    (hpart : ∀ gap later, gap ++ later = rest → Gap gap later → Gap (part ++ gap) later)
    (h : Tokenised (before ++ part) rest tokens) : Tokenised before (part ++ rest) tokens := by
  cases h with
  | done hgap =>
    rw [List.append_assoc]
    exact .done (hpart _ _ (List.append_nil _) hgap)
  | @stretch _ gap text rest words tokens hgap htext h =>
    have hgap' := hpart gap (text ++ rest) (List.append_assoc ..).symm hgap
    rw [List.append_assoc before part gap] at h ⊢
    have htokens := Tokenised.stretch hgap' htext h
    rwa [List.append_assoc, List.append_assoc, ← List.append_assoc gap] at htokens

namespace Lexer

/-- What is taken at a character: a stretch with its words, a blank, or a comment. -/
inductive Munched (c : Char) (rest : List Char) : Munch → Prop
  | stretch {found : Munch} (h : Spells (c :: rest.take found.extra) found.words) : Munched c rest found
  | blank (hc : c ∈ blanks) : Munched c rest (silent 0)
  | comment (hc : c = '\\') : Munched c rest (silent (rest.takeWhile fun d => d ≠ '\n').length)

theorem take_length_takeWhile (p : Char → Bool) (cs : List Char) :
    cs.take (cs.takeWhile p).length = cs.takeWhile p :=
  Eq.symm <| List.prefix_iff_eq_take.1 <| List.takeWhile_prefix p

theorem drop_length_takeWhile (p : Char → Bool) (cs : List Char) :
    cs.drop (cs.takeWhile p).length = cs.dropWhile p := by
  induction cs with
  | nil => rfl
  | cons c cs ih => by_cases h : p c <;> simp [h, ih]

/-- A word that is spelt by a character and by those right after it. -/
theorem munched_single {kind : Kind} (hkind : kind ≠ .endOfInput) (literal : Json) (c : Char)
    {tail rest : List Char} (hfront : tail <+: rest) : Munched c rest (single kind (c :: tail) literal) := by
  have htail : rest.take tail.length = tail := (List.prefix_iff_eq_take.1 hfront).symm
  refine .stretch ?_
  simp only [single, List.length_cons, Nat.add_sub_cancel, htail]
  exact .word (List.cons_ne_nil _ _) rfl hkind

theorem munched_punctuation {c : Char} {kind : Kind} (h : punctuation? c = some kind) (rest : List Char) :
    Munched c rest (single kind [c] .null) := by
  have hkind : kind ≠ .endOfInput := by
    unfold punctuation? at h
    split at h <;> cases h <;> decide
  exact munched_single hkind _ c List.nil_prefix

theorem munched_operator {c : Char} {rest : List Char} {found : Munch}
    (h : operator? c rest = some (.ok found)) : Munched c rest found := by
  unfold operator? at h
  split at h <;> cases h <;> exact munched_single (by decide) _ _ (by simp)

theorem munched_stringLiteral {rest : List Char} {found : Munch} (h : stringLiteral rest = .ok found) :
    Munched '\x22' rest found := by
  simp only [stringLiteral] at h
  split at h
  · next later hlater =>
    cases h
    have hbody (c : Char) (hc : c ∈ rest.takeWhile fun c => c ≠ '\x22' && c ≠ '\n') :
        c ≠ '\x22' ∧ c ≠ '\n' := by
      simpa using List.mem_takeWhile_imp hc
    refine .stretch ?_
    rw [List.take_add, take_length_takeWhile, hlater, Pieces.words_ofText]
    exact .literal (fun hc => (hbody _ hc).1 rfl) (fun hc => (hbody _ hc).2 rfl)
  · cases h

theorem munched_number (c : Char) (rest : List Char) : Munched c rest (number c rest) := by
  unfold number
  split
  · next hc =>
    subst hc
    split
    · next later =>
      split
      · exact munched_single (by decide) _ _ List.nil_prefix
      · exact munched_single (by decide) _ _ (List.cons_prefix_cons.2 ⟨rfl, List.takeWhile_prefix _⟩)
    · exact munched_single (by decide) _ _ List.nil_prefix
  · exact munched_single (by decide) _ _ <| List.takeWhile_prefix _

theorem munched_letters (c : Char) (rest : List Char) : Munched c rest (letters c rest) := by
  have hkind (text : String) : wordKind text ≠ .endOfInput := by
    unfold wordKind
    split <;> decide
  exact munched_single (hkind _) _ _ <| List.takeWhile_prefix _

theorem operator?_eq_none {c : Char} {rest : List Char} (h : operator? c rest = none) (rest' : List Char) :
    operator? c rest' = none := by
  unfold operator? at h
  split at h
  all_goals try cases h
  unfold operator?
  split <;> simp_all

inductive Begins (c : Char) : Prop
  | punctuation {kind : Kind} (hc : punctuation? c = some kind)
    (h : ∀ rest, munch c rest = .ok (single kind [c] .null))
  | operator (h : ∀ rest, operator? c rest = some (munch c rest))
  | quote (hc : c = '\x22') (h : ∀ rest, munch c rest = stringLiteral rest)
  | comment (hc : c = '\\')
    (h : ∀ rest, munch c rest = .ok (silent (rest.takeWhile fun d => d ≠ '\n').length))
  | blank (hc : c ∈ blanks) (h : ∀ rest, munch c rest = .ok (silent 0))
  | digit (h : ∀ rest, munch c rest = .ok (number c rest))
  | letter (h : ∀ rest, munch c rest = .ok (letters c rest))
  | nothing (h : ∀ rest, munch c rest = .error (.unexpected c))

theorem begins (c : Char) : Begins c := by
  cases hpunctuation : punctuation? c with
  | some kind => exact .punctuation hpunctuation fun rest => by simp only [munch, hpunctuation]
  | none =>
    by_cases hoperator : operator? c [] = none
    · have hmunch (rest : List Char) : munch c rest =
          if c = '\x22' then stringLiteral rest
          else if c = '\\' then .ok (silent (rest.takeWhile fun d => d ≠ '\n').length)
          else if c = ' ' || c = '\r' || c = '\t' || c = '\n' then .ok (silent 0)
          else if Text.isAsciiDigit c then .ok (number c rest)
          else if Text.isLetter c then .ok (letters c rest)
          else .error (.unexpected c) := by
        simp only [munch, hpunctuation, operator?_eq_none hoperator]
      split at hmunch
      · next hc => exact .quote hc hmunch
      · split at hmunch
        · next hc => exact .comment hc hmunch
        · split at hmunch
          · next hc => exact .blank (by simpa [blanks, or_assoc] using hc) hmunch
          · split at hmunch
            · exact .digit hmunch
            · split at hmunch
              · exact .letter hmunch
              · exact .nothing hmunch
    · refine .operator fun rest => ?_
      cases hrest : operator? c rest with
      | none => exact absurd (operator?_eq_none hrest []) hoperator
      | some found => simp only [munch, hpunctuation, hrest]

theorem munch_munched {c : Char} {rest : List Char} {found : Munch} (h : munch c rest = .ok found) :
    Munched c rest found := by
  cases begins c with
  | punctuation hc hmunch =>
    rw [hmunch] at h
    cases h
    exact munched_punctuation hc rest
  | operator hmunch => exact munched_operator (h ▸ hmunch rest)
  | quote hc hmunch =>
    subst hc
    rw [hmunch] at h
    exact munched_stringLiteral h
  | comment hc hmunch =>
    rw [hmunch] at h
    cases h
    exact .comment hc
  | blank hc hmunch =>
    rw [hmunch] at h
    cases h
    exact .blank hc
  | digit hmunch =>
    rw [hmunch] at h
    cases h
    exact munched_number c rest
  | letter hmunch =>
    rw [hmunch] at h
    cases h
    exact munched_letters c rest
  | nothing hmunch =>
    rw [hmunch] at h
    cases h

/-- The characters that belong to the word before are passed over. -/
theorem scanFrom_eq_drop (p : Position) (taken : Nat) (cs : List Char) :
    scanFrom p taken cs = scanFrom (p.after (cs.take taken)) 0 (cs.drop taken) := by
  induction cs generalizing p taken with
  | nil =>
    cases taken <;> rfl
  | cons c cs ih =>
    cases taken with
    | zero => rfl
    | succ taken => exact ih (p.next c) taken

theorem scanFrom_cons {p : Position} {c : Char} {rest : List Char} {tokens : List Token}
    (h : scanFrom p 0 (c :: rest) = .ok tokens) :
    ∃ found others, munch c rest = .ok found ∧ tokens = found.words.map (·.at p) ++ others ∧
      scanFrom (p.after (c :: rest.take found.extra)) 0 (rest.drop found.extra) = .ok others := by
  simp only [scanFrom] at h
  split at h
  · cases h
  · next found hfound =>
    cases hrest : scanFrom (p.next c) found.extra rest with
    | error e =>
      rw [hrest] at h
      cases h
    | ok others =>
      rw [hrest] at h
      cases h
      rw [scanFrom_eq_drop] at hrest
      exact ⟨found, others, hfound, rfl, hrest⟩

theorem not_mem_comment {rest : List Char} : '\n' ∉ rest.takeWhile fun d => d ≠ '\n' := by
  intro h
  simpa using List.mem_takeWhile_imp h

/-- A comment is followed by a line break, if by anything. -/
theorem head?_after_comment (rest : List Char) :
    (rest.dropWhile fun d => d ≠ '\n').head? = none ∨ (rest.dropWhile fun d => d ≠ '\n').head? = some '\n' := by
  induction rest with
  | nil => exact .inl rfl
  | cons c rest ih =>
    by_cases hc : c = '\n'
    · exact .inr (by simp [hc])
    · simpa [hc] using ih

/-- Scanning goes on as it should, wherever it has come to. -/
theorem scanFrom_tokenised {before cs : List Char} {tokens : List Token}
    (h : scanFrom (.counted before) 0 cs = .ok tokens) : Tokenised before cs tokens := by
  -- A stretch may be of any length, so the induction is on how much is left.
  induction hsize : cs.length using Nat.strongRecOn generalizing before cs tokens with
  | ind size ih =>
    cases cs with
    | nil =>
      cases h
      have hdone : Tokenised before [] [Word.endOfInput.at (.counted (before ++ []))] := .done (.none [])
      rwa [List.append_nil] at hdone
    | cons c rest =>
      obtain ⟨found, others, hfound, rfl, hrest⟩ := scanFrom_cons h
      rw [Position.after_counted] at hrest
      have hshorter : (rest.drop found.extra).length < size := by
        rw [← hsize, List.length_drop, List.length_cons]
        omega
      have hothers := ih _ hshorter hrest rfl
      cases munch_munched hfound with
      | stretch hspells =>
        rw [← List.append_nil before] at hothers
        have htokens := Tokenised.stretch (.none _) hspells hothers
        rwa [List.append_nil, List.nil_append, List.cons_append, List.take_append_drop] at htokens
      | blank hc => exact hothers.skip fun gap later _ hgap => .blank hc hgap
      | comment hc =>
        subst hc
        simp only [silent, take_length_takeWhile, drop_length_takeWhile] at hothers
        have htokens := hothers.skip fun gap later hlater hgap =>
          .comment not_mem_comment (by rw [hlater]; exact head?_after_comment rest) hgap
        rwa [List.cons_append, List.takeWhile_append_dropWhile] at htokens

end Lexer

/-- The tokens of a text that scans account for all of it. The text is cut into stretches with gaps before,
between and after them. A gap is made of blanks and comments. A stretch is the spelling of one word or a whole
string literal, which stands for the words of its pieces. The tokens are these words in order, each at the line
and column where its stretch begins, and one more for the end of input, where the text ends. -/
theorem scan_tokenised {source : String} {tokens : List Token} (h : scan source = .ok tokens) :
    Tokenised [] source.toList tokens := by
  unfold scan at h
  split at h
  · cases h
  · exact Lexer.scanFrom_tokenised h

/-- A comment, a line break and a string literal that holds an operator. -/
theorem scan_tokenised_literal :
    let tokens : List Token :=
      [Word.at ⟨.sum, .text "sum", .null⟩ ⟨1, 1⟩, Word.at ⟨.string, .text "\"a\"", .text "a"⟩ ⟨2, 2⟩,
       Word.at ⟨.beside, .text "||", .null⟩ ⟨2, 2⟩, Word.at ⟨.string, .text "\"b\"", .text "b"⟩ ⟨2, 2⟩,
       Word.endOfInput.at ⟨2, 8⟩]
    scan "sum\\d6\n \"a||b\"" = .ok tokens ∧ Tokenised [] "sum\\d6\n \"a||b\"".toList tokens := by
  intro tokens
  have h : scan "sum\\d6\n \"a||b\"" = .ok tokens := rfl
  exact ⟨h, scan_tokenised h⟩

end DiceScript
