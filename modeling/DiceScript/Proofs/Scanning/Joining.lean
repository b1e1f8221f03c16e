import DiceScript.Proofs.Scanning.Stripping

/-!
# Texts with a space between them

Texts that are written one after the other, with a space between each two of them, scan to the words of the first, then
to those of the second, and so on, as long as no string is among the words. There is one exception. A comment that is
still open where a text ends goes on behind the space, up to the next line break, so that the next text is heard from
there on only. A string could begin in one text and end in another, but this makes a word that is a string.
-/

namespace DiceScript

/-- Before a blank there is an offence as at the end of the text, unless it is a string that is not closed. -/
theorem Offends.append_blank {c d : Char} {rest : List Char} {cause : ScanError.Cause} (h : Offends (c :: rest) cause)
    (hquote : c ≠ '\x22') (hd : d ∈ blanks) (back : List Char) :
    ∃ cause', Offends (c :: rest ++ d :: back) cause' := by
  generalize hcs : c :: rest = cs at h
  cases h with
  | noSource => cases hcs
  | malformed half h =>
    next rest =>
    rw [List.append_assoc]
    exact ⟨_, .malformed half (Lexer.incomplete_append h hd back)⟩
  | unterminated =>
    cases hcs
    exact absurd rfl hquote
  | unexpected rest h => exact ⟨_, .unexpected (rest ++ d :: back) h⟩

namespace Lexer

/-! Comments that are open at the end of a text. -/

/-- Whether a comment is open behind a text without strings, which may begin inside of one. -/
def openAfter (isOpen : Bool) (cs : List Char) : Bool :=
  cs.foldl (fun isOpen c => c ≠ '\n' && (isOpen || c = '\\')) isOpen

def heardOf (isOpen : Bool) (cs : List Char) : List Char :=
  if isOpen then cs.dropWhile (· ≠ '\n') else cs

theorem openAfter_append (isOpen : Bool) (front back : List Char) :
    openAfter isOpen (front ++ back) = openAfter (openAfter isOpen front) back :=
  List.foldl_append

theorem openAfter_line (isOpen : Bool) (front back : List Char) :
    openAfter isOpen (front ++ '\n' :: back) = openAfter false ('\n' :: back) := by
  rw [openAfter_append]
  simp [openAfter]

theorem openAfter_false {cs : List Char} (h : '\\' ∉ cs) : openAfter false cs = false := by
  induction cs with
  | nil => rfl
  | cons c cs ih =>
    rw [List.mem_cons, not_or] at h
    have hstep : openAfter false (c :: cs) = openAfter false cs := by simp [openAfter, Ne.symm h.1]
    rw [hstep, ih h.2]

theorem openAfter_true {cs : List Char} (h : '\n' ∉ cs) : openAfter true cs = true := by
  induction cs with
  | nil => rfl
  | cons c cs ih =>
    rw [List.mem_cons, not_or] at h
    have hstep : openAfter true (c :: cs) = openAfter true cs := by simp [openAfter, Ne.symm h.1]
    rw [hstep, ih h.2]

/-- A comment goes on to the end of a text, or it is closed by the first line break. -/
theorem heardOf_true_cases (cs : List Char) :
    ('\n' ∉ cs ∧ heardOf true cs = []) ∨ ∃ text back, cs = text ++ '\n' :: back ∧ '\n' ∉ text := by
  by_cases h : '\n' ∈ cs
  · obtain ⟨text, back, rfl, htext⟩ := List.eq_append_cons_of_mem h
    exact .inr ⟨text, back, rfl, htext⟩
  · refine .inl ⟨h, List.dropWhile_eq_nil_iff.2 fun c hc => ?_⟩
    simpa using ne_of_mem_of_not_mem hc h

theorem heardOf_true_line {text : List Char} (h : '\n' ∉ text) (back : List Char) :
    heardOf true (text ++ '\n' :: back) = '\n' :: back := by
  have htext : ∀ c ∈ text, decide (c ≠ '\n') = true := fun c hc => by simpa using ne_of_mem_of_not_mem hc h
  change (text ++ '\n' :: back).dropWhile _ = _
  rw [List.dropWhile_append_of_pos htext]
  exact List.dropWhile_cons_of_neg (by simp)

theorem lexed_backslash (cs : List Char) : lexed ('\\' :: cs) = lexed (heardOf true cs) := by
  have hcomment : munch '\\' cs = .ok (silent (cs.takeWhile fun d => d ≠ '\n').length) := rfl
  have hrest : cs.drop (silent (cs.takeWhile fun d => d ≠ '\n').length).extra = heardOf true cs :=
    drop_length_takeWhile _ cs
  rw [lexed_cons, hcomment]
  simp only [Except.bind, hrest]
  cases lexed (heardOf true cs) <;> rfl

/-! What is taken at a character before a space. -/

/-- What begins with a quote has a string among its words. -/
theorem exists_string_of_munch {rest : List Char} {found : Munch} (h : munch '\x22' rest = .ok found) :
    ∃ w ∈ found.words, w.kind = .string := by
  change stringLiteral rest = .ok found at h
  simp only [stringLiteral] at h
  split at h
  · cases h
    exact ⟨_, List.mem_cons_self, rfl⟩
  · cases h

/-- Of words that are not strings, the same is taken before a space as at the end of a text. -/
theorem munch_space_iff {c : Char} (hcomment : c ≠ '\\') (hquote : c ≠ '\x22') {rest back : List Char}
    {found : Munch} : munch c (rest ++ ' ' :: back) = .ok found ↔ munch c rest = .ok found := by
  have hspace : ' ' ∈ blanks := by decide
  have happend {found : Munch} (h : munch c rest = .ok found) : munch c (rest ++ ' ' :: back) = .ok found :=
    munch_append_blank hspace (fun hc => absurd hc hcomment) h (.inr rfl)
  refine ⟨fun h => ?_, happend⟩
  cases hmunch : munch c rest with
  | ok other => rwa [happend hmunch] at h
  | error cause =>
    obtain ⟨cause', hoffends⟩ := (offends_munch hmunch).append_blank hquote hspace back
    rw [List.cons_append] at hoffends
    rw [munch_of_offends hoffends] at h
    cases h

theorem operator?_no_backslash {c : Char} {rest : List Char} {found : Munch}
    (h : operator? c rest = some (.ok found)) : '\\' ∉ c :: rest.take found.extra := by
  unfold operator? at h
  split at h <;> cases h <;> simp [single]

theorem number_no_backslash {c : Char} (hc : c ≠ '\\') (rest : List Char) :
    '\\' ∉ c :: rest.take (number c rest).extra := by
  have hrun (cs : List Char) : '\\' ∉ cs.takeWhile Text.isAsciiDigit := fun h =>
    absurd (List.mem_takeWhile_imp h) (by decide)
  unfold number
  split
  · split
    · split
      · simp [single, Ne.symm hc]
      · simp [single, Ne.symm hc, take_length_takeWhile, hrun]
    · simp [single, Ne.symm hc]
  · simp [single, Ne.symm hc, take_length_takeWhile, hrun]

/-- No word but a string has a backslash. -/
theorem no_backslash_of_munch {c : Char} (hcomment : c ≠ '\\') (hquote : c ≠ '\x22') {rest : List Char}
    {found : Munch} (h : munch c rest = .ok found) : '\\' ∉ c :: rest.take found.extra := by
  cases begins c with
  | operator hmunch => exact operator?_no_backslash (h ▸ hmunch rest)
  | quote hc => exact absurd hc hquote
  | comment hc => exact absurd hc hcomment
  | punctuation _ hmunch | blank _ hmunch =>
    rw [hmunch] at h
    cases h
    simp [single, silent, Ne.symm hcomment]
  | digit hmunch =>
    rw [hmunch] at h
    cases h
    exact number_no_backslash hcomment rest
  | letter hmunch =>
    rw [hmunch] at h
    cases h
    have hrun : '\\' ∉ rest.takeWhile Text.isLetter := fun h => absurd (List.mem_takeWhile_imp h) (by decide)
    simp [letters, single, Ne.symm hcomment, take_length_takeWhile, hrun]
  | nothing hmunch =>
    rw [hmunch] at h
    cases h

/-! Two texts. -/

/-- The words of a text, without the one for its end. -/
def Has (cs : List Char) (words : List Word) : Prop :=
  lexed cs = .ok (words ++ [.endOfInput])

theorem has_nil {words : List Word} : Has [] words ↔ words = [] := by
  have hnil : lexed [] = .ok [.endOfInput] := rfl
  simp [Has, hnil]

theorem has_cons {c : Char} {rest : List Char} {words : List Word} :
    Has (c :: rest) words ↔ ∃ found others, munch c rest = .ok found ∧ Has (rest.drop found.extra) others ∧
      words = found.words ++ others := by
  unfold Has
  rw [lexed_cons_eq_ok_iff]
  constructor
  · rintro ⟨found, others, hmunch, hothers, hwords⟩
    obtain ⟨init, rfl, -⟩ := lexed_standing hothers
    rw [← List.append_assoc] at hwords
    exact ⟨found, init, hmunch, hothers, List.append_cancel_right hwords⟩
  · rintro ⟨found, others, hmunch, hothers, rfl⟩
    exact ⟨found, _, hmunch, hothers, List.append_assoc ..⟩

/-- The words of a first text that may begin inside of a comment, and then those of what is heard of a second one. -/
def HasBoth (isOpen : Bool) (a b : List Char) (words : List Word) : Prop :=
  ∃ front back, Has (heardOf isOpen a) front ∧ Has (heardOf (openAfter isOpen a) b) back ∧ words = front ++ back

/-- Where a comment is open, the first text counts from its first line break on. -/
theorem hasBoth_of_open {a b : List Char} {words : List Word}
    (h : ∀ back, (∃ text, a = text ++ '\n' :: back) →
      (Has ('\n' :: back ++ ' ' :: b) words ↔ HasBoth false ('\n' :: back) b words)) :
    Has (heardOf true (a ++ ' ' :: b)) words ↔ HasBoth true a b words := by
  rcases heardOf_true_cases a with ⟨hline, hheard⟩ | ⟨text, back, rfl, hline⟩
  · have hpassed : heardOf true (a ++ ' ' :: b) = heardOf true b := by
      have ha : ∀ c ∈ a, decide (c ≠ '\n') = true := fun c hc => by simpa using ne_of_mem_of_not_mem hc hline
      exact List.dropWhile_append_of_pos ha
    simp [HasBoth, hpassed, hheard, has_nil, openAfter_true hline]
  · have hpassed : heardOf true (text ++ '\n' :: back ++ ' ' :: b) = '\n' :: back ++ ' ' :: b := by
      rw [List.append_assoc]
      exact heardOf_true_line hline _
    rw [hpassed, h back ⟨text, rfl⟩]
    unfold HasBoth
    rw [heardOf_true_line hline, openAfter_line]
    rfl

theorem hasBoth_cons {c : Char} (hcomment : c ≠ '\\') (hquote : c ≠ '\x22') {rest b : List Char} {words : List Word} :
    HasBoth false (c :: rest) b words ↔ ∃ found others, munch c rest = .ok found ∧
      HasBoth false (rest.drop found.extra) b others ∧ words = found.words ++ others := by
  have hopen {found : Munch} (h : munch c rest = .ok found) :
      openAfter false (c :: rest) = openAfter false (rest.drop found.extra) := by
    conv_lhs => rw [← List.take_append_drop found.extra rest, ← List.cons_append]
    rw [openAfter_append, openAfter_false (no_backslash_of_munch hcomment hquote h)]
  constructor
  · rintro ⟨front, back, hfront, hback, rfl⟩
    obtain ⟨found, others, hmunch, hothers, rfl⟩ := has_cons.1 hfront
    rw [hopen hmunch] at hback
    exact ⟨found, others ++ back, hmunch, ⟨others, back, hothers, hback, rfl⟩, List.append_assoc ..⟩
  · rintro ⟨found, _, hmunch, ⟨others, back, hothers, hback, rfl⟩, rfl⟩
    rw [← hopen hmunch] at hback
    exact ⟨_, back, has_cons.2 ⟨found, others, hmunch, hothers, rfl⟩, hback, (List.append_assoc ..).symm⟩

theorem exists_string_of_has {rest : List Char} {words : List Word} (h : Has ('\x22' :: rest) words) :
    ∃ w ∈ words, w.kind = .string := by
  obtain ⟨found, others, hmunch, -, rfl⟩ := has_cons.1 h
  obtain ⟨w, hw, hkind⟩ := exists_string_of_munch hmunch
  exact ⟨w, List.mem_append_left _ hw, hkind⟩

/-- Two texts with a space between them have the words of both, as long as none is a string. -/
theorem has_append_space {a b : List Char} {words : List Word} (hwords : ∀ w ∈ words, w.kind ≠ .string) :
    Has (a ++ ' ' :: b) words ↔ HasBoth false a b words := by
  -- A word may be of any length, so the induction is on how much is left of the first text.
  induction hsize : a.length using Nat.strongRecOn generalizing a words with
  | ind size ih =>
    cases a with
    | nil =>
      have hspace : Has (' ' :: b) words ↔ Has b words := by rw [Has, lexed_space, Has]
      rw [List.nil_append, hspace]
      simp [HasBoth, heardOf, openAfter, has_nil]
    | cons c rest =>
      by_cases hcomment : c = '\\'
      · subst hcomment
        have hopen : Has (heardOf true (rest ++ ' ' :: b)) words ↔ HasBoth true rest b words := by
          refine hasBoth_of_open fun back hback => ih _ ?_ hwords rfl
          obtain ⟨text, rfl⟩ := hback
          simp only [← hsize, List.length_cons, List.length_append]
          omega
        have hfront (front : List Word) : Has (heardOf true rest) front ↔ Has ('\\' :: rest) front := by
          rw [Has, Has, lexed_backslash]
        have hwhole : Has ('\\' :: rest ++ ' ' :: b) words ↔ Has (heardOf true (rest ++ ' ' :: b)) words := by
          rw [Has, Has, List.cons_append, lexed_backslash]
        rw [hwhole, hopen]
        unfold HasBoth
        simp only [hfront]
        rfl
      · by_cases hquote : c = '\x22'
        · subst hquote
          refine iff_of_false (fun h => ?_) fun ⟨front, back, hfront, _, happend⟩ => ?_
          · obtain ⟨w, hw, hkind⟩ := exists_string_of_has h
            exact hwords w hw hkind
          · obtain ⟨w, hw, hkind⟩ := exists_string_of_has hfront
            exact hwords w (happend ▸ List.mem_append_left _ hw) hkind
        · rw [List.cons_append, has_cons, hasBoth_cons hcomment hquote]
          simp only [munch_space_iff hcomment hquote]
          refine exists_congr fun found => exists_congr fun others => and_congr_right fun hmunch => and_congr_left ?_
          rintro rfl
          rw [List.drop_append_of_le_length (extra_le hmunch)]
          refine ih _ ?_ (fun w hw => hwords w (List.mem_append_right _ hw)) rfl
          rw [← hsize, List.length_drop, List.length_cons]
          omega

/-! Any number of texts. -/

def heard : Bool → List (List Char) → List (List Char)
  | _, [] => []
  | isOpen, cs :: rest => heardOf isOpen cs :: heard (openAfter isOpen cs) rest

theorem has_heardOf_append (isOpen : Bool) {a b : List Char} {words : List Word}
    (hwords : ∀ w ∈ words, w.kind ≠ .string) :
    Has (heardOf isOpen (a ++ ' ' :: b)) words ↔ HasBoth isOpen a b words := by
  cases isOpen with
  | false => exact has_append_space hwords
  | true => exact hasBoth_of_open fun _ _ => has_append_space hwords

/-- Texts with a space between each two of them have the words of what is heard of each, one after the other. -/
theorem has_intercalate {texts : List (List Char)} (hsome : texts ≠ []) (isOpen : Bool) {words : List Word}
    (hwords : ∀ w ∈ words, w.kind ≠ .string) :
    Has (heardOf isOpen ([' '].intercalate texts)) words ↔
      ∃ parts, List.Forall₂ Has (heard isOpen texts) parts ∧ words = parts.flatten := by
  induction texts generalizing isOpen words with
  | nil => exact absurd rfl hsome
  | cons a texts ih =>
    cases texts with
    | nil =>
      rw [List.intercalate_singleton]
      constructor
      · intro h
        exact ⟨[words], .cons h .nil, by simp⟩
      · rintro ⟨_, _ | ⟨h, _ | _⟩, rfl⟩
        simpa using h
    | cons b texts =>
      rw [List.intercalate_cons_cons, List.append_assoc, List.singleton_append, has_heardOf_append isOpen hwords]
      constructor
      · rintro ⟨front, back, hfront, hback, rfl⟩
        rw [ih (List.cons_ne_nil b texts) _ fun w hw => hwords w (List.mem_append_right _ hw)] at hback
        obtain ⟨parts, hparts, rfl⟩ := hback
        exact ⟨front :: parts, .cons hfront hparts, rfl⟩
      · rintro ⟨_, @⟨⟩ | @⟨_, front, _, parts, hfront, hparts⟩, rfl⟩
        refine ⟨front, parts.flatten, hfront, ?_, rfl⟩
        refine (ih (List.cons_ne_nil b texts) _ fun w hw => hwords w ?_).2 ⟨parts, hparts, rfl⟩
        exact List.mem_append_right front hw

end Lexer

end DiceScript
