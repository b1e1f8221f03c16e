import DiceScript.Proofs.Scanning.Tokenisation

/-!
# Words that are scanned again

Write the words of a scanned text with a single space between each two of them: the result scans to the same
words. A word is found again because it is taken as it stands whenever nothing, or a space, comes after it, and
a piece of a string literal because it holds no further operator. A string literal that holds operators
therefore scans as its pieces do, each in quotes, with the operators between them.
-/

namespace DiceScript

def unplaced : Except ScanError (List Token) → Except ScanError.Cause (List Word)
  | .ok tokens => .ok (tokens.map (·.toWord))
  | .error e => .error e.cause

/-- Words written with a space between each two of them. -/
def respaced (words : List Word) : String :=
  String.intercalate " " (words.map (·.lexeme.shown))

theorem unplaced_eq_ok_iff {found : Except ScanError (List Token)} {words : List Word} :
    unplaced found = .ok words ↔ ∃ tokens, found = .ok tokens ∧ tokens.map (·.toWord) = words := by
  cases found <;> simp [unplaced]

namespace Lexer

theorem unplaced_map (words : List Word) (p : Position) (found : Except ScanError (List Token)) :
    unplaced (found.map (words.map (·.at p) ++ ·)) = (unplaced found).map (words ++ ·) := by
  cases found with
  | error e => rfl
  | ok tokens =>
    have hwords : (words.map (·.at p)).map (·.toWord) = words := by
      rw [List.map_map]
      exact List.map_id words
    change Except.ok ((words.map (·.at p) ++ tokens).map (·.toWord)) =
      .ok (words ++ tokens.map (·.toWord))
    rw [List.map_append, hwords]

/-- Where a text begins has no influence on its words. -/
theorem unplaced_scanFrom_eq (p q : Position) (taken : Nat) (cs : List Char) :
    unplaced (scanFrom p taken cs) = unplaced (scanFrom q taken cs) := by
  induction cs generalizing p q taken with
  | nil => rfl
  | cons c rest ih =>
    cases taken with
    | succ taken => exact ih _ _ taken
    | zero =>
      simp only [scanFrom]
      cases munch c rest with
      | error cause => rfl
      | ok found =>
        simp only [unplaced_map]
        rw [ih (p.next c) (q.next c)]

def lexed (cs : List Char) : Except ScanError.Cause (List Word) :=
  unplaced (scanFrom .start 0 cs)

theorem lexed_cons (c : Char) (rest : List Char) :
    lexed (c :: rest) = (munch c rest).bind fun found =>
      (lexed (rest.drop found.extra)).map (found.words ++ ·) := by
  simp only [lexed, scanFrom]
  cases munch c rest with
  | error cause => rfl
  | ok found =>
    simp only [unplaced_map, Except.bind]
    rw [scanFrom_eq_drop, unplaced_scanFrom_eq _ .start]

theorem lexed_space (rest : List Char) : lexed (' ' :: rest) = lexed rest := by
  have hspace : munch ' ' rest = .ok (silent 0) := rfl
  rw [lexed_cons, hspace]
  cases h : lexed rest <;> simp [Except.bind, Except.map, silent, h]

end Lexer

theorem unplaced_scan {source : String} (h : source.toList ≠ []) :
    unplaced (scan source) = Lexer.lexed source.toList := by
  have hsome : source.isEmpty = false := by
    rw [← Bool.not_eq_true, String.isEmpty_iff]
    rintro rfl
    exact h rfl
  simp [scan, hsome, Lexer.lexed]

/-! A word before the text that follows it. -/

namespace Lexer

/-- A word that is taken as one where its spelling comes before the rest of a text. -/
def StandsBefore (w : Word) (rest : List Char) : Prop :=
  ∃ c tail, w.lexeme = .text (String.ofList (c :: tail)) ∧
    munch c (tail ++ rest) = .ok ⟨[w], tail.length⟩

def Apart (rest : List Char) : Prop :=
  rest = [] ∨ ∃ more, rest = ' ' :: more

theorem StandsBefore.lexed {w : Word} {rest : List Char} (h : StandsBefore w rest) :
    lexed (w.lexeme.shown.toList ++ rest) = (lexed rest).map (w :: ·) := by
  obtain ⟨c, tail, hspelt, hmunch⟩ := h
  rw [hspelt, Json.shown, String.toList_ofList, List.cons_append, lexed_cons, hmunch]
  simp only [Except.bind, List.drop_left, List.singleton_append]

/-- Words that are each taken as one before a space, and the last of them before what follows. -/
theorem lexed_respaced {words : List Word} {last : Word} {after : List Char}
    (hwords : ∀ w ∈ words, ∀ rest, StandsBefore w (' ' :: rest)) (hlast : StandsBefore last after) :
    lexed ((respaced (words ++ [last])).toList ++ after) =
      (lexed after).map ((words ++ [last]) ++ ·) := by
  induction words with
  | nil =>
    simp only [respaced, List.nil_append, List.map_cons, List.map_nil, String.intercalate_singleton]
    exact hlast.lexed
  | cons w words ih =>
    obtain ⟨hw, hwords⟩ := List.forall_mem_cons.1 hwords
    have hjoin : (respaced (w :: words ++ [last])).toList ++ after =
        w.lexeme.shown.toList ++ ' ' :: ((respaced (words ++ [last])).toList ++ after) := by
      rw [respaced, List.cons_append, List.map_cons, String.intercalate_cons_of_ne_nil (by simp)]
      simp [respaced]
    rw [hjoin, (hw _).lexed, lexed_space, ih hwords]
    cases lexed after <;> rfl

theorem takeWhile_apart {p : Char → Bool} (hspace : p ' ' = false) {front rest : List Char}
    (hfront : ∀ c ∈ front, p c = true) (hrest : Apart rest) : (front ++ rest).takeWhile p = front := by
  rw [List.takeWhile_append_of_pos hfront]
  rcases hrest with rfl | ⟨more, rfl⟩ <;> simp [hspace]

end Lexer

/-! The pieces of a string literal. -/

namespace Pieces

/-- No piece holds an operator. -/
theorem ofText_ofText (cs : List Char) :
    ofText (ofText cs).1 = ((ofText cs).1, []) ∧ ∀ part ∈ (ofText cs).2, ofText part.2 = (part.2, []) := by
  fun_induction ofText cs with
  | case1 => exact ⟨rfl, by simp⟩
  | case2 a => exact ⟨rfl, by simp⟩
  | case3 a b rest op spelt cut ih =>
    refine ⟨rfl, ?_⟩
    rw [List.forall_mem_cons]
    exact ih
  | case4 a b rest spelt cut ih =>
    refine ⟨?_, ih.2⟩
    rcases ofText_cons_fst b rest with hfirst | ⟨tail, hfirst⟩
    · rw [hfirst]
      rfl
    · have hcut := ih.1
      rw [hfirst] at hcut ⊢
      rw [ofText, spelt, hcut]

theorem mem_of_mem_ofText (cs : List Char) :
    (∀ c ∈ (ofText cs).1, c ∈ cs) ∧ ∀ part ∈ (ofText cs).2, ∀ c ∈ part.2, c ∈ cs := by
  have htext := toText_ofText cs
  rw [toText] at htext
  constructor
  · intro c hc
    rw [← htext]
    exact List.mem_append_left _ hc
  · intro part hpart c hc
    rw [← htext]
    exact List.mem_append_right _ (List.mem_flatMap.2 ⟨part, hpart, List.mem_append_right _ hc⟩)

end Pieces

namespace Lexer

theorem munch_literal {body : List Char} (hquote : '\x22' ∉ body) (hline : '\n' ∉ body) (after : List Char) :
    munch '\x22' (body ++ '\x22' :: after) = .ok ⟨(Pieces.ofText body).words, body.length + 1⟩ := by
  have hbody : (body ++ '\x22' :: after).takeWhile (fun c => c ≠ '\x22' && c ≠ '\n') = body := by
    rw [List.takeWhile_append_of_pos]
    · simp
    · intro c hc
      have hc₁ : c ≠ '\x22' := ne_of_mem_of_not_mem hc hquote
      have hc₂ : c ≠ '\n' := ne_of_mem_of_not_mem hc hline
      simp [hc₁, hc₂]
  change stringLiteral (body ++ '\x22' :: after) = _
  rw [stringLiteral, hbody, List.drop_left]
  rfl

/-- A piece in quotes is one word, whatever comes after it. -/
theorem standsBefore_textWord {piece : List Char} (hquote : '\x22' ∉ piece) (hline : '\n' ∉ piece)
    (hpiece : Pieces.ofText piece = (piece, [])) (rest : List Char) :
    StandsBefore (Pieces.textWord piece) rest := by
  refine ⟨'\x22', piece ++ ['\x22'], ?_, ?_⟩
  · have hspelling : "\"" ++ String.ofList piece ++ "\"" = String.ofList ('\x22' :: (piece ++ ['\x22'])) := by
      rw [← String.toList_inj]
      simp
    rw [Pieces.textWord, hspelling]
  · rw [List.append_assoc, List.singleton_append, munch_literal hquote hline, hpiece, List.length_append]
    rfl

theorem standsBefore_operatorWord (op : LayoutOp) (rest : List Char) :
    StandsBefore (Pieces.operatorWord op) rest := by
  cases op
  · exact ⟨'|', ['|'], rfl, rfl⟩
  · exact ⟨'|', ['>'], rfl, rfl⟩
  · exact ⟨'<', ['|'], rfl, rfl⟩
  · exact ⟨'<', ['>'], rfl, rfl⟩

theorem standsBefore_words {body : List Char} (hquote : '\x22' ∉ body) (hline : '\n' ∉ body) (rest : List Char) :
    ∀ w ∈ (Pieces.ofText body).words, StandsBefore w rest := by
  obtain ⟨hfirst, hparts⟩ := Pieces.ofText_ofText body
  obtain ⟨hfirst', hparts'⟩ := Pieces.mem_of_mem_ofText body
  intro w hw
  simp only [Pieces.words, List.mem_cons, List.mem_flatMap, List.not_mem_nil, or_false] at hw
  rcases hw with rfl | ⟨part, hpart, rfl | rfl⟩
  · exact standsBefore_textWord (mt (hfirst' _) hquote) (mt (hfirst' _) hline) hfirst rest
  · exact standsBefore_operatorWord _ rest
  · exact standsBefore_textWord (mt (hparts' part hpart _) hquote) (mt (hparts' part hpart _) hline)
      (hparts part hpart) rest

/-! What is taken at a character. -/

theorem standsBefore_operator {c : Char} {cs : List Char} {found : Munch}
    (h : operator? c cs = some (.ok found)) {rest : List Char} (hrest : Apart rest) :
    ∀ w ∈ found.words, StandsBefore w rest := by
  intro w hw
  unfold operator? at h
  split at h <;> cases h <;> obtain rfl := List.mem_singleton.1 hw <;>
    rcases hrest with rfl | ⟨more, rfl⟩ <;> exact ⟨_, _, rfl, rfl⟩

/-- A spelling that is taken whole before the rest of a text. -/
theorem standsBefore_single {kind : Kind} {c : Char} {tail rest : List Char} {literal : Json}
    (h : munch c (tail ++ rest) = .ok (single kind (c :: tail) literal)) :
    ∀ w ∈ (single kind (c :: tail) literal).words, StandsBefore w rest := by
  intro w hw
  obtain rfl := List.mem_singleton.1 hw
  exact ⟨c, tail, rfl, h⟩

/-- A number ends where it did before. -/
theorem number_apart (c : Char) (cs : List Char) {rest : List Char} (hrest : Apart rest) :
    ∃ kind tail literal, number c cs = single kind (c :: tail) literal ∧
      number c (tail ++ rest) = single kind (c :: tail) literal := by
  have hzero : number '0' rest = single .integer ['0'] (.integer 0) := by
    rcases hrest with rfl | ⟨more, rfl⟩ <;> rfl
  have hreal {more : List Char} (hmore : more.head? ≠ some '.') :
      number '0' ('.' :: more) = single .real ('0' :: '.' :: more.takeWhile Text.isAsciiDigit)
        (.real (Binary64.ofDecimal false (Text.asciiNumber (more.takeWhile Text.isAsciiDigit))
          (-((more.takeWhile Text.isAsciiDigit).length : Int)))) := by
    simp only [number, if_true, hmore, if_false]
  have hdigits {d : Char} (hd : d ≠ '0') (more : List Char) :
      number d more = single .integer (d :: more.takeWhile Text.isAsciiDigit)
        (.integer (Text.asciiNumber (d :: more.takeWhile Text.isAsciiDigit))) := by
    simp only [number, hd, if_false]
  have hrun (digits : List Char) :
      (digits.takeWhile Text.isAsciiDigit ++ rest).takeWhile Text.isAsciiDigit =
        digits.takeWhile Text.isAsciiDigit :=
    takeWhile_apart (by decide) (fun _ => List.mem_takeWhile_imp) hrest
  by_cases hc : c = '0'
  · subst hc
    cases cs with
    | nil => exact ⟨_, [], _, rfl, hzero⟩
    | cons d after =>
      by_cases hd : d = '.'
      · subst hd
        by_cases hrange : after.head? = some '.'
        · refine ⟨_, [], _, ?_, hzero⟩
          simp [number, hrange]
        · have hpoint : (after.takeWhile Text.isAsciiDigit ++ rest).head? ≠ some '.' := by
            cases hdigits : after.takeWhile Text.isAsciiDigit with
            | nil => rcases hrest with rfl | ⟨more, rfl⟩ <;> simp
            | cons e digits =>
              have he : Text.isAsciiDigit e = true :=
                List.mem_takeWhile_imp (hdigits ▸ List.mem_cons_self)
              rintro ⟨⟩
              exact absurd he (by decide)
          exact ⟨_, '.' :: after.takeWhile Text.isAsciiDigit, _, hreal hrange, by
            rw [List.cons_append, hreal hpoint, hrun]⟩
      · refine ⟨.integer, [], .integer 0, ?_, hzero⟩
        simp only [number, if_true]
        split
        · simp_all
        · rfl
  · exact ⟨_, cs.takeWhile Text.isAsciiDigit, _, hdigits hc cs, by rw [hdigits hc, hrun]⟩

theorem letters_apart (c : Char) (cs : List Char) {rest : List Char} (hrest : Apart rest) :
    ∃ kind tail literal, letters c cs = single kind (c :: tail) literal ∧
      letters c (tail ++ rest) = single kind (c :: tail) literal := by
  have hrun : (cs.takeWhile Text.isLetter ++ rest).takeWhile Text.isLetter = cs.takeWhile Text.isLetter :=
    takeWhile_apart (by decide) (fun _ => List.mem_takeWhile_imp) hrest
  refine ⟨_, cs.takeWhile Text.isLetter, .null, rfl, ?_⟩
  rw [letters, hrun]

/-- Every word that is taken at a character is taken again where it stands apart. -/
theorem standsBefore_munch {c : Char} {cs : List Char} {found : Munch} (h : munch c cs = .ok found)
    {rest : List Char} (hrest : Apart rest) : ∀ w ∈ found.words, StandsBefore w rest := by
  have hsilent (extra : Nat) : ∀ w ∈ (silent extra).words, StandsBefore w rest := by simp [silent]
  cases begins c with
  | punctuation hc hmunch =>
    rw [hmunch] at h
    cases h
    exact standsBefore_single (hmunch _)
  | operator hmunch => exact standsBefore_operator (h ▸ hmunch cs) hrest
  | quote hc hmunch =>
    rw [hmunch] at h
    simp only [stringLiteral] at h
    split at h
    · cases h
      have hbody (d : Char) (hd : d ∈ cs.takeWhile fun c => c ≠ '\x22' && c ≠ '\n') :
          d ≠ '\x22' ∧ d ≠ '\n' := by
        simpa using List.mem_takeWhile_imp hd
      exact standsBefore_words (fun hd => (hbody _ hd).1 rfl) (fun hd => (hbody _ hd).2 rfl) rest
    · cases h
  | comment hc hmunch =>
    rw [hmunch] at h
    cases h
    exact hsilent _
  | blank hc hmunch =>
    rw [hmunch] at h
    cases h
    exact hsilent _
  | digit hmunch =>
    rw [hmunch] at h
    cases h
    obtain ⟨kind, tail, literal, hnumber, hagain⟩ := number_apart c cs hrest
    rw [hnumber]
    exact standsBefore_single (by rw [hmunch, hagain])
  | letter hmunch =>
    rw [hmunch] at h
    cases h
    obtain ⟨kind, tail, literal, hletters, hagain⟩ := letters_apart c cs hrest
    rw [hletters]
    exact standsBefore_single (by rw [hmunch, hagain])
  | nothing hmunch =>
    rw [hmunch] at h
    cases h

/-- The words of a text, each of which is taken again where it stands apart, and one for its end. -/
theorem lexed_standing {cs : List Char} {words : List Word} (h : lexed cs = .ok words) :
    ∃ init, words = init ++ [.endOfInput] ∧ ∀ w ∈ init, ∀ rest, Apart rest → StandsBefore w rest := by
  -- A word may be of any length, so the induction is on how much is left.
  induction hsize : cs.length using Nat.strongRecOn generalizing cs words with
  | ind size ih =>
    cases cs with
    | nil =>
      cases h
      exact ⟨[], rfl, by simp⟩
    | cons c rest =>
      rw [lexed_cons] at h
      cases hmunch : munch c rest with
      | error cause =>
        rw [hmunch] at h
        cases h
      | ok found =>
        rw [hmunch] at h
        cases hothers : lexed (rest.drop found.extra) with
        | error cause =>
          simp only [Except.bind, hothers] at h
          cases h
        | ok others =>
          simp only [Except.bind, hothers] at h
          cases h
          have hshorter : (rest.drop found.extra).length < size := by
            rw [← hsize, List.length_drop, List.length_cons]
            omega
          obtain ⟨init, rfl, hinit⟩ := ih _ hshorter hothers rfl
          refine ⟨found.words ++ init, (List.append_assoc ..).symm, ?_⟩
          rw [List.forall_mem_append]
          exact ⟨fun w hw rest hrest => standsBefore_munch hmunch hrest w hw, hinit⟩

end Lexer

/-- Words with spaces between them scan to these words, if each is taken as one where it stands. -/
theorem scan_respaced_append {words : List Word} (hsome : words ≠ []) {after : String}
    (hwords : ∀ w ∈ words, Lexer.StandsBefore w after.toList ∧ ∀ rest, Lexer.StandsBefore w (' ' :: rest)) :
    unplaced (scan (respaced words ++ after)) = (Lexer.lexed after.toList).map (words ++ ·) := by
  obtain ⟨init, last, rfl⟩ := (List.eq_nil_or_concat' words).resolve_left hsome
  have hlexed := Lexer.lexed_respaced (fun w hw => (hwords w (List.mem_append_left _ hw)).2)
    (hwords last (List.mem_append_right _ List.mem_cons_self)).1
  have htext : (respaced (init ++ [last]) ++ after).toList ≠ [] := by
    intro hempty
    rw [String.toList_append, List.append_eq_nil_iff] at hempty
    rw [hempty.1, hempty.2] at hlexed
    have hlength := congrArg List.length (Except.ok.inj hlexed)
    simp at hlength
  rw [unplaced_scan htext, String.toList_append, hlexed]

def literalWords (body : String) : List Word :=
  (Pieces.ofText body.toList).toList.map Pieces.wordOf

theorem scan_literal_append {body : String} (hquote : '\x22' ∉ body.toList) (hline : '\n' ∉ body.toList)
    (after : String) :
    unplaced (scan ("\"" ++ body ++ "\"" ++ after)) =
      (Lexer.lexed after.toList).map (literalWords body ++ ·) := by
  have htext : ("\"" ++ body ++ "\"" ++ after).toList =
      '\x22' :: (body.toList ++ '\x22' :: after.toList) := by simp
  have hdrop : (body.toList ++ '\x22' :: after.toList).drop (body.toList.length + 1) = after.toList := by
    rw [List.drop_append]
    simp
  rw [unplaced_scan (by rw [htext]; simp), htext, Lexer.lexed_cons, Lexer.munch_literal hquote hline]
  simp only [Except.bind, hdrop, literalWords, Pieces.words_ofText]

theorem scan_literalWords_append {body : String} (hquote : '\x22' ∉ body.toList)
    (hline : '\n' ∉ body.toList) (after : String) :
    unplaced (scan (respaced (literalWords body) ++ after)) =
      (Lexer.lexed after.toList).map (literalWords body ++ ·) := by
  have hwords (w : Word) (hw : w ∈ literalWords body) (rest : List Char) : Lexer.StandsBefore w rest := by
    rw [literalWords, ← Pieces.words_ofText] at hw
    exact Lexer.standsBefore_words hquote hline rest w hw
  exact scan_respaced_append (List.cons_ne_nil _ _) fun w hw => ⟨hwords w hw _, fun _ => hwords w hw _⟩

/-- If a text scans and has a word, then its words, written with a space between each two of them, scan to the
same words: the same kinds, spellings and literals in the same order. In particular a string literal stands for
its pieces. Whatever comes after it, it scans as the pieces do that are left between its operators, each in
quotes, with a space on both sides of each operator. -/
theorem scan_respaced :
    (∀ (source : String) (tokens : List Token), scan source = .ok tokens → tokens.dropLast ≠ [] →
      ∃ again, scan (respaced (tokens.dropLast.map (·.toWord))) = .ok again ∧
        again.map (·.toWord) = tokens.map (·.toWord)) ∧
    ∀ body : String, '\x22' ∉ body.toList → '\n' ∉ body.toList →
      unplaced (scan ("\"" ++ body ++ "\"")) = .ok (literalWords body ++ [.endOfInput]) ∧
      ∀ after : String, unplaced (scan ("\"" ++ body ++ "\"" ++ after)) =
        unplaced (scan (respaced (literalWords body) ++ after)) := by
  constructor
  · intro source tokens hscan hsome
    have hsource : source.toList ≠ [] := by
      intro hempty
      rw [scan, if_pos (String.isEmpty_iff.2 (String.toList_eq_nil_iff.1 hempty))] at hscan
      cases hscan
    have hlexed : Lexer.lexed source.toList = .ok (tokens.map (·.toWord)) := by
      rw [← unplaced_scan hsource, hscan]
      rfl
    obtain ⟨init, hinit, hstands⟩ := Lexer.lexed_standing hlexed
    have hdrop : tokens.dropLast.map (·.toWord) = init := by
      rw [List.map_dropLast, hinit, List.dropLast_concat]
    have hwords : init ≠ [] := by
      rwa [← hdrop, ne_eq, List.map_eq_nil_iff]
    have hagain : unplaced (scan (respaced init ++ "")) = .ok (init ++ [.endOfInput]) :=
      scan_respaced_append hwords fun w hw =>
        ⟨hstands w hw _ (.inl rfl), fun rest => hstands w hw _ (.inr ⟨rest, rfl⟩)⟩
    rw [String.append_empty] at hagain
    rw [hdrop, hinit]
    exact unplaced_eq_ok_iff.1 hagain
  · intro body hquote hline
    constructor
    · have hliteral := scan_literal_append hquote hline ""
      rw [String.append_empty] at hliteral
      exact hliteral
    · intro after
      rw [scan_literal_append hquote hline, scan_literalWords_append hquote hline]

/-- A zero before a range, which is no real, and a string literal in which operators overlap. -/
theorem scan_respaced_overlap :
    let words : List Word :=
      [⟨.integer, .text "0", .integer 0⟩, ⟨.dotDot, .text "..", .null⟩, ⟨.string, .text "\"a\"", .text "a"⟩,
       ⟨.aboveRight, .text "<|", .null⟩, ⟨.string, .text "\"|\"", .text "|"⟩]
    unplaced (scan "0..\"a<||\"") = .ok (words ++ [.endOfInput]) ∧
      respaced words = "0 .. \"a\" <| \"|\"" ∧
      unplaced (scan "0 .. \"a\" <| \"|\"") = .ok (words ++ [.endOfInput]) ∧
      unplaced (scan "\"a<||\"d6") = unplaced (scan "\"a\" <| \"|\"d6") := by
  intro words
  have hsource : unplaced (scan "0..\"a<||\"") = .ok (words ++ [.endOfInput]) := rfl
  have hrespaced : respaced words = "0 .. \"a\" <| \"|\"" := by decide
  obtain ⟨tokens, hscan, htokens⟩ := unplaced_eq_ok_iff.1 hsource
  have hdrop : tokens.dropLast.map (·.toWord) = words := by
    rw [List.map_dropLast, htokens, List.dropLast_concat]
  have hsome : tokens.dropLast ≠ [] := by
    intro hempty
    rw [hempty] at hdrop
    exact absurd hdrop.symm (List.cons_ne_nil _ _)
  obtain ⟨again, hagain, hsame⟩ := scan_respaced.1 _ tokens hscan hsome
  rw [hdrop, hrespaced] at hagain
  refine ⟨hsource, hrespaced, ?_, ?_⟩
  · rw [hagain, ← htokens, ← hsame]
    rfl
  · exact (scan_respaced.2 "a<||" (by decide) (by decide)).2 "d6"

end DiceScript
