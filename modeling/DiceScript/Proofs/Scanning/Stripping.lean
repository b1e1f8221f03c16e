import Mathlib.Data.List.DropRight
import Mathlib.Data.List.Induction
import DiceScript.Proofs.Scanning.Stacking
import DiceScript.Proofs.Values.Boxes
import DiceScript.Text.Blank

/-!
# Lines without blanks at their ends

The blanks that a line is stripped of are more than those that a scan passes over. But any other blank at the
beginning of a line stops a scan, and at the end of one it either stops the scan or belongs to a comment. So a line
that scans has the same words when it is stripped, and a text that scans has the same words on the same lines when
each of its lines is.
-/

namespace DiceScript

namespace Text

def blankCodes : List Nat :=
  List.range' 9 5 ++ List.range' 28 5 ++ List.range' 0x2000 11 ++
    [0x85, 0xA0, 0x1680, 0x2028, 0x2029, 0x202F, 0x205F, 0x3000]

theorem toNat_mem_blankCodes {c : Char} (h : isBlank c = true) : c.toNat ∈ blankCodes := by
  simp only [isBlank, Bool.or_eq_true, Bool.and_eq_true, decide_eq_true_eq, beq_iff_eq] at h
  simp only [blankCodes, List.mem_append, List.mem_range'_1, List.mem_cons, List.not_mem_nil, or_false]
  omega

/-- What holds of the character of each code holds of every blank. -/
theorem of_isBlank {p : Char → Bool} (hp : (blankCodes.all fun n => p (Char.ofNat n)) = true) {c : Char}
    (h : isBlank c = true) : p c = true := by
  have hc := List.all_eq_true.1 hp _ (toNat_mem_blankCodes h)
  rwa [Char.ofNat_toNat] at hc

end Text

namespace Lexer

/-- No word begins with this character and none but a comment goes on with it. -/
def isOutside (d : Char) : Bool :=
  !Text.isLetter d && !Text.isAsciiDigit d && (punctuation? d).isNone && (operator? d []).isNone &&
    d ≠ '\x22' && d ≠ '\\'

theorem isOutside_of_isBlank {d : Char} (h : Text.isBlank d = true) : isOutside d = true :=
  Text.of_isBlank (by decide +kernel) h

theorem isOutside_iff {d : Char} :
    isOutside d = true ↔ Text.isLetter d = false ∧ Text.isAsciiDigit d = false ∧ punctuation? d = none ∧
      operator? d [] = none ∧ d ≠ '\x22' ∧ d ≠ '\\' := by
  simp [isOutside, and_assoc]

/-- Such a character is passed over or stops the scan. -/
theorem munch_outside {d : Char} (hd : isOutside d = true) {rest : List Char} {found : Munch}
    (h : munch d rest = .ok found) : found = silent 0 := by
  obtain ⟨hletter, hdigit, hpunctuation, hoperator, hquote, hcomment⟩ := isOutside_iff.1 hd
  simp only [munch, hpunctuation, operator?_eq_none hoperator, if_neg hquote, if_neg hcomment, hdigit, hletter] at h
  split at h
  · cases h
    rfl
  · cases h

theorem length_takeWhile_concat {p : Char → Bool} {d : Char} (hd : p d = false) (cs : List Char) :
    ((cs ++ [d]).takeWhile p).length ≤ cs.length := by
  rw [List.takeWhile_append]
  split
  · simp [hd]
  · exact (List.takeWhile_sublist p).length_le

theorem lexed_cons_eq_ok_iff {c : Char} {rest : List Char} {words : List Word} :
    lexed (c :: rest) = .ok words ↔ ∃ found others, munch c rest = .ok found ∧
      lexed (rest.drop found.extra) = .ok others ∧ words = found.words ++ others := by
  rw [lexed_cons]
  cases munch c rest with
  | error cause => simp [Except.bind]
  | ok found =>
    cases hothers : lexed (rest.drop found.extra) <;> simp [Except.bind, Except.map, hothers, eq_comm]

/-- The further characters of an operator are not outside of words. -/
theorem operator?_tail {c : Char} {rest : List Char} {found : Munch} (h : operator? c rest = some (.ok found)) :
    ∃ kind tail, found = single kind (c :: tail) .null ∧ tail <+: rest ∧ tail.any isOutside = false := by
  unfold operator? at h
  split at h <;> cases h <;> exact ⟨_, _, rfl, by simp, by decide⟩

theorem operator?_concat {c d : Char} (hd : isOutside d = true) {cs : List Char} {found : Munch}
    (h : operator? c (cs ++ [d]) = some (.ok found)) : found.extra ≤ cs.length := by
  obtain ⟨kind, tail, rfl, hfront, htail⟩ := operator?_tail h
  change tail.length ≤ cs.length
  rcases List.prefix_concat_iff.1 hfront with rfl | hfront
  · exact absurd hd (List.any_eq_false.1 htail d (List.mem_append_right _ List.mem_cons_self))
  · exact hfront.length_le

theorem stringLiteral_concat {d : Char} (hquote : d ≠ '\x22') {cs : List Char} {found : Munch}
    (h : stringLiteral (cs ++ [d]) = .ok found) : found.extra ≤ cs.length := by
  simp only [stringLiteral] at h
  split at h
  · next after hafter =>
    cases h
    generalize ((cs ++ [d]).takeWhile fun c => c ≠ '\x22' && c ≠ '\n').length = size at hafter ⊢
    have hlength := congrArg List.length hafter
    rw [List.length_drop, List.length_append, List.length_singleton, List.length_cons] at hlength
    -- The closing quote is not the last character.
    have hne : size ≠ cs.length := by
      rintro rfl
      rw [List.drop_left] at hafter
      exact hquote (List.head_eq_of_cons_eq hafter)
    dsimp only
    omega
  · cases h

theorem number_concat (c : Char) {d : Char} (hdigit : Text.isAsciiDigit d = false) (hpoint : d ≠ '.')
    (cs : List Char) : (number c (cs ++ [d])).extra ≤ cs.length := by
  unfold number
  split
  · split
    · next after hafter =>
      split
      · exact Nat.zero_le _
      · cases cs with
        | nil => exact absurd (List.head_eq_of_cons_eq hafter) hpoint
        | cons point cs =>
          cases hafter
          simpa [single] using length_takeWhile_concat hdigit cs
    · exact Nat.zero_le _
  · exact length_takeWhile_concat hdigit cs

/-- Only a comment takes a character that is outside of words. -/
theorem extra_le_of_outside {c d : Char} (hd : isOutside d = true) (hc : c ≠ '\\') {cs : List Char} {found : Munch}
    (h : munch c (cs ++ [d]) = .ok found) : found.extra ≤ cs.length := by
  obtain ⟨hletter, hdigit, -, hoperator, hquote, -⟩ := isOutside_iff.1 hd
  cases begins c with
  | operator hmunch => exact operator?_concat hd (h ▸ hmunch (cs ++ [d]))
  | quote _ hmunch =>
    rw [hmunch] at h
    exact stringLiteral_concat hquote h
  | comment hcomment _ => exact absurd hcomment hc
  | punctuation _ hmunch | blank _ hmunch =>
    rw [hmunch] at h
    cases h
    exact Nat.zero_le _
  | digit hmunch =>
    rw [hmunch] at h
    cases h
    have hpoint : d ≠ '.' := by
      rintro rfl
      cases hoperator
    exact number_concat c hdigit hpoint cs
  | letter hmunch =>
    rw [hmunch] at h
    cases h
    exact length_takeWhile_concat hletter cs
  | nothing hmunch =>
    rw [hmunch] at h
    cases h

/-- What is taken before the last character of a text is taken without it. -/
theorem munch_of_concat {c d : Char} (hd : isOutside d = true) {cs : List Char} {found : Munch}
    (h : munch c (cs ++ [d]) = .ok found) (hextra : found.extra ≤ cs.length) : munch c cs = .ok found := by
  refine munch_of_append h hextra ?_
  rintro ⟨-, -, hpoint⟩
  cases hpoint
  exact absurd hd (by decide)

/-- A comment up to the end of a text is one without its last character. -/
theorem lexed_comment {d : Char} {cs : List Char} {found : Munch} {others : List Word}
    (h : munch '\\' (cs ++ [d]) = .ok found) (hextra : ¬found.extra ≤ cs.length)
    (hothers : lexed ((cs ++ [d]).drop found.extra) = .ok others) :
    lexed ('\\' :: cs) = .ok (found.words ++ others) := by
  have hcomment (rest : List Char) :
      munch '\\' rest = .ok (silent (rest.takeWhile fun d => d ≠ '\n').length) := rfl
  rw [hcomment] at h
  cases h
  have hall : (cs.takeWhile fun d => d ≠ '\n').length = cs.length := by
    by_contra hsome
    rw [List.takeWhile_append, if_neg hsome] at hextra
    exact hextra (List.takeWhile_sublist _).length_le
  have hend : (cs ++ [d]).length ≤ (silent ((cs ++ [d]).takeWhile fun d => d ≠ '\n').length).extra := by
    rw [List.length_append, List.length_singleton]
    omega
  rw [List.drop_eq_nil_of_le hend] at hothers
  refine lexed_cons_eq_ok_iff.2 ⟨silent cs.length, others, ?_, ?_, rfl⟩
  · rw [hcomment, hall]
  · rwa [silent, List.drop_length]

theorem lexed_of_concat {d : Char} (hd : isOutside d = true) {cs : List Char} {words : List Word}
    (h : lexed (cs ++ [d]) = .ok words) : lexed cs = .ok words := by
  -- A word may be of any length, so the induction is on how much is left.
  induction hsize : cs.length using Nat.strongRecOn generalizing cs words with
  | ind size ih =>
    cases cs with
    | nil =>
      obtain ⟨found, others, hmunch, hothers, rfl⟩ := lexed_cons_eq_ok_iff.1 h
      rw [munch_outside hd hmunch] at hothers ⊢
      exact hothers
    | cons c rest =>
      rw [List.cons_append] at h
      obtain ⟨found, others, hmunch, hothers, rfl⟩ := lexed_cons_eq_ok_iff.1 h
      by_cases hextra : found.extra ≤ rest.length
      · rw [List.drop_append_of_le_length hextra] at hothers
        have hshorter : (rest.drop found.extra).length < size := by
          rw [← hsize, List.length_drop, List.length_cons]
          omega
        exact lexed_cons_eq_ok_iff.2
          ⟨found, others, munch_of_concat hd hmunch hextra, ih _ hshorter hothers rfl, rfl⟩
      · -- A comment goes on to the end.
        obtain rfl : c = '\\' := by
          by_contra hc
          exact hextra (extra_le_of_outside hd hc hmunch)
        exact lexed_comment hmunch hextra hothers

theorem lexed_dropWhile {cs : List Char} {words : List Word} (h : lexed cs = .ok words) :
    lexed (cs.dropWhile Text.isBlank) = .ok words := by
  induction cs with
  | nil => exact h
  | cons c rest ih =>
    rw [List.dropWhile_cons]
    split
    · next hc =>
      obtain ⟨found, others, hmunch, hothers, rfl⟩ := lexed_cons_eq_ok_iff.1 h
      obtain rfl := munch_outside (isOutside_of_isBlank hc) hmunch
      exact ih hothers
    · exact h

theorem lexed_dropTrailing {cs : List Char} {words : List Word} (h : lexed cs = .ok words) :
    lexed (Text.dropTrailing Text.isBlank cs) = .ok words := by
  induction cs using List.reverseRecOn with
  | nil => exact h
  | append_singleton cs d ih =>
    change lexed ((cs ++ [d]).rdropWhile Text.isBlank) = .ok words
    rw [List.rdropWhile_concat]
    split
    · next hd => exact ih (lexed_of_concat (isOutside_of_isBlank hd) h)
    · exact h

/-- A line that scans has the same words without the blanks at its ends. -/
theorem lexed_stripped {cs : List Char} {words : List Word} (h : lexed cs = .ok words) :
    lexed (Text.stripped cs) = .ok words :=
  lexed_dropTrailing (lexed_dropWhile h)

end Lexer

/-! A text line by line. -/

def Token.lined (t : Token) : Word × Json := (t.toWord, t.position.line)

namespace Position

theorem next_line {c : Char} (h : c ≠ '\n') (p : Position) : (p.next c).line = p.line := by
  rw [next, if_neg h]

theorem after_line {cs : List Char} (h : '\n' ∉ cs) (p : Position) : (p.after cs).line = p.line := by
  induction cs generalizing p with
  | nil => rfl
  | cons c rest ih =>
    rw [List.mem_cons, not_or] at h
    rw [after_cons, ih h.2, next_line (Ne.symm h.1)]

end Position

namespace Text

theorem mem_of_mem_stripped {c : Char} {cs : List Char} (h : c ∈ stripped cs) : c ∈ cs := by
  have hback : stripped cs <+: cs.dropWhile isBlank := List.rdropWhile_prefix isBlank _
  exact (List.dropWhile_suffix isBlank).subset (hback.subset h)

end Text

namespace Lexer

/-- A text at a position scans to these words on these lines. -/
def Reads (p : Position) (cs : List Char) (found : List (Word × Json)) : Prop :=
  ∃ tokens, scanFrom p 0 cs = .ok tokens ∧ tokens.map Token.lined = found

/-- A text without a line break has all its tokens on one line. -/
theorem line_of_scanFrom {cs : List Char} (hline : '\n' ∉ cs) {p : Position} {taken : Nat} {tokens : List Token}
    (h : scanFrom p taken cs = .ok tokens) : ∀ t ∈ tokens, t.position.line = .integer p.line := by
  induction cs generalizing p taken tokens with
  | nil =>
    cases h
    intro t ht
    obtain rfl := List.mem_singleton.1 ht
    rfl
  | cons c rest ih =>
    rw [List.mem_cons, not_or] at hline
    have hnext := p.next_line (Ne.symm hline.1)
    cases taken with
    | succ taken => exact hnext ▸ ih hline.2 h
    | zero =>
      simp only [scanFrom] at h
      split at h
      · cases h
      · next found hfound =>
        cases hothers : scanFrom (p.next c) found.extra rest with
        | error e =>
          rw [hothers] at h
          cases h
        | ok others =>
          rw [hothers] at h
          cases h
          rw [List.forall_mem_append, List.forall_mem_map]
          exact ⟨fun _ _ => rfl, hnext ▸ ih hline.2 hothers⟩

theorem map_lined {tokens : List Token} {line : Int} (h : ∀ t ∈ tokens, t.position.line = .integer line) :
    tokens.map Token.lined = (tokens.map (·.toWord)).map fun w => (w, .integer line) := by
  rw [List.map_map]
  refine List.map_congr_left fun t ht => ?_
  rw [Token.lined, h t ht]
  rfl

/-- What is on a line. -/
theorem reads_iff_of_line {cs : List Char} (hline : '\n' ∉ cs) {p : Position} {found : List (Word × Json)} :
    Reads p cs found ↔ ∃ words, lexed cs = .ok words ∧ found = words.map fun w => (w, .integer p.line) := by
  have hlexed : lexed cs = unplaced (scanFrom p 0 cs) := unplaced_scanFrom_eq _ p 0 cs
  rw [hlexed]
  constructor
  · rintro ⟨tokens, h, rfl⟩
    exact ⟨_, unplaced_eq_ok_iff.2 ⟨tokens, h, rfl⟩, map_lined (line_of_scanFrom hline h)⟩
  · rintro ⟨words, h, rfl⟩
    obtain ⟨tokens, htokens, rfl⟩ := unplaced_eq_ok_iff.1 h
    exact ⟨tokens, htokens, map_lined (line_of_scanFrom hline htokens)⟩

/-- What is on the first line, and what is below it. -/
theorem reads_above_iff {above : List Char} (hline : '\n' ∉ above) {p : Position} {below : List Char}
    {found : List (Word × Json)} :
    Reads p (above ++ '\n' :: below) found ↔ ∃ words others, lexed above = .ok (words ++ [.endOfInput]) ∧
      Reads ⟨p.line + 1, 1⟩ below others ∧ found = (words.map fun w => (w, .integer p.line)) ++ others := by
  have hlexed : lexed above = unplaced (scanFrom p 0 above) := unplaced_scanFrom_eq _ p 0 above
  cases hscan : scanFrom p 0 above with
  | error e =>
    rw [hscan] at hlexed
    obtain ⟨tokens, c, rest, hcomes, hmunch⟩ := comes_of_error hscan
    obtain ⟨cause, hoffends, -⟩ := (offends_munch hmunch).append_line (List.cons_ne_nil c rest) below
    have hwhole := (hcomes.append _ (.inl (List.cons_ne_nil c rest))).scanFrom_eq_error hoffends
      (List.cons_ne_nil c _)
    constructor
    · rintro ⟨tokens, h, -⟩
      rw [hwhole] at h
      cases h
    · rintro ⟨words, others, h, -⟩
      rw [hlexed] at h
      cases h
  | ok tokens =>
    obtain ⟨front, rfl, hcomes⟩ := comes_of_ok hscan
    have hfront : lexed above = .ok (front.map (·.toWord) ++ [.endOfInput]) := by
      rw [hlexed, hscan, unplaced, List.map_append]
      rfl
    have hlined : front.map Token.lined = (front.map (·.toWord)).map fun w => (w, .integer p.line) :=
      map_lined fun t ht => line_of_scanFrom hline hscan t (List.mem_append_left _ ht)
    have hwhole := (hcomes.append ('\n' :: below) (.inr rfl)).scanFrom_eq
    rw [List.nil_append, scanFrom_break, Position.next, if_pos rfl, Position.after_line hline] at hwhole
    constructor
    · rintro ⟨tokens, h, rfl⟩
      rw [hwhole] at h
      cases hbelow : scanFrom ⟨p.line + 1, 1⟩ 0 below with
      | error e =>
        rw [hbelow] at h
        cases h
      | ok others =>
        rw [hbelow] at h
        cases h
        exact ⟨_, _, hfront, ⟨others, hbelow, rfl⟩, by rw [List.map_append, hlined]⟩
    · rintro ⟨words, _, hwords, ⟨others, hothers, rfl⟩, rfl⟩
      rw [hfront] at hwords
      obtain rfl := List.append_cancel_right (Except.ok.inj hwords)
      refine ⟨front ++ others, ?_, by rw [List.map_append, hlined]⟩
      rw [hwhole, hothers]
      rfl

/-- A text that scans has the same words on the same lines when its lines are stripped. -/
theorem Reads.stripped {lines : List (List Char)} (hsome : lines ≠ []) (hlines : ∀ line ∈ lines, '\n' ∉ line)
    {p q : Position} (hline : q.line = p.line) {found : List (Word × Json)}
    (h : Reads p (['\n'].intercalate lines) found) :
    Reads q (['\n'].intercalate (lines.map Text.stripped)) found := by
  induction lines generalizing p q found with
  | nil => exact absurd rfl hsome
  | cons line lines ih =>
    obtain ⟨hfirst, hothers⟩ := List.forall_mem_cons.1 hlines
    have hfirst' : '\n' ∉ Text.stripped line := fun h => hfirst (Text.mem_of_mem_stripped h)
    cases lines with
    | nil =>
      rw [List.intercalate_singleton, reads_iff_of_line hfirst] at h
      obtain ⟨words, hwords, rfl⟩ := h
      rw [List.map_singleton, List.intercalate_singleton, reads_iff_of_line hfirst', hline]
      exact ⟨words, lexed_stripped hwords, rfl⟩
    | cons next lines =>
      rw [List.intercalate_cons_cons, List.append_assoc, List.singleton_append, reads_above_iff hfirst] at h
      obtain ⟨words, others, hwords, hbelow, rfl⟩ := h
      rw [List.map_cons, List.map_cons, List.intercalate_cons_cons, List.append_assoc, List.singleton_append,
        reads_above_iff hfirst', hline]
      exact ⟨words, others, lexed_stripped hwords, ih (List.cons_ne_nil _ _) hothers rfl hbelow, rfl⟩

end Lexer

namespace Text

def linesOf (source : String) : List String :=
  (source.toList.splitOn '\n').map String.ofList

def strippedLines (source : String) : String :=
  String.intercalate "\n" ((linesOf source).map strip)

theorem toList_strippedLines (source : String) :
    (strippedLines source).toList = ['\n'].intercalate ((source.toList.splitOn '\n').map stripped) := by
  have hlines : ((linesOf source).map strip).map String.toList = (source.toList.splitOn '\n').map stripped := by
    rw [linesOf, List.map_map, List.map_map]
    refine List.map_congr_left fun line _ => ?_
    simp [strip]
  rw [strippedLines, String.toList_intercalate, hlines]
  rfl

end Text

/-- A text that scans and has a word scans to the same words on the same lines when its lines are stripped. -/
theorem scan_strippedLines {source : String} {tokens : List Token} (h : scan source = .ok tokens)
    (hsome : tokens.dropLast ≠ []) :
    ∃ again, scan (Text.strippedLines source) = .ok again ∧ again.map Token.lined = tokens.map Token.lined := by
  have hsource : source ≠ "" := by
    rintro rfl
    cases h
  rw [scan_eq hsource] at h
  have hreads : Lexer.Reads (.counted []) (['\n'].intercalate (source.toList.splitOn '\n'))
      (tokens.map Token.lined) := by
    rw [List.intercalate_splitOn]
    exact ⟨tokens, h, rfl⟩
  obtain ⟨again, hagain, hsame⟩ := hreads.stripped (List.splitOn_ne_nil _ _)
    (fun _ hline => Text.not_mem_of_mem_splitOn hline) (q := .counted []) rfl
  rw [← Text.toList_strippedLines] at hagain
  refine ⟨again, ?_, hsame⟩
  rwa [scan_eq]
  -- Without any text there would be no word.
  intro hempty
  rw [hempty] at hagain
  cases hagain
  have hlength := congrArg List.length hsame
  rw [List.length_map, List.length_map] at hlength
  exact hsome (List.length_eq_zero_iff.1 (by rw [List.length_dropLast, ← hlength]; rfl))

end DiceScript
