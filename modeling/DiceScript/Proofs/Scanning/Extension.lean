import DiceScript.Machine.Run
import DiceScript.Proofs.Scanning.Offences

/-!
# Texts that go on

A scan that goes wrong before the end of its text goes wrong in the same way however the text goes on. Every
word before the problem stays what it is, because the scan has seen the character behind it, or both of them where
it looks at two, and so does the problem, unless it is that the text ends. A line break, on the other hand, ends
whatever the end of a text ends. `Comes` says how far a scan has come, and it is carried over to the longer text
word by word.
-/

namespace DiceScript

namespace ScanError

/-- Whether a cause is seen in the offending text without looking for its end. -/
def Cause.Seen (cause : Cause) (offending : List Char) : Prop :=
  match cause with
  | .malformed _ found => found ≠ none
  | .unterminated => '\n' ∈ offending
  | .unexpected _ => True
  | .noSource => False

/-- Whether what is wrong with a text is that it ends: an operator is half written, or a string literal is open on
the last line. -/
def AtEnd (e : ScanError) (source : String) : Prop :=
  match e.cause with
  | .malformed _ found => found = none
  | .unterminated => e.position.line = 1 + source.toList.count '\n'
  | .noSource | .unexpected _ => False

end ScanError

namespace Lexer

/-! What is taken at a character, if the text goes on. -/

theorem extra_le {c : Char} {rest : List Char} {found : Munch} (h : munch c rest = .ok found) :
    found.extra ≤ rest.length := by
  have hrun (p : Char → Bool) (cs : List Char) : (cs.takeWhile p).length ≤ cs.length :=
    (List.takeWhile_sublist p).length_le
  cases begins c with
  | operator hmunch =>
    have hoperator := hmunch rest
    rw [h] at hoperator
    unfold operator? at hoperator
    split at hoperator <;> cases hoperator <;> simp [single]
  | quote _ hmunch =>
    rw [hmunch] at h
    simp only [stringLiteral] at h
    split at h
    · next after hafter =>
      cases h
      have hlength := congrArg List.length hafter
      rw [List.length_drop, List.length_cons] at hlength
      dsimp only
      omega
    · cases h
  | punctuation _ hmunch | blank _ hmunch =>
    rw [hmunch] at h
    cases h
    exact Nat.zero_le _
  | comment _ hmunch =>
    rw [hmunch] at h
    cases h
    exact hrun _ rest
  | digit hmunch =>
    rw [hmunch] at h
    cases h
    unfold number
    split
    · split
      · next after =>
        split
        · exact Nat.zero_le _
        · simpa [single] using hrun Text.isAsciiDigit after
      · exact Nat.zero_le _
    · exact hrun _ rest
  | letter hmunch =>
    rw [hmunch] at h
    cases h
    exact hrun _ rest
  | nothing hmunch =>
    rw [hmunch] at h
    cases h

/-- A run ends where it did if a character behind it has been seen, or if one comes next that is not of its class. -/
theorem takeWhile_append_of_seen {p : Char → Bool} {d : Char} (hd : p d = false) {rest back : List Char}
    (hseen : (rest.takeWhile p).length < rest.length ∨ back.head? = some d) :
    (rest ++ back).takeWhile p = rest.takeWhile p := by
  rw [List.takeWhile_append]
  split
  · next hall =>
    rcases hseen with hseen | hseen
    · omega
    · obtain ⟨after, rfl⟩ := List.head?_eq_some_iff.1 hseen
      rw [List.takeWhile_cons, hd, if_neg (by decide), List.append_nil]
      exact ((List.takeWhile_sublist p).eq_of_length hall).symm
  · rfl

/-- An operator is found out by two characters behind its first one. -/
theorem operator?_pair (c d e : Char) (rest : List Char) :
    operator? c (d :: e :: rest) = operator? c [d, e] := by
  unfold operator?
  by_cases he : e = '='
  · subst he
    split <;> simp_all
    next hnone hafter => exact hnone _ hafter.2.symm
  · split <;> simp_all
    next hafter =>
      obtain ⟨rfl, rfl⟩ := hafter
      rfl

/-- No operator goes on with a blank. -/
theorem ne_of_mem_blanks {d : Char} (hd : d ∈ blanks) :
    d ≠ '=' ∧ d ≠ '-' ∧ d ≠ '>' ∧ d ≠ '|' ∧ d ≠ '1' ∧ d ≠ '2' ∧ d ≠ '/' ∧ d ≠ '.' := by
  simp only [blanks, List.mem_cons, List.not_mem_nil, or_false] at hd
  rcases hd with rfl | rfl | rfl | rfl <;> decide

/-- A blank completes no half-written operator. -/
theorem incomplete_append {half : Half} {rest : List Char} (h : ∀ c ∈ half.completions, rest.head? ≠ some c) {d : Char}
    (hd : d ∈ blanks) (back : List Char) : ∀ c ∈ half.completions, (rest ++ d :: back).head? ≠ some c := by
  cases rest with
  | nil =>
    obtain ⟨hequal, -, habove, hbar, hone, htwo, -, hdot⟩ := ne_of_mem_blanks hd
    cases half <;> simp [Half.completions, hequal, habove, hbar, hone, htwo, hdot]
  | cons e rest => exact h

theorem operator?_append {c d : Char} (hd : d ∈ blanks) {rest back : List Char} {found : Munch}
    (h : operator? c rest = some (.ok found))
    (hseen : found.extra < rest.length ∨ back.head? = some d) :
    operator? c (rest ++ back) = some (.ok found) := by
  rcases rest with _ | ⟨d, _ | ⟨e, rest⟩⟩
  · obtain ⟨after, rfl⟩ := List.head?_eq_some_iff.1 (hseen.resolve_left (by simp))
    have hother := ne_of_mem_blanks hd
    clear hd
    unfold operator? at h
    split at h <;> simp_all [operator?]
  · rcases back with _ | ⟨f, back⟩
    · rwa [List.append_nil]
    · rw [List.cons_append, List.nil_append, operator?_pair]
      unfold operator? at h
      split at h <;> simp_all [operator?]
  · rw [List.cons_append, List.cons_append, operator?_pair, ← operator?_pair c d e rest]
    exact h

theorem stringLiteral_append {rest back : List Char} {found : Munch} (h : stringLiteral rest = .ok found) :
    stringLiteral (rest ++ back) = .ok found := by
  simp only [stringLiteral] at h ⊢
  split at h
  · next after hafter =>
    have hbody : (rest.takeWhile fun c => c ≠ '\x22' && c ≠ '\n').length < rest.length := by
      have hlength := congrArg List.length hafter
      rw [List.length_drop, List.length_cons] at hlength
      omega
    rw [takeWhile_append_of_seen (d := '\n') (by decide) (.inl hbody), List.drop_append_of_le_length hbody.le, hafter]
    exact h
  · cases h

theorem number_append {c d : Char} (hdigit : Text.isAsciiDigit d = false) (hother : d ≠ '.') {rest back : List Char}
    (hseen : (number c rest).extra < rest.length ∨ back.head? = some d) :
    number c (rest ++ back) = number c rest := by
  by_cases hc : c = '0'
  · subst hc
    by_cases hpoint : rest.head? = some '.'
    · obtain ⟨after, rfl⟩ := List.head?_eq_some_iff.1 hpoint
      have hhead : (after ++ back).head? = some '.' ↔ after.head? = some '.' := by
        rcases after with _ | ⟨d, after⟩
        · rcases hseen with hseen | hseen
          · exact absurd hseen (by decide)
          · simp [hseen, hother]
        · rfl
      simp only [number, if_true, List.cons_append, hhead] at hseen ⊢
      split
      · rfl
      · next hreal =>
        rw [if_neg hreal] at hseen
        rw [takeWhile_append_of_seen hdigit (by simpa [single] using hseen)]
    · have hpoint' : (rest ++ back).head? ≠ some '.' := by
        rcases rest with _ | ⟨d, rest⟩
        · rw [List.nil_append, hseen.resolve_left (by simp)]
          exact fun h => hother (Option.some.inj h)
        · exact hpoint
      rw [number_zero hpoint, number_zero hpoint']
  · simp only [number, hc, if_false, single, List.length_cons, Nat.add_sub_cancel] at hseen ⊢
    rw [takeWhile_append_of_seen hdigit hseen]

/-- What is taken at a character is taken again if the text goes on, once a character behind it has been seen or if
the text goes on with a blank, which for a comment must be a line break. -/
theorem munch_append_blank {c d : Char} (hd : d ∈ blanks) (hline : c = '\\' → d = '\n') {rest back : List Char}
    {found : Munch} (h : munch c rest = .ok found) (hseen : found.extra < rest.length ∨ back.head? = some d) :
    munch c (rest ++ back) = .ok found := by
  have houtside : Text.isAsciiDigit d = false ∧ Text.isLetter d = false := by
    simp only [blanks, List.mem_cons, List.not_mem_nil, or_false] at hd
    rcases hd with rfl | rfl | rfl | rfl <;> decide
  cases begins c with
  | operator hmunch =>
    have hoperator := operator?_append hd (h ▸ hmunch rest) hseen
    rw [hmunch] at hoperator
    exact Option.some.inj hoperator
  | quote _ hmunch =>
    rw [hmunch] at h ⊢
    exact stringLiteral_append h
  | punctuation _ hmunch | blank _ hmunch =>
    rw [hmunch] at h ⊢
    exact h
  | comment hc hmunch =>
    rw [hmunch] at h ⊢
    cases h
    rw [takeWhile_append_of_seen (by simp [hline hc]) hseen]
  | digit hmunch =>
    rw [hmunch] at h ⊢
    cases h
    rw [number_append houtside.1 (ne_of_mem_blanks hd).2.2.2.2.2.2.2 hseen]
  | letter hmunch =>
    rw [hmunch] at h ⊢
    cases h
    simp only [letters, single, List.length_cons, Nat.add_sub_cancel] at hseen ⊢
    rw [takeWhile_append_of_seen houtside.2 hseen]
  | nothing hmunch =>
    rw [hmunch] at h
    cases h

theorem munch_append {c : Char} {rest back : List Char} {found : Munch} (h : munch c rest = .ok found)
    (hseen : found.extra < rest.length ∨ back.head? = some '\n') : munch c (rest ++ back) = .ok found :=
  munch_append_blank (by decide) (fun _ => rfl) h hseen

/-! What is wrong at a character, if the text goes on. -/

theorem munch_half (half : Half) {after : List Char} (h : ∀ d ∈ half.completions, after.head? ≠ some d)
    {c : Char} {rest : List Char} (hcut : c :: rest = half.spelling ++ after) :
    munch c rest = .error (.malformed half after.head?) := by
  cases half
  all_goals
    simp only [Half.spelling, List.cons_append, List.nil_append, List.cons.injEq] at hcut
    rw [hcut.1, hcut.2]
    rcases after with _ | ⟨d, after⟩ <;> simp_all [munch, punctuation?, operator?, Half.completions]

theorem stringLiteral_open {body after : List Char} (hquote : '\x22' ∉ body) (hline : '\n' ∉ body)
    (hend : after.head? = none ∨ after.head? = some '\n') :
    stringLiteral (body ++ after) = .error .unterminated := by
  have hbody : (body ++ after).takeWhile (fun c => c ≠ '\x22' && c ≠ '\n') = body := by
    rw [List.takeWhile_append_of_pos]
    · rcases after with _ | ⟨d, after⟩ <;> simp_all
    · intro c hc
      simp [ne_of_mem_of_not_mem hc hquote, ne_of_mem_of_not_mem hc hline]
  rw [stringLiteral, hbody, List.drop_left]
  rcases after with _ | ⟨d, after⟩
  · rfl
  · obtain rfl : d = '\n' := by simpa using hend
    rfl

/-- Every first character of an operator can be followed by something that makes it one. -/
theorem exists_munch_ok {c : Char} (h : ∀ rest, operator? c rest = some (munch c rest)) :
    ∃ rest found, munch c rest = .ok found := by
  cases hmunch : munch c [] with
  | ok found => exact ⟨[], found, hmunch⟩
  | error cause =>
    have hoperator := h []
    rw [hmunch] at hoperator
    unfold operator? at hoperator
    split at hoperator <;> cases hoperator
    · exact ⟨['='], _, rfl⟩
    · exact ⟨['|'], _, rfl⟩
    · exact ⟨['1'], _, rfl⟩
    · next hnone => cases hnone
    · exact ⟨['.'], _, rfl⟩

/-- Whatever offends stops a scan. -/
theorem munch_of_offends {c : Char} {rest : List Char} {cause : ScanError.Cause} (h : Offends (c :: rest) cause) :
    munch c rest = .error cause := by
  generalize hcs : c :: rest = cs at h
  cases h with
  | noSource => cases hcs
  | malformed half h => exact munch_half half h hcs
  | unterminated hquote hline hend =>
    cases hcs
    exact stringLiteral_open hquote hline hend
  | unexpected _ h =>
    cases hcs
    cases begins c with
    | operator hmunch =>
      obtain ⟨after, found, hfound⟩ := exists_munch_ok hmunch
      exact absurd hfound (h after found)
    | quote _ hmunch => exact absurd (hmunch ['\x22']) (h _ _)
    | punctuation _ hmunch | comment _ hmunch | blank _ hmunch | digit hmunch | letter hmunch =>
      exact absurd (hmunch rest) (h _ _)
    | nothing hmunch => exact hmunch rest

end Lexer

theorem Offends.ne_noSource {offending : List Char} {cause : ScanError.Cause} (h : Offends offending cause)
    (hsome : offending ≠ []) : cause ≠ .noSource := by
  rintro rfl
  cases h
  exact hsome rfl

/-- An offence that is seen without looking for the end of the text stays one. -/
theorem Offends.append {offending : List Char} {cause : ScanError.Cause} (h : Offends offending cause)
    (hseen : cause.Seen offending) (back : List Char) : Offends (offending ++ back) cause := by
  cases h with
  | noSource => exact absurd hseen id
  | malformed half h =>
    next rest =>
    obtain ⟨d, hd⟩ := Option.ne_none_iff_exists'.1 hseen
    have hhead : (rest ++ back).head? = rest.head? := by simp [List.head?_append, hd]
    rw [List.append_assoc, ← hhead]
    exact .malformed half (hhead ▸ h)
  | @unterminated body rest hquote hline hend =>
    have hrest : rest.head? = some '\n' := by
      refine hend.resolve_left fun hnone => hline ?_
      rw [List.head?_eq_none_iff.1 hnone, List.append_nil] at hseen
      exact (List.mem_cons.1 hseen).resolve_left (by decide)
    rw [List.cons_append, List.append_assoc]
    exact .unterminated hquote hline (.inr (by simp [List.head?_append, hrest]))
  | unexpected rest h => exact .unexpected (rest ++ back) h

/-! How far a scan comes. -/

namespace Lexer

/-- From a text at a position a scan comes to what is left of it at another, having found the tokens between. -/
inductive Comes : Position → List Char → List Token → Position → List Char → Prop
  | here (p : Position) (cs : List Char) : Comes p cs [] p cs
  | next {p q : Position} {c : Char} {rest left : List Char} {found : Munch} {tokens : List Token}
    (hmunch : munch c rest = .ok found)
    (h : Comes (p.after (c :: rest.take found.extra)) (rest.drop found.extra) tokens q left) :
    Comes p (c :: rest) (found.words.map (·.at p) ++ tokens) q left

section

variable {p q : Position} {cs left : List Char} {tokens : List Token}

/-- What remains to be scanned decides how the scan ends. -/
theorem Comes.scanFrom_eq (h : Comes p cs tokens q left) :
    scanFrom p 0 cs = (scanFrom q 0 left).map (tokens ++ ·) := by
  induction h with
  | here p cs => cases scanFrom p 0 cs <;> rfl
  | next hmunch _ ih =>
    rw [scanFrom_of_munch hmunch, ih]
    generalize scanFrom _ 0 _ = result
    cases result with
    | error e => rfl
    | ok others => simp only [Except.map, List.append_assoc]

theorem Comes.cut (h : Comes p cs tokens q left) : ∃ passed, cs = passed ++ left ∧ q = p.after passed := by
  induction h with
  | here p cs => exact ⟨[], rfl, rfl⟩
  | @next p q c rest left found tokens _ _ ih =>
    obtain ⟨passed, hpassed, rfl⟩ := ih
    refine ⟨c :: rest.take found.extra ++ passed, ?_, ?_⟩
    · rw [List.append_assoc, ← hpassed, List.cons_append, List.take_append_drop]
    · rw [Position.after_append]

/-- A scan comes just as far if the text goes on. If it came to the end, then the text must go on with a line
break. -/
theorem Comes.append (h : Comes p cs tokens q left) (back : List Char)
    (hback : left ≠ [] ∨ back.head? = some '\n') : Comes p (cs ++ back) tokens q (left ++ back) := by
  induction h with
  | here p cs => exact .here p _
  | @next p q c rest left found tokens hmunch h ih =>
    have hextra := extra_le hmunch
    have hseen : found.extra < rest.length ∨ back.head? = some '\n' := by
      refine hback.imp_left fun hleft => ?_
      obtain ⟨passed, hpassed, -⟩ := h.cut
      by_contra hall
      rw [List.drop_eq_nil_of_le (by omega)] at hpassed
      exact hleft (List.append_eq_nil_iff.1 hpassed.symm).2
    rw [List.cons_append]
    refine .next (munch_append hmunch hseen) ?_
    rw [List.take_append_of_le_length hextra, List.drop_append_of_le_length hextra]
    exact ih hback

end

/-- A scan comes to the end of its text or to an offence. -/
theorem comes (p : Position) (cs : List Char) :
    (∃ tokens, Comes p cs tokens (p.after cs) []) ∨
      ∃ tokens q c rest cause, Comes p cs tokens q (c :: rest) ∧ munch c rest = .error cause := by
  -- A word may be of any length, so the induction is on how much is left.
  induction hsize : cs.length using Nat.strongRecOn generalizing p cs with
  | ind size ih =>
    cases cs with
    | nil => exact .inl ⟨[], .here p []⟩
    | cons c rest =>
      cases hmunch : munch c rest with
      | error cause => exact .inr ⟨[], p, c, rest, cause, .here p _, hmunch⟩
      | ok found =>
        have hshorter : (rest.drop found.extra).length < size := by
          rw [← hsize, List.length_drop, List.length_cons]
          omega
        rcases ih _ hshorter (p.after (c :: rest.take found.extra)) _ rfl with
          ⟨tokens, h⟩ | ⟨tokens, q, d, later, cause, h, hcause⟩
        · rw [← Position.after_append, List.cons_append, List.take_append_drop] at h
          exact .inl ⟨_, .next hmunch h⟩
        · exact .inr ⟨_, q, d, later, cause, .next hmunch h, hcause⟩

theorem comes_of_error {p : Position} {cs : List Char} {e : ScanError} (h : scanFrom p 0 cs = .error e) :
    ∃ tokens c rest, Comes p cs tokens e.position (c :: rest) ∧ munch c rest = .error e.cause := by
  rcases comes p cs with ⟨found, hcomes⟩ | ⟨found, q, c, rest, cause, hcomes, hcause⟩
  · rw [hcomes.scanFrom_eq] at h
    cases h
  · rw [hcomes.scanFrom_eq] at h
    simp only [scanFrom, hcause] at h
    cases h
    exact ⟨found, c, rest, hcomes, hcause⟩

/-- A scan that comes to an offence reports it there. -/
theorem Comes.scanFrom_eq_error {p q : Position} {cs offending : List Char} {tokens : List Token}
    {cause : ScanError.Cause} (h : Comes p cs tokens q offending) (hoffends : Offends offending cause)
    (hsome : offending ≠ []) : scanFrom p 0 cs = .error ⟨cause, q⟩ := by
  obtain ⟨c, rest, rfl⟩ := List.exists_cons_of_ne_nil hsome
  rw [h.scanFrom_eq, scanFrom, munch_of_offends hoffends]
  rfl

end Lexer

/-- A text that is not empty is scanned from its start. -/
theorem scan_eq {source : String} (h : source ≠ "") : scan source = Lexer.scanFrom (.counted []) 0 source.toList := by
  rw [scan, if_neg (by rwa [String.isEmpty_iff])]
  rfl

theorem append_ne_empty {source : String} (h : source ≠ "") (back : String) : source ++ back ≠ "" := by
  simp [h]

/-- Where the problem is not that the text ends, it is seen in the offending text. -/
theorem ScanError.AtEnd.seen_of_not {source : String} {e : ScanError} (h : ¬e.AtEnd source)
    {passed offending : List Char} (hcut : source.toList = passed ++ offending)
    (hposition : e.position = .counted passed) (hcause : e.cause ≠ .noSource) : e.cause.Seen offending := by
  obtain ⟨cause, position⟩ := e
  cases cause with
  | noSource => exact absurd rfl hcause
  | malformed half found => exact h
  | unexpected c => trivial
  | unterminated =>
    by_contra hline
    apply h
    change position.line = _
    have hnone : offending.count '\n' = 0 := List.count_eq_zero.2 hline
    rw [show position = _ from hposition, hcut, List.count_append, hnone]
    rfl

/-- A problem that is not that the text ends is found first however the text goes on. -/
theorem scan_append_eq_error {source : String} {e : ScanError} (hsome : source ≠ "") (h : scan source = .error e)
    (hend : ¬e.AtEnd source) (back : String) : scan (source ++ back) = .error e := by
  rw [scan_eq hsome] at h
  obtain ⟨tokens, c, rest, hcomes, hmunch⟩ := Lexer.comes_of_error h
  obtain ⟨passed, hcut, hposition⟩ := hcomes.cut
  rw [Position.after_counted, List.nil_append] at hposition
  have hoffends := Lexer.offends_munch hmunch
  have hseen : e.cause.Seen (c :: rest) :=
    ScanError.AtEnd.seen_of_not hend hcut hposition (hoffends.ne_noSource (List.cons_ne_nil c rest))
  rw [scan_eq (append_ne_empty hsome back), String.toList_append]
  exact (hcomes.append back.toList (.inl (List.cons_ne_nil c rest))).scanFrom_eq_error
    (hoffends.append hseen back.toList) (List.cons_ne_nil c _)

/-- A problem that is not that the text ends stays the first problem, with its place and its message, whatever is
written behind the text, and it is reported once. Whatever the problem is, the text before its place is empty or
scans. -/
theorem scan_fails_at_first_problem :
    (∀ (source : String) (e : ScanError), source ≠ "" → scan source = .error e → ¬e.AtEnd source →
      ∀ (back : String) (m : Machine), scan (source ++ back) = .error e ∧
        ∃ after, Eval.scanned (source ++ back) m = .ok (.error (.scan e)) after ∧
          after.reports = m.reports ++ [.scan e]) ∧
    ∀ (source : String) (e : ScanError), scan source = .error e →
      ∃ before rest, source.toList = before ++ rest ∧ e.position = .counted before ∧
        (before = [] ∨ ∃ tokens, scan (String.ofList before) = .ok tokens) := by
  constructor
  · intro source e hsome h hend back m
    have hagain := scan_append_eq_error hsome h hend back
    refine ⟨hagain, m.reported (.scan e), ?_, Machine.reports_reported m _⟩
    unfold Eval.scanned
    rw [hagain]
    rfl
  · intro source e h
    obtain ⟨before, offending, hcut, hposition, hbefore, -⟩ := scan_offends h
    exact ⟨before, offending, hcut, hposition, hbefore⟩

/-- A string literal that a line break leaves open is not closed by a quote on the next line. -/
theorem scan_fails_at_first_problem_on_line :
    let source := "1 \x22a\nb"
    let e : ScanError := ⟨.unterminated, ⟨1, 3⟩⟩
    let m := Machine.initial ⟨[], 0⟩ 0
    scan source = .error e ∧ ¬e.AtEnd source ∧ scan (source ++ "\x22") = .error e ∧
      ∃ after, Eval.scanned (source ++ "\x22") m = .ok (.error (.scan e)) after ∧ after.reports = [.scan e] := by
  intro source e m
  have h : scan source = .error e := by decide +kernel
  have hend : ¬e.AtEnd source := by
    change ¬((1 : Int) = 1 + source.toList.count '\n')
    decide +kernel
  exact ⟨h, hend, scan_fails_at_first_problem.1 source e (by decide) h hend "\x22" m⟩

end DiceScript
