import DiceScript.Proofs.Scanning.Rescanning

/-!
# Where a text goes wrong

A text that does not scan is cut in two: what comes before the offence, which is nothing or scans by itself, and
the offence, which begins at the place that is reported. That the first part scans is not obvious, since a word
may look at characters behind it. But a word that has been taken is taken again if the text ends anywhere behind
it, with one exception: a zero before two points is a number, while a zero before a single point is a real.
-/

namespace DiceScript

namespace Half

def spelling : Half → List Char
  | .colon => [':']
  | .bar => ['|']
  | .percent => ['%']
  | .equalSlash => ['=', '/']
  | .dot => ['.']

/-- The characters one of which is still missing. -/
def completions : Half → List Char
  | .colon => ['=']
  | .bar => ['|', '>']
  | .percent => ['1', '2']
  | .equalSlash => ['=']
  | .dot => ['.']

end Half

/-- A text begins with something that is no word, no blank and no comment. -/
inductive Offends : List Char → ScanError.Cause → Prop
  | noSource : Offends [] .noSource
  | malformed (half : Half) {rest : List Char} (h : ∀ c ∈ half.completions, rest.head? ≠ some c) :
    Offends (half.spelling ++ rest) (.malformed half rest.head?)
  | unterminated {body rest : List Char} (hquote : '\x22' ∉ body) (hline : '\n' ∉ body)
    (hend : rest.head? = none ∨ rest.head? = some '\n') : Offends ('\x22' :: (body ++ rest)) .unterminated
  | unexpected {c : Char} (rest : List Char) (h : ∀ after found, Lexer.munch c after ≠ .ok found) :
    Offends (c :: rest) (.unexpected c)

namespace Lexer

/-! What is wrong where nothing can be taken. -/

theorem offends_operator {c : Char} {rest : List Char} {cause : ScanError.Cause}
    (h : operator? c rest = some (.error cause)) : Offends (c :: rest) cause := by
  have hhead {c : Char} {cs : List Char} (h : ∀ tail, cs = c :: tail → False) : cs.head? ≠ some c := by
    intro hhead
    obtain ⟨tail, htail⟩ := List.head?_eq_some_iff.1 hhead
    exact h tail htail
  unfold operator? at h
  split at h <;> cases h
  · next hassign => exact .malformed .colon (by simpa [Half.completions] using hhead hassign)
  · next hbeside habove =>
    exact .malformed .bar (by simpa [Half.completions] using ⟨hhead hbeside, hhead habove⟩)
  · next hfirst hsecond =>
    exact .malformed .percent (by simpa [Half.completions] using ⟨hhead hfirst, hhead hsecond⟩)
  · next after hunequal => exact .malformed .equalSlash (by simpa [Half.completions] using hhead hunequal)
  · next hdots => exact .malformed .dot (by simpa [Half.completions] using hhead hdots)

theorem offends_stringLiteral {rest : List Char} {cause : ScanError.Cause}
    (h : stringLiteral rest = .error cause) : Offends ('\x22' :: rest) cause := by
  simp only [stringLiteral] at h
  split at h
  · cases h
  · next hclosed =>
    cases h
    have hbody (c : Char) (hc : c ∈ rest.takeWhile fun c => c ≠ '\x22' && c ≠ '\n') : c ≠ '\x22' ∧ c ≠ '\n' := by
      simpa using List.mem_takeWhile_imp hc
    rw [drop_length_takeWhile] at hclosed
    have hend : (rest.dropWhile fun c => c ≠ '\x22' && c ≠ '\n').head? = none ∨
        (rest.dropWhile fun c => c ≠ '\x22' && c ≠ '\n').head? = some '\n' := by
      cases hafter : rest.dropWhile fun c => c ≠ '\x22' && c ≠ '\n' with
      | nil => exact .inl rfl
      | cons c after =>
        have hc := List.head?_dropWhile_not (fun c => c ≠ '\x22' && c ≠ '\n') rest
        rw [hafter] at hc hclosed
        have hquote : c ≠ '\x22' := by
          rintro rfl
          exact hclosed after rfl
        right
        simpa [hquote] using hc
    have hoffends := Offends.unterminated (fun hc => (hbody _ hc).1 rfl) (fun hc => (hbody _ hc).2 rfl) hend
    rwa [List.takeWhile_append_dropWhile] at hoffends

theorem offends_munch {c : Char} {rest : List Char} {cause : ScanError.Cause}
    (h : munch c rest = .error cause) : Offends (c :: rest) cause := by
  cases begins c with
  | operator hmunch => exact offends_operator (h ▸ hmunch rest)
  | quote hc hmunch =>
    subst hc
    rw [hmunch] at h
    exact offends_stringLiteral h
  | nothing hmunch =>
    rw [hmunch] at h
    cases h
    refine .unexpected rest fun after found hfound => ?_
    rw [hmunch] at hfound
    cases hfound
  | punctuation _ hmunch | comment _ hmunch | blank _ hmunch | digit hmunch | letter hmunch =>
    rw [hmunch] at h
    cases h

/-! What has been taken is taken again if the text ends earlier. -/

theorem takeWhile_of_append {p : Char → Bool} {front back : List Char}
    (h : ((front ++ back).takeWhile p).length ≤ front.length) :
    front.takeWhile p = (front ++ back).takeWhile p := by
  rw [List.takeWhile_append] at h ⊢
  split at h
  · next hall =>
    have hback : back.takeWhile p = [] := by
      rw [List.length_append] at h
      exact List.eq_nil_of_length_eq_zero (by omega)
    rw [if_pos hall, hback, List.append_nil]
    exact (List.takeWhile_sublist p).eq_of_length hall
  · next hsome => rw [if_neg hsome]

theorem operator?_of_append {c : Char} {front back : List Char} {found : Munch}
    (h : operator? c (front ++ back) = some (.ok found)) (hextra : found.extra ≤ front.length) :
    operator? c front = some (.ok found) := by
  unfold operator? at h
  split at h <;> cases h
  all_goals
    simp only [single, List.length_cons, List.length_nil] at hextra
    -- An operator looks at two characters behind it at most.
    rcases front with _ | ⟨d, _ | ⟨e, front⟩⟩ <;> simp_all [operator?]

theorem stringLiteral_of_append {front back : List Char} {found : Munch}
    (h : stringLiteral (front ++ back) = .ok found) (hextra : found.extra ≤ front.length) :
    stringLiteral front = .ok found := by
  simp only [stringLiteral] at h
  split at h
  · next later hlater =>
    cases h
    dsimp only at hextra
    have hbody := @takeWhile_of_append _ front back (Nat.le_of_succ_le hextra)
    rw [← hbody] at hlater hextra ⊢
    rw [List.drop_append_of_le_length (by omega)] at hlater
    cases hdrop : front.drop (front.takeWhile fun c => c ≠ '\x22' && c ≠ '\n').length with
    | nil =>
      rw [List.drop_eq_nil_iff] at hdrop
      omega
    | cons d after =>
      rw [hdrop, List.cons_append] at hlater
      cases hlater
      simp only [stringLiteral, hdrop]
  · cases h

theorem number_zero {cs : List Char} (h : cs.head? ≠ some '.') :
    number '0' cs = single .integer ['0'] (.integer 0) := by
  simp only [number, if_true]
  split
  · exact absurd rfl h
  · rfl

/-- A zero needs to see whether one point or two come after it. -/
theorem number_of_append {c : Char} {front back : List Char}
    (hextra : (number c (front ++ back)).extra ≤ front.length)
    (hpoint : ¬(c = '0' ∧ front = ['.'] ∧ back.head? = some '.')) :
    number c front = number c (front ++ back) := by
  by_cases hc : c = '0'
  · subst hc
    by_cases hfirst : (front ++ back).head? = some '.'
    · obtain ⟨after, hafter⟩ := List.head?_eq_some_iff.1 hfirst
      rcases front with _ | ⟨d, front⟩
      · rw [List.nil_append] at hafter hextra ⊢
        subst hafter
        simp only [number, if_true] at hextra ⊢
        split at hextra
        · next hrange => rw [if_pos hrange]
        · simp [single] at hextra
      · rw [List.cons_append, List.cons.injEq] at hafter
        obtain ⟨rfl, rfl⟩ := hafter
        simp only [number, if_true, List.cons_append] at hextra ⊢
        have hhead : front.head? = some '.' ↔ (front ++ back).head? = some '.' := by
          rcases front with _ | ⟨e, front⟩
          · simpa using hpoint
          · rfl
        simp only [hhead]
        split at hextra
        · next hrange => rw [if_pos hrange, if_pos hrange]
        · next hreal =>
          rw [if_neg hreal, if_neg hreal]
          have hrun := @takeWhile_of_append Text.isAsciiDigit front back
            (by simpa [single] using hextra)
          rw [hrun]
    · have hfront : front.head? ≠ some '.' := by
        rcases front with _ | ⟨d, front⟩
        · simp
        · exact hfirst
      rw [number_zero hfirst, number_zero hfront]
  · simp only [number, hc, if_false, single, List.length_cons, Nat.add_sub_cancel] at hextra ⊢
    rw [takeWhile_of_append hextra]

theorem munch_of_append {c : Char} {front back : List Char} {found : Munch}
    (h : munch c (front ++ back) = .ok found) (hextra : found.extra ≤ front.length)
    (hpoint : ¬(c = '0' ∧ front = ['.'] ∧ back.head? = some '.')) : munch c front = .ok found := by
  cases begins c with
  | operator hmunch =>
    have hfront := operator?_of_append (h ▸ hmunch (front ++ back)) hextra
    rw [hmunch] at hfront
    exact Option.some.inj hfront
  | quote _ hmunch =>
    rw [hmunch] at h ⊢
    exact stringLiteral_of_append h hextra
  | punctuation _ hmunch | blank _ hmunch =>
    rw [hmunch] at h ⊢
    exact h
  | comment _ hmunch =>
    rw [hmunch] at h ⊢
    cases h
    rw [takeWhile_of_append hextra]
  | digit hmunch =>
    rw [hmunch] at h ⊢
    cases h
    rw [number_of_append hextra hpoint]
  | letter hmunch =>
    rw [hmunch] at h ⊢
    cases h
    simp only [letters, single, List.length_cons, Nat.add_sub_cancel] at hextra ⊢
    rw [takeWhile_of_append hextra]
  | nothing hmunch =>
    rw [hmunch] at h
    cases h

theorem scanFrom_of_munch {p : Position} {c : Char} {rest : List Char} {found : Munch}
    (h : munch c rest = .ok found) :
    scanFrom p 0 (c :: rest) =
      (scanFrom (p.after (c :: rest.take found.extra)) 0 (rest.drop found.extra)).map
        ((found.words.map (·.at p)) ++ ·) := by
  simp only [scanFrom, h]
  rw [scanFrom_eq_drop]
  rfl

/-- A zero is not told from the point behind it: a point that stands alone does not scan. -/
theorem not_range {taken : List Char} {found : Munch} {front offending : List Char} {p : Position}
    {tokens : List Token} {c : Char} (hmunch : munch c (taken ++ front ++ offending) = .ok found)
    (htaken : taken.length = found.extra) (hfront : scanFrom p 0 front = .ok tokens) :
    ¬(c = '0' ∧ taken ++ front = ['.'] ∧ offending.head? = some '.') := by
  rintro ⟨rfl, hpoint, hoffending⟩
  obtain ⟨after, rfl⟩ := List.head?_eq_some_iff.1 hoffending
  rw [hpoint] at hmunch
  have hfound : found = single .integer ['0'] (.integer 0) := by
    cases hmunch
    rfl
  rw [hfound] at htaken
  rw [List.eq_nil_of_length_eq_zero htaken, List.nil_append] at hpoint
  rw [hpoint] at hfront
  cases hfront

/-- A text that goes wrong has gone right up to the offence. -/
theorem scanFrom_offends {before cs : List Char} {e : ScanError}
    (h : scanFrom (.counted before) 0 cs = .error e) :
    ∃ front offending tokens, cs = front ++ offending ∧ e.position = .counted (before ++ front) ∧
      scanFrom (.counted before) 0 front = .ok tokens ∧ Offends offending e.cause := by
  -- A word may be of any length, so the induction is on how much is left.
  induction hsize : cs.length using Nat.strongRecOn generalizing before cs with
  | ind size ih =>
    cases cs with
    | nil => cases h
    | cons c rest =>
      cases hmunch : munch c rest with
      | error cause =>
        simp only [scanFrom, hmunch] at h
        cases h
        exact ⟨[], c :: rest, _, rfl, by rw [List.append_nil], rfl, offends_munch hmunch⟩
      | ok found =>
        have hrest : scanFrom (.counted (before ++ c :: rest.take found.extra)) 0
            (rest.drop found.extra) = .error e := by
          rw [scanFrom_of_munch hmunch, Position.after_counted] at h
          generalize scanFrom _ 0 (rest.drop found.extra) = result at h ⊢
          cases result with
          | ok tokens => cases h
          | error e => exact h
        have hshorter : (rest.drop found.extra).length < size := by
          rw [← hsize, List.length_drop, List.length_cons]
          omega
        obtain ⟨front, offending, tokens, hcut, hposition, hfront, hoffends⟩ := ih _ hshorter hrest rfl
        -- The text did not end with what was taken, since the end is no offence.
        have htaken : (rest.take found.extra).length = found.extra := by
          rw [List.length_take]
          apply Nat.min_eq_left
          by_contra hlong
          rw [List.drop_eq_nil_of_le (by omega)] at hrest
          cases hrest
        have hwhole : rest = rest.take found.extra ++ front ++ offending := by
          rw [List.append_assoc, ← hcut, List.take_append_drop]
        have hmunched : munch c (rest.take found.extra ++ front) = .ok found := by
          rw [hwhole] at hmunch
          refine munch_of_append hmunch ?_ (not_range hmunch htaken hfront)
          rw [List.length_append]
          omega
        have hagain : scanFrom (.counted before) 0 (c :: rest.take found.extra ++ front) =
            .ok (found.words.map (·.at (.counted before)) ++ tokens) := by
          rw [List.cons_append, scanFrom_of_munch hmunched, List.take_left' htaken, List.drop_left' htaken,
            Position.after_counted, hfront]
          rfl
        refine ⟨c :: rest.take found.extra ++ front, offending, _, ?_, ?_, hagain, hoffends⟩
        · rw [List.cons_append, List.cons_append, ← hwhole]
        · rw [hposition, List.append_assoc]

end Lexer

/-- A text that does not scan is nothing or goes right up to an offence. What comes before the offence is nothing or
scans by itself, and the problem is reported at the line and column where the offence begins. -/
theorem scan_offends {source : String} {e : ScanError} (h : scan source = .error e) :
    ∃ before offending, source.toList = before ++ offending ∧ e.position = .counted before ∧
      (before = [] ∨ ∃ tokens, scan (String.ofList before) = .ok tokens) ∧ Offends offending e.cause := by
  unfold scan at h
  split at h
  · next hempty =>
    cases h
    rw [String.isEmpty_iff] at hempty
    exact ⟨[], [], by rw [hempty]; rfl, rfl, .inl rfl, .noSource⟩
  · obtain ⟨before, offending, tokens, hcut, hposition, hbefore, hoffends⟩ :=
      @Lexer.scanFrom_offends [] _ _ h
    refine ⟨before, offending, hcut, hposition, ?_, hoffends⟩
    by_cases hsome : before = []
    · exact .inl hsome
    · have hnonempty : ¬(String.ofList before).isEmpty = true := by
        rw [String.isEmpty_iff, ← String.toList_inj, String.toList_ofList]
        exact hsome
      refine .inr ⟨tokens, ?_⟩
      rw [scan, if_neg hnonempty, String.toList_ofList]
      exact hbefore

end DiceScript
