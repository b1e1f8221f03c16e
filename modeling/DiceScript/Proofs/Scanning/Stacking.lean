import DiceScript.Proofs.Scanning.Extension

/-!
# Texts one above the other

A text is scanned line by line: nothing that is read on one line is changed by the next one. If two texts are
written one above the other, then the tokens are those of the first text and after them those of the second, which
are only as many lines lower as the first text has. A problem of the first text remains a problem of the same kind
at the same place, because a line break ends what the end of a text ends, and a problem of the second text is
found if there is none in the first.
-/

namespace DiceScript

namespace ScanError

inductive Kind where
  | noSource | malformedToken | unexpectedCharacter | unterminatedString
deriving DecidableEq

def Cause.kind : Cause → Kind
  | .noSource => .noSource
  | .malformed _ _ => .malformedToken
  | .unexpected _ => .unexpectedCharacter
  | .unterminated => .unterminatedString

end ScanError

/-! Places that are lower by some lines. -/

def Position.lowered (k : Nat) (p : Position) : Position := ⟨p.line + k, p.column⟩

/-- Only a line that is a number can be counted on. -/
def Mark.lowered (k : Nat) (mark : Mark) : Mark :=
  match mark.line with
  | .integer line => ⟨.integer (line + k), mark.column⟩
  | _ => mark

def Token.lowered (k : Nat) (t : Token) : Token := ⟨t.toWord, t.position.lowered k⟩

def ScanError.lowered (k : Nat) (e : ScanError) : ScanError := ⟨e.cause, e.position.lowered k⟩

@[simp] theorem Word.lowered_at (w : Word) (p : Position) (k : Nat) : (w.at p).lowered k = w.at (p.lowered k) := rfl

theorem Position.next_lowered (p : Position) (k : Nat) (c : Char) :
    (p.lowered k).next c = (p.next c).lowered k := by
  unfold next lowered
  split <;> simp [Int.add_right_comm]

theorem Position.counted_next_line (text : List Char) :
    (counted text).next '\n' = (counted []).lowered (1 + text.count '\n') := by
  simp only [next, lowered, counted, if_pos, List.count_nil, Position.mk.injEq]
  exact ⟨by omega, rfl⟩

namespace Lexer

def lowered (k : Nat) : Except ScanError (List Token) → Except ScanError (List Token)
  | .ok tokens => .ok (tokens.map (·.lowered k))
  | .error e => .error (e.lowered k)

theorem lowered_map (k : Nat) (words : List Word) (p : Position) (found : Except ScanError (List Token)) :
    lowered k (found.map (words.map (·.at p) ++ ·)) = (lowered k found).map (words.map (·.at (p.lowered k)) ++ ·) := by
  cases found with
  | error e => rfl
  | ok tokens => simp [lowered, Except.map, Function.comp_def]

/-- A text that begins some lines lower is scanned in the same way. -/
theorem scanFrom_lowered (k : Nat) (p : Position) (taken : Nat) (cs : List Char) :
    scanFrom (p.lowered k) taken cs = lowered k (scanFrom p taken cs) := by
  induction cs generalizing p taken with
  | nil => rfl
  | cons c rest ih =>
    cases taken with
    | succ taken =>
      simp only [scanFrom]
      rw [Position.next_lowered, ih]
    | zero =>
      simp only [scanFrom]
      cases munch c rest with
      | error cause => rfl
      | ok found =>
        simp only
        rw [lowered_map, Position.next_lowered, ih]

/-- A text that scans is passed to its end. -/
theorem comes_of_ok {p : Position} {cs : List Char} {tokens : List Token} (h : scanFrom p 0 cs = .ok tokens) :
    ∃ found, tokens = found ++ [Word.endOfInput.at (p.after cs)] ∧ Comes p cs found (p.after cs) [] := by
  rcases comes p cs with ⟨found, hcomes⟩ | ⟨found, q, c, rest, cause, hcomes, hcause⟩
  · rw [hcomes.scanFrom_eq] at h
    cases h
    exact ⟨found, rfl, hcomes⟩
  · rw [hcomes.scanFrom_eq_error (offends_munch hcause) (List.cons_ne_nil c rest)] at h
    cases h

/-- A line break is passed over. -/
theorem scanFrom_break (p : Position) (below : List Char) :
    scanFrom p 0 ('\n' :: below) = scanFrom (p.next '\n') 0 below := by
  have hline : munch '\n' below = .ok (silent 0) := rfl
  rw [scanFrom_of_munch hline]
  change Except.map ([] ++ ·) (scanFrom (p.next '\n') 0 below) = _
  cases scanFrom (p.next '\n') 0 below <;> rfl

/-- After a line break the scan goes on at the beginning of the next line. -/
theorem scanFrom_line (above below : List Char) :
    scanFrom (.counted above) 0 ('\n' :: below) =
      lowered (1 + above.count '\n') (scanFrom (.counted []) 0 below) := by
  rw [scanFrom_break, Position.counted_next_line, scanFrom_lowered]

end Lexer

/-- Before a line break there is the same kind of offence as at the end of the text. -/
theorem Offends.append_line {offending : List Char} {cause : ScanError.Cause} (h : Offends offending cause)
    (hsome : offending ≠ []) (back : List Char) :
    ∃ cause', Offends (offending ++ '\n' :: back) cause' ∧ cause'.kind = cause.kind := by
  cases h with
  | noSource => exact absurd rfl hsome
  | malformed half h =>
    next rest =>
    rw [List.append_assoc]
    exact ⟨_, .malformed half (Lexer.incomplete_append h (by decide) back), rfl⟩
  | @unterminated body rest hquote hline hend =>
    have hrest : (rest ++ '\n' :: back).head? = some '\n' := by
      rcases hend with hend | hend <;> simp [List.head?_append, hend]
    rw [List.cons_append, List.append_assoc]
    exact ⟨_, .unterminated hquote hline (.inr hrest), rfl⟩
  | unexpected rest h => exact ⟨_, .unexpected (rest ++ '\n' :: back) h, rfl⟩

/-- A text written below one that scans is found as many lines lower as that one has. -/
theorem scan_below {above below : String} (habove : above ≠ "") (hbelow : below ≠ "") {tokens : List Token}
    (h : scan above = .ok tokens) :
    ∃ found, tokens = found ++ [Word.endOfInput.at (.counted above.toList)] ∧
      scan (above ++ "\n" ++ below) =
        (Lexer.lowered (1 + above.toList.count '\n') (scan below)).map (found ++ ·) := by
  rw [scan_eq habove] at h
  obtain ⟨found, htokens, hcomes⟩ := Lexer.comes_of_ok h
  rw [Position.after_counted, List.nil_append] at htokens hcomes
  refine ⟨found, htokens, ?_⟩
  have hwhole : (above ++ "\n" ++ below).toList = above.toList ++ '\n' :: below.toList := by simp
  rw [scan_eq (append_ne_empty (append_ne_empty habove _) _), hwhole, scan_eq hbelow, ← Lexer.scanFrom_line]
  exact (hcomes.append ('\n' :: below.toList) (.inr rfl)).scanFrom_eq

/-- Whatever is written below a text that does not scan, there is the same kind of problem at the same place. -/
theorem scan_above_error {above : String} (habove : above ≠ "") (below : String) {e : ScanError}
    (h : scan above = .error e) :
    ∃ cause, cause.kind = e.cause.kind ∧ scan (above ++ "\n" ++ below) = .error ⟨cause, e.position⟩ := by
  rw [scan_eq habove] at h
  obtain ⟨tokens, c, rest, hcomes, hmunch⟩ := Lexer.comes_of_error h
  obtain ⟨cause, hoffends, hkind⟩ :=
    (Lexer.offends_munch hmunch).append_line (List.cons_ne_nil c rest) below.toList
  refine ⟨cause, hkind, ?_⟩
  have hwhole : (above ++ "\n" ++ below).toList = above.toList ++ '\n' :: below.toList := by simp
  rw [scan_eq (append_ne_empty (append_ne_empty habove _) _), hwhole]
  exact (hcomes.append _ (.inl (List.cons_ne_nil c rest))).scanFrom_eq_error hoffends (List.cons_ne_nil c _)

/-- Scanning goes line by line, over any two texts of which one stands above the other: the tokens of both come
one after the other, those below as many lines lower as there are above, and the first problem of the two is the
problem of the whole. -/
theorem scan_stacked {above below : String} (habove : above ≠ "") (hbelow : below ≠ "") :
    (∀ tokens others, scan above = .ok tokens → scan below = .ok others →
      ∃ found, tokens = found ++ [Word.endOfInput.at (.counted above.toList)] ∧
        scan (above ++ "\n" ++ below) =
          .ok (found ++ others.map (·.lowered (1 + above.toList.count '\n')))) ∧
    (∀ e, scan above = .error e →
      ∃ cause, cause.kind = e.cause.kind ∧ scan (above ++ "\n" ++ below) = .error ⟨cause, e.position⟩) ∧
    ∀ tokens e, scan above = .ok tokens → scan below = .error e →
      scan (above ++ "\n" ++ below) = .error ⟨e.cause, e.position.lowered (1 + above.toList.count '\n')⟩ := by
  refine ⟨?_, fun e h => scan_above_error habove below h, ?_⟩
  · intro tokens others h hothers
    obtain ⟨found, htokens, hscan⟩ := scan_below habove hbelow h
    refine ⟨found, htokens, ?_⟩
    rw [hscan, hothers]
    rfl
  · intro tokens e h he
    obtain ⟨found, -, hscan⟩ := scan_below habove hbelow h
    rw [hscan, he]
    rfl

/-- A comment ends with its line: what is below it is scanned, and here goes wrong. -/
theorem scan_stacked_comment :
    let die : List Token := [(⟨.die, .text "d", .null⟩ : Word).at ⟨1, 1⟩, Word.endOfInput.at ⟨1, 6⟩]
    scan "d \\ x" = .ok die ∧ scan "6 =/" = .error ⟨.malformed .equalSlash none, ⟨1, 3⟩⟩ ∧
      scan ("d \\ x" ++ "\n" ++ "6 =/") = .error ⟨.malformed .equalSlash none, ⟨2, 3⟩⟩ := by
  intro die
  have habove : scan "d \\ x" = .ok die := by decide +kernel
  have hbelow : scan "6 =/" = .error ⟨.malformed .equalSlash none, ⟨1, 3⟩⟩ := by decide +kernel
  exact ⟨habove, hbelow, (scan_stacked (by decide) (by decide)).2.2 die _ habove hbelow⟩

end DiceScript
