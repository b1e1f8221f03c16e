import DiceScript.Proofs.Scanning.Stripping
import DiceScript.Proofs.Sessions.Lines

/-!
# Scripts entered over several lines

A script that is entered line by line is stripped of the blanks at the ends of its lines before it is put together
again. If it scans, and is not cut short by a line that ends the entry, then what the session runs has the same words
on the same lines.
-/

namespace DiceScript

namespace Shell

theorem entry_append {lines : List String} (h : ∀ line ∈ lines, Text.strip line ≠ Session.entryEnd)
    (rest : List String) : entry (lines ++ Session.entryEnd :: rest) = (lines.map Text.strip, rest) := by
  induction lines with
  | nil =>
    have hend : Text.strip Session.entryEnd = Session.entryEnd := by decide
    rw [List.nil_append, entry, if_pos hend]
    rfl
  | cons line lines ih =>
    obtain ⟨hline, hlines⟩ := List.forall_mem_cons.1 h
    rw [List.cons_append, entry, if_neg hline, ih hlines]
    rfl

theorem multiline_eq (s : Session) :
    multiline s = .ok (String.intercalate "\n" (entry s.input).1) s.asked := rfl

theorem executeLine_multiline (fuel : Nat) (s : Session) :
    executeLine fuel "+multiline" s = execute fuel .multiline s := rfl

end Shell

/-- An entry over several lines keeps the script. Take a text that scans and has a word, and of which no line, once
stripped, ends an entry. If its lines and the line that ends an entry come first in the input of a session, then the
session reads up to that line and no further, and gets a text that scans to the same kinds, spellings and literals on
the same lines. That text is what the command runs. -/
theorem multiline_keeps_words (fuel : Nat) {source : String} {tokens : List Token} (hscan : scan source = .ok tokens)
    (hsome : tokens.dropLast ≠ []) (hend : ∀ line ∈ Text.linesOf source, Text.strip line ≠ Session.entryEnd)
    (s : Session) {rest : List String} (hinput : s.input = Text.linesOf source ++ Session.entryEnd :: rest) :
    ∃ entered again after, Shell.multiline s = .ok entered after ∧ after.input = rest ∧
      scan entered = .ok again ∧ again.map Token.lined = tokens.map Token.lined ∧
      Shell.executeLine fuel "+multiline" s = (Shell.run fuel entered 1 >>= fun _ => pure true) after := by
  obtain ⟨again, hagain, hsame⟩ := scan_strippedLines hscan hsome
  have hentry := Shell.entry_append hend rest
  rw [← hinput] at hentry
  have hentered : String.intercalate "\n" (Shell.entry s.input).1 = Text.strippedLines source := by
    rw [hentry]
    rfl
  have hrest : s.asked.input = rest := congrArg Prod.snd hentry
  refine ⟨_, again, s.asked, Shell.multiline_eq s, hrest, ?_, hsame, ?_⟩
  · rwa [hentered]
  · rw [Shell.executeLine_multiline, Session.execute_multiline]

/-- A blank at the end of a comment, which a script may hold only there, and blanks around a number. -/
theorem multiline_keeps_words_comment :
    let source := "d \\ x\u00a0\n\t6 "
    let tokens : List Token :=
      [(⟨.die, .text "d", .null⟩ : Word).at ⟨1, 1⟩, (⟨.integer, .text "6", .integer 6⟩ : Word).at ⟨2, 2⟩,
       Word.endOfInput.at ⟨2, 4⟩]
    let s := Session.initial (Machine.initial ⟨[], 0⟩ 0) ["d \\ x\u00a0", "\t6 ", "+done", "+quit"]
    scan source = .ok tokens ∧ (∀ line ∈ Text.linesOf source, Text.strip line ≠ Session.entryEnd) ∧
      ∃ entered again after, Shell.multiline s = .ok entered after ∧ after.input = ["+quit"] ∧
        scan entered = .ok again ∧ again.map Token.lined = tokens.map Token.lined ∧
        Shell.executeLine 9 "+multiline" s = (Shell.run 9 entered 1 >>= fun _ => pure true) after := by
  intro source tokens s
  have hscan : scan source = .ok tokens := by decide +kernel
  have hend : ∀ line ∈ Text.linesOf source, Text.strip line ≠ Session.entryEnd := by decide +kernel
  have hinput : s.input = Text.linesOf source ++ Session.entryEnd :: ["+quit"] := by decide +kernel
  exact ⟨hscan, hend, multiline_keeps_words 9 hscan (by decide) hend s hinput⟩

end DiceScript
