import Mathlib.Tactic.IntervalCases
import DiceScript.Proofs.Sessions.Bindings
import DiceScript.Proofs.Sessions.Commands
import DiceScript.Proofs.Sessions.Drivers
import DiceScript.Proofs.Sessions.Lines

/-!
# Session variables

A name of ASCII letters is one word of a script, and an identifier unless it is a keyword. A numeral is read back as
its number, by the command that sets a variable and by the scanner. A variable that is set is therefore the innermost
binding of its name, which is a script that comes to the number, and the binding that goes away when the name is unset.
-/

namespace DiceScript

/-! Characters of names and of numerals. -/

namespace Text

def isWordly (c : Char) : Bool :=
  isAsciiDigit c || Command.isAsciiLetter c

def wordlyCodes : List Nat :=
  List.range' 48 10 ++ List.range' 65 26 ++ List.range' 97 26

theorem toNat_mem_wordlyCodes {c : Char} (h : isWordly c = true) : c.toNat ∈ wordlyCodes := by
  simp only [isWordly, isAsciiDigit, Command.isAsciiLetter, Bool.or_eq_true, Bool.and_eq_true, decide_eq_true_eq,
    Char.le_def, UInt32.le_iff_toNat_le] at h
  simp only [wordlyCodes, List.mem_append, List.mem_range'_1]
  change 48 ≤ c.toNat ∧ c.toNat ≤ 57 ∨ 97 ≤ c.toNat ∧ c.toNat ≤ 122 ∨ 65 ≤ c.toNat ∧ c.toNat ≤ 90 at h
  omega

/-- What holds of the character of each code holds of every ASCII digit and letter. -/
theorem of_isWordly (p : Char → Bool) (hp : (wordlyCodes.all fun n => p (Char.ofNat n)) = true) {c : Char}
    (h : isWordly c = true) : p c = true := by
  have hc := List.all_eq_true.1 hp _ (toNat_mem_wordlyCodes h)
  rwa [Char.ofNat_toNat] at hc

theorem isWordly_of_digit {c : Char} (h : isAsciiDigit c = true) : isWordly c = true := by
  simp [isWordly, h]

theorem isWordly_of_letter {c : Char} (h : Command.isAsciiLetter c = true) : isWordly c = true := by
  simp [isWordly, h]

theorem isBlank_of_isWordly {c : Char} (h : isWordly c = true) : isBlank c = false := by
  simpa using of_isWordly (fun c => !isBlank c) (by decide +kernel) h

theorem isLetter_of_isAsciiLetter {c : Char} (h : Command.isAsciiLetter c = true) : isLetter c = true := by
  have hc := of_isWordly (fun c => !Command.isAsciiLetter c || isLetter c) (by decide +kernel) (isWordly_of_letter h)
  simpa [h] using hc

/-- A text that neither begins nor ends with a blank has nothing to be stripped of. -/
theorem stripped_eq_self {cs : List Char} (hfirst : ∀ c ∈ cs.head?, isBlank c = false)
    (hlast : ∀ c ∈ cs.getLast?, isBlank c = false) : stripped cs = cs := by
  rw [stripped, trimmed, dropWhile_of_head? hfirst]
  apply List.rdropWhile_eq_self_iff.2
  intro hsome
  rw [hlast _ (List.getLast?_eq_some_getLast hsome)]
  simp

theorem stripped_append {first : Char} {front back : List Char} (hfirst : isBlank first = false) (hsome : back ≠ [])
    (hback : ∀ c ∈ back, isBlank c = false) : stripped (first :: front ++ back) = first :: front ++ back := by
  apply stripped_eq_self
  · rintro c ⟨⟩
    exact hfirst
  · intro c hc
    rw [List.getLast?_append_of_ne_nil _ hsome] at hc
    exact hback c (List.mem_of_mem_getLast? hc)

end Text

/-! Numerals. -/

namespace Text

theorem isAsciiDigit_of_mem_toDigits {k : Nat} {c : Char} (h : c ∈ Nat.toDigits 10 k) : isAsciiDigit c = true := by
  have hdigit : c.isDigit = true := Nat.isDigit_of_mem_toDigits (by decide) (Nat.le_refl 10) h
  simpa [isAsciiDigit, Char.isDigit, Char.le_def] using hdigit

theorem asciiNumber_toDigits (k : Nat) : asciiNumber (Nat.toDigits 10 k) = k :=
  Nat.ofDigitChars_ten_toDigits

/-- A numeral of more than nothing does not begin with a zero. -/
theorem head?_toDigits_ne {k : Nat} (hk : 0 < k) : (Nat.toDigits 10 k).head? ≠ some '0' := by
  induction k using Nat.strongRecOn with
  | ind k ih =>
    by_cases hsmall : k < 10
    · rw [Nat.toDigits_of_lt_base hsmall]
      interval_cases k <;> decide
    · rw [Nat.toDigits_of_base_le (by decide) (by omega), List.head?_append_of_ne_nil _ Nat.toDigits_ne_nil]
      exact ih (k / 10) (by omega) (by omega)

theorem toList_toString (k : Nat) : (toString k).toList = Nat.toDigits 10 k :=
  Nat.toList_repr

end Text

theorem Command.numbered_toString (n : Int) : Numbered (toString n).toList n := by
  have hdigits (k : Nat) : Text.denoted (Nat.toDigits 10 k) = k := by
    rw [← Text.asciiNumber_eq_denoted, Text.asciiNumber_toDigits]
  rw [Int.toString_eq_repr]
  cases n with
  | ofNat k =>
    have hnumbered : Numbered (Nat.toDigits 10 k) (Text.denoted (Nat.toDigits 10 k)) :=
      .digits Nat.toDigits_ne_nil fun c hc => Text.isAsciiDigit_of_mem_toDigits hc
    rw [hdigits] at hnumbered
    change Numbered k.repr.toList k
    rwa [Nat.toList_repr]
  | negSucc k =>
    have hnumbered : Numbered ('-' :: Nat.toDigits 10 (k + 1)) (-Text.denoted (Nat.toDigits 10 (k + 1))) :=
      .minus Nat.toDigits_ne_nil fun c hc => Text.isAsciiDigit_of_mem_toDigits hc
    rw [hdigits] at hnumbered
    change Numbered ("-" ++ (k + 1).repr).toList (-((k + 1 : Nat) : Int))
    rwa [String.toList_append, Nat.toList_repr]

/-! Names and numerals as words. -/

namespace Lexer

def keywords : List String :=
  ["d", "D", "z", "Z", "U", "sum", "sgn", "mod", "least", "largest", "count", "drop", "keep", "pick", "median", "in",
   "repeat", "accumulate", "while", "until", "foreach", "do", "if", "then", "else", "min", "max", "minimal", "maximal",
   "choose", "different", "function", "call", "compositional"]

theorem wordKind_eq_identifier_iff {letters : String} : wordKind letters = .identifier ↔ letters ∉ keywords := by
  constructor
  · intro h hword
    have hkinds : ∀ word ∈ keywords, wordKind word ≠ .identifier := by decide
    exact hkinds letters hword h
  · intro h
    unfold wordKind
    split
    all_goals first | rfl | exact absurd (by decide) h

end Lexer

/-- A name of one or more ASCII letters that is no keyword. -/
structure IsVariable (name : String) : Prop where
  ne_empty : name ≠ ""
  letters : ∀ c ∈ name.toList, Command.isAsciiLetter c = true
  free : name ∉ Lexer.keywords

namespace Lexer

/-- Nothing but a number or a run of letters begins with this character. -/
def beginsWord (c : Char) : Bool :=
  (punctuation? c).isNone && (operator? c []).isNone && c ≠ '\x22' && c ≠ '\\' &&
    !(c = ' ' || c = '\r' || c = '\t' || c = '\n')

theorem munch_of_beginsWord {c : Char} (h : beginsWord c = true) (rest : List Char) :
    munch c rest =
      if Text.isAsciiDigit c then .ok (number c rest)
      else if Text.isLetter c then .ok (letters c rest)
      else .error (.unexpected c) := by
  simp only [beginsWord, Bool.and_eq_true, Option.isNone_iff_eq_none, decide_eq_true_eq, Bool.not_eq_true'] at h
  obtain ⟨⟨⟨⟨hpunctuation, hoperator⟩, hquote⟩, hcomment⟩, hblank⟩ := h
  simp only [munch, hpunctuation, operator?_eq_none hoperator, if_neg hquote, if_neg hcomment, hblank]
  rfl

theorem beginsWord_of_isWordly {c : Char} (h : Text.isWordly c = true) : beginsWord c = true :=
  Text.of_isWordly beginsWord (by decide +kernel) h

theorem munch_digit {c : Char} (h : Text.isAsciiDigit c = true) (rest : List Char) :
    munch c rest = .ok (number c rest) := by
  rw [munch_of_beginsWord (beginsWord_of_isWordly (Text.isWordly_of_digit h)), if_pos h]

theorem munch_letter {c : Char} (h : Command.isAsciiLetter c = true) (rest : List Char) :
    munch c rest = .ok (letters c rest) := by
  have hdigit : ¬Text.isAsciiDigit c = true := by
    intro hdigit
    rw [(Command.of_isAsciiDigit hdigit).2.1] at h
    cases h
  rw [munch_of_beginsWord (beginsWord_of_isWordly (Text.isWordly_of_letter h)), if_neg hdigit,
    if_pos (Text.isLetter_of_isAsciiLetter h)]

/-- A name before something that is no letter is an identifier. -/
theorem lexed_name {name : String} (h : IsVariable name) {rest : List Char}
    (hrest : ∀ c ∈ rest.head?, Text.isLetter c = false) :
    lexed (name.toList ++ rest) = (lexed rest).map (⟨.identifier, .text name, .null⟩ :: ·) := by
  obtain ⟨c, tail, hname⟩ := List.exists_cons_of_ne_nil (mt String.toList_eq_nil_iff.1 h.ne_empty)
  have hletters := h.letters
  rw [hname, List.forall_mem_cons] at hletters
  have hrun : (tail ++ rest).takeWhile Text.isLetter = tail :=
    Text.takeWhile_run (fun d hd => Text.isLetter_of_isAsciiLetter (hletters.2 d hd)) hrest
  have hspelling : String.ofList (c :: tail) = name := by rw [← hname, String.ofList_toList]
  rw [hname, List.cons_append, lexed_cons, munch_letter hletters.1, letters, hrun, hspelling,
    wordKind_eq_identifier_iff.2 h.free]
  simp only [Except.bind, single, hspelling, List.length_cons, Nat.add_sub_cancel, List.drop_left,
    List.singleton_append]

theorem munch_equal {rest : List Char} (h : rest.head? ≠ some '/') :
    munch '=' rest = .ok (single .equal ['='] .null) := by
  cases rest with
  | nil => rfl
  | cons c rest => simp_all [munch, punctuation?, operator?]

/-- A numeral is an integer. -/
theorem lexed_numeral (k : Nat) :
    lexed (toString k).toList = .ok [⟨.integer, .text (toString k), .integer k⟩, .endOfInput] := by
  obtain ⟨c, digits, hdigits⟩ := List.exists_cons_of_ne_nil (Nat.toDigits_ne_nil (b := 10) (n := k))
  have hspelling : String.ofList (c :: digits) = toString k := by
    rw [← hdigits, ← Text.toList_toString, String.ofList_toList]
  have hall : ∀ d ∈ c :: digits, Text.isAsciiDigit d = true := fun d hd =>
    Text.isAsciiDigit_of_mem_toDigits (hdigits ▸ hd)
  rw [List.forall_mem_cons] at hall
  have hnumber : number c digits = single .integer (c :: digits) (.integer k) := by
    by_cases hk : k = 0
    · subst hk
      cases hdigits
      rfl
    · have hc : c ≠ '0' := by
        rintro rfl
        apply Text.head?_toDigits_ne (Nat.pos_of_ne_zero hk)
        rw [hdigits]
        rfl
      have hrun : digits.takeWhile Text.isAsciiDigit = digits := List.takeWhile_eq_self_iff.2 hall.2
      unfold number
      simp only [if_neg hc, hrun]
      rw [← hdigits, Text.asciiNumber_toDigits]
  rw [Text.toList_toString, hdigits, lexed_cons, munch_digit hall.1, hnumber]
  simp only [Except.bind, single, hspelling, List.length_cons, Nat.add_sub_cancel, List.drop_length]
  rfl

end Lexer

/-! How the lines about a variable are read. -/

theorem Text.strip_eq_self {line : String} (h : stripped line.toList = line.toList) : strip line = line := by
  rw [strip, h, String.ofList_toList]

theorem Command.Numbered.isBlank {number : List Char} {n : Int} (h : Numbered number n) :
    ∀ c ∈ number, Text.isBlank c = false := by
  have hdigit {c : Char} (hc : Text.isAsciiDigit c = true) : Text.isBlank c = false :=
    Text.isBlank_of_isWordly (Text.isWordly_of_digit hc)
  cases h with
  | digits _ hdigits => exact fun c hc => hdigit (hdigits c hc)
  | minus _ hdigits =>
    rw [List.forall_mem_cons]
    exact ⟨by decide, fun c hc => hdigit (hdigits c hc)⟩

namespace IsVariable

variable {name : String} (h : IsVariable name)

include h

theorem exists_cons : ∃ c tail, name.toList = c :: tail ∧ Command.isAsciiLetter c = true := by
  obtain ⟨c, tail, hname⟩ := List.exists_cons_of_ne_nil (mt String.toList_eq_nil_iff.1 h.ne_empty)
  exact ⟨c, tail, hname, h.letters c (hname ▸ List.mem_cons_self)⟩

theorem isBlank : ∀ c ∈ name.toList, Text.isBlank c = false := fun c hc =>
  Text.isBlank_of_isWordly (Text.isWordly_of_letter (h.letters c hc))

theorem stripped_name : Text.stripped name.toList = name.toList :=
  Text.stripped_eq_self (fun c hc => h.isBlank c (List.mem_of_mem_head? hc))
    fun c hc => h.isBlank c (List.mem_of_mem_getLast? hc)

/-- A name by itself is not meant as a command. -/
theorem isCommand_name : Command.isCommand name = false := by
  obtain ⟨c, tail, hname, hc⟩ := h.exists_cons
  have hword : Text.firstWord name.toList = name.toList := by
    rw [Text.firstWord, Text.dropWhile_of_head? fun c hc => h.isBlank c (List.mem_of_mem_head? hc)]
    exact List.takeWhile_eq_self_iff.2 fun c hc => by simp [h.isBlank c hc]
  have hplus : name.toList.head? ≠ some '+' := by
    rw [hname]
    rintro ⟨⟩
    cases hc
  have hminus : name ∉ ["-set", "-scanner", "-parser"] := by
    intro hmem
    have hheads : ∀ word ∈ ["-set", "-scanner", "-parser"], word.toList.head? = some '-' := by simp
    have hhead := hheads name hmem
    rw [hname] at hhead
    cases hhead
    cases hc
  simp only [Command.isCommand, h.stripped_name, hword, String.ofList_toList, hplus, List.contains_eq_mem, hminus]
  rfl

/-- The line that sets a variable is the command that does. -/
theorem reads_set (n : Int) :
    let line := "+set " ++ name ++ " " ++ toString n
    Text.stripped line.toList = line.toList ∧ Command.isCommand line = true ∧
      Command.parse? line = some (.setVariable name n) := by
  intro line
  have hnumber := Command.numbered_toString n
  have hline : line.toList = "+set".toList ++ ([' '] ++ (name.toList ++ ([' '] ++ (toString n).toList))) := by
    simp [line]
  have hstripped : Text.stripped line.toList = line.toList := by
    have hends : line.toList = '+' :: ("set ".toList ++ name.toList ++ [' ']) ++ (toString n).toList := by simp [line]
    rw [hends]
    exact Text.stripped_append (by decide) hnumber.ne_nil hnumber.isBlank
  have hwritten : Command.Written line.toList (.setVariable (String.ofList name.toList) n) := by
    rw [hline]
    have hgap : ∀ c ∈ [' '], Command.isGap c = true := by simp [Command.isGap]
    exact .set hgap (mt String.toList_eq_nil_iff.1 h.ne_empty) h.letters hgap hnumber
  rw [String.ofList_toList] at hwritten
  refine ⟨hstripped, ?_, ?_⟩
  · rw [Command.isCommand, hstripped, hline]
    rfl
  · rw [Command.parse?_eq_some_iff, hstripped]
    exact hwritten

/-- The line that unsets a variable is the command that does. -/
theorem reads_unset :
    let line := "-set " ++ name
    Text.stripped line.toList = line.toList ∧ Command.isCommand line = true ∧
      Command.parse? line = some (.unsetVariable name) := by
  intro line
  have hname : name.toList ≠ [] := mt String.toList_eq_nil_iff.1 h.ne_empty
  have hline : line.toList = "-set".toList ++ ([' '] ++ name.toList) := by simp [line]
  have hstripped : Text.stripped line.toList = line.toList := by
    have hends : line.toList = '-' :: "set ".toList ++ name.toList := by simp [line]
    rw [hends]
    exact Text.stripped_append (by decide) hname h.isBlank
  have hword : Text.firstWord line.toList = "-set".toList := by
    have hfirst : ∀ c ∈ line.toList.head?, Text.isBlank c = false := by
      rw [hline]
      rintro c ⟨⟩
      decide
    rw [Text.firstWord, Text.dropWhile_of_head? hfirst, hline]
    refine Text.takeWhile_run (by simp [Text.isBlank]) ?_
    rintro c ⟨⟩
    decide
  have hwritten : Command.Written line.toList (.unsetVariable (String.ofList name.toList)) := by
    rw [hline]
    exact .unset (by simp [Command.isGap]) hname h.letters
  rw [String.ofList_toList] at hwritten
  refine ⟨hstripped, ?_, ?_⟩
  · rw [Command.isCommand, hstripped, hword]
    simp
  · rw [Command.parse?_eq_some_iff, hstripped]
    exact hwritten

/-- A name by itself is a script, the variable of this name. -/
theorem compiled?_name : compiled? name = some ⟨.var (.text name) .missing, []⟩ := by
  have hlexed : Lexer.lexed name.toList = .ok [⟨.identifier, .text name, .null⟩, .endOfInput] := by
    rw [← List.append_nil name.toList, Lexer.lexed_name h (by simp)]
    rfl
  rw [← unplaced_scan (mt String.toList_eq_nil_iff.1 h.ne_empty)] at hlexed
  obtain ⟨tokens, hscan, htokens⟩ := unplaced_eq_ok_iff.1 hlexed
  obtain ⟨first, rest, rfl, hfirst, hrest⟩ := List.map_eq_cons_iff.1 htokens
  obtain ⟨last, rfl, hlast⟩ := List.map_eq_singleton_iff.1 hrest
  obtain ⟨_, firstPlace⟩ := first
  obtain ⟨_, lastPlace⟩ := last
  cases hfirst
  cases hlast
  exact compiled?_eq_some_iff.2 ⟨_, hscan, rfl⟩

/-- An assignment of a numeral to a name makes the binding that it says. -/
theorem bindings?_assignment (k : Nat) :
    bindings? (name ++ "=" ++ toString k) = some [⟨.text name, .number k⟩] := by
  have hsource : (name ++ "=" ++ toString k).toList = name.toList ++ '=' :: (toString k).toList := by simp
  have hsign : Lexer.lexed ('=' :: (toString k).toList) =
      .ok [⟨.equal, .text "=", .null⟩, ⟨.integer, .text (toString k), .integer k⟩, .endOfInput] := by
    have hnumeral := Lexer.lexed_numeral k
    have hslash : (toString k).toList.head? ≠ some '/' := by
      intro hhead
      rw [Text.toList_toString] at hhead
      cases Text.isAsciiDigit_of_mem_toDigits (List.mem_of_mem_head? hhead)
    rw [Lexer.lexed_cons, Lexer.munch_equal hslash]
    simp only [Except.bind, Lexer.single, List.length_singleton, Nat.sub_self, List.drop_zero, hnumeral]
    rfl
  rw [bindings?_eq_some_iff_assigns]
  refine ⟨[⟨.identifier, .text name, .null⟩, ⟨.equal, .text "=", .null⟩, ⟨.integer, .text (toString k), .integer k⟩],
    ?_, .cons rfl rfl rfl rfl .nil⟩
  have hletter : ∀ c ∈ ('=' :: (toString k).toList).head?, Text.isLetter c = false := by
    rintro c ⟨⟩
    decide
  rw [unplaced_scan (by simp), hsource, Lexer.lexed_name h hletter, hsign]
  rfl

end IsVariable

/-! What the lines do. -/

theorem Scope.remove_push (scope : Scope) (b : Binding) : (scope.push b).remove b.name = (true, scope) := by
  simp [remove, push]

/-- A variable comes to the value of its innermost binding. -/
theorem Eval.evaluate_variable {m : Machine} {name : String} {v : Value} (h : m.scope.lookup? (.text name) = some v)
    (fuel : Nat) (fallback : Expr) (hshown : fallback.isShowable = true) :
    let e : Expr := .var (.text name) fallback
    evaluate (fuel + 1) e m = .ok (.ok v) ((m.traced (.evaluating e)).traced (.finished v)) := by
  intro e
  have heval : eval (fuel + 1) e (m.traced (.evaluating e)) = .ok v (m.traced (.evaluating e)) := by
    refine (get_bind (m.traced (.evaluating e))).trans ?_
    rw [Machine.traced_scope, h]
    rfl
  have hshowable : e.isShowable = true := by simp [e, Expr.isShowable, hshown, Json.isText]
  simp only [evaluate, hshowable, heval]
  simp

namespace Shell

variable {fuel : Nat} {line : String} {s : Session}

theorem executeLine_of_command {command : Command} (hline : Text.stripped line.toList = line.toList)
    (hsome : line ≠ "") (hcommand : Command.isCommand line = true) (hparse : Command.parse? line = some command) :
    executeLine fuel line s = execute fuel command s := by
  have hempty : ¬line.isEmpty = true := by rwa [String.isEmpty_iff]
  simp only [executeLine, Text.strip_eq_self hline, if_neg hempty, if_pos hcommand, hparse]

/-- A line that is no command is run once. -/
theorem executeLine_of_script {script : Script} (hline : Text.stripped line.toList = line.toList) (hsome : line ≠ "")
    (hcommand : Command.isCommand line = false) (hscript : compiled? line = some script)
    (htokens : s.showTokens = false) (htree : s.showTree = false) {v : Value} {m : Machine}
    (hvalue : Eval.evaluate fuel script.expression (Eval.enteredAll s.machine script.functions) = .ok (.ok v) m) :
    executeLine fuel line s = .ok true { s with machine := m, output := s.output ++ (v.display ++ "\n") } := by
  have hempty : ¬line.isEmpty = true := by rwa [String.isEmpty_iff]
  obtain ⟨tokens, hscan, hread⟩ := compiled?_eq_some_iff.1 hscript
  have hrun : run fuel line 1 s = .ok () { s with machine := m, output := s.output ++ (v.display ++ "\n") } := by
    rw [run_of_script hscan hread, s.listed_hidden htokens htree, evaluateAll_once, hvalue]
    rfl
  simp only [executeLine, Text.strip_eq_self hline, if_neg hempty, hcommand]
  exact bind_of_ok hrun

end Shell

/-- A session that shows neither tokens nor trees sets a variable to any number, negative ones included. Its name by
itself is then a line that writes the number and nothing else, and no error is noted or reported. When the variable is
unset, the bindings are exactly those from before it was set, whatever they were. If the number is not negative, then
an argument that assigns it to the name leaves the same bindings as the command that sets the variable. -/
theorem variable_until_unset {name : String} (hname : IsVariable name) (n : Int) (fuel : Nat) {s : Session}
    (htokens : s.showTokens = false) (htree : s.showTree = false) :
    ∃ set shown unset,
      Shell.executeLine (fuel + 1) ("+set " ++ name ++ " " ++ toString n) s = .ok true set ∧
      Shell.executeLine (fuel + 1) name set = .ok true shown ∧
      shown.output = s.output ++ (toString n ++ "\n") ∧
      shown.hadError = s.hadError ∧ shown.hadRuntimeError = s.hadRuntimeError ∧
      shown.machine.reports = s.machine.reports ∧
      Shell.executeLine (fuel + 1) ("-set " ++ name) shown = .ok true unset ∧
      unset.machine.scope = s.machine.scope ∧
      (0 ≤ n → ∃ pushed, Shell.pushArguments [name ++ "=" ++ toString n] s = .ok true pushed ∧
        pushed.machine.scope = set.machine.scope) := by
  let b : Binding := ⟨.text name, .number n⟩
  let e : Expr := .var (.text name) .missing
  let set : Session := { s with machine := s.machine.pushed b }
  let m := (set.machine.traced (.evaluating e)).traced (.finished (.number n))
  let shown : Session := { set with machine := m, output := s.output ++ (toString n ++ "\n") }
  let unset : Session := { shown with machine := { m with scope := (m.scope.remove (.text name)).2 } }
  have hscope : m.scope = s.machine.scope.push b := by
    simp [m, set, Machine.pushed]
  have hset : Shell.executeLine (fuel + 1) ("+set " ++ name ++ " " ++ toString n) s = .ok true set := by
    obtain ⟨hline, hcommand, hparse⟩ := hname.reads_set n
    exact Shell.executeLine_of_command hline (by simp) hcommand hparse
  have hshown : Shell.executeLine (fuel + 1) name set = .ok true shown := by
    have hlookup : set.machine.scope.lookup? (.text name) = some (.number n) := by
      change (s.machine.pushed b).scope.lookup? (.text name) = _
      rw [Machine.pushed_scope]
      simp [Scope.lookup?, b]
    have hdisplay : (Value.number n).display = toString n := by
      simp [Value.number, Value.display, Collection.display, Collection.sorted]
    have hline := Shell.executeLine_of_script (s := set) hname.stripped_name hname.ne_empty hname.isCommand_name
      hname.compiled?_name htokens htree (Eval.evaluate_variable hlookup fuel .missing rfl)
    rw [hdisplay] at hline
    exact hline
  have hunset : Shell.executeLine (fuel + 1) ("-set " ++ name) shown = .ok true unset := by
    obtain ⟨hline, hcommand, hparse⟩ := hname.reads_unset
    exact Shell.executeLine_of_command hline (by simp) hcommand hparse
  refine ⟨set, shown, unset, hset, hshown, rfl, rfl, rfl, ?_, hunset, ?_, fun hn => ?_⟩
  · exact (Machine.reports_traced _ _).trans
      ((Machine.reports_traced _ _).trans (congrArg State.reports (s.machine.state_pushed b)))
  · change (m.scope.remove (.text name)).2 = _
    rw [hscope]
    exact congrArg Prod.snd (Scope.remove_push s.machine.scope b)
  · obtain ⟨k, rfl⟩ := Int.eq_ofNat_of_zero_le hn
    have hfound : bindings? (String.intercalate " " [name ++ "=" ++ toString (k : Int)]) = some [b] := by
      rw [String.intercalate_singleton]
      exact hname.bindings?_assignment k
    exact ⟨_, Shell.pushArguments_of_some hfound s, rfl⟩

/-- A negative number for a name that is bound twice already, with another binding between. -/
theorem variable_until_unset_shadowing :
    let scope : Scope := [⟨.text "hp", .number 1⟩, ⟨.text "x", .number 2⟩, ⟨.text "hp", .text "none"⟩]
    let s : Session := .initial ⟨scope, [], ⟨[], 0⟩, 2, #[]⟩ []
    IsVariable "hp" ∧ s.showTokens = false ∧ s.showTree = false ∧
      ∃ set shown unset,
        Shell.executeLine 1 ("+set " ++ "hp" ++ " " ++ toString (-30 : Int)) s = .ok true set ∧
        Shell.executeLine 1 "hp" set = .ok true shown ∧ shown.output = "" ++ (toString (-30 : Int) ++ "\n") ∧
        Shell.executeLine 1 ("-set " ++ "hp") shown = .ok true unset ∧ unset.machine.scope = scope := by
  intro scope s
  have hname : IsVariable "hp" := ⟨by decide, by simp [Command.isAsciiLetter], by decide⟩
  obtain ⟨set, shown, unset, hset, hshown, houtput, -, -, -, hunset, hscope, -⟩ :=
    variable_until_unset hname (-30) 0 (s := s) rfl rfl
  exact ⟨hname, rfl, rfl, set, shown, unset, hset, hshown, houtput, hunset, hscope⟩

end DiceScript
