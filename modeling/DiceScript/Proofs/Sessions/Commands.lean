import Mathlib.Data.List.DropRight
import Mathlib.Data.List.TakeWhile
import Mathlib.Data.Nat.Digits.Defs
import DiceScript.Session.Command

/-!
# The grammar of commands

A text spells a production if it is made of spellings of the terminals, with gaps anywhere between them. It is read
greedily, so this is what is read only if no terminal goes on with what may follow it. That is so for all
productions, and no two of them begin alike: a text is read as a command exactly if a production has it. `Written`
says the same of a text without gaps at its ends, one command after the other.
-/

namespace DiceScript

namespace Text

variable {p : Char → Bool} {run rest : List Char}

/-! A run of characters of a class, up to a character that is not of it. -/

theorem takeWhile_run (hrun : ∀ c ∈ run, p c = true) (hrest : ∀ c ∈ rest.head?, p c = false) :
    (run ++ rest).takeWhile p = run := by
  rw [List.takeWhile_append_of_pos hrun]
  cases rest with
  | nil => simp
  | cons c rest => simp [hrest c rfl]

theorem dropWhile_of_head? (hrest : ∀ c ∈ rest.head?, p c = false) : rest.dropWhile p = rest := by
  cases rest with
  | nil => rfl
  | cons c rest => exact List.dropWhile_cons_of_neg (by simp [hrest c rfl])

theorem dropWhile_run (hrun : ∀ c ∈ run, p c = true) (hrest : ∀ c ∈ rest.head?, p c = false) :
    (run ++ rest).dropWhile p = rest := by
  rw [List.dropWhile_append_of_pos hrun, dropWhile_of_head? hrest]

theorem head?_dropWhile (p : Char → Bool) (cs : List Char) : ∀ c ∈ (cs.dropWhile p).head?, p c = false := by
  intro c hc
  have hhead := List.head?_dropWhile_not p cs
  rw [Option.mem_def.1 hc] at hhead
  simpa using hhead

/-- Every text begins with a run. -/
theorem exists_run (p : Char → Bool) (cs : List Char) :
    ∃ run rest, cs = run ++ rest ∧ (∀ c ∈ run, p c = true) ∧ ∀ c ∈ rest.head?, p c = false :=
  ⟨cs.takeWhile p, cs.dropWhile p, List.takeWhile_append_dropWhile.symm, fun _ hc => List.mem_takeWhile_imp hc,
    head?_dropWhile p cs⟩

/-! A text without the characters of a class at its ends. -/

theorem head?_trimmed (p : Char → Bool) (cs : List Char) : ∀ c ∈ (trimmed p cs).head?, p c = false := by
  intro c hc
  have hfront : trimmed p cs <+: cs.dropWhile p := List.rdropWhile_prefix p _
  obtain ⟨later, hlater⟩ := hfront
  refine head?_dropWhile p cs c ?_
  rw [← hlater, List.head?_append, Option.mem_def.1 hc]
  rfl

theorem getLast?_trimmed (p : Char → Bool) (cs : List Char) : ∀ c ∈ (trimmed p cs).getLast?, p c = false := by
  intro c hc
  rw [trimmed, dropTrailing, List.getLast?_reverse] at hc
  exact head?_dropWhile p _ c hc

theorem stripped_stripped (cs : List Char) : stripped (stripped cs) = stripped cs := by
  have hfront : stripped (stripped cs) = dropTrailing isBlank (stripped cs) :=
    congrArg (dropTrailing isBlank) (dropWhile_of_head? (head?_trimmed isBlank cs))
  exact hfront.trans (List.rdropWhile_idempotent isBlank _)

/-- The number that digits denote, each of them so many tens as digits come after it. -/
def denoted (digits : List Char) : Nat :=
  Nat.ofDigits 10 (digits.reverse.map fun c => c.toNat - '0'.toNat)

theorem asciiNumber_eq_denoted (digits : List Char) : asciiNumber digits = denoted digits := by
  rw [denoted, Nat.ofDigits_eq_foldr, List.foldr_map, List.foldr_reverse]
  unfold asciiNumber
  congr 1
  funext n c
  exact Nat.add_comm _ _

end Text

namespace Command

/-- A number is written as digits, with a minus sign before them if it is negated. -/
inductive Numbered : List Char → Int → Prop
  | digits {digits : List Char} (hsome : digits ≠ []) (h : ∀ c ∈ digits, Text.isAsciiDigit c = true) :
    Numbered digits (Text.denoted digits)
  | minus {digits : List Char} (hsome : digits ≠ []) (h : ∀ c ∈ digits, Text.isAsciiDigit c = true) :
    Numbered ('-' :: digits) (-Text.denoted digits)

inductive Written : List Char → Command → Prop
  | word {text : String} {command : Command} (h : (text, command) ∈ words) : Written text.toList command
  | set {gap name space number : List Char} {n : Int} (hgap : ∀ c ∈ gap, isGap c = true)
    (hsome : name ≠ []) (hname : ∀ c ∈ name, isAsciiLetter c = true) (hspace : ∀ c ∈ space, isGap c = true)
    (hnumber : Numbered number n) :
    Written ("+set".toList ++ (gap ++ (name ++ (space ++ number)))) (.setVariable (String.ofList name) n)
  | unset {gap name : List Char} (hgap : ∀ c ∈ gap, isGap c = true) (hsome : name ≠ [])
    (hname : ∀ c ∈ name, isAsciiLetter c = true) :
    Written ("-set".toList ++ (gap ++ name)) (.unsetVariable (String.ofList name))

def Named (cs : List Char) (name : String) : Prop :=
  cs ≠ [] ∧ (∀ c ∈ cs, isAsciiLetter c = true) ∧ name = String.ofList cs

def Terminal.Spelt : (t : Terminal) → List Char → t.Value → Prop
  | .word text => fun cs _ => cs = text.toList
  | .name => Named
  | .number => Numbered

/-- A text is made of spellings of terminals. Gaps are ignored. -/
def Spelt : (terminals : List Terminal) → List Char → Values terminals → Prop
  | [], cs, .nil => ∀ c ∈ cs, isGap c = true
  | t :: rest, cs, .cons value values =>
    ∃ gap text later, cs = gap ++ (text ++ later) ∧ (∀ c ∈ gap, isGap c = true) ∧ t.Spelt text value ∧
      Spelt rest later values

def Produced (cs : List Char) (command : Command) : Prop :=
  ∃ production ∈ grammar, ∃ values, Spelt production.terminals cs values ∧ production.command values = command

/-! The characters of a gap, of a name and of a number are of different classes. -/

theorem isGap_eq_false {c : Char} (hspace : c ≠ ' ') (htab : c ≠ '\t') : isGap c = false := by
  simp [isGap, hspace, htab]

theorem isAsciiLetter_eq_false {c : Char} (hcapital : ¬ 'A' ≤ c) : isAsciiLetter c = false := by
  have hsmall : ¬ 'a' ≤ c := fun h => hcapital (Char.le_trans (by decide) h)
  simp [isAsciiLetter, hcapital, hsmall]

theorem isAsciiLetter_of_isGap {c : Char} (h : isGap c = true) : isAsciiLetter c = false := by
  simp only [isGap, Bool.or_eq_true, decide_eq_true_eq] at h
  rcases h with rfl | rfl <;> rfl

theorem isGap_of_isAsciiLetter {c : Char} (h : isAsciiLetter c = true) : isGap c = false := by
  by_contra hgap
  rw [isAsciiLetter_of_isGap (by simpa using hgap)] at h
  cases h

theorem of_isAsciiDigit {c : Char} (h : Text.isAsciiDigit c = true) :
    isGap c = false ∧ isAsciiLetter c = false ∧ c ≠ '-' := by
  simp only [Text.isAsciiDigit, Bool.and_eq_true, decide_eq_true_eq] at h
  have hne {d : Char} (hd : d < '0') : c ≠ d := by
    rintro rfl
    exact Char.not_le.2 hd h.1
  have hletter : ¬ 'A' ≤ c := fun hc => absurd (Char.le_trans hc h.2) (by decide)
  exact ⟨isGap_eq_false (hne (by decide)) (hne (by decide)), isAsciiLetter_eq_false hletter, hne (by decide)⟩

/-- A number begins with a digit or a minus sign. -/
theorem Numbered.head {number : List Char} {n : Int} (h : Numbered number n) :
    ∀ c ∈ number.head?, isGap c = false ∧ isAsciiLetter c = false := by
  intro c hc
  cases h with
  | digits hsome h =>
    obtain ⟨hgap, hletter, -⟩ := of_isAsciiDigit (h c (List.mem_of_mem_head? hc))
    exact ⟨hgap, hletter⟩
  | minus =>
    cases hc
    decide

theorem Numbered.ne_nil {number : List Char} {n : Int} (h : Numbered number n) : number ≠ [] := by
  cases h with
  | digits hsome => exact hsome
  | minus => exact List.cons_ne_nil _ _

/-! One terminal. -/

theorem run?_eq_some_iff {p : Char → Bool} {cs run rest : List Char} :
    run? p cs = some (run, rest) ↔
      cs = run ++ rest ∧ run ≠ [] ∧ (∀ c ∈ run, p c = true) ∧ ∀ c ∈ rest.head?, p c = false := by
  constructor
  · intro h
    obtain ⟨front, back, rfl, hfront, hback⟩ := Text.exists_run p cs
    simp only [run?, Text.takeWhile_run hfront hback, Text.dropWhile_run hfront hback, List.isEmpty_iff,
      Option.ite_none_left_eq_some, Option.some_inj, Prod.mk.injEq] at h
    obtain ⟨hsome, rfl, rfl⟩ := h
    exact ⟨rfl, hsome, hfront, hback⟩
  · rintro ⟨rfl, hsome, hrun, hrest⟩
    simp [run?, Text.takeWhile_run hrun hrest, Text.dropWhile_run hrun hrest, hsome]

section

variable {cs rest : List Char}

theorem word?_eq_some_iff {text : String} {value : Unit} :
    word? text cs = some (value, rest) ↔ cs = text.toList ++ rest := by
  simp only [word?, Option.map_eq_some_iff, List.isPrefixOf?_eq_some_iff_append_eq]
  constructor
  · rintro ⟨later, rfl, ⟨⟩⟩
    rfl
  · rintro rfl
    exact ⟨rest, rfl, rfl⟩

theorem name?_eq_some_iff {name : String} :
    name? cs = some (name, rest) ↔
      ∃ letters, cs = letters ++ rest ∧ Named letters name ∧ ∀ c ∈ rest.head?, isAsciiLetter c = false := by
  simp only [name?, Option.map_eq_some_iff, Prod.exists, run?_eq_some_iff, Prod.mk.injEq]
  constructor
  · rintro ⟨letters, later, ⟨rfl, hsome, hletters, hlater⟩, rfl, rfl⟩
    exact ⟨letters, rfl, ⟨hsome, hletters, rfl⟩, hlater⟩
  · rintro ⟨letters, rfl, ⟨hsome, hletters, rfl⟩, hrest⟩
    exact ⟨letters, rest, ⟨rfl, hsome, hletters, hrest⟩, rfl, rfl⟩

/-- The digits of a number, of which `f` makes the number. -/
theorem digits_eq_some_iff {f : Nat → Int} {n : Int} :
    (run? Text.isAsciiDigit cs).map (fun found => (f (Text.asciiNumber found.1), found.2)) = some (n, rest) ↔
      ∃ digits, cs = digits ++ rest ∧ digits ≠ [] ∧ (∀ c ∈ digits, Text.isAsciiDigit c = true) ∧
        n = f (Text.denoted digits) ∧ ∀ c ∈ rest.head?, Text.isAsciiDigit c = false := by
  simp only [Option.map_eq_some_iff, Prod.exists, run?_eq_some_iff, Text.asciiNumber_eq_denoted, Prod.mk.injEq]
  constructor
  · rintro ⟨digits, later, ⟨rfl, hsome, hdigits, hlater⟩, rfl, rfl⟩
    exact ⟨digits, rfl, hsome, hdigits, rfl, hlater⟩
  · rintro ⟨digits, rfl, hsome, hdigits, rfl, hrest⟩
    exact ⟨digits, rest, ⟨rfl, hsome, hdigits, hrest⟩, rfl, rfl⟩

theorem number?_minus {n : Int} :
    number? ('-' :: cs) = some (n, rest) ↔
      ∃ digits, cs = digits ++ rest ∧ digits ≠ [] ∧ (∀ c ∈ digits, Text.isAsciiDigit c = true) ∧
        n = -Text.denoted digits ∧ ∀ c ∈ rest.head?, Text.isAsciiDigit c = false :=
  digits_eq_some_iff (f := fun k => -k)

theorem number?_plain {n : Int} (hcs : cs.head? ≠ some '-') :
    number? cs = some (n, rest) ↔
      ∃ digits, cs = digits ++ rest ∧ digits ≠ [] ∧ (∀ c ∈ digits, Text.isAsciiDigit c = true) ∧
        n = Text.denoted digits ∧ ∀ c ∈ rest.head?, Text.isAsciiDigit c = false := by
  rw [← digits_eq_some_iff]
  unfold number?
  split
  · exact absurd rfl hcs
  · rfl

theorem number?_eq_some_iff {n : Int} :
    number? cs = some (n, rest) ↔
      ∃ number, cs = number ++ rest ∧ Numbered number n ∧ ∀ c ∈ rest.head?, Text.isAsciiDigit c = false := by
  by_cases hminus : cs.head? = some '-'
  · obtain ⟨cs, rfl⟩ := List.head?_eq_some_iff.1 hminus
    rw [number?_minus]
    constructor
    · rintro ⟨digits, rfl, hsome, hdigits, rfl, hrest⟩
      exact ⟨'-' :: digits, rfl, .minus hsome hdigits, hrest⟩
    · rintro ⟨number, hcs, hnumber, hrest⟩
      cases hnumber with
      | minus hsome hdigits => exact ⟨_, (List.cons.inj hcs).2, hsome, hdigits, rfl, hrest⟩
      | digits hsome hdigits =>
        obtain ⟨c, later, rfl⟩ := List.exists_cons_of_ne_nil hsome
        have hc : c = '-' := (List.cons.inj hcs).1.symm
        exact absurd hc (of_isAsciiDigit (hdigits c List.mem_cons_self)).2.2
  · rw [number?_plain hminus]
    constructor
    · rintro ⟨digits, rfl, hsome, hdigits, rfl, hrest⟩
      exact ⟨digits, rfl, .digits hsome hdigits, hrest⟩
    · rintro ⟨number, rfl, hnumber, hrest⟩
      cases hnumber with
      | minus => exact absurd rfl hminus
      | digits hsome hdigits => exact ⟨_, rfl, hsome, hdigits, rfl, hrest⟩

end

namespace Terminal

/-- The characters with which the spelling of a terminal goes on. -/
def goesOn : Terminal → Char → Bool
  | .word _ => fun _ => false
  | .name => isAsciiLetter
  | .number => Text.isAsciiDigit

/-- The longest spelling of a terminal is read. -/
theorem read?_eq_some_iff {t : Terminal} {cs rest : List Char} {value : t.Value} :
    t.read? cs = some (value, rest) ↔
      ∃ text, cs = text ++ rest ∧ t.Spelt text value ∧ ∀ c ∈ rest.head?, t.goesOn c = false := by
  cases t with
  | word text =>
    refine word?_eq_some_iff.trans ⟨fun h => ⟨_, h, rfl, fun _ _ => rfl⟩, ?_⟩
    rintro ⟨_, h, rfl, -⟩
    exact h
  | name => exact name?_eq_some_iff
  | number => exact number?_eq_some_iff

end Terminal

/-! Terminals one after the other. -/

/-- A text that begins, and not with a gap. -/
def isSolid (text : List Char) : Bool :=
  text.head?.any fun c => !isGap c

theorem dropWhile_isGap {gap text later : List Char} (hgap : ∀ c ∈ gap, isGap c = true)
    (htext : isSolid text = true) : (gap ++ (text ++ later)).dropWhile isGap = text ++ later := by
  cases text with
  | nil => cases htext
  | cons first text =>
    refine Text.dropWhile_run hgap ?_
    rintro _ ⟨⟩
    simpa [isSolid] using htext

/-- It is clear where each terminal begins and where it ends. -/
def Clear : List Terminal → Prop
  | [] => True
  | t :: rest =>
    (∀ text value, t.Spelt text value → isSolid text = true) ∧
      (∀ later values, Spelt rest later values → ∀ c ∈ later.head?, t.goesOn c = false) ∧ Clear rest

theorem read?_cons {t : Terminal} {rest : List Terminal} {cs : List Char} {value : t.Value} {values : Values rest} :
    read? (t :: rest) cs = some (.cons value values) ↔
      ∃ later, t.read? (cs.dropWhile isGap) = some (value, later) ∧ read? rest later = some values := by
  simp only [read?, Option.bind_eq_bind, Option.bind_eq_some_iff, Prod.exists, Option.pure_def, Option.some_inj]
  constructor
  · rintro ⟨value, later, ht, values, hlater, h⟩
    cases h
    exact ⟨later, ht, hlater⟩
  · rintro ⟨later, ht, hlater⟩
    exact ⟨value, later, ht, values, hlater, rfl⟩

/-- Terminals that are clear are read exactly from what is made of them. -/
theorem read?_eq_some_iff {terminals : List Terminal} (hclear : Clear terminals) {cs : List Char}
    {values : Values terminals} : read? terminals cs = some values ↔ Spelt terminals cs values := by
  induction terminals generalizing cs with
  | nil =>
    cases values
    simp [read?, Spelt]
  | cons t rest ih =>
    obtain ⟨hbegins, hends, hrest⟩ := hclear
    cases values with | cons value values
    rw [read?_cons]
    constructor
    · rintro ⟨later, ht, hlater⟩
      obtain ⟨text, hcs, htext, -⟩ := Terminal.read?_eq_some_iff.1 ht
      refine ⟨cs.takeWhile isGap, text, later, ?_, fun _ => List.mem_takeWhile_imp, htext, (ih hrest).1 hlater⟩
      rw [← hcs, List.takeWhile_append_dropWhile]
    · rintro ⟨gap, text, later, rfl, hgap, htext, hlater⟩
      refine ⟨later, ?_, (ih hrest).2 hlater⟩
      rw [dropWhile_isGap hgap (hbegins _ _ htext)]
      exact Terminal.read?_eq_some_iff.2 ⟨text, rfl, htext, hends _ _ hlater⟩

/-! The productions are clear. -/

theorem isSolid_of_head? {text : List Char} (hsome : text ≠ []) (hhead : ∀ c ∈ text.head?, isGap c = false) :
    isSolid text = true := by
  obtain ⟨c, rest, rfl⟩ := List.exists_cons_of_ne_nil hsome
  simp [isSolid, hhead c rfl]

theorem Named.isSolid {letters : List Char} {name : String} (h : Named letters name) : isSolid letters = true :=
  isSolid_of_head? h.1 fun c hc => isGap_of_isAsciiLetter (h.2.1 c (List.mem_of_mem_head? hc))

theorem Numbered.isSolid {number : List Char} {n : Int} (h : Numbered number n) : isSolid number = true :=
  isSolid_of_head? h.ne_nil fun c hc => (h.head c hc).1

theorem Terminal.goesOn_of_isGap (t : Terminal) {c : Char} (h : isGap c = true) : t.goesOn c = false := by
  cases t with
  | word => rfl
  | name => exact isAsciiLetter_of_isGap h
  | number =>
    by_contra hdigit
    rw [(of_isAsciiDigit (by simpa [Terminal.goesOn] using hdigit)).1] at h
    cases h

theorem clear_word {text : String} {rest : List Terminal} (htext : isSolid text.toList = true) (hrest : Clear rest) :
    Clear (.word text :: rest) := by
  refine ⟨?_, fun _ _ _ _ _ => rfl, hrest⟩
  rintro _ _ rfl
  exact htext

theorem clear_last {t : Terminal} (ht : ∀ text value, t.Spelt text value → isSolid text = true) : Clear [t] := by
  refine ⟨ht, ?_, trivial⟩
  rintro later ⟨⟩ hgap c hc
  exact t.goesOn_of_isGap (hgap c (List.mem_of_mem_head? hc))

theorem clear_name_number : Clear [.name, .number] := by
  refine ⟨fun _ _ h => Named.isSolid h, ?_, clear_last fun _ _ h => Numbered.isSolid h⟩
  rintro _ (_ | ⟨n, _⟩) ⟨gap, number, tail, rfl, hgap, hnumber, -⟩ c hc
  cases gap with
  | cons first gap =>
    obtain rfl : first = c := Option.some.inj hc
    exact isAsciiLetter_of_isGap (hgap first List.mem_cons_self)
  | nil =>
    rw [List.nil_append, List.head?_append_of_ne_nil _ (Numbered.ne_nil hnumber)] at hc
    exact (Numbered.head hnumber c hc).2

theorem clear_of_mem {production : Production} (h : production ∈ grammar) : Clear production.terminals := by
  have hwords : ∀ entry ∈ words, isSolid entry.1.toList = true := by decide
  simp only [grammar, List.mem_append, List.mem_map, List.mem_cons, List.not_mem_nil, or_false] at h
  rcases h with ⟨entry, hentry, rfl⟩ | rfl | rfl
  · exact clear_word (hwords entry hentry) trivial
  · exact clear_word rfl clear_name_number
  · exact clear_word rfl (clear_last fun _ _ h => Named.isSolid h)

/-! No two productions begin alike. -/

def Production.opening (production : Production) : List Char :=
  match production.terminals with
  | .word text :: _ => text.toList
  | _ => []

theorem openings_apart : grammar.Pairwise fun p q => ¬p.opening <+: q.opening ∧ ¬q.opening <+: p.opening := by
  decide +kernel

theorem opening_isPrefix {production : Production} (hclear : Clear production.terminals) {cs : List Char}
    {values : Values production.terminals} (h : Spelt production.terminals cs values) :
    production.opening <+: cs.dropWhile isGap := by
  obtain ⟨terminals, command⟩ := production
  cases terminals with
  | nil => exact List.nil_prefix
  | cons t rest =>
    cases t with
    | word text =>
      cases values with | cons value values
      obtain ⟨gap, _, later, rfl, hgap, rfl, -⟩ := h
      rw [dropWhile_isGap hgap (hclear.1 _ value rfl)]
      exact List.prefix_append _ _
    | name => exact List.nil_prefix
    | number => exact List.nil_prefix

/-- A text is read as a command exactly if a production has it. -/
theorem ofChars?_eq_some_iff {cs : List Char} {command : Command} :
    ofChars? cs = some command ↔ Produced cs command := by
  constructor
  · intro h
    obtain ⟨production, hmem, hread⟩ := List.exists_of_findSome?_eq_some h
    obtain ⟨values, hvalues, rfl⟩ := Option.map_eq_some_iff.1 hread
    exact ⟨production, hmem, values, (read?_eq_some_iff (clear_of_mem hmem)).1 hvalues, rfl⟩
  · rintro ⟨production, hmem, values, hspelt, rfl⟩
    obtain ⟨before, after, hgrammar⟩ := List.append_of_mem hmem
    refine List.findSome?_eq_some_iff.2 ⟨before, production, after, hgrammar, ?_, fun other hother => ?_⟩
    · rw [(read?_eq_some_iff (clear_of_mem hmem)).2 hspelt]
      rfl
    · -- What an earlier production has begins with its word, and that is not how this one begins.
      have hearlier : other ∈ grammar := hgrammar ▸ List.mem_append_left _ hother
      have hapart := openings_apart
      rw [hgrammar, List.pairwise_append] at hapart
      rw [Option.map_eq_none_iff, Option.eq_none_iff_forall_ne_some]
      intro found hfound
      have hother' := opening_isPrefix (clear_of_mem hearlier) ((read?_eq_some_iff (clear_of_mem hearlier)).1 hfound)
      have hproduction := opening_isPrefix (clear_of_mem hmem) hspelt
      obtain ⟨hnot, hnot'⟩ := hapart.2.2 other hother production List.mem_cons_self
      exact ( List.prefix_or_prefix_of_prefix hother' hproduction).elim hnot hnot'

/-! Texts without gaps at their ends. -/

section

variable {gap rest : List Char} (hgap : ∀ c ∈ gap, isGap c = true)
include hgap

theorem eq_nil_of_head? (h : ∀ c ∈ (gap ++ rest).head?, isGap c = false) : gap = [] := by
  cases gap with
  | nil => rfl
  | cons c gap =>
    have hsolid := h c rfl
    rw [hgap c List.mem_cons_self] at hsolid
    cases hsolid

theorem eq_nil_of_getLast? (h : ∀ c ∈ (rest ++ gap).getLast?, isGap c = false) : gap = [] := by
  by_contra hsome
  have hlast := List.getLast?_eq_some_getLast hsome
  have hsolid := h (gap.getLast hsome) (by rw [List.getLast?_append_of_ne_nil _ hsome, hlast]; rfl)
  rw [hgap _ (List.getLast_mem hsome)] at hsolid
  cases hsolid

end

theorem Written.produced {cs : List Char} {command : Command} (h : Written cs command) : Produced cs command := by
  cases h with
  | @word text command h =>
    refine ⟨.ofWord (text, command), ?_, .cons () .nil, ?_, rfl⟩
    · exact List.mem_append_left _ (List.mem_map_of_mem h)
    · exact ⟨[], text.toList, [], by simp, by simp, rfl, List.forall_mem_nil _⟩
  | @set gap name space number n hgap hsome hname hspace hnumber =>
    refine ⟨.set, by simp [grammar], .cons () (.cons (String.ofList name) (.cons n .nil)), ?_, rfl⟩
    refine ⟨[], _, _, rfl, List.forall_mem_nil _, rfl, gap, name, _, rfl, hgap, ⟨hsome, hname, rfl⟩, ?_⟩
    exact ⟨space, number, [], by simp, hspace, hnumber, List.forall_mem_nil _⟩
  | @unset gap name hgap hsome hname =>
    refine ⟨.unset, by simp [grammar], .cons () (.cons (String.ofList name) .nil), ?_, rfl⟩
    refine ⟨[], _, _, rfl, List.forall_mem_nil _, rfl, gap, name, [], by simp, hgap, ⟨hsome, hname, rfl⟩, ?_⟩
    exact List.forall_mem_nil _

theorem Produced.written {cs : List Char} {command : Command} (h : Produced cs command)
    (hfirst : ∀ c ∈ cs.head?, isGap c = false) (hlast : ∀ c ∈ cs.getLast?, isGap c = false) : Written cs command := by
  obtain ⟨production, hmem, values, hspelt, rfl⟩ := h
  simp only [grammar, List.mem_append, List.mem_map, List.mem_cons, List.not_mem_nil, or_false] at hmem
  rcases hmem with ⟨entry, hentry, rfl⟩ | rfl | rfl
  · cases values with | cons _ values
    cases values
    obtain ⟨front, _, tail, rfl, hfront, rfl, htail⟩ := hspelt
    obtain rfl := eq_nil_of_head? hfront hfirst
    obtain rfl := eq_nil_of_getLast? htail hlast
    rw [List.nil_append, List.append_nil]
    exact .word hentry
  · cases values with | cons _ values
    cases values with | cons name values
    cases values with | cons n values
    cases values
    obtain ⟨front, _, _, rfl, hfront, rfl, gap, letters, _, rfl, hgap, ⟨hsome, hletters, rfl⟩, hnumber⟩ := hspelt
    obtain ⟨space, number, tail, rfl, hspace, hnumber, htail⟩ := hnumber
    obtain rfl := eq_nil_of_head? hfront hfirst
    simp only [← List.append_assoc] at hlast
    obtain rfl := eq_nil_of_getLast? htail hlast
    rw [List.nil_append, List.append_nil]
    exact .set hgap hsome hletters hspace hnumber
  · cases values with | cons _ values
    cases values with | cons name values
    cases values
    obtain ⟨front, _, _, rfl, hfront, rfl, gap, letters, tail, rfl, hgap, ⟨hsome, hletters, rfl⟩, htail⟩ := hspelt
    obtain rfl := eq_nil_of_head? hfront hfirst
    simp only [← List.append_assoc] at hlast
    obtain rfl := eq_nil_of_getLast? htail hlast
    rw [List.nil_append, List.append_nil]
    exact .unset hgap hsome hletters

theorem isBlank_of_isGap {c : Char} (h : isGap c = true) : Text.isBlank c = true := by
  simp only [isGap, Bool.or_eq_true, decide_eq_true_eq] at h
  rcases h with rfl | rfl <;> rfl

theorem parse?_eq_some_iff {line : String} {command : Command} :
    parse? line = some command ↔ Written (Text.stripped line.toList) command := by
  have hsolid {c : Char} (hc : Text.isBlank c = false) : isGap c = false := by
    by_contra hgap
    rw [isBlank_of_isGap (by simpa using hgap)] at hc
    cases hc
  refine ofChars?_eq_some_iff.trans ⟨fun h => h.written ?_ ?_, Written.produced⟩
  · exact fun c hc => hsolid (Text.head?_trimmed _ _ c hc)
  · exact fun c hc => hsolid (Text.getLast?_trimmed _ _ c hc)

example : parse? " +setx\t-007\r\n" = some (.setVariable "x" (-7)) := by decide +kernel

end Command

end DiceScript
