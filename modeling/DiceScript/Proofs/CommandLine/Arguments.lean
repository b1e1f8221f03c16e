import Mathlib.Data.List.DropRight
import DiceScript.CommandLine

/-!
# Arguments that are words

Behind options, words that stand together are the arguments of a command, in their order. A word that does not
start with a dash is always one; one that does may be, such as a negative number. A count is never taken for an
option. What is appended to a path is appended to its tidy form, if the path ends in a name.
-/

namespace DiceScript

namespace CommandLine

/-- An argument that is a word, where no separator comes before it. -/
def IsWord (s : String) : Prop :=
  s ≠ "--" ∧ classify s = .ok (.word s)

theorem isWord_of_head {s : String} (h : s.toList.head? ≠ some '-') : IsWord s := by
  refine ⟨?_, ?_⟩
  · rintro rfl
    exact h rfl
  · unfold classify
    split
    · next hs => simp [hs] at h
    · next hs => simp [hs] at h
    · rfl

section

variable {rest : List String} {others : List Argument}

theorem classifyAll_cons {s : String} {argument : Argument} (hs : s ≠ "--") (h : classify s = .ok argument)
    (hrest : classifyAll rest = .ok others) : classifyAll (s :: rest) = .ok (argument :: others) := by
  simp only [classifyAll, if_neg hs, h, hrest, bind, Except.bind, pure, Except.pure]

theorem classifyAll_words {words : List String} (h : ∀ s ∈ words, IsWord s) :
    classifyAll words = .ok (words.map .word) := by
  induction words with
  | nil => rfl
  | cons s words ih =>
    obtain ⟨⟨hs, hword⟩, hwords⟩ := List.forall_mem_cons.1 h
    exact classifyAll_cons hs hword (ih hwords)

theorem classifyAll_verbose (k : Nat) (h : classifyAll rest = .ok others) :
    classifyAll (List.replicate k "-v" ++ rest) = .ok (List.replicate k (.flags [.verbose]) ++ others) := by
  induction k with
  | zero => exact h
  | succ k ih => exact classifyAll_cons (by decide) rfl ih

end

section

variable {o : Options}

theorem leadingWords_words (words : List String) : leadingWords (words.map .word) = words := by
  induction words with
  | nil => rfl
  | cons s words ih => rw [List.map_cons, leadingWords, ih]

theorem collect_within (words : List String) :
    collect o .within false (words.map .word) = .ok (o, false) := by
  induction words with
  | nil => rfl
  | cons s words ih => exact ih

theorem collect_words (s : String) (words : List String) :
    collect o .before false ((s :: words).map .word) = .ok ({ o with arguments := s :: words }, false) := by
  rw [List.map_cons, collect, leadingWords_words, collect_within]

theorem collect_verbose (k : Nat) (rest : List Argument) :
    collect o .before false (List.replicate k (.flags [.verbose]) ++ rest) =
      collect { o with verbosity := o.verbosity + k } .before false rest := by
  induction k generalizing o with
  | zero => rfl
  | succ k ih =>
    have hstep : collect o .before false (List.replicate (k + 1) (.flags [.verbose]) ++ rest) =
        collect { o with verbosity := o.verbosity + 1 } .before false
          (List.replicate k (.flags [.verbose]) ++ rest) := rfl
    rw [hstep, ih, Nat.add_assoc, Nat.add_comm 1 k]

end

section

variable {first path : String} {words : List String}

/-- Words behind any number of flags are the arguments. -/
theorem parse_words (k : Nat) (h : ∀ s ∈ first :: words, IsWord s) :
    Options.parse (List.replicate k "-v" ++ first :: words) = .ok ⟨k, none, none, none, first :: words⟩ := by
  rw [Options.parse, classifyAll_verbose k (classifyAll_words h)]
  simp only [bind, Except.bind]
  rw [collect_verbose, collect_words]
  simp [Options.initial]

/-- The word behind the option for a document is its path. -/
theorem parse_loaded (k : Nat) (hpath : IsWord path) (h : ∀ s ∈ first :: words, IsWord s) :
    Options.parse (List.replicate k "-v" ++ "--ast" :: path :: first :: words) =
      .ok ⟨k, none, none, some path, first :: words⟩ := by
  have hclassified : classifyAll ("--ast" :: path :: first :: words) =
      .ok (.setting .loaded none :: .word path :: (first :: words).map .word) :=
    classifyAll_cons (by decide) (by decide +kernel) (classifyAll_cons hpath.1 hpath.2 (classifyAll_words h))
  have hcollect (o : Options) (ho : o.emitted = none) :
      collect o .before false (.setting .loaded none :: .word path :: (first :: words).map .word) =
        collect { o with loaded := some path } .before false ((first :: words).map .word) := by
    simp [collect, assign, ho, Stage.interrupted]
  rw [Options.parse, classifyAll_verbose k hclassified]
  simp only [bind, Except.bind]
  rw [collect_verbose, hcollect _ rfl, collect_words]
  simp [Options.initial]

theorem parse_emitted (hpath : IsWord path) :
    Options.parse ["--emit-ast", path] = .ok ⟨0, none, some path, none, []⟩ := by
  have hclassified : classifyAll ["--emit-ast", path] = .ok [.setting .emitted none, .word path] :=
    classifyAll_cons (by decide) (by decide +kernel) (classifyAll_cons hpath.1 hpath.2 rfl)
  rw [Options.parse, hclassified]
  rfl

end

/-! Counts. -/

theorem unpadded_minus {s : String} (h : s.toList.head? = some '-') :
    ∃ cs, Numeral.unpadded s = '-' :: cs := by
  obtain ⟨rest, hs⟩ := List.head?_eq_some_iff.1 h
  have hunpadded : Numeral.unpadded s = ('-' :: rest).rdropWhile Text.isNumberBlank := by
    rw [Numeral.unpadded, hs]
    rfl
  rw [hunpadded]
  obtain ⟨later, hlater⟩ := List.rdropWhile_prefix Text.isNumberBlank ('-' :: rest)
  cases hcs : ('-' :: rest).rdropWhile Text.isNumberBlank with
  | nil =>
    have hblank := List.rdropWhile_eq_nil_iff.1 hcs '-' List.mem_cons_self
    exact absurd hblank (by decide)
  | cons c cs =>
    rw [hcs] at hlater
    cases hlater
    exact ⟨cs, rfl⟩

/-- A text with a minus sign in front is no positive number. -/
theorem isWord_of_integer? {s : String} {n : Int} (h : Numeral.integer? s = some n) (hn : 1 ≤ n) : IsWord s := by
  refine isWord_of_head fun hhead => ?_
  obtain ⟨cs, hcs⟩ := unpadded_minus hhead
  simp only [Numeral.integer?, hcs, Numeral.splitSign] at h
  split at h
  · cases h
    simp only [if_true] at hn
    omega
  · cases h

end CommandLine

/-! Paths. -/

/-- A part of a path that leads to something else than the place where it is met. -/
def IsName (cs : List Char) : Prop :=
  '/' ∉ cs ∧ cs ≠ [] ∧ cs ≠ ['.']

instance (cs : List Char) : Decidable (IsName cs) :=
  inferInstanceAs (Decidable (_ ∧ _))

/-- A path that is a name, or a directory with a name in it. -/
inductive EndsInName : List Char → Prop
  | alone {name : List Char} (h : IsName name) : EndsInName name
  | within {name : List Char} (directory : List Char) (h : IsName name) : EndsInName (directory ++ '/' :: name)

theorem IsName.append {name suffix : List Char} (h : IsName name) (hsuffix : '/' ∉ suffix)
    (hlength : 1 < suffix.length) : IsName (name ++ suffix) := by
  obtain ⟨hslash, hne, -⟩ := h
  refine ⟨by simp [hslash, hsuffix], by simp [hne], fun hdot => ?_⟩
  have hdots := congrArg List.length hdot
  simp only [List.length_append, List.length_singleton] at hdots
  omega

theorem EndsInName.ne_empty {path : String} (h : EndsInName path.toList) : path ≠ "" := by
  rintro rfl
  generalize hnil : ("" : String).toList = cs at h
  cases h with
  | alone h => exact h.2.1 (hnil ▸ rfl)
  | within directory h => simp at hnil

/-- What is appended to a path, and holds no slash, is appended to the name in which it ends. -/
theorem splitOn_append {path suffix : List Char} (hpath : EndsInName path) (hsuffix : '/' ∉ suffix)
    (hlength : 1 < suffix.length) :
    ∃ before name, IsName name ∧ IsName (name ++ suffix) ∧ path.splitOn '/' = before ++ [name] ∧
      (path ++ suffix).splitOn '/' = before ++ [name ++ suffix] := by
  cases hpath with
  | alone h =>
    have h' := h.append hsuffix hlength
    exact ⟨[], path, h, h', List.splitOn_eq_singleton h.1, List.splitOn_eq_singleton h'.1⟩
  | @within name directory h =>
    have h' := h.append hsuffix hlength
    refine ⟨directory.splitOn '/', name, h, h', ?_, ?_⟩
    · rw [List.splitOn_append_cons_self, List.splitOn_eq_singleton h.1]
    · rw [List.append_assoc, List.cons_append, List.splitOn_append_cons_self, List.splitOn_eq_singleton h'.1]

theorem joinParts_snoc (parts : List String) (part suffix : String) :
    joinParts (parts ++ [part ++ suffix]) = joinParts (parts ++ [part]) ++ suffix := by
  induction parts with
  | nil => simp [joinParts]
  | cons first parts ih =>
    unfold joinParts at *
    rw [List.cons_append, List.cons_append, String.intercalate_cons_of_ne_nil (by simp),
      String.intercalate_cons_of_ne_nil (by simp), ih]
    simp only [String.append_assoc]

/-- The parts of a path whose last one is a name. -/
theorem pathParts_of_splitOn {path : String} {before : List (List Char)} {name : List Char} (hname : IsName name)
    (h : path.toList.splitOn '/' = before ++ [name]) :
    pathParts path = ((before.map String.ofList).filter (· ≠ "")).filter (· ≠ ".") ++ [String.ofList name] := by
  have hempty : String.ofList name ≠ "" := fun h => hname.2.1 (String.ofList_injective h)
  have hdot : String.ofList name ≠ "." := fun h => hname.2.2 (String.ofList_injective h)
  rw [pathParts, pathSteps, h, List.map_append, List.filter_append, List.filter_append]
  simp [hempty, hdot]

/-- The slashes in front of a path are known from its first character that is none. -/
theorem pathRoot_append {path : String} (suffix : String) (hpath : EndsInName path.toList) :
    pathRoot (path ++ suffix) = pathRoot path := by
  have hfirst {name : List Char} (h : IsName name) : ∃ c cs, name = c :: cs ∧ c ≠ '/' := by
    obtain ⟨c, cs, rfl⟩ := List.exists_cons_of_ne_nil h.2.1
    exact ⟨c, cs, rfl, fun hc => h.1 (hc ▸ List.mem_cons_self)⟩
  unfold pathRoot
  rw [String.toList_append]
  generalize path.toList = path at hpath ⊢
  cases hpath with
  | alone h =>
    obtain ⟨c, cs, rfl, hc⟩ := hfirst h
    simp [hc]
  | within directory h =>
    obtain ⟨c, cs, rfl, hc⟩ := hfirst h
    rcases directory with _ | ⟨d, _ | ⟨e, _ | ⟨f, rest⟩⟩⟩
    · simp [hc]
    · by_cases hd : d = '/' <;> simp [hd, hc]
    · by_cases hd : d = '/' <;> by_cases he : e = '/' <;> simp [hd, he]
    · by_cases hd : d = '/' <;> by_cases he : e = '/' <;> by_cases hf : f = '/' <;> simp [hd, he, hf]

theorem tidyPath_append {path suffix : String} (hpath : EndsInName path.toList) (hsuffix : '/' ∉ suffix.toList)
    (hlength : 1 < suffix.toList.length) : tidyPath (path ++ suffix) = tidyPath path ++ suffix := by
  obtain ⟨before, name, hname, hname', hsplit, hsplit'⟩ := splitOn_append hpath hsuffix hlength
  rw [← String.toList_append] at hsplit'
  have hjoined : joinParts (pathParts (path ++ suffix)) = joinParts (pathParts path) ++ suffix := by
    rw [pathParts_of_splitOn hname hsplit, pathParts_of_splitOn hname' hsplit', String.ofList_append,
      String.ofList_toList, joinParts_snoc]
  have hpart : joinParts (pathParts path) ≠ "" := by
    intro hempty
    have hjoin := joinParts_snoc (((before.map String.ofList).filter (· ≠ "")).filter (· ≠ ".")) ""
      (String.ofList name)
    rw [String.empty_append, ← pathParts_of_splitOn hname hsplit, hempty, eq_comm,
      String.append_eq_empty_iff] at hjoin
    exact hname.2.1 (String.ofList_injective hjoin.2)
  have hsome (front behind : String) : (front ++ (joinParts (pathParts path) ++ behind)).isEmpty = false := by
    rw [← Bool.not_eq_true, String.isEmpty_iff, String.append_eq_empty_iff, String.append_eq_empty_iff]
    exact fun h => hpart h.2.1
  have htidy := hsome (pathRoot path) ""
  rw [String.append_empty] at htidy
  rw [tidyPath, tidyPath, pathRoot_append suffix hpath, hjoined]
  simp only [htidy, hsome, Bool.false_eq_true, if_false, String.append_assoc]

end DiceScript
