import DiceScript.Scope
import Mathlib.Data.Set.Card
import Mathlib.Logic.Function.Basic
import Mathlib.Order.Bounds.Defs

/-!
# One stack for each name

A scope is one list of the bindings of all names, but it behaves as if each name had a stack of its own. `Stacks` keeps
such stacks, and dates every value by the number of bindings made before it. There, a name means the top of its stack
and is removed from it, the latest of all tops is popped, and truncating keeps the oldest bindings. To any sequence of
operations the scope and the stacks answer the same, because the scope is the stacks merged by date and every operation
keeps it so. In particular a removal from the middle changes nothing for the other names.
-/

namespace DiceScript

namespace Scope

inductive Operation where
  | push (b : Binding)
  | pop
  | remove (name : Name)
  | truncate (depth : Nat)
  | clear

inductive Answer where
  | done
  | popped (b : Binding)
  | nothing
  | removed (found : Bool)

def perform (s : Scope) : Operation → Answer × Scope
  | .push b => (.done, s.push b)
  | .pop =>
    match s.pop? with
    | some (b, rest) => (.popped b, rest)
    | none => (.nothing, s)
  | .remove name => (.removed (s.remove name).1, (s.remove name).2)
  | .truncate depth => (.done, s.truncate depth)
  | .clear => (.done, s.clear)

def performAll (s : Scope) : List Operation → List Answer × Scope
  | [] => ([], s)
  | operation :: rest =>
    let (answer, after) := s.perform operation
    let (answers, last) := performAll after rest
    (answer :: answers, last)

/-- Only pushes and pops, where every pop takes away what one of the pushes has added. The number counts the bindings
added before. -/
def Operation.nested : Nat → List Operation → Bool
  | _, [] => true
  | added, .push _ :: rest => nested (added + 1) rest
  | added + 1, .pop :: rest => nested added rest
  | _, _ => false

variable {s : Scope} {name : Name}

theorem truncate_min (s : Scope) (n : Nat) : s.truncate (min n s.depth) = s.truncate n := by
  unfold truncate depth
  congr 1
  omega

theorem remove_of_absent (h : ∀ b ∈ s, b.name ≠ name) : s.remove name = (false, s) := by
  rw [remove, List.any_eq_false.2 (by simpa using h), List.eraseP_of_forall_not (by simpa using h)]

/-- Only the innermost binding of the name is taken out. -/
theorem exists_of_remove (h : ¬ ∀ b ∈ s, b.name ≠ name) :
    ∃ b inner outer, s = inner ++ b :: outer ∧ b.name = name ∧ (∀ other ∈ inner, other.name ≠ name) ∧
      s.remove name = (true, inner ++ outer) := by
  simp only [ne_eq, not_forall, not_not, exists_prop] at h
  obtain ⟨b, hb, hname⟩ := h
  obtain ⟨first, inner, outer, hinner, hfirst, hs, herase⟩ :=
    List.exists_of_eraseP (p := fun b => decide (b.name = name)) hb (decide_eq_true hname)
  refine ⟨first, inner, outer, hs, of_decide_eq_true hfirst, fun other hother => ?_, ?_⟩
  · simpa using hinner other hother
  · rw [remove, herase, List.any_eq_true.2 ⟨b, hb, decide_eq_true hname⟩]

theorem lookup?_append (inner outer : Scope) (name : Name) :
    lookup? (inner ++ outer) name = (lookup? inner name).or (lookup? outer name) := by
  simp [lookup?, List.find?_append, Option.map_or]

theorem lookup?_remove_of_ne (s : Scope) {other : Name} (h : other ≠ name) :
    (s.remove name).2.lookup? other = s.lookup? other := by
  by_cases habsent : ∀ b ∈ s, b.name ≠ name
  · rw [remove_of_absent habsent]
  · obtain ⟨b, inner, outer, rfl, rfl, -, hremove⟩ := exists_of_remove habsent
    have hb : lookup? (b :: outer) other = lookup? outer other := by simp [lookup?, Ne.symm h]
    rw [hremove, lookup?_append, lookup?_append, hb]

end Scope

/-- A value and when it was bound: how many bindings had been made before. -/
structure Dated where
  time : Nat
  value : Value

/-- A stack for each name, the innermost value first, and the number of bindings made so far. -/
structure Stacks where
  now : Nat
  of : Name → List Dated

namespace Stacks

open Scope (Operation Answer)

def empty : Stacks :=
  ⟨0, fun _ => []⟩

def times (σ : Stacks) : Set Nat :=
  {time | ∃ name, ∃ d ∈ σ.of name, d.time = time}

def set (σ : Stacks) (name : Name) (stack : List Dated) : Stacks :=
  { σ with of := Function.update σ.of name stack }

def before (σ : Stacks) (time : Nat) : Stacks :=
  { σ with of := fun name => (σ.of name).filter (·.time < time) }

inductive Step : Stacks → Operation → Answer → Stacks → Prop
  | push {σ : Stacks} (b : Binding) :
    Step σ (.push b) .done { σ.set b.name (⟨σ.now, b.value⟩ :: σ.of b.name) with now := σ.now + 1 }
  | pop {σ : Stacks} {name : Name} {d : Dated} {rest : List Dated} (htop : σ.of name = d :: rest)
    (hlatest : IsGreatest σ.times d.time) : Step σ .pop (.popped ⟨name, d.value⟩) (σ.set name rest)
  | popNone {σ : Stacks} (hnone : ∀ name, σ.of name = []) : Step σ .pop .nothing σ
  | remove {σ : Stacks} {name : Name} {d : Dated} {rest : List Dated} (htop : σ.of name = d :: rest) :
    Step σ (.remove name) (.removed true) (σ.set name rest)
  | removeNone {σ : Stacks} {name : Name} (hnone : σ.of name = []) : Step σ (.remove name) (.removed false) σ
  | truncate {σ : Stacks} {depth time : Nat} (hcount : (σ.before time).times.ncard = min depth σ.times.ncard) :
    Step σ (.truncate depth) .done (σ.before time)
  | clear {σ : Stacks} : Step σ .clear .done { σ with of := fun _ => [] }

inductive Run : Stacks → List Operation → List Answer → Stacks → Prop
  | nil {σ : Stacks} : Run σ [] [] σ
  | cons {σ σ' σ'' : Stacks} {operation : Operation} {answer : Answer} {operations : List Operation}
    {answers : List Answer} (hstep : Step σ operation answer σ') (hrun : Run σ' operations answers σ'') :
    Run σ (operation :: operations) (answer :: answers) σ''

end Stacks

def stackOf (dated : List (Nat × Binding)) (name : Name) : List Dated :=
  (dated.filter (·.2.name = name)).map fun d => ⟨d.1, d.2.value⟩

/-- Dated bindings, the latest first, that make up the stacks and the scope. -/
structure Merges (dated : List (Nat × Binding)) (σ : Stacks) (s : Scope) : Prop where
  scope : dated.map Prod.snd = s
  latest : (σ.now :: dated.map Prod.fst).Pairwise (· > ·)
  stack : σ.of = stackOf dated

section

variable {dated : List (Nat × Binding)} {σ : Stacks} {s : Scope}

theorem stackOf_cons (time : Nat) (b : Binding) (dated : List (Nat × Binding)) :
    stackOf ((time, b) :: dated) = Function.update (stackOf dated) b.name (⟨time, b.value⟩ :: stackOf dated b.name) := by
  ext1 name
  by_cases h : name = b.name
  · subst h
    simp [stackOf]
  · simp [stackOf, h, Ne.symm h]

theorem mem_stackOf {d : Dated} {name : Name} :
    d ∈ stackOf dated name ↔ (d.time, (⟨name, d.value⟩ : Binding)) ∈ dated := by
  simp only [stackOf, List.mem_map, List.mem_filter, decide_eq_true_eq]
  constructor
  · rintro ⟨⟨time, b⟩, ⟨hmem, rfl⟩, rfl⟩
    exact hmem
  · intro h
    exact ⟨_, ⟨h, rfl⟩, rfl⟩

theorem head?_stackOf (dated : List (Nat × Binding)) (name : Name) :
    (stackOf dated name).head?.map Dated.value = Scope.lookup? (dated.map Prod.snd) name := by
  induction dated with
  | nil => rfl
  | cons entry dated ih =>
    obtain ⟨time, b⟩ := entry
    by_cases h : b.name = name
    · simp [stackOf, Scope.lookup?, h]
    · simpa [stackOf, Scope.lookup?, h] using ih

theorem stackOf_eraseP (dated : List (Nat × Binding)) (name : Name) :
    stackOf (dated.eraseP (·.2.name = name)) = Function.update (stackOf dated) name (stackOf dated name).tail := by
  induction dated with
  | nil => simp [stackOf]
  | cons entry dated ih =>
    obtain ⟨time, b⟩ := entry
    by_cases h : b.name = name
    · subst h
      simp [stackOf_cons]
    · rw [List.eraseP_cons_of_neg (by simpa using h), stackOf_cons, ih, stackOf_cons]
      rw [Function.update_comm (Ne.symm h)]
      simp [h, Ne.symm h]

theorem stackOf_eq_nil_iff {name : Name} :
    stackOf dated name = [] ↔ ∀ b ∈ dated.map Prod.snd, b.name ≠ name := by
  rw [stackOf, List.map_eq_nil_iff, List.filter_eq_nil_iff, List.forall_mem_map]
  simp only [decide_eq_true_eq, ne_eq]

theorem stackOf_filter (dated : List (Nat × Binding)) (time : Nat) (name : Name) :
    stackOf (dated.filter (·.1 < time)) name = (stackOf dated name).filter (·.time < time) := by
  simp only [stackOf, List.filter_map, List.filter_filter, Function.comp_def, Bool.and_comm]

/-- What was bound before a time is at the end. -/
theorem filter_time_suffix (h : (dated.map Prod.fst).Pairwise (· > ·)) (time : Nat) :
    dated.filter (·.1 < time) <:+ dated := by
  induction dated with
  | nil => exact List.suffix_refl []
  | cons entry dated ih =>
    obtain ⟨hlatest, hrest⟩ := List.pairwise_cons.1 h
    by_cases hentry : entry.1 < time
    · have hall : ∀ other ∈ entry :: dated, decide (other.1 < time) = true := by
        intro other hother
        apply decide_eq_true
        rcases List.mem_cons.1 hother with rfl | hother
        · exact hentry
        · exact Nat.lt_trans (hlatest other.1 (List.mem_map_of_mem hother)) hentry
      rw [List.filter_eq_self.2 hall]
    · rw [List.filter_cons_of_neg (by simpa using hentry)]
      exact (ih hrest).trans (List.suffix_cons entry dated)

/-- For any number of the oldest bindings there is a time before which just these were made. -/
theorem exists_time_of_le {now n : Nat} (h : (now :: dated.map Prod.fst).Pairwise (· > ·)) (hn : n ≤ dated.length) :
    ∃ time ≤ now, (dated.filter (·.1 < time)).length = n := by
  induction dated generalizing now with
  | nil => exact ⟨now, Nat.le_refl now, (Nat.le_zero.1 hn).symm⟩
  | cons entry dated ih =>
    obtain ⟨hnow, hrest⟩ := List.pairwise_cons.1 h
    by_cases hall : n = dated.length + 1
    · refine ⟨now, Nat.le_refl now, ?_⟩
      rw [List.filter_eq_self.2, hall, List.length_cons]
      intro other hother
      exact decide_eq_true (hnow other.1 (List.mem_map_of_mem hother))
    · rw [List.length_cons] at hn
      obtain ⟨time, htime, hlength⟩ := ih hrest (by omega)
      have hentry : entry.1 < now := hnow entry.1 List.mem_cons_self
      refine ⟨time, by omega, ?_⟩
      rw [List.filter_cons_of_neg (by simpa using htime), hlength]

namespace Merges

open Scope (Operation Answer)

theorem times_eq (h : Merges dated σ s) : σ.times = {time | time ∈ dated.map Prod.fst} := by
  ext time
  simp only [Stacks.times, h.stack, mem_stackOf, Set.mem_ofPred_eq, List.mem_map]
  constructor
  · rintro ⟨name, d, hd, rfl⟩
    exact ⟨_, hd, rfl⟩
  · rintro ⟨⟨time, b⟩, hb, rfl⟩
    exact ⟨b.name, ⟨time, b.value⟩, hb, rfl⟩

theorem ncard_times (h : Merges dated σ s) : σ.times.ncard = dated.length := by
  have hnodup : (dated.map Prod.fst).Nodup := (List.pairwise_cons.1 h.latest).2.imp fun hlt => Nat.ne_of_gt hlt
  have hfinset : {time | time ∈ dated.map Prod.fst} = ((dated.map Prod.fst).toFinset : Set Nat) := by simp
  rw [h.times_eq, hfinset, Set.ncard_coe_finset, List.toFinset_card_of_nodup hnodup, List.length_map]

theorem depth_eq (h : Merges dated σ s) : s.depth = dated.length := by
  rw [Scope.depth, ← h.scope, List.length_map]

theorem push (h : Merges dated σ s) (b : Binding) :
    Merges ((σ.now, b) :: dated)
      { σ.set b.name (⟨σ.now, b.value⟩ :: σ.of b.name) with now := σ.now + 1 } (s.push b) where
  scope := by rw [List.map_cons, h.scope, Scope.push]
  latest := by
    have hlatest := h.latest
    rw [List.map_cons, List.pairwise_cons]
    refine ⟨fun time htime => ?_, hlatest⟩
    rcases List.mem_cons.1 htime with rfl | htime
    · exact Nat.lt_succ_self _
    · exact Nat.lt_succ_of_lt ((List.pairwise_cons.1 hlatest).1 time htime)
  stack := by rw [stackOf_cons, ← h.stack, Stacks.set]

theorem remove (h : Merges dated σ s) (name : Name) :
    Merges (dated.eraseP (·.2.name = name)) (σ.set name (σ.of name).tail) (s.remove name).2 where
  scope := by
    rw [← h.scope, Scope.remove, List.eraseP_map]
    rfl
  latest := h.latest.sublist ((List.eraseP_sublist.map _).cons_cons _)
  stack := by rw [stackOf_eraseP, ← h.stack, Stacks.set]

theorem before (h : Merges dated σ s) (time : Nat) :
    Merges (dated.filter (·.1 < time)) (σ.before time) (s.truncate (dated.filter (·.1 < time)).length) where
  scope := by
    have hsuffix := filter_time_suffix (List.pairwise_cons.1 h.latest).2 time
    rw [Scope.truncate, ← h.scope, List.length_map, ← List.map_drop, ← List.suffix_iff_eq_drop.1 hsuffix]
  latest := h.latest.sublist ((List.filter_sublist.map _).cons_cons _)
  stack := by
    ext1 name
    rw [stackOf_filter, ← h.stack, Stacks.before]

theorem lookup?_eq (h : Merges dated σ s) (name : Name) : s.lookup? name = (σ.of name).head?.map Dated.value := by
  rw [h.stack, head?_stackOf, h.scope]

theorem of_eq_nil_iff (h : Merges dated σ s) {name : Name} : σ.of name = [] ↔ ∀ b ∈ s, b.name ≠ name := by
  rw [h.stack, stackOf_eq_nil_iff, h.scope]

/-- The innermost binding is the latest, and only it was made at its time. -/
theorem top {b : Binding} {rest : Scope} (h : Merges dated σ (b :: rest)) :
    ∃ d, σ.of b.name = d :: (σ.of b.name).tail ∧ d.value = b.value ∧ IsGreatest σ.times d.time ∧
      ∀ name, ∀ other ∈ σ.of name, other.time = d.time → name = b.name := by
  obtain ⟨⟨time, b⟩, dated, rfl, rfl, rfl⟩ := List.map_eq_cons_iff.1 h.scope
  have hearlier := (List.pairwise_cons.1 (List.pairwise_cons.1 h.latest).2).1
  refine ⟨⟨time, b.value⟩, ?_, rfl, ?_, fun name other hother htime => ?_⟩
  · simp [h.stack, stackOf_cons]
  · rw [h.times_eq]
    refine ⟨List.mem_cons_self, fun other hother => ?_⟩
    rcases List.mem_cons.1 hother with rfl | hother
    · exact Nat.le_refl _
    · exact Nat.le_of_lt (hearlier other hother)
  · rw [h.stack, mem_stackOf, htime] at hother
    rcases List.mem_cons.1 hother with heq | hother
    · cases heq
      rfl
    · exact absurd (hearlier time (List.mem_map_of_mem hother)) (Nat.lt_irrefl _)

/-- The top of the stack of a name is its innermost binding, and removing the name takes out this binding only. -/
theorem exists_of_top (h : Merges dated σ s) {name : Name} {d : Dated} {rest : List Dated}
    (htop : σ.of name = d :: rest) : ∃ inner outer, s = inner ++ ⟨name, d.value⟩ :: outer ∧
      (∀ b ∈ inner, b.name ≠ name) ∧ s.remove name = (true, inner ++ outer) := by
  have hpresent : ¬ ∀ b ∈ s, b.name ≠ name := by
    rw [← h.of_eq_nil_iff, htop]
    exact List.cons_ne_nil d rest
  obtain ⟨b, inner, outer, rfl, rfl, hinner, hremove⟩ := Scope.exists_of_remove hpresent
  have hnone : Scope.lookup? inner b.name = none := by simpa [Scope.lookup?] using hinner
  have hvalue : b.value = d.value := by
    have hlookup := h.lookup?_eq b.name
    rw [Scope.lookup?_append, hnone, htop] at hlookup
    simpa [Scope.lookup?] using hlookup
  refine ⟨inner, outer, ?_, hinner, hremove⟩
  rw [← hvalue]

/-- Whatever an operation does to the stacks, the scope answers the same and is the stacks merged again. -/
theorem of_step (h : Merges dated σ s) {operation : Operation} {answer : Answer} {σ' : Stacks}
    (hstep : Stacks.Step σ operation answer σ') :
    answer = (s.perform operation).1 ∧ ∃ dated', Merges dated' σ' (s.perform operation).2 := by
  cases hstep with
  | push b => exact ⟨rfl, _, h.push b⟩
  | @pop name d rest htop hlatest =>
    cases s with
    | nil =>
      rw [h.of_eq_nil_iff.2 (List.forall_mem_nil _)] at htop
      cases htop
    | cons b outer =>
      -- The latest entry is that of the innermost binding, because there is only one of its time.
      obtain ⟨d', htop', hvalue, hlatest', honly⟩ := h.top
      have hname : name = b.name := honly name d (by simp [htop]) (hlatest.unique hlatest')
      subst hname
      obtain ⟨rfl, -⟩ := List.cons.inj (htop.symm.trans htop')
      have hrest := h.remove b.name
      have hremove : (Scope.remove (b :: outer) b.name).2 = outer := by simp [Scope.remove]
      rw [hremove, htop] at hrest
      refine ⟨?_, _, hrest⟩
      rw [hvalue]
      rfl
  | popNone hnone =>
    cases s with
    | nil => exact ⟨rfl, dated, h⟩
    | cons b outer => exact absurd rfl (h.of_eq_nil_iff.1 (hnone b.name) b List.mem_cons_self)
  | @remove name d rest htop =>
    obtain ⟨inner, outer, -, -, hremove⟩ := h.exists_of_top htop
    have hrest := h.remove name
    rw [htop] at hrest
    refine ⟨?_, _, hrest⟩
    rw [Scope.perform, hremove]
  | removeNone hnone =>
    rw [Scope.perform, Scope.remove_of_absent (h.of_eq_nil_iff.1 hnone)]
    exact ⟨rfl, dated, h⟩
  | @truncate depth time hcount =>
    have hbefore := h.before time
    rw [← hbefore.ncard_times, hcount, h.ncard_times, ← h.depth_eq, Scope.truncate_min] at hbefore
    exact ⟨rfl, _, hbefore⟩
  | clear => exact ⟨rfl, [], rfl, List.pairwise_singleton _ _, rfl⟩

/-- Every operation can be done to the stacks. -/
theorem exists_step (h : Merges dated σ s) (operation : Operation) : ∃ answer σ', Stacks.Step σ operation answer σ' := by
  cases operation with
  | push b => exact ⟨_, _, .push b⟩
  | pop =>
    cases s with
    | nil => exact ⟨_, _, .popNone fun name => h.of_eq_nil_iff.2 (List.forall_mem_nil _)⟩
    | cons b rest =>
      obtain ⟨d, htop, -, hlatest, -⟩ := h.top
      exact ⟨_, _, .pop htop hlatest⟩
  | remove name =>
    cases htop : σ.of name with
    | nil => exact ⟨_, _, .removeNone htop⟩
    | cons d rest => exact ⟨_, _, .remove htop⟩
  | truncate depth =>
    obtain ⟨time, -, hcount⟩ := exists_time_of_le h.latest (Nat.min_le_right depth dated.length)
    rw [← (h.before time).ncard_times, ← h.ncard_times] at hcount
    exact ⟨_, _, .truncate hcount⟩
  | clear => exact ⟨_, _, .clear⟩

theorem of_run (h : Merges dated σ s) {operations : List Operation} {answers : List Answer} {σ' : Stacks}
    (hrun : Stacks.Run σ operations answers σ') :
    answers = (s.performAll operations).1 ∧ ∃ dated', Merges dated' σ' (s.performAll operations).2 := by
  induction hrun generalizing dated s with
  | nil => exact ⟨rfl, dated, h⟩
  | cons hstep _ ih =>
    obtain ⟨hanswer, dated', hmerges⟩ := h.of_step hstep
    obtain ⟨hanswers, hlast⟩ := ih hmerges
    exact ⟨congrArg₂ List.cons hanswer hanswers, hlast⟩

theorem exists_run (h : Merges dated σ s) (operations : List Operation) :
    ∃ answers σ', Stacks.Run σ operations answers σ' := by
  induction operations generalizing dated σ s with
  | nil => exact ⟨[], σ, .nil⟩
  | cons operation operations ih =>
    obtain ⟨answer, σ', hstep⟩ := h.exists_step operation
    obtain ⟨-, dated', hmerges⟩ := h.of_step hstep
    obtain ⟨answers, σ'', hrun⟩ := ih hmerges
    exact ⟨answer :: answers, σ'', .cons hstep hrun⟩

end Merges

end

namespace Scope

/-- What a scope does, told by its stacks: a name means what is on the top of its stack, to remove a name takes this one
binding out and leaves all others where they are, and what is popped is the latest binding of all. -/
structure Reflects (s : Scope) (σ : Stacks) : Prop where
  lookup : ∀ name, s.lookup? name = (σ.of name).head?.map Dated.value
  lookupNone : ∀ name, s.lookup? name = none ↔ σ.of name = []
  remove : ∀ name d rest, σ.of name = d :: rest → ∃ inner outer,
    s = inner ++ ⟨name, d.value⟩ :: outer ∧ (∀ b ∈ inner, b.name ≠ name) ∧ s.remove name = (true, inner ++ outer)
  removeNone : ∀ name, σ.of name = [] → s.remove name = (false, s)
  removeOther : ∀ name other, other ≠ name → (s.remove name).2.lookup? other = s.lookup? other
  pop : ∀ b rest, s.pop? = some (b, rest) →
    s = b :: rest ∧ ∃ time, IsGreatest σ.times time ∧ (σ.of b.name).head? = some ⟨time, b.value⟩
  popNone : s.pop? = none → s = [] ∧ ∀ name, σ.of name = []

theorem reflects {dated : List (Nat × Binding)} {σ : Stacks} {s : Scope} (h : Merges dated σ s) : s.Reflects σ where
  lookup := h.lookup?_eq
  lookupNone name := by rw [h.lookup?_eq, Option.map_eq_none_iff, List.head?_eq_none_iff]
  remove name d rest htop := h.exists_of_top htop
  removeNone name hnone := remove_of_absent (h.of_eq_nil_iff.1 hnone)
  removeOther name other hother := lookup?_remove_of_ne s hother
  pop b rest hpop := by
    cases s with
    | nil => cases hpop
    | cons first outer =>
      cases hpop
      obtain ⟨d, htop, hvalue, hlatest, -⟩ := h.top
      refine ⟨rfl, d.time, hlatest, ?_⟩
      rw [htop, List.head?_cons, ← hvalue]
  popNone hpop := by
    cases s with
    | nil => exact ⟨rfl, fun name => h.of_eq_nil_iff.2 (List.forall_mem_nil _)⟩
    | cons first outer => cases hpop

theorem performAll_nested (added s : Scope) {later : List Operation} (h : Operation.nested added.length later = true) :
    ∃ added', (performAll (added ++ s) later).2 = added' ++ s := by
  induction later generalizing added with
  | nil => exact ⟨added, rfl⟩
  | cons operation later ih =>
    cases operation with
    | push b => exact ih (b :: added) h
    | pop =>
      cases added with
      | nil => cases h
      | cons b added => exact ih added h
    | remove name => cases added <;> cases h
    | truncate depth => cases added <;> cases h
    | clear => cases added <;> cases h

/-- A scope has a stack for each name. Let any operations be performed on an empty scope and on empty stacks. The stacks
can perform them, and in whatever way they do, they answer what the scope answers, the scope is the stacks merged by
date, and looking up, removing and popping reflect the stacks. From then on, truncating to the depth that the scope has
now undoes whatever is pushed in between, where a pop may take away only what was pushed in between. -/
theorem one_stack_for_each_name (operations : List Operation) :
    let answers := (performAll [] operations).1
    let s := (performAll [] operations).2
    (∃ σ, Stacks.Run .empty operations answers σ) ∧
    (∀ answers' σ, Stacks.Run .empty operations answers' σ →
      answers' = answers ∧ (∃ dated, Merges dated σ s) ∧ s.Reflects σ) ∧
    ∀ later, Operation.nested 0 later = true → (s.performAll later).2.truncate s.depth = s := by
  intro answers s
  have hempty : Merges [] .empty [] := ⟨rfl, List.pairwise_singleton _ _, rfl⟩
  refine ⟨?_, fun answers' σ hrun => ?_, fun later hlater => ?_⟩
  · obtain ⟨answers', σ, hrun⟩ := hempty.exists_run operations
    obtain ⟨rfl, -⟩ := hempty.of_run hrun
    exact ⟨σ, hrun⟩
  · obtain ⟨hanswers, dated, hmerges⟩ := hempty.of_run hrun
    exact ⟨hanswers, ⟨dated, hmerges⟩, reflects hmerges⟩
  · obtain ⟨added, hadded⟩ := performAll_nested [] s hlater
    rw [List.nil_append] at hadded
    rw [hadded, truncate_append]

/-- A removal that uncovers an outer binding, and then pushes that hide bindings with a pop among them. -/
theorem one_stack_for_each_name_shadowed :
    let x : Name := .text "x"
    let y : Name := .text "y"
    let s := (performAll [] [.push ⟨x, .number 1⟩, .push ⟨x, .number 2⟩, .push ⟨y, .number 3⟩, .remove x]).2
    let later : List Operation := [.push ⟨x, .number 4⟩, .push ⟨y, .number 5⟩, .pop]
    (∃ σ, s.Reflects σ ∧ s.lookup? x = some (.number 1)) ∧
      Operation.nested 0 later = true ∧ (s.performAll later).2.truncate s.depth = s := by
  intro x y s later
  obtain ⟨⟨σ, hrun⟩, hruns, hlater⟩ :=
    one_stack_for_each_name [.push ⟨x, .number 1⟩, .push ⟨x, .number 2⟩, .push ⟨y, .number 3⟩, .remove x]
  exact ⟨⟨σ, (hruns _ σ hrun).2.2, by decide⟩, rfl, hlater later rfl⟩

-- A removal in between shifts the bindings, so that the depth counts other ones.
example : (performAll [⟨.text "x", .number 1⟩] [.remove (.text "x"), .push ⟨.text "y", .number 2⟩]).2.truncate 1 =
    [⟨.text "y", .number 2⟩] := by decide

end Scope

end DiceScript
