import DiceScript.Script.Reader

/-!
# What a reader sees

A reader looks at one token after the other, at most one further than it takes, and at none behind an end token.
So two lists of tokens that agree up to their first end tokens are read the same, by readers that may go to
different depths as long as neither gives up for that. And what is wrong is said to be where a token stands that
was seen. `Agree` says both of two readers, with one rule for each way to build one.
-/

namespace DiceScript

namespace Read

variable {α β : Type}

/-- Lists of tokens that cannot be told apart, since they differ behind an end token at most. The tokens that can
be seen are at certain places. -/
inductive Same (place : Mark → Prop) : List Token → List Token → Prop
  | nil : Same place [] []
  | last {t : Token} (hkind : t.kind = .endOfInput) (hplace : place t.position) (ts ts' : List Token) :
    Same place (t :: ts) (t :: ts')
  | next {t : Token} {ts ts' : List Token} (hplace : place t.position) (h : Same place ts ts') :
    Same place (t :: ts) (t :: ts')

/-- Two readings that end the same, unless one of them went too deep. A problem is at one of the places. -/
inductive Meet (place : Mark → Prop) (good : α → Prop) :
    Except ReadStop (α × List Token) → Except ReadStop (α × List Token) → Prop
  | success {a : α} {ts ts' : List Token} (h : good a) (hrest : Same place ts ts') :
    Meet place good (.ok (a, ts)) (.ok (a, ts'))
  | problem {e : ParseError} (h : place e.position) : Meet place good (.error (.problem e)) (.error (.problem e))
  | exhausted : Meet place good (.error .exhausted) (.error .exhausted)
  | left (result : Except ReadStop (α × List Token)) : Meet place good (.error .outOfFuel) result
  | right (result : Except ReadStop (α × List Token)) : Meet place good result (.error .outOfFuel)

/-- On lists that cannot be told apart two readers end the same, with `good` results. -/
def Agree (place : Mark → Prop) (x y : Read α) (good : α → Prop) : Prop :=
  ∀ ts ts', Same place ts ts' → Meet place good (x ts) (y ts')

section

variable {place : Mark → Prop} {good : α → Prop} {good' : β → Prop} {x y : Read α} {f g : α → Read β}

theorem same_self {ts : List Token} (h : ∀ t ∈ ts, place t.position) : Same place ts ts := by
  induction ts with
  | nil => exact .nil
  | cons t ts ih =>
    rw [List.forall_mem_cons] at h
    exact .next h.1 (ih h.2)

theorem agree_pure {a : α} (h : good a) : Agree place (pure a) (pure a) good :=
  fun _ _ hts => .success h hts

theorem agree_problem {e : ParseError} (h : place e.position) :
    Agree place (throw (.problem e)) (throw (.problem e)) good :=
  fun _ _ _ => .problem h

theorem agree_left (y : Read α) : Agree place (throw .outOfFuel) y good :=
  fun _ _ _ => .left _

theorem agree_right (x : Read α) : Agree place x (throw .outOfFuel) good :=
  fun _ _ _ => .right _

theorem Agree.bind (h : Agree place x y good) (hf : ∀ a, good a → Agree place (f a) (g a) good') :
    Agree place (x >>= f) (y >>= g) good' := by
  intro ts ts' hts
  have hmeet := h ts ts' hts
  simp only [Bind.bind, StateT.bind, Except.bind]
  generalize x ts = found at hmeet ⊢
  generalize y ts' = found' at hmeet ⊢
  cases hmeet with
  | success ha hrest => exact hf _ ha _ _ hrest
  | problem h => exact .problem h
  | exhausted => exact .exhausted
  | left => exact .left _
  | right => exact .right _

theorem agree_fail (cause : ParseError.Cause) : Agree place (fail cause) (fail cause) good := by
  intro ts ts' hts
  cases hts with
  | nil => exact .exhausted
  | last _ hplace => exact .problem hplace
  | next hplace _ => exact .problem hplace

theorem agree_peek : Agree place peek peek fun _ => True := by
  intro ts ts' hts
  cases hts with
  | nil => exact .exhausted
  | last hkind hplace => exact .success trivial (.last hkind hplace _ _)
  | next hplace h => exact .success trivial (.next hplace h)

/-- A token is taken in both readings or in none, and the end token never is. -/
theorem agree_takeWhen (select : Kind → Option α) : Agree place (takeWhen select) (takeWhen select)
    fun taken => ∀ t a, taken = some (t, a) → place t.position := by
  have hnone : ∀ t a, (none : Option (Token × α)) = some (t, a) → place t.position := by
    intro t a h
    cases h
  intro ts ts' hts
  cases hts with
  | nil => exact .exhausted
  | last hkind hplace =>
    rw [takeWhen_cons, takeWhen_cons, if_pos hkind, if_pos hkind]
    exact .success hnone (.last hkind hplace _ _)
  | @next t ts ts' hplace h =>
    rw [takeWhen_cons, takeWhen_cons]
    split
    · exact .success hnone (.next hplace h)
    · cases select t.kind with
      | none => exact .success hnone (.next hplace h)
      | some a =>
        refine .success ?_ h
        intro t' a' htaken
        cases htaken
        exact hplace

/-- What follows a token that is taken or not. -/
theorem Agree.afterTakeWhen {select : Kind → Option α} {f g : Option (Token × α) → Read β}
    (hnone : Agree place (f none) (g none) good')
    (hsome : ∀ t a, place t.position → Agree place (f (some (t, a))) (g (some (t, a))) good') :
    Agree place (takeWhen select >>= f) (takeWhen select >>= g) good' := by
  apply (agree_takeWhen select).bind
  intro taken htaken
  rcases taken with _ | ⟨t, a⟩
  · exact hnone
  · exact hsome t a (htaken t a rfl)

theorem Agree.afterTake {kind : Kind} {f g : Option Token → Read β} (hnone : Agree place (f none) (g none) good')
    (hsome : ∀ t, place t.position → Agree place (f (some t)) (g (some t)) good') :
    Agree place (take? kind >>= f) (take? kind >>= g) good' := by
  simp only [take?, bind_assoc, pure_bind]
  exact .afterTakeWhen hnone fun t _ => hsome t

theorem agree_expect (kind : Kind) (cause : ParseError.Cause) :
    Agree place (expect kind cause) (expect kind cause) fun t => place t.position :=
  .afterTake (agree_fail cause) fun _ h => agree_pure h

end

end Read

namespace Ladder

open Read

variable {place : Mark → Prop}

def Agreeing (place : Mark → Prop) (read read' : Goal → Read Expr) : Prop :=
  ∀ goal, Agree place (read goal) (read' goal) fun _ => True

theorem agree_items {α : Type} {item item' : Read α} {good : α → Prop} (h : Agree place item item' good)
    (fuel fuel' : Nat) : Agree place (items item fuel) (items item' fuel') fun _ => True := by
  induction fuel generalizing fuel' with
  | zero => exact agree_left _
  | succ fuel ih =>
    cases fuel' with
    | zero => exact agree_right _
    | succ fuel' =>
      refine h.bind fun a _ => .afterTake (agree_pure trivial) fun _ _ => ?_
      exact (ih fuel').bind fun _ _ => agree_pure trivial

theorem agree_enclosed {α : Type} {item item' : Read α} {good : α → Prop} (h : Agree place item item' good)
    (fuel fuel' : Nat) (closing : Kind) (what : Expected) :
    Agree place (enclosed item fuel closing what) (enclosed item' fuel' closing what)
      fun found => place found.2.position := by
  refine .afterTake ?_ fun t ht => agree_pure ht
  refine (agree_items h fuel fuel').bind fun _ _ => ?_
  exact (agree_expect closing _).bind fun t ht => agree_pure ht

theorem agree_startsBinding : Agree place startsBinding startsBinding fun _ => True := by
  intro ts ts' hts
  have hlast {t : Token} (hkind : t.kind = .endOfInput) (rest : List Token) :
      startsBinding (t :: rest) = .ok (false, t :: rest) := by
    cases rest with
    | nil => rfl
    | cons sign later =>
      change Except.ok (decide (t.kind = .identifier) && decide (sign.kind = .assign), t :: sign :: later) = _
      rw [hkind]
      rfl
  cases hts with
  | nil => exact .success trivial .nil
  | last hkind hplace =>
    rw [hlast hkind, hlast hkind]
    exact .success trivial (.last hkind hplace _ _)
  | next hplace h =>
    cases h with
    | nil => exact .success trivial (.next hplace .nil)
    | last hkind hplace' => exact .success trivial (.next hplace (.last hkind hplace' _ _))
    | next hplace' h => exact .success trivial (.next hplace (.next hplace' h))

section

variable {read read' : Goal → Read Expr} (hread : Agreeing place read read') (fuel fuel' : Nat)

include hread

theorem agree_conditional : Agree place (conditional read) (conditional read') fun _ => True := by
  refine (hread _).bind fun _ _ => (agree_expect _ _).bind fun _ _ => ?_
  refine (hread _).bind fun _ _ => (agree_expect _ _).bind fun _ _ => ?_
  exact (hread _).bind fun _ _ => agree_pure trivial

theorem agree_foreach : Agree place (foreach read) (foreach read') fun _ => True := by
  refine (agree_expect _ _).bind fun _ _ => (agree_expect _ _).bind fun _ _ => ?_
  refine (hread _).bind fun _ _ => (agree_expect _ _).bind fun _ _ => ?_
  exact (hread _).bind fun _ _ => agree_pure trivial

theorem agree_loop (mode : LoopMode) : Agree place (loop read mode) (loop read' mode) fun _ => True := by
  refine (agree_expect _ _).bind fun _ _ => (agree_expect _ _).bind fun _ _ => ?_
  refine (hread _).bind fun _ _ => .afterTakeWhen (agree_fail _) fun _ _ _ => ?_
  exact (hread _).bind fun _ _ => agree_pure trivial

theorem agree_binding : Agree place (binding read) (binding read') fun _ => True := by
  refine (agree_expect _ _).bind fun _ _ => (agree_expect _ _).bind fun _ _ => ?_
  refine (hread _).bind fun _ _ => (agree_expect _ _).bind fun _ _ => ?_
  exact (hread _).bind fun _ _ => agree_pure trivial

theorem agree_expression : Agree place (expression read) (expression read') fun _ => True := by
  refine .afterTakeWhen ?_ fun _ statement _ => ?_
  · refine agree_startsBinding.bind fun starts _ => ?_
    cases starts with
    | true => exact agree_binding hread
    | false => exact hread _
  · cases statement with
    | conditional => exact agree_conditional hread
    | foreach => exact agree_foreach hread
    | loop mode => exact agree_loop hread mode

theorem agree_chain (level : Level) : Agree place (chain read level) (chain read' level) fun _ => True :=
  (hread _).bind fun _ _ => hread _

theorem agree_chainMore (level : Level) (left : Expr) :
    Agree place (chainMore read level left) (chainMore read' level left) fun _ => True :=
  .afterTakeWhen (agree_pure trivial) fun _ _ _ => (hread _).bind fun _ _ => hread _

theorem agree_range : Agree place (range read) (range read') fun _ => True := by
  refine (hread _).bind fun _ _ => .afterTakeWhen (agree_pure trivial) fun _ _ _ => ?_
  exact (hread _).bind fun _ _ => agree_pure trivial

theorem agree_negate : Agree place (negate read) (negate read') fun _ => True :=
  .afterTake (hread _) fun _ _ => (hread _).bind fun _ _ => agree_pure trivial

theorem agree_apply : Agree place (apply read) (apply read') fun _ => True := by
  refine .afterTakeWhen ?_ fun _ _ _ => (hread _).bind fun _ _ => agree_pure trivial
  refine .afterTakeWhen (agree_chain hread _) fun _ _ _ => ?_
  exact (hread _).bind fun _ _ => (hread _).bind fun _ _ => agree_pure trivial

theorem agree_diceMore (left : Expr) :
    Agree place (diceMore read left) (diceMore read' left) fun _ => True := by
  refine .afterTakeWhen (agree_pure trivial) fun _ schema _ => ?_
  cases schema with
  | some schema => exact (hread _).bind fun _ _ => hread _
  | none =>
    refine (hread _).bind fun _ _ => ?_
    cases left with
    | var name fallback => exact hread _
    | _ => exact agree_fail _

theorem agree_die : Agree place (die read) (die read') fun _ => True :=
  .afterTakeWhen (hread _) fun _ _ _ => (hread _).bind fun _ _ => agree_pure trivial

theorem agree_group : Agree place (group read) (group read') fun _ => True :=
  (hread _).bind fun _ _ => (agree_expect _ _).bind fun _ _ => agree_pure trivial

theorem agree_call : Agree place (call read fuel) (call read' fuel') fun _ => True := by
  refine (agree_expect _ _).bind fun _ _ => (agree_expect _ _).bind fun _ _ => ?_
  exact (agree_enclosed (hread _) fuel fuel' _ _).bind fun _ _ => agree_pure trivial

theorem agree_collection : Agree place (collection read fuel) (collection read' fuel') fun _ => True :=
  (agree_enclosed (hread _) fuel fuel' _ _).bind fun _ _ => agree_pure trivial

/-- The wrong number of elements is found out when the closing token has been taken. -/
theorem agree_tuple : Agree place (tuple read fuel) (tuple read' fuel') fun _ => True := by
  refine (agree_enclosed (hread _) fuel fuel' _ _).bind ?_
  rintro ⟨elements, closing⟩ hclosing
  dsimp only
  split
  · exact agree_pure trivial
  · exact agree_problem hclosing

theorem agree_primary : Agree place (primary read fuel) (primary read' fuel') fun _ => True := by
  refine .afterTakeWhen (agree_fail _) fun t opening _ => ?_
  cases opening with
  | probability => exact (agree_expect _ _).bind fun _ _ => agree_pure trivial
  | call => exact agree_call hread fuel fuel'
  | name => exact agree_pure trivial
  | text => exact agree_pure trivial
  | number => exact agree_pure trivial
  | group => exact agree_group hread
  | collection => exact agree_collection hread fuel fuel'
  | tuple => exact agree_tuple hread fuel fuel'

theorem agree_step (goal : Goal) : Agree place (step read fuel goal) (step read' fuel' goal) fun _ => True := by
  cases goal with
  | «at» level =>
    cases level with
    | expression => exact agree_expression hread
    | range => exact agree_range hread
    | negate => exact agree_negate hread
    | apply => exact agree_apply hread
    | die => exact agree_die hread
    | primary => exact agree_primary hread fuel fuel'
    | _ => exact agree_chain hread _
  | more level left =>
    cases level with
    | dice => exact agree_diceMore hread left
    | _ => exact agree_chainMore hread _ left

end

theorem agree_readGoal (fuel fuel' : Nat) : Agreeing place (readGoal fuel) (readGoal fuel') := by
  induction fuel generalizing fuel' with
  | zero => exact fun _ => agree_left _
  | succ fuel ih =>
    intro goal
    cases fuel' with
    | zero => exact agree_right _
    | succ fuel' => exact agree_step (ih fuel') fuel fuel' goal

end Ladder

namespace Script

open Read Ladder

variable {place : Mark → Prop}

theorem agree_readFunction (fuel fuel' : Nat) :
    Agree place (readFunction fuel) (readFunction fuel') fun _ => True := by
  refine (agree_expect _ _).bind fun _ _ => (agree_expect _ _).bind fun _ _ => ?_
  refine (agree_enclosed (agree_expect _ _) fuel fuel' _ _).bind fun _ _ => ?_
  refine (agree_expect _ _).bind fun _ _ => ?_
  exact (agree_readGoal fuel fuel' _).bind fun _ _ => agree_pure trivial

theorem agree_readFunctions (fuel fuel' rounds rounds' : Nat) (known : Table Name Expr) :
    Agree place (readFunctions fuel rounds known) (readFunctions fuel' rounds' known) fun _ => True := by
  induction rounds generalizing rounds' known with
  | zero => exact agree_left _
  | succ rounds ih =>
    cases rounds' with
    | zero => exact agree_right _
    | succ rounds' =>
      refine .afterTake (agree_pure trivial) fun _ _ => ?_
      refine (agree_readFunction fuel fuel').bind ?_
      rintro ⟨name, definition⟩ -
      dsimp only
      split
      · exact agree_fail _
      · exact ih rounds' _

/-- A script is read from what can be seen, whatever depth it is read with. -/
theorem agree_readScript (fuel fuel' : Nat) :
    Agree place (readScript fuel) (readScript fuel') fun _ => True := by
  refine (agree_readFunctions fuel fuel' fuel fuel' []).bind fun _ _ => ?_
  refine (agree_readGoal fuel fuel' _).bind fun _ _ => ?_
  refine (agree_readFunctions fuel fuel' fuel fuel' _).bind fun _ _ => ?_
  refine agree_peek.bind fun t _ => ?_
  split
  · exact agree_pure trivial
  · exact agree_fail _

/-- What is wrong with tokens is at one of them. -/
theorem position_of_ofTokens {tokens : List Token} {e : ParseError} (h : ofTokens tokens = .error (.problem e)) :
    ∃ t ∈ tokens, e.position = t.position := by
  have hsame : Same (fun p => ∃ t ∈ tokens, p = t.position) tokens tokens :=
    same_self fun t ht => ⟨t, ht, rfl⟩
  have hmeet := agree_readScript (enoughFuel tokens) (enoughFuel tokens) tokens tokens hsame
  unfold ofTokens StateT.run at h
  generalize readScript (enoughFuel tokens) tokens = found at h hmeet
  cases hmeet with
  | problem hplace =>
    cases h
    exact hplace
  | _ => cases h

end Script

end DiceScript
