import DiceScript.Proofs.Grammar.Completeness
import DiceScript.Token.Lexer

/-!
# Reading comes to an end

Tokens that hold an end token are read as a script or have a problem. The end token is never taken, so a reader
does not run out of tokens; a goal leads to tighter levels until a token is taken, so it does not run out of
depth either. `Settles` says this of a reader, together with how many tokens a success takes at least, and there
is one rule for each way to build a reader.
-/

namespace DiceScript

namespace Read

variable {α β : Type}

def Ending (ts : List Token) : Prop :=
  ∃ t ∈ ts, t.kind = .endOfInput

/-- A success that takes at least so many tokens and leaves the end token, or a problem. -/
inductive Settled (ts : List Token) (taken : Nat) : Except ReadStop (α × List Token) → Prop
  | success {a : α} {rest : List Token} (hend : Ending rest) (hlength : rest.length + taken ≤ ts.length) :
    Settled ts taken (.ok (a, rest))
  | problem (e : ParseError) : Settled ts taken (.error (.problem e))

def Settles (x : Read α) (ts : List Token) (taken : Nat) : Prop :=
  Settled ts taken (x ts)

theorem Ending.length_pos {ts : List Token} (h : Ending ts) : 0 < ts.length := by
  obtain ⟨t, ht, -⟩ := h
  exact List.length_pos_of_mem ht

theorem Ending.tail {t : Token} {ts : List Token} (h : Ending (t :: ts)) (ht : t.kind ≠ .endOfInput) :
    Ending ts := by
  obtain ⟨last, hlast, hkind⟩ := h
  rcases List.mem_cons.1 hlast with rfl | hlast
  · exact absurd hkind ht
  · exact ⟨last, hlast, hkind⟩

section

variable {ts : List Token} {taken : Nat}

theorem settles_pure (hts : Ending ts) (a : α) : Settles (pure a) ts 0 :=
  .success hts (Nat.le_refl _)

theorem settles_problem (e : ParseError) : Settles (throw (.problem e) : Read α) ts taken :=
  .problem e

theorem settles_fail (hts : Ending ts) (cause : ParseError.Cause) :
    Settles (fail cause : Read α) ts taken := by
  cases ts with
  | nil => exact absurd hts.length_pos (by simp)
  | cons t ts => exact .problem _

theorem Settles.mono {x : Read α} {fewer : Nat} (h : Settles x ts taken) (hle : fewer ≤ taken) :
    Settles x ts fewer := by
  unfold Settles at *
  generalize x ts = found at h ⊢
  cases h with
  | problem e => exact .problem e
  | success hend hlength => exact .success hend (by omega)

theorem Settles.bind {x : Read α} {f : α → Read β} {first : Nat} (h : Settles x ts first)
    (hf : ∀ a rest, Ending rest → rest.length + first ≤ ts.length → Settles (f a) rest (taken - first)) :
    Settles (x >>= f) ts taken := by
  unfold Settles at h
  simp only [Settles, Bind.bind, StateT.bind, Except.bind]
  generalize x ts = found at h ⊢
  cases h with
  | problem e => exact .problem e
  | @success a rest hend hlength =>
    have hrest := hf a rest hend hlength
    unfold Settles at hrest
    simp only
    generalize f a rest = found at hrest ⊢
    cases hrest with
    | problem e => exact .problem e
    | success hend' hlength' => exact .success hend' (by omega)

/-- What follows where a token may be taken. -/
theorem settles_afterTakeWhen {select : Kind → Option β} {f : Option (Token × β) → Read α} (hts : Ending ts)
    (hnone : Settles (f none) ts taken)
    (hsome : ∀ t b rest, Ending rest → rest.length + 1 = ts.length →
      Settles (f (some (t, b))) rest (taken - 1)) : Settles (takeWhen select >>= f) ts taken := by
  cases ts with
  | nil => exact absurd hts.length_pos (by simp)
  | cons t ts =>
    have hstays : takeWhen select (t :: ts) = .ok (none, t :: ts) → Settles (takeWhen select >>= f) (t :: ts) taken := by
      intro htaken
      simp only [Settles, Bind.bind, StateT.bind, Except.bind, htaken]
      exact hnone
    by_cases ht : t.kind = .endOfInput
    · exact hstays (by rw [takeWhen_cons, if_pos ht])
    · cases hselect : select t.kind with
      | none => exact hstays (by rw [takeWhen_cons, if_neg ht, hselect])
      | some b =>
        have htaken : takeWhen select (t :: ts) = .ok (some (t, b), ts) := by
          rw [takeWhen_cons, if_neg ht, hselect]
        have hrest := hsome t b ts (hts.tail ht) rfl
        simp only [Settles, Bind.bind, StateT.bind, Except.bind, htaken] at hrest ⊢
        generalize f (some (t, b)) ts = found at hrest ⊢
        cases hrest with
        | problem e => exact .problem e
        | success hend hlength => exact .success hend (by rw [List.length_cons]; omega)

theorem settles_afterTake {kind : Kind} {f : Option Token → Read α} (hts : Ending ts)
    (hnone : Settles (f none) ts taken)
    (hsome : ∀ t rest, Ending rest → rest.length + 1 = ts.length → Settles (f (some t)) rest (taken - 1)) :
    Settles (take? kind >>= f) ts taken := by
  have hassoc : (take? kind >>= f) =
      (takeWhen (fun k => if k = kind then some () else none) >>= fun r => f (r.map Prod.fst)) := by
    simp only [take?, bind_assoc, pure_bind]
  rw [hassoc]
  exact settles_afterTakeWhen hts hnone fun t _ rest hrest hlength => hsome t rest hrest hlength

theorem settles_expect (hts : Ending ts) (kind : Kind) (cause : ParseError.Cause) :
    Settles (expect kind cause) ts 1 :=
  settles_afterTake hts (settles_fail hts cause) fun t _ hrest _ => settles_pure hrest t

end

end Read

def Goal.taken : Goal → Nat
  | .at _ => 1
  | .more _ _ => 0

namespace Ladder

open Read Grammar

def Settling (read : Goal → Read Expr) (size : Nat) : Prop :=
  ∀ goal ts, Ending ts → ts.length ≤ size → Settles (read goal) ts goal.taken

theorem settles_items {α : Type} {item : Read α} {size : Nat}
    (hitem : ∀ ts, Ending ts → ts.length ≤ size → Settles item ts 1) {fuel : Nat} {ts : List Token}
    (hts : Ending ts) (hsize : ts.length ≤ size) (hfuel : ts.length ≤ fuel) :
    Settles (items item fuel) ts 1 := by
  induction fuel generalizing ts with
  | zero => exact absurd hts.length_pos (by omega)
  | succ fuel ih =>
    refine (hitem ts hts hsize).bind fun first rest hrest hlength => ?_
    refine settles_afterTake hrest (settles_pure hrest _) fun comma later hlater hlength' => ?_
    refine (ih hlater (by omega) (by omega)).bind fun others last hlast _ => ?_
    exact settles_pure hlast _

theorem settles_enclosed {α : Type} {item : Read α} {size : Nat}
    (hitem : ∀ ts, Ending ts → ts.length ≤ size → Settles item ts 1) {fuel : Nat} {ts : List Token}
    (hts : Ending ts) (hsize : ts.length ≤ size) (hfuel : ts.length ≤ fuel) (closing : Kind) (what : Expected) :
    Settles (enclosed item fuel closing what) ts 1 := by
  refine settles_afterTake hts ?_ fun t rest hrest _ => settles_pure hrest _
  refine (settles_items hitem hts hsize hfuel).bind fun found rest hrest _ => ?_
  refine (settles_expect hrest closing _).bind fun t last hlast _ => ?_
  exact settles_pure hlast _

section

variable {read : Goal → Read Expr} {size : Nat} (hread : Settling read size) {ts : List Token}
  (hts : Ending ts) (hsize : ts.length ≤ size)

include hread hts hsize

theorem settles_conditional : Settles (conditional read) ts 1 := by
  refine (hread (.at .expression) ts hts hsize).bind fun _ ts₁ h₁ hlength₁ => ?_
  refine (settles_expect h₁ .wordThen _).bind fun _ ts₂ h₂ hlength₂ => ?_
  refine (hread (.at .expression) ts₂ h₂ (by omega)).bind fun _ ts₃ h₃ hlength₃ => ?_
  refine (settles_expect h₃ .wordElse _).bind fun _ ts₄ h₄ hlength₄ => ?_
  exact (hread (.at .expression) ts₄ h₄ (by omega)).bind fun _ _ h₅ _ => settles_pure h₅ _

theorem settles_foreach : Settles (foreach read) ts 1 := by
  refine (settles_expect hts .identifier _).bind fun _ ts₁ h₁ hlength₁ => ?_
  refine (settles_expect h₁ .wordIn _).bind fun _ ts₂ h₂ hlength₂ => ?_
  refine (hread (.at .expression) ts₂ h₂ (by omega)).bind fun _ ts₃ h₃ hlength₃ => ?_
  refine (settles_expect h₃ .wordDo _).bind fun _ ts₄ h₄ hlength₄ => ?_
  exact (hread (.at .expression) ts₄ h₄ (by omega)).bind fun _ _ h₅ _ => settles_pure h₅ _

theorem settles_loop (mode : LoopMode) : Settles (loop read mode) ts 1 := by
  refine (settles_expect hts .identifier _).bind fun _ ts₁ h₁ hlength₁ => ?_
  refine (settles_expect h₁ .assign _).bind fun _ ts₂ h₂ hlength₂ => ?_
  refine (hread (.at .expression) ts₂ h₂ (by omega)).bind fun _ ts₃ h₃ hlength₃ => ?_
  refine settles_afterTakeWhen h₃ (settles_fail h₃ _) fun _ _ ts₄ h₄ hlength₄ => ?_
  exact (hread (.at .expression) ts₄ h₄ (by omega)).bind fun _ _ h₅ _ => settles_pure h₅ _

theorem settles_group : Settles (group read) ts 1 := by
  refine (hread (.at .expression) ts hts hsize).bind fun _ ts₁ h₁ _ => ?_
  exact (settles_expect h₁ .rightParen _).bind fun _ _ h₂ _ => settles_pure h₂ _

section

variable {fuel : Nat} (hfuel : ts.length ≤ fuel)

include hfuel

theorem settles_expressions (closing : Kind) (what : Expected) :
    Settles (enclosed (read (.at .expression)) fuel closing what) ts 1 :=
  settles_enclosed (fun ts' hts' hsize' => hread (.at .expression) ts' hts' hsize') hts hsize hfuel closing what

theorem settles_call : Settles (call read fuel) ts 1 := by
  refine (settles_expect hts .identifier _).bind fun _ ts₁ h₁ hlength₁ => ?_
  refine (settles_expect h₁ .leftParen _).bind fun _ ts₂ h₂ hlength₂ => ?_
  refine (settles_expressions hread h₂ (by omega) (by omega) _ _).bind fun _ _ h₃ _ => ?_
  exact settles_pure h₃ _

theorem settles_collection : Settles (collection read fuel) ts 1 :=
  (settles_expressions hread hts hsize hfuel _ _).bind fun _ _ h _ => settles_pure h _

theorem settles_tuple : Settles (tuple read fuel) ts 1 := by
  refine (settles_expressions hread hts hsize hfuel _ _).bind fun found _ h _ => ?_
  obtain ⟨elements, closing⟩ := found
  simp only
  split
  · exact settles_pure h _
  · exact settles_problem _

end

end

theorem startsBinding_stays (ts : List Token) : ∃ starts, startsBinding ts = .ok (starts, ts) := by
  rcases ts with _ | ⟨name, _ | ⟨sign, later⟩⟩ <;> exact ⟨_, rfl⟩

/-! The levels: on the same tokens a goal leads to tighter levels only. -/

section

variable {read : Goal → Read Expr} {ts : List Token} (hread : Settling read (ts.length - 1))

include hread

theorem settles_later (goal : Goal) {rest : List Token} (hrest : Ending rest)
    (hlength : rest.length + 1 ≤ ts.length) : Settles (read goal) rest goal.taken :=
  hread goal rest hrest (by omega)

variable (hts : Ending ts)

include hts

theorem settles_binding : Settles (binding read) ts 1 := by
  refine (settles_expect hts .identifier _).bind fun _ ts₁ h₁ hlength₁ => ?_
  refine (settles_expect h₁ .assign _).bind fun _ ts₂ h₂ hlength₂ => ?_
  refine (settles_later hread (.at .expression) h₂ (by omega)).bind fun _ ts₃ h₃ hlength₃ => ?_
  change ts₃.length + 1 ≤ ts₂.length at hlength₃
  refine (settles_expect h₃ .semicolon _).bind fun _ ts₄ h₄ hlength₄ => ?_
  exact (settles_later hread (.at .expression) h₄ (by omega)).bind fun _ _ h₅ _ => settles_pure h₅ _

theorem settles_expression (hbelow : Settles (read (.at .layout)) ts 1) : Settles (expression read) ts 1 := by
  refine settles_afterTakeWhen hts ?_ fun t statement rest hrest hlength => ?_
  · obtain ⟨starts, hstarts⟩ := startsBinding_stays ts
    simp only [Settles, Bind.bind, StateT.bind, Except.bind, hstarts]
    cases starts with
    | true => exact settles_binding hread hts
    | false => exact hbelow
  · cases statement with
    | conditional => exact (settles_conditional hread hrest (by omega)).mono (Nat.zero_le _)
    | foreach => exact (settles_foreach hread hrest (by omega)).mono (Nat.zero_le _)
    | loop mode => exact (settles_loop hread hrest (by omega) mode).mono (Nat.zero_le _)

omit hts in
theorem settles_chain {level : Level} (hbelow : Settles (read (.at level.below)) ts 1) :
    Settles (chain read level) ts 1 :=
  hbelow.bind fun left _ hrest hlength => settles_later hread (.more level left) hrest hlength

theorem settles_chainMore (level : Level) (left : Expr) : Settles (chainMore read level left) ts 0 := by
  refine settles_afterTakeWhen hts (settles_pure hts _) fun op schema rest hrest hlength => ?_
  refine (settles_later hread (.at level.right) hrest (by omega)).bind fun right later hlater hlength' => ?_
  exact settles_later hread (.more level _) hlater (by omega)

omit hts in
theorem settles_range (hbelow : Settles (read (.at .select)) ts 1) : Settles (range read) ts 1 := by
  refine hbelow.bind fun left rest hrest hlength => ?_
  refine settles_afterTakeWhen hrest (settles_pure hrest _) fun op schema later hlater hlength' => ?_
  refine (settles_later hread (.at .select) hlater (by omega)).bind fun right last hlast _ => ?_
  exact settles_pure hlast _

theorem settles_negate (hbelow : Settles (read (.at .apply)) ts 1) : Settles (negate read) ts 1 := by
  refine settles_afterTake hts hbelow fun op rest hrest hlength => ?_
  refine (settles_later hread (.at .negate) hrest (by omega)).bind fun operand later hlater _ => ?_
  exact settles_pure hlater _

theorem settles_apply (hbelow : Settles (read (.at .compare)) ts 1) : Settles (apply read) ts 1 := by
  refine settles_afterTakeWhen hts ?_ fun op schema rest hrest hlength => ?_
  · refine settles_afterTakeWhen hts (settles_chain hread hbelow) fun op schema rest hrest hlength => ?_
    refine (settles_later hread (.at .apply) hrest (by omega)).bind fun left later hlater hlength' => ?_
    refine (settles_later hread (.at .apply) hlater (by omega)).bind fun right last hlast _ => ?_
    exact settles_pure hlast _
  · refine (settles_later hread (.at .apply) hrest (by omega)).bind fun operand later hlater _ => ?_
    exact settles_pure hlater _

theorem settles_diceMore (left : Expr) : Settles (diceMore read left) ts 0 := by
  refine settles_afterTakeWhen hts (settles_pure hts _) fun op schema rest hrest hlength => ?_
  cases schema with
  | some schema =>
    refine (settles_later hread (.at .die) hrest (by omega)).bind fun right later hlater hlength' => ?_
    exact settles_later hread (.more .dice _) hlater (by omega)
  | none =>
    refine (settles_later hread (.at .die) hrest (by omega)).bind fun right later hlater hlength' => ?_
    split
    · exact settles_later hread (.more .dice _) hlater (by omega)
    · exact settles_fail hlater _

theorem settles_die (hbelow : Settles (read (.at .primary)) ts 1) : Settles (die read) ts 1 := by
  refine settles_afterTakeWhen hts hbelow fun op schema rest hrest hlength => ?_
  refine (settles_later hread (.at .die) hrest (by omega)).bind fun operand later hlater _ => ?_
  exact settles_pure hlater _

theorem settles_primary {fuel : Nat} (hfuel : ts.length ≤ fuel) : Settles (primary read fuel) ts 1 := by
  refine settles_afterTakeWhen hts (settles_fail hts _) fun t opening rest hrest hlength => ?_
  have hsize : rest.length ≤ ts.length - 1 := by omega
  have hdepth : rest.length ≤ fuel := by omega
  cases opening with
  | probability =>
    exact ((settles_expect hrest .real _).bind fun _ _ hlater _ => settles_pure hlater _)
  | call => exact (settles_call hread hrest hsize hdepth).mono (Nat.zero_le _)
  | name => exact settles_pure hrest _
  | text => exact settles_pure hrest _
  | number => exact settles_pure hrest _
  | group => exact (settles_group hread hrest hsize).mono (Nat.zero_le _)
  | collection => exact (settles_collection hread hrest hsize hdepth).mono (Nat.zero_le _)
  | tuple => exact (settles_tuple hread hrest hsize hdepth).mono (Nat.zero_le _)

end

/-- One step towards a goal is settled, if what it leads to is. -/
theorem settles_step {read : Goal → Read Expr} {fuel : Nat}
    (hread : ∀ goal ts, Ending ts → depth goal ts < fuel → Settles (read goal) ts goal.taken)
    (goal : Goal) {ts : List Token} (hts : Ending ts) (hfuel : depth goal ts ≤ fuel) :
    Settles (step read fuel goal) ts goal.taken := by
  have hlater : Settling read (ts.length - 1) := by
    intro goal' rest hrest hlength
    have hpos := hts.length_pos
    exact hread goal' rest hrest (Nat.lt_of_lt_of_le (depth_lt_of_length (by omega)) hfuel)
  have hbelow {level : Level} (hgoal : goal = .at level) (hlevel : level ≠ .primary) :
      Settles (read (.at level.below)) ts 1 := by
    subst hgoal
    exact hread (.at level.below) ts hts (Nat.lt_of_lt_of_le (depth_below_lt hlevel ts) hfuel)
  cases goal with
  | «at» level =>
    cases level with
    | expression => exact settles_expression hlater hts (hbelow rfl (by decide))
    | range => exact settles_range hlater (hbelow rfl (by decide))
    | negate => exact settles_negate hlater hts (hbelow rfl (by decide))
    | apply => exact settles_apply hlater hts (hbelow rfl (by decide))
    | die => exact settles_die hlater hts (hbelow rfl (by decide))
    | primary => exact settles_primary hlater hts (Nat.le_trans (length_le_depth _ ts) hfuel)
    | _ => exact settles_chain hlater (hbelow rfl (by decide))
  | more level left =>
    cases level with
    | dice => exact settles_diceMore hlater hts left
    | _ => exact settles_chainMore hlater hts _ left

theorem settles_readGoal {fuel : Nat} (goal : Goal) {ts : List Token} (hts : Ending ts)
    (hfuel : depth goal ts < fuel) : Settles (readGoal fuel goal) ts goal.taken := by
  induction fuel generalizing goal ts with
  | zero => exact absurd hfuel (Nat.not_lt_zero _)
  | succ fuel ih => exact settles_step (fun goal ts hts => ih goal hts) goal hts (Nat.le_of_lt_succ hfuel)

/-- A whole expression takes a depth of sixteen for each token, the next one included. -/
theorem settles_readExpression {fuel : Nat} {ts : List Token} (hts : Ending ts)
    (hfuel : 16 * (ts.length + 1) ≤ fuel) : Settles (readGoal fuel (.at .expression)) ts 1 := by
  refine settles_readGoal (.at .expression) hts ?_
  simp only [depth, Level.rank]
  omega

end Ladder

namespace Script

open Read Ladder

theorem settles_readFunction {fuel : Nat} {ts : List Token} (hts : Ending ts)
    (hfuel : 16 * (ts.length + 1) ≤ fuel) : Settles (readFunction fuel) ts 1 := by
  refine (settles_expect hts .identifier _).bind fun _ ts₁ h₁ hlength₁ => ?_
  refine (settles_expect h₁ .leftParen _).bind fun _ ts₂ h₂ hlength₂ => ?_
  refine (settles_enclosed (fun _ h _ => settles_expect h .identifier _) h₂ (Nat.le_refl _) (by omega) _ _).bind
    fun _ ts₃ h₃ hlength₃ => ?_
  refine (settles_expect h₃ .equal _).bind fun _ ts₄ h₄ hlength₄ => ?_
  exact (settles_readExpression h₄ (by omega)).bind fun _ _ h₅ _ => settles_pure h₅ _

theorem settles_readFunctions {fuel rounds : Nat} {ts : List Token} (known : Table Name Expr) (hts : Ending ts)
    (hfuel : 16 * (ts.length + 1) ≤ fuel) (hrounds : ts.length ≤ rounds) :
    Settles (readFunctions fuel rounds known) ts 0 := by
  induction rounds generalizing ts known with
  | zero => exact absurd hts.length_pos (by omega)
  | succ rounds ih =>
    refine settles_afterTake hts (settles_pure hts _) fun word rest hrest hlength => ?_
    refine (settles_readFunction hrest (by omega)).bind fun found later hlater hlength' => ?_
    obtain ⟨name, definition⟩ := found
    simp only
    split
    · exact settles_fail hlater _
    · exact ih _ hlater (by omega) (by omega)

theorem settles_last {ts : List Token} (hts : Ending ts) (script : Script) :
    Settles (do
      let t ← peek
      if t.kind = .endOfInput then pure script else fail .trailing) ts 0 := by
  cases ts with
  | nil => exact absurd hts.length_pos (by simp)
  | cons t ts =>
    change Settles (if t.kind = .endOfInput then pure script else fail .trailing) (t :: ts) 0
    split
    · exact settles_pure hts script
    · exact settles_fail hts _

/-- Tokens that hold an end token are read as a script, or have a problem. -/
theorem ofTokens_settled {tokens : List Token} (h : Ending tokens) :
    (∃ script, ofTokens tokens = .ok script) ∨ ∃ e, ofTokens tokens = .error (.problem e) := by
  have hread : Settles (readScript (enoughFuel tokens)) tokens 1 := by
    have hfuel : enoughFuel tokens = 16 * (tokens.length + 1) := rfl
    refine (settles_readFunctions [] h (by omega) (by omega)).bind fun _ ts₁ h₁ hlength₁ => ?_
    refine (settles_readExpression h₁ (by omega)).bind fun _ ts₂ h₂ hlength₂ => ?_
    refine (settles_readFunctions _ h₂ (by omega) (by omega)).bind fun _ ts₃ h₃ _ => ?_
    exact settles_last h₃ _
  unfold ofTokens StateT.run
  unfold Settles at hread
  generalize readScript (enoughFuel tokens) tokens = found at hread ⊢
  cases hread with
  | problem e => exact .inr ⟨e, rfl⟩
  | success => exact .inl ⟨_, rfl⟩

end Script

/-! What a scan finds ends with an end token. -/

theorem Lexer.scanFrom_ending {p : Position} {taken : Nat} {cs : List Char} {tokens : List Token}
    (h : scanFrom p taken cs = .ok tokens) : Read.Ending tokens := by
  induction cs generalizing p taken tokens with
  | nil =>
    cases h
    exact ⟨_, List.mem_singleton_self _, rfl⟩
  | cons c rest ih =>
    cases taken with
    | succ taken => exact ih h
    | zero =>
      simp only [scanFrom] at h
      split at h
      · cases h
      · next found hfound =>
        cases hrest : scanFrom (p.next c) found.extra rest with
        | error e =>
          rw [hrest] at h
          cases h
        | ok others =>
          rw [hrest] at h
          cases h
          obtain ⟨last, hlast, hkind⟩ := ih hrest
          exact ⟨last, List.mem_append_right _ hlast, hkind⟩

theorem scan_ending {source : String} {tokens : List Token} (h : scan source = .ok tokens) :
    Read.Ending tokens := by
  unfold scan at h
  split at h
  · cases h
  · exact Lexer.scanFrom_ending h

end DiceScript
