import DiceScript.Proofs.Evaluation.Results
import DiceScript.Proofs.Evaluation.Rolls
import DiceScript.Proofs.Values.Multiplicity
import Mathlib.Data.List.Perm.Basic

/-!
# Elements picked at random

`c pick n` takes elements out of a pool that is `c` at first, each at a place that a draw decides among those that are
left. Equal elements at different places are picked one by one, so what matters is that at every moment the elements
taken out and the pool make up the collection. If there are no more elements than are asked for, all are picked and
nothing is drawn. `choose c` takes one element and leaves the pool alone.
-/

namespace DiceScript

namespace Collection

/-- What draws take out of a pool, one element after the other, and what is left of it. A draw is taken modulo the
number of elements that are left. -/
def removals (pool : Collection) : List Nat → Collection × Collection
  | [] => ([], pool)
  | drawn :: others =>
    let place := drawn % pool.length
    let (taken, left) := removals (pool.eraseIdx place) others
    (pool[place]?.toList ++ taken, left)

theorem toList_append_eraseIdx_perm (pool : Collection) (place : Nat) :
    (pool[place]?.toList ++ pool.eraseIdx place).Perm pool := by
  by_cases hplace : place < pool.length
  · rw [List.getElem?_eq_getElem hplace]
    exact List.getElem_cons_eraseIdx_perm hplace
  · have hge := Nat.le_of_not_lt hplace
    rw [List.getElem?_eq_none hge, List.eraseIdx_of_length_le hge]
    exact .refl _

/-- The invariant of taking elements out: nothing is lost and nothing is there twice. -/
theorem removals_perm (pool : Collection) (drawn : List Nat) :
    ((pool.removals drawn).1 ++ (pool.removals drawn).2).Perm pool := by
  induction drawn generalizing pool with
  | nil => exact .refl _
  | cons next others ih =>
    let place := next % pool.length
    calc (pool.removals (next :: others)).1 ++ (pool.removals (next :: others)).2
        = pool[place]?.toList ++ ((removals (pool.eraseIdx place) others).1 ++
            (removals (pool.eraseIdx place) others).2) := List.append_assoc ..
      List.Perm _ (pool[place]?.toList ++ pool.eraseIdx place) := (ih _).append_left _
      List.Perm _ pool := toList_append_eraseIdx_perm pool place

theorem removals_subperm (pool : Collection) (drawn : List Nat) : (pool.removals drawn).1.Subperm pool :=
  (List.sublist_append_left _ _).subperm.trans (removals_perm pool drawn).subperm

theorem length_removals {pool : Collection} {drawn : List Nat} (h : drawn.length ≤ pool.length) :
    (pool.removals drawn).1.length = drawn.length := by
  induction drawn generalizing pool with
  | nil => rfl
  | cons next others ih =>
    rw [List.length_cons] at h
    have hplace : next % pool.length < pool.length := Nat.mod_lt _ (by omega)
    have hleft : others.length ≤ (pool.eraseIdx (next % pool.length)).length := by
      rw [List.length_eraseIdx_of_lt hplace]
      omega
    simp only [removals, List.getElem?_eq_getElem hplace, Option.toList_some, List.length_append, List.length_cons,
      List.length_nil, ih hleft]
    omega

end Collection

namespace Dice

theorem sample_eq_removals (d : Dice) {pool : Collection} {count : Nat} (h : count ≤ pool.length) :
    d.sample pool count = some ((pool.removals (d.draws count).1).1, (d.draws count).2) := by
  induction count generalizing d pool with
  | zero => rfl
  | succ count ih =>
    have hnonempty : pool.isEmpty = false := by
      rw [List.isEmpty_eq_false_iff]
      rintro rfl
      cases h
    have hplace : d.draw.1 % pool.length < pool.length := Nat.mod_lt _ (by omega)
    have hleft : count ≤ (pool.eraseIdx (d.draw.1 % pool.length)).length := by
      rw [List.length_eraseIdx_of_lt hplace]
      omega
    simp only [sample, hnonempty, Bool.false_eq_true, if_false, ih d.draw.2 hleft, Option.bind_eq_bind,
      Option.bind_some]
    rfl

theorem choose_eq (d : Dice) {pool : Collection} (hpool : pool ≠ []) :
    ∃ v, pool[d.draw.1 % pool.length]? = some v ∧ d.choose pool = some (v, d.draw.2) := by
  have hplace : d.draw.1 % pool.length < pool.length := Nat.mod_lt _ (List.length_pos_iff.2 hpool)
  refine ⟨pool[d.draw.1 % pool.length], List.getElem?_eq_getElem hplace, ?_⟩
  simp only [choose, List.isEmpty_eq_false_iff.2 hpool, Bool.false_eq_true, if_false, List.getElem?_eq_getElem hplace,
    Option.map_some]

end Dice

namespace Eval

variable {op : Token} {c : Collection}

/-! What the operators do with a collection. -/

theorem binary_pick (hop : op.kind = .pick) (c : Collection) (n : Nat) :
    Operator.binary op .collectionSingleton (.collection c) (.number n) =
      if c.length ≤ n then pure (.collection c)
      else drawing (fun dice => dice.sample c n) >>= fun picked => pure (.collection picked) := by
  change Operator.collectionSingleton op (.collection c) (.number n) = _
  unfold Operator.collectionSingleton
  rw [hop]
  change (if (n : Int) < 0 then fail (.negativePick op)
    else if (c.length : Int) ≤ n then pure (.collection c)
    else drawing (fun dice => dice.sample c n) >>= fun picked => pure (.collection picked) : Eval Value) = _
  rw [if_neg (by omega)]
  exact if_congr Int.ofNat_le rfl rfl

theorem unary_choose (hop : op.kind = .choose) (hc : c ≠ []) :
    Operator.unary op .collection (.collection c) =
      drawing (fun dice => dice.choose c) >>= fun chosen => pure (.number chosen) := by
  change Operator.collectionOperand op (.collection c) = _
  unfold Operator.collectionOperand
  rw [hop]
  change (if c.isEmpty = true then fail (.emptyChoice op)
    else drawing (fun dice => dice.choose c) >>= fun chosen => pure (.number chosen) : Eval Value) = _
  rw [if_neg (by rwa [List.isEmpty_iff])]

theorem takes_pick_all (hop : op.kind = .pick) {n : Nat} (h : c.length ≤ n) (s : State) :
    Takes (Operator.binary op .collectionSingleton (.collection c) (.number n)) s (.ok (.collection c)) s := by
  rw [binary_pick hop, if_pos h]
  exact takes_pure _ s

theorem takes_pick (hop : op.kind = .pick) {n : Nat} (h : n < c.length) (s : State) :
    Takes (Operator.binary op .collectionSingleton (.collection c) (.number n)) s
      (.ok (.collection (c.removals (s.dice.draws n).1).1)) { s with dice := (s.dice.draws n).2 } := by
  rw [binary_pick hop, if_neg (Nat.not_le.2 h)]
  exact (takes_drawing (s.dice.sample_eq_removals (Nat.le_of_lt h))).bind (takes_pure _ _)

/-- What was taken out of a collection and what it then lacks make it up again, in the language's own terms. -/
theorem agree_of_subperm (words : Vocabulary) {picked : Collection} (h : picked.Subperm c) {s : State} {p y : Expr}
    (hp : Yields s p (.collection picked)) (hy : Yields s y (.collection c)) :
    Agree s (words.binary p .union (words.binary y .setMinus p)) y := by
  have hrest := yields_binary words .setMinus rfl hy hp
  have hunion := yields_binary words .union rfl hp hrest
  rw [hunion.agree_iff hy]
  refine Collection.same_iff_perm.2 ?_
  exact List.perm_append_comm.trans (Collection.minus_append_perm_iff.2 h)

/-- Let an expression come to a collection, and then a second one to a number `n` that is not negative. Then
`x pick n` comes to `n` elements, or to all if there are not as many. No value is among them more often than in the
collection, and together with what the collection then lacks they make it up again. If all are picked they are the
collection itself and nothing is drawn, else they are what `n` draws take out of it, and these draws are gone. If the
collection has any elements, `choose x` comes to a single one of them, the one at the place that one draw decides. -/
theorem picks_taken (words : Vocabulary) {x count : Expr} {pool : Collection} {s s₁ s₂ : State} {n : Nat}
    (hx : Evaluates x s (.ok (.collection pool)) s₁) (hcount : Evaluates count s₁ (.ok (.number n)) s₂) :
    (∃ (picked : Collection) (used : Nat),
      Evaluates (words.binary x .pick count) s (.ok (.collection picked))
        { s₂ with dice := (s₂.dice.draws used).2 } ∧
      picked.length = min n pool.length ∧ (∀ v, picked.count v ≤ pool.count v) ∧
      (∀ (t : State) (p y : Expr), Yields t p (.collection picked) → Yields t y (.collection pool) →
        Agree t (words.binary p .union (words.binary y .setMinus p)) y) ∧
      (pool.length ≤ n → picked = pool ∧ used = 0) ∧
      (n < pool.length → picked = (pool.removals (s₂.dice.draws n).1).1 ∧ used = n)) ∧
    (pool ≠ [] → ∃ v, v ∈ pool ∧ pool[s₁.dice.draw.1 % pool.length]? = some v ∧
      Evaluates (words.unary .choose x) s (.ok (.number v)) { s₁ with dice := s₁.dice.draw.2 }) := by
  have hpick := words.kind_token .pick
  have hchoose := words.kind_token .choose
  have hbinary : (words.token .pick).kind.isBinary = true := by
    rw [hpick]
    rfl
  have hunary : (words.token .choose).kind.isUnary = true := by
    rw [hchoose]
    rfl
  constructor
  · by_cases hall : pool.length ≤ n
    · refine ⟨pool, 0, ?_, (Nat.min_eq_right hall).symm, fun v => Nat.le_refl _, fun t p y hp hy => ?_,
        fun _ => ⟨rfl, rfl⟩, fun h => absurd hall (Nat.not_le.2 h)⟩
      · exact hx.binary hcount hbinary (by decide) (takes_pick_all hpick hall s₂) (ok_ended _)
      · exact agree_of_subperm words (List.Subperm.refl pool) hp hy
    · have hsome := Nat.lt_of_not_le hall
      have hpart := pool.removals_subperm (s₂.dice.draws n).1
      refine ⟨(pool.removals (s₂.dice.draws n).1).1, n, ?_, ?_, fun v => hpart.count_le v, fun t p y hp hy => ?_,
        fun h => absurd h hall, fun _ => ⟨rfl, rfl⟩⟩
      · exact hx.binary hcount hbinary (by decide) (takes_pick hpick hsome s₂) (ok_ended _)
      · have hlength := s₂.dice.length_draws n
        rw [Collection.length_removals (by omega), hlength, Nat.min_eq_left (Nat.le_of_lt hsome)]
      · exact agree_of_subperm words hpart hp hy
  · intro hpool
    obtain ⟨v, hv, hdraw⟩ := s₁.dice.choose_eq hpool
    refine ⟨v, List.mem_of_getElem? hv, hv, hx.unary hunary ?_ (ok_ended _)⟩
    change Takes (Operator.unary (words.token .choose) .collection (.collection pool)) s₁ _ _
    rw [unary_choose hchoose hpool]
    exact (takes_drawing hdraw).bind (takes_pure _ _)

/-- Two of four elements, two of which are equal, picked by two of three draws that were laid out; all of them, without
a draw; and one of them chosen. -/
theorem picks_taken_equal :
    let words : Vocabulary := default
    let x : Expr := .literal (.collection [7, 3, 7, -1])
    let number (n : Int) : Expr := .literal (.number n)
    let state (queue : List Nat) : State := ⟨[], [], ⟨queue, 0⟩, []⟩
    Evaluates (words.binary x .pick (number 2)) (state [10, 4, 5]) (.ok (.collection [7, 3])) (state [5]) ∧
      Agree (state []) (words.binary (.literal (.collection [7, 3])) .union
        (words.binary x .setMinus (.literal (.collection [7, 3])))) x ∧
      Evaluates (words.binary x .pick (number 4)) (state [10, 4, 5]) (.ok (.collection [7, 3, 7, -1]))
        (state [10, 4, 5]) ∧
      Evaluates (words.unary .choose x) (state [10, 4, 5]) (.ok (.number 7)) (state [4, 5]) := by
  intro words x number state
  have hx (queue : List Nat) : Evaluates x (state queue) (.ok (.collection [7, 3, 7, -1])) (state queue) :=
    evaluates_literal _ _
  have hnumber (n : Int) (queue : List Nat) :
      Evaluates (number n) (state queue) (.ok (.number n)) (state queue) := evaluates_literal _ _
  obtain ⟨⟨two, used, htwo, -, -, hagree, -, htaken⟩, hchosen⟩ :=
    picks_taken words (hx [10, 4, 5]) (hnumber (2 : Nat) [10, 4, 5])
  obtain ⟨⟨all, none, hall, -, -, -, hkept, -⟩, -⟩ :=
    picks_taken words (hx [10, 4, 5]) (hnumber (4 : Nat) [10, 4, 5])
  obtain ⟨hpicked, rfl⟩ := htaken (by decide)
  obtain ⟨rfl, rfl⟩ := hkept (by decide)
  obtain rfl : two = [7, 3] := hpicked.trans (by decide)
  obtain ⟨v, -, hv, hchosen⟩ := hchosen (List.cons_ne_nil _ _)
  obtain rfl : v = 7 := Option.some.inj (hv.symm.trans (by decide))
  exact ⟨htwo, hagree (state []) _ x (yields_literal _ _) (yields_literal _ _), hall, hchosen⟩

end Eval

end DiceScript
