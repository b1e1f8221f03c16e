/-!
# Random sources

A source hands out draws, numbers below `2 ^ 32`. It first hands out the draws it was given and then
those of a linear congruential generator, of which a draw is the upper half of the state. Everything
random is made from draws, one draw for each decision, so a program sees a source only through them.
-/

namespace DiceScript

/-- Draws laid out in advance, and the state of the generator behind them. -/
structure Dice where
  queue : List Nat
  state : UInt64
deriving DecidableEq

namespace Dice

/-- A source with a seed, taken modulo `2 ^ 64`. -/
def ofSeed (seed : Int) (queue : List Nat) : Dice :=
  ⟨queue, UInt64.ofNat (seed % Nat.pow 2 64).toNat⟩

def draw (d : Dice) : Nat × Dice :=
  match d.queue with
  | n :: rest => (n, { d with queue := rest })
  | [] =>
    let state := d.state * 6364136223846793005 + 1442695040888963407
    ((state >>> 32).toNat, ⟨[], state⟩)

/-- A number from `low` to `high`, by one draw; `none` without a draw when there is no such number. -/
def between (d : Dice) (low high : Int) : Option (Int × Dice) :=
  if high < low then none
  else
    let (n, d) := d.draw
    some (low + (n : Int) % (high - low + 1), d)

def roll (d : Dice) (low high : Int) : Nat → Option (List Int × Dice)
  | 0 => some ([], d)
  | count + 1 => do
    let (n, d) ← d.between low high
    let (rest, d) ← d.roll low high count
    some (n :: rest, d)

/-- A fraction of `2 ^ 32` that is at least zero and below one, by one draw. -/
def fraction (d : Dice) : Rat × Dice :=
  let (n, d) := d.draw
  (mkRat n (Nat.pow 2 32), d)

/-- An element of a list, by one draw; `none` without a draw when the list is empty. -/
def choose (d : Dice) (xs : List Int) : Option (Int × Dice) :=
  if xs.isEmpty then none
  else
    let (n, d) := d.draw
    xs[n % xs.length]?.map fun x => (x, d)

/-- That many elements taken out of a pool, one after the other; `none` when the pool runs empty. -/
def sample (d : Dice) (pool : List Int) : Nat → Option (List Int × Dice)
  | 0 => some ([], d)
  | count + 1 =>
    if pool.isEmpty then none
    else do
      let (n, d) := d.draw
      let i := n % pool.length
      let (rest, d) ← d.sample (pool.eraseIdx i) count
      some (pool[i]?.toList ++ rest, d)

/-- A range that is not empty has numbers to roll. -/
theorem roll_isSome (d : Dice) {low high : Int} (nonempty : low ≤ high) (count : Nat) :
    (d.roll low high count).isSome := by
  induction count generalizing d with
  | zero => rfl
  | succ count ih =>
    obtain ⟨n, after, drawn⟩ : ∃ n after, d.between low high = some (n, after) := by
      unfold between
      rw [if_neg (by omega)]
      exact ⟨_, _, rfl⟩
    obtain ⟨⟨rest, last⟩, rolled⟩ := Option.isSome_iff_exists.1 (ih after)
    simp [roll, drawn, rolled]

theorem choose_isSome (d : Dice) {xs : List Int} (nonempty : xs.isEmpty = false) :
    (d.choose xs).isSome := by
  have length : 0 < xs.length := by
    cases xs with
    | nil => simp at nonempty
    | cons x xs => simp
  simp [choose, nonempty, Nat.mod_lt _ length]

/-- A pool that is large enough does not run empty. -/
theorem sample_isSome (d : Dice) {pool : List Int} {count : Nat} (enough : count ≤ pool.length) :
    (d.sample pool count).isSome := by
  induction count generalizing d pool with
  | zero => rfl
  | succ count ih =>
    have nonempty : pool.isEmpty = false := by
      cases pool with
      | nil => simp at enough
      | cons x xs => rfl
    have index : d.draw.1 % pool.length < pool.length := Nat.mod_lt _ (by omega)
    have remaining : count ≤ (pool.eraseIdx (d.draw.1 % pool.length)).length := by
      rw [List.length_eraseIdx_of_lt index]
      omega
    obtain ⟨⟨rest, last⟩, sampled⟩ := Option.isSome_iff_exists.1 (ih d.draw.2 remaining)
    simp [sample, nonempty, sampled]

end Dice

end DiceScript
