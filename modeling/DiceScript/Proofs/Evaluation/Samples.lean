import DiceScript.Proofs.Evaluation.Composition
import DiceScript.Proofs.Evaluation.Unrolling
import DiceScript.Proofs.Values.Alignment

/-!
# Samples in a column

An operator with a count evaluates its right operand that many times, each time in the state that the last one left.
`n # e` puts the collections together and `n ' e` shows them, one below the other. Both go through the same evaluations,
so they draw the same, and the column that they show is the one that a look at all of them would have laid out.
-/

namespace DiceScript.Eval

variable {e count : Expr} {s s₁ s' : State} {cs : List Collection}

inductive Successive (e : Expr) : State → List Collection → State → Prop
  | none (s : State) : Successive e s [] s
  | more {s s₁ s' : State} {c : Collection} {cs : List Collection} (hfirst : Evaluates e s (.ok (.collection c)) s₁)
    (hothers : Successive e s₁ cs s') : Successive e s (c :: cs) s'

theorem Successive.takes_repeated (h : Successive e s cs s') (op : Token) :
    ∃ bound, ∀ fuel, bound ≤ fuel → Takes (repeated (eval fuel) op e cs.length) s (.ok cs) s' := by
  induction h with
  | none s => exact ⟨0, fun fuel _ => takes_pure [] s⟩
  | more hfirst hothers ih =>
    obtain ⟨bound, hbound⟩ := hfirst.eventually
    obtain ⟨bound', hbound'⟩ := ih
    refine ⟨max bound bound', fun fuel hfuel => ?_⟩
    refine Takes.bind (hbound fuel (by omega)) ?_
    exact (hbound' fuel (by omega)).bind (takes_pure _ _)

/-- An operator with a count makes of the evaluations what it makes of the collections of its rounds. -/
theorem Successive.evaluates {op : Token} {made : List Collection → Value} (hcs : Successive e s₁ cs s')
    (hcount : Evaluates count s (.ok (.number cs.length)) s₁) (hop : gathering? op.kind = some made) :
    Evaluates (.binary count op .deferred e) s (.ok (made cs)) s' := by
  have hbinary : op.kind.isBinary = true := by
    generalize op.kind = kind at hop
    unfold gathering? at hop
    split at hop <;> cases hop <;> rfl
  refine hcount.deferred hbinary ?_ (ok_ended _)
  obtain ⟨bound, hbound⟩ := hcs.takes_repeated op
  refine ⟨bound, fun fuel hfuel => ?_⟩
  rw [deferred_of_gathering hop]
  exact (hbound fuel hfuel).bind (takes_pure _ _)

theorem ofText_stackedRight {texts : List String} (htexts : texts ≠ []) (hlines : ∀ s ∈ texts, '\n' ∉ s.toList) :
    Box.ofText (stackedRight texts) = Box.flushRight (texts.map String.toList) := by
  cases texts with
  | nil => exact absurd rfl htexts
  | cons first rest =>
    rw [List.forall_mem_cons] at hlines
    have hfirst : Box.ofText first = Box.flushRight [first.toList] := by
      rw [Box.ofText_of_unbroken hlines.1, Box.flushRight_singleton]
    exact Box.ofText_foldl_aboveRight (List.cons_ne_nil _ _) hfirst hlines.2

/-- Let a count come to `n`, at least one, and let `n` evaluations of an expression, one after the other, come to
collections. Then `count ' e` comes to a text of `n` lines, one for each collection and in their order, each with blanks
in front up to the length of the longest. It leaves the same state, with the same random source, as `count # e`, which
comes to all the elements. -/
theorem samples_aligned {sample hash : Token} (hsample : sample.kind = .sample) (hhash : hash.kind = .hash)
    {n : Nat} (hn : 1 ≤ n) (hcount : Evaluates count s (.ok (.number n)) s₁) (hcs : Successive e s₁ cs s')
    (hlength : cs.length = n) :
    ∃ (text : String) (longest : Nat),
      Evaluates (.binary count sample .deferred e) s (.ok (.text text)) s' ∧
      Evaluates (.binary count hash .deferred e) s (.ok (.collection cs.flatten)) s' ∧
      (cs.map fun c => c.display.length).max? = some longest ∧
      Box.ofText text = cs.map (fun c => c.display.toList.leftpad longest ' ') ∧
      (Box.ofText text).height = n := by
  subst hlength
  have hshown : cs.map Collection.display ≠ [] := by
    intro h
    rw [List.map_eq_nil_iff.1 h] at hn
    exact absurd hn (by decide)
  have hlines : ∀ t ∈ cs.map Collection.display, '\n' ∉ t.toList := by
    intro t ht
    obtain ⟨c, -, rfl⟩ := List.mem_map.1 ht
    exact c.break_not_mem_display
  have hsampled := hcs.evaluates hcount (congrArg gathering? hsample)
  have hhashed := hcs.evaluates hcount (congrArg gathering? hhash)
  have hrows : (cs.map Collection.display).map String.toList ≠ [] := fun h => hshown (List.map_eq_nil_iff.1 h)
  refine ⟨_, Box.width ((cs.map Collection.display).map String.toList), hsampled, hhashed, ?_, ?_, ?_⟩
  · rw [← Box.max?_lengths hrows, List.map_map, List.map_map]
    rfl
  · rw [ofText_stackedRight hshown hlines, Box.flushRight, List.map_map, List.map_map]
    rfl
  · rw [ofText_stackedRight hshown hlines, Box.flushRight, Box.height, List.length_map, List.length_map,
      List.length_map]

/-- Three rolls of a die of which only the high ones are kept: the first shows nothing, the second is the longest. -/
theorem samples_aligned_rolls :
    let sample : Token := Word.at ⟨.sample, .text "'", .null⟩ ⟨1, 3⟩
    let hash : Token := Word.at ⟨.hash, .text "#", .null⟩ ⟨1, 3⟩
    let atMost : Token := Word.at ⟨.atMost, .text "<=", .null⟩ ⟨1, 7⟩
    let die : Token := Word.at ⟨.die, .text "d", .null⟩ ⟨1, 10⟩
    let e : Expr := .binary (.literal (.number 5)) atMost .singletonCollection
      (.unary die .singleton (.literal (.number 12)))
    let count : Expr := .literal (.number 3)
    let state (queue : List Nat) : State := ⟨[], [], ⟨queue, 0⟩, []⟩
    Successive e (state [0, 11, 6, 9]) [[], [12], [7]] (state [9]) ∧
      Evaluates (.binary count hash .deferred e) (state [0, 11, 6, 9]) (.ok (.collection [12, 7])) (state [9]) ∧
      ∃ text, Evaluates (.binary count sample .deferred e) (state [0, 11, 6, 9]) (.ok (.text text)) (state [9]) ∧
        Box.ofText text = ["  ".toList, "12".toList, " 7".toList] := by
  intro sample hash atMost die e count state
  have hstep {s s' : State} {c : Collection} (h : Leads (eval 9 e s.machine) (.ok (.collection c)) s') :
      Evaluates e s (.ok (.collection c)) s' := by
    have hevaluates := evaluates_of_leads h (ok_ended _)
    rwa [State.state_machine] at hevaluates
  have hfirst : Evaluates e (state [0, 11, 6, 9]) (.ok (.collection [])) (state [11, 6, 9]) := hstep ⟨rfl, rfl⟩
  have hsecond : Evaluates e (state [11, 6, 9]) (.ok (.collection [12])) (state [6, 9]) := hstep ⟨rfl, rfl⟩
  have hthird : Evaluates e (state [6, 9]) (.ok (.collection [7])) (state [9]) := hstep ⟨rfl, rfl⟩
  have hcs : Successive e (state [0, 11, 6, 9]) [[], [12], [7]] (state [9]) :=
    .more hfirst (.more hsecond (.more hthird (.none _)))
  obtain ⟨text, longest, hsampled, hhashed, hmax, hrows, -⟩ :=
    @samples_aligned e count _ _ _ _ sample hash rfl rfl 3 (by decide) (evaluates_literal _ _) hcs rfl
  have hlongest : longest = 2 := by
    have htwo : ([[], [12], [7]].map fun c : Collection => c.display.length).max? = some 2 := by decide +kernel
    exact Option.some.inj (hmax.symm.trans htwo)
  refine ⟨hcs, hhashed, text, hsampled, ?_⟩
  rw [hrows, hlongest]
  decide +kernel

end DiceScript.Eval
