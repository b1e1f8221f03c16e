import DiceScript.Proofs.Evaluation.Comparison

/-!
# Operators compared

Related operators applied to like values yield like values, or fail alike, whatever the comparison is. Most operators need
nothing but that their collections are permuted at most. The few that leave something to chance are asked of like random
sources on equal collections, or not at all.
-/

namespace DiceScript

namespace Operator

open Eval

theorem asSingleton_of_scalar?_eq_none (op : Token) (which : Operand) {c : Collection} (h : c.scalar? = none) :
    asSingleton op which (.collection c) = fail (.operand op which (Value.collection c).shape) := by
  unfold asSingleton
  split
  · next heq =>
    cases heq
    cases h
  · rfl

theorem asSingleton_of_scalar?_eq_some (op : Token) (which : Operand) {c : Collection} {n : Int}
    (h : c.scalar? = some n) : asSingleton op which (.collection c) = pure n := by
  unfold Collection.scalar? at h
  split at h
  · cases h
    rfl
  · cases h

end Operator

namespace Eval.OperatorComparison

variable {C : OperatorComparison} {l : Level} {op op' : Token}

section

variable {v v' : Value}

theorem foreign {α : Type} {y : Yield α} (hop : C.token op op') (schema : String) :
    C.holds l y (Operator.foreign op schema) (Operator.foreign op' schema) :=
  C.fault (.foreign hop schema)

/-- Like values are refused alike. -/
theorem operand {α : Type} {y : Yield α} (hop : C.token op op') (which : Operand) (hv : v.Alike C.items v') :
    C.holds l y (fail (.operand op which v.shape)) (fail (.operand op' which v'.shape)) := by
  rw [(C.order.permuted hv).shape_eq]
  exact C.blame (e := .operand op which v'.shape) hop rfl rfl

theorem asCollection (hop : C.token op op') (which : Operand) (hv : v.Alike C.items v') :
    C.holds l .items (Operator.asCollection op which v) (Operator.asCollection op' which v') := by
  have hrefused : C.holds l .items (fail (.operand op which v.shape)) (fail (.operand op' which v'.shape)) :=
    operand hop which hv
  cases hv with
  | collection h => exact C.value h
  | _ => exact hrefused

theorem asSingleton (hop : C.token op op') (which : Operand) (hv : v.Alike C.items v') :
    C.holds l (.same Int) (Operator.asSingleton op which v) (Operator.asSingleton op' which v') := by
  have hrefused : C.holds l (.same Int) (fail (.operand op which v.shape)) (fail (.operand op' which v'.shape)) :=
    operand hop which hv
  cases hv with
  | @collection c c' h =>
    have hscalar := Collection.scalar?_eq_of_perm (C.order.perm h)
    cases hc : c.scalar? with
    | none =>
      rw [Operator.asSingleton_of_scalar?_eq_none op which hc,
        Operator.asSingleton_of_scalar?_eq_none op' which (hscalar ▸ hc)]
      exact hrefused
    | some n =>
      rw [Operator.asSingleton_of_scalar?_eq_some op which hc,
        Operator.asSingleton_of_scalar?_eq_some op' which (hscalar ▸ hc)]
      exact C.value rfl
  | _ => exact hrefused

theorem asText (hop : C.token op op') (which : Operand) (hv : v.Alike C.items v') :
    C.holds l (.same String) (Operator.asText op which v) (Operator.asText op' which v') := by
  have hrefused : C.holds l (.same String) (fail (.operand op which v.shape)) (fail (.operand op' which v'.shape)) :=
    operand hop which hv
  cases hv with
  | text s => exact C.value rfl
  | _ => exact hrefused

/-- A probability is wanting where there is no real or one that is not strictly between zero and one. -/
theorem asProbability (hop : C.token op op') (hwants : (∀ x, v = .real x → x.isProper = false) → C.wants op)
    (hv : v.Alike C.items v') :
    C.holds l (.same Binary64) (Operator.asProbability op v) (Operator.asProbability op' v') := by
  cases hv with
  | real x =>
    simp only [Operator.asProbability]
    split
    · exact C.value rfl
    · next hx =>
      refine C.want hop (hwants ?_)
      rintro _ ⟨⟩
      exact Bool.eq_false_iff.2 hx
  | _ => exact C.want hop (hwants (by rintro _ ⟨⟩))

end

section

variable {a a' b b' v v' : Value}

theorem number (n : Int) : C.values (.number n) (.number n) :=
  C.collection (C.order.refl [n])

theorem roll (hop : C.token op op') (hrandom : op.kind.isRandom = true) (count faces lowest : Int) :
    C.holds l .value (Operator.roll op count faces lowest) (Operator.roll op' count faces lowest) := by
  unfold Operator.roll
  split
  · exact C.blame (e := .negativeDice op) hop rfl rfl
  · split
    · exact C.blame (e := .noFaces op) hop rfl rfl
    · refine C.bind ((C.chance hop hrandom).2 _) ?_
      rintro rolled _ rfl
      exact C.value (C.collection (C.order.refl rolled))

theorem quotient (m n : Int) : C.holds l (.same Int) (Operator.quotient m n) (Operator.quotient m n) := by
  unfold Operator.quotient
  split
  · exact C.fault (.same _)
  · exact C.value rfl

/-- The least, largest or middle element, which is that of a permuted collection too. -/
theorem extreme (hop : C.token op op') {c c' : Collection} (hc : C.items c c') {pick : Collection → Option Int}
    (hpick : pick c = pick c') :
    C.holds l .value (Operator.extreme op c pick) (Operator.extreme op' c' pick) := by
  unfold Operator.extreme
  rw [← (C.order.perm hc).isEmpty_eq, ← (C.token_alike hop).isText, ← hpick]
  split
  · split
    · exact C.blame (e := .emptyExtreme op) hop rfl rfl
    · exact C.fault (.same _)
  · cases pick c with
    | none => exact C.fault (.same _)
    | some n => exact C.value (number n)

theorem collectionCollection (hop : C.token op op') (ha : a.Alike C.items a') (hb : b.Alike C.items b') :
    C.holds l .value (Operator.collectionCollection op a b) (Operator.collectionCollection op' a' b') := by
  refine C.bind (asCollection hop _ ha) fun c c' hc => ?_
  refine C.bind (asCollection hop _ hb) fun d d' hd => ?_
  rw [← C.token_kind hop]
  cases op.kind with
  | and => exact C.value (C.collection (C.order.congr₂ Collection.guarded_perm hc hd))
  | drop => exact C.value (C.collection (C.order.congr₂ Collection.dropping_perm hc hd))
  | keep => exact C.value (C.collection (C.order.congr₂ Collection.keeping_perm hc hd))
  | setMinus => exact C.value (C.collection (C.order.congr₂ Collection.minus_perm hc hd))
  | union => exact C.value (C.collection (C.order.append hc hd))
  | _ => exact foreign hop _

theorem collectionSingleton (hop : C.token op op') (ha : a.Alike C.items a') (hb : b.Alike C.items b') :
    C.holds l .value (Operator.collectionSingleton op a b) (Operator.collectionSingleton op' a' b') := by
  refine C.bind (asCollection hop _ ha) fun c c' hc => ?_
  refine C.bind (asSingleton hop _ hb) ?_
  rintro n _ rfl
  rw [← C.token_kind hop]
  cases hk : op.kind with
  | pick =>
    obtain ⟨hitems, hdraw⟩ := C.chance hop (by rw [hk]; rfl)
    have hsame : c = c' := hitems ▸ hc
    subst hsame
    simp only
    split
    · exact C.blame (e := .negativePick op) hop rfl rfl
    · split
      · exact C.value (C.collection (C.order.refl c))
      · refine C.bind (hdraw _) ?_
        rintro picked _ rfl
        exact C.value (C.collection (C.order.refl picked))
  | _ => exact foreign hop _

theorem singletonCollection (hop : C.token op op') (ha : a.Alike C.items a') (hb : b.Alike C.items b') :
    C.holds l .value (Operator.singletonCollection op a b) (Operator.singletonCollection op' a' b') := by
  refine C.bind (asSingleton hop _ ha) ?_
  rintro n _ rfl
  refine C.bind (asCollection hop _ hb) fun c c' hc => ?_
  have hselect {f : Collection → Collection} (hf : ∀ {c c' : Collection}, c.Perm c' → f c = f c') :
      C.holds l .value (if n < 0 then fail (.negativeSelection op) else pure (.collection (f c)))
        (if n < 0 then fail (.negativeSelection op') else pure (.collection (f c'))) := by
    split
    · exact C.blame (e := .negativeSelection op) hop rfl rfl
    · rw [hf (C.order.perm hc)]
      exact C.value (C.collection (C.order.refl _))
  rw [← C.token_kind hop]
  cases op.kind with
  | equal | unequal | less | greater | atMost | atLeast =>
    exact C.value (C.collection (C.order.congr (fun h => h.filter _) hc))
  | least => exact hselect fun h => by rw [Collection.least, Collection.least, Collection.sorted_eq_of_perm h]
  | largest => exact hselect fun h => by rw [Collection.largest, Collection.largest, Collection.descending_eq_of_perm h]
  | _ => exact foreign hop _

theorem singletonSingleton (hop : C.token op op') (ha : a.Alike C.items a') (hb : b.Alike C.items b') :
    C.holds l .value (Operator.singletonSingleton op a b) (Operator.singletonSingleton op' a' b') := by
  refine C.bind (asSingleton hop _ ha) ?_
  rintro m _ rfl
  refine C.bind (asSingleton hop _ hb) ?_
  rintro n _ rfl
  rw [← C.token_kind hop]
  cases hk : op.kind with
  | dotDot => exact C.value (C.collection (C.order.refl _))
  | plus | minus | times => exact C.value (number _)
  | die | zeroDie => exact roll hop (by rw [hk]; rfl) _ _ _
  | divide =>
    simp only
    split
    · exact C.blame (e := .divisionByZero op) hop rfl rfl
    · refine C.bind (quotient m n) ?_
      rintro q _ rfl
      exact C.value (number _)
  | modulo =>
    simp only
    split
    · exact C.blame (e := .moduloByZero op) hop rfl rfl
    · refine C.bind (quotient m n) ?_
      rintro q _ rfl
      exact C.value (number _)
  | _ => exact foreign hop _

theorem stringString (hop : C.token op op') (ha : a.Alike C.items a') (hb : b.Alike C.items b') :
    C.holds l .value (Operator.stringString op a b) (Operator.stringString op' a' b') := by
  refine C.bind (asText hop _ ha) ?_
  rintro s _ rfl
  refine C.bind (asText hop _ hb) ?_
  rintro t _ rfl
  rw [← C.token_kind hop]
  cases op.kind.layout? with
  | none => exact foreign hop _
  | some layout => exact C.value (C.text rfl)

/-- Related binary operators on like values. -/
theorem binary (hop : C.token op op') (schema : BinarySchema) (ha : a.Alike C.items a') (hb : b.Alike C.items b') :
    C.holds l .value (Operator.binary op schema a b) (Operator.binary op' schema a' b') := by
  cases schema with
  | collectionCollection => exact collectionCollection hop ha hb
  | collectionSingleton => exact collectionSingleton hop ha hb
  | singletonCollection => exact singletonCollection hop ha hb
  | singletonSingleton => exact singletonSingleton hop ha hb
  | stringString => exact stringString hop ha hb
  | deferred => exact foreign hop _

theorem collectionOperand (hop : C.token op op') (hv : v.Alike C.items v') :
    C.holds l .value (Operator.collectionOperand op v) (Operator.collectionOperand op' v') := by
  refine C.bind (asCollection hop _ hv) fun c c' hc => ?_
  have hperm := C.order.perm hc
  rw [← C.token_kind hop]
  cases hk : op.kind with
  | count =>
    simp only
    rw [hperm.length_eq]
    exact C.value (number _)
  | different =>
    simp only
    rw [Collection.different_eq_of_perm hperm]
    exact C.value (C.collection (C.order.refl _))
  | choose =>
    obtain ⟨hitems, hdraw⟩ := C.chance hop (by rw [hk]; rfl)
    have hsame : c = c' := hitems ▸ hc
    subst hsame
    simp only
    split
    · exact C.blame (e := .emptyChoice op) hop rfl rfl
    · refine C.bind (hdraw _) ?_
      rintro chosen _ rfl
      exact C.value (number chosen)
  | sum =>
    simp only
    rw [Collection.total_eq_of_perm hperm]
    exact C.value (number _)
  | minimum => exact extreme hop hc (Collection.minimum?_eq_of_perm hperm)
  | maximum => exact extreme hop hc (Collection.maximum?_eq_of_perm hperm)
  | median => exact extreme hop hc (Collection.median?_eq_of_perm hperm)
  | minimal => exact C.value (C.collection (C.order.congr Collection.minimal_perm hc))
  | maximal => exact C.value (C.collection (C.order.congr Collection.maximal_perm hc))
  | bang =>
    simp only
    rw [Collection.negation_eq_of_perm hperm]
    exact C.value (C.collection (C.order.refl _))
  | _ => exact foreign hop _

theorem realOperand (hop : C.token op op') (hwants : (∀ x, v = .real x → x.isProper = false) → C.wants op)
    (hv : v.Alike C.items v') :
    C.holds l .value (Operator.realOperand op v) (Operator.realOperand op' v') := by
  refine C.bind (asProbability hop hwants hv) ?_
  rintro x _ rfl
  rw [← C.token_kind hop]
  cases hk : op.kind with
  | question =>
    refine C.bind ((C.chance hop (by rw [hk]; rfl)).2 _) ?_
    rintro q _ rfl
    exact C.value (C.collection (C.order.refl _))
  | _ => exact foreign hop _

theorem singletonOperand (hop : C.token op op') (hv : v.Alike C.items v') :
    C.holds l .value (Operator.singletonOperand op v) (Operator.singletonOperand op' v') := by
  refine C.bind (asSingleton hop _ hv) ?_
  rintro n _ rfl
  rw [← C.token_kind hop]
  cases hk : op.kind with
  | die | zeroDie => exact roll hop (by rw [hk]; rfl) _ _ _
  | minus | sign => exact C.value (number _)
  | _ => exact foreign hop _

theorem tupleOperand (hop : C.token op op') (hv : C.values v v') :
    C.holds l .value (Operator.tupleOperand op v) (Operator.tupleOperand op' v') := by
  have halike := C.alike hv
  have hrefused : C.holds l .value (fail (.operand op .onlyPair v.shape)) (fail (.operand op' .onlyPair v'.shape)) :=
    operand hop .onlyPair halike
  cases halike with
  | pair _ _ =>
    obtain ⟨hfirst, hsecond⟩ := C.pair.1 hv
    simp only [Operator.tupleOperand]
    rw [← C.token_kind hop]
    cases op.kind with
    | first => exact C.value hfirst
    | second => exact C.value hsecond
    | _ => exact foreign hop _
  | _ => exact hrefused

theorem deferredOperand (hop : C.token op op') (hv : v.Alike C.items v') :
    C.holds l .value (Operator.deferredOperand op v) (Operator.deferredOperand op' v') := by
  unfold Operator.deferredOperand
  rw [← C.token_kind hop, (C.order.permuted hv).display_eq]
  cases op.kind with
  | sample => exact C.value (C.text rfl)
  | _ => exact foreign hop _

/-- Related unary operators on like values. -/
theorem unary (hop : C.token op op') {schema : UnarySchema} (hwants : schema = .real → C.wants op)
    (hv : C.values v v') :
    C.holds l .value (Operator.unary op schema v) (Operator.unary op' schema v') := by
  cases schema with
  | collection => exact collectionOperand hop (C.alike hv)
  | deferred => exact deferredOperand hop (C.alike hv)
  | real => exact realOperand hop (fun _ => hwants rfl) (C.alike hv)
  | singleton => exact singletonOperand hop (C.alike hv)
  | tuple => exact tupleOperand hop hv

end

end Eval.OperatorComparison

end DiceScript
