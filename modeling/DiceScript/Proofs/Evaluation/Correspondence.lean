import DiceScript.Proofs.Evaluation.Likeness

/-!
# Trees side by side

Like trees on like machines have like values. A loop over a collection is the one place where the order of elements
shows: where the two runs have permuted collections, each element is visited in both, but at different times.
The value of a visit depends on the bindings alone, not on the time, so the two loops yield permuted
collections.
-/

namespace DiceScript.Eval

open Likeness

variable {L : Likeness}

section

variable {eval : Expr → Eval Value} {body body' : Expr}

/-- A visit of an element, at some time of the loop, that yielded a collection. -/
def Visited (eval : Expr → Eval Value) (name : Name) (body : Expr) (base : Machine) (n : Int)
    (c : Collection) : Prop :=
  ∃ m after, Atop base [⟨name, .number n⟩] m ∧ eval body m = .ok (.collection c) after

/-- A loop that ends has visited each element, and yields what the visits did. -/
theorem visits_visited (hbody : Restores (eval body)) (name : Name) (ns : List Int) {base m : Machine}
    (hm : Atop base [] m) :
    Ends (visits eval name body ns) m
      (fun c _ => ∃ rows, c = rows.flatten ∧ List.Forall₂ (Visited eval name body base) ns rows)
      (fun _ _ => True) := by
  induction ns generalizing m with
  | nil => exact ⟨[], rfl, .nil⟩
  | cons n ns ih =>
    simp only [visits, ends_bind, ends_trace]
    refine ((hm.traced _).push _).mono (fun _ m₁ h₁ => ?_) (fun _ _ h => h.elim)
    refine ((ends_self (eval body) m₁).and (hbody.atop h₁)).mono ?_ (fun _ _ _ => trivial)
    rintro v m₂ ⟨hrun, h₂⟩
    refine h₂.pop.mono (fun _ m₃ h₃ => ?_) (fun _ _ h => h.elim)
    cases v with
    | collection c =>
      simp only [ends_bind]
      refine (ih h₃).mono ?_ (fun _ _ h => h)
      rintro _ _ ⟨rows, rfl, hrows⟩
      exact ⟨c :: rows, rfl, .cons ⟨m₁, m₂, h₁, hrun⟩ hrows⟩
    | real x => exact ends_fail.2 trivial
    | text s => exact ends_fail.2 trivial
    | pair a b => exact ends_fail.2 trivial

/-- If every visit, whenever it takes place, yields a collection, then the loop yields them all. -/
theorem visits_of_visits (hbody : Restores (eval body)) (name : Name) {ns : List Int}
    {rows : List Collection} {base m : Machine}
    (hrows : List.Forall₂ (fun n c => ∀ m, Atop base [⟨name, .number n⟩] m →
      Ends (eval body) m (fun v _ => ∃ c' : Collection, v = .collection c' ∧ c.Perm c')
        (fun _ _ => False)) ns rows)
    (hm : Atop base [] m) :
    Ends (visits eval name body ns) m (fun c _ => rows.flatten.Perm c) (fun _ _ => False) := by
  induction hrows generalizing m with
  | nil => exact List.Perm.refl []
  | cons hn _ ih =>
    simp only [visits, ends_bind, ends_trace]
    refine ((hm.traced _).push _).mono (fun _ m₁ h₁ => ?_) (fun _ _ h => h)
    refine ((hn m₁ h₁).and (hbody.atop h₁)).mono ?_ (fun _ _ h => h.1)
    rintro _ m₂ ⟨⟨c', rfl, hc⟩, h₂⟩
    refine h₂.pop.mono (fun _ m₃ h₃ => ?_) (fun _ _ h => h)
    simp only [ends_bind]
    exact (ih h₃).mono (fun _ _ h => hc.append h) (fun _ _ h => h)

/-- A visit of the first run fixes what the second yields for the same element, whenever it comes. -/
theorem visit_of_visited (hbody : L.Alike (eval body) (eval body') (Value.Alike L.items))
    (hrest : ∀ m m', L.Rest m m') {name : Name} {base base' m' : Machine} {n : Int} {c : Collection}
    (hbase : L.Machines base base') (hvisited : Visited eval name body base n c)
    (hm' : Atop base' [⟨name, .number n⟩] m') :
    Ends (eval body') m' (fun v _ => ∃ c' : Collection, v = .collection c' ∧ c.Perm c')
      (fun _ _ => False) := by
  obtain ⟨m, after, hm, hrun⟩ := hvisited
  have hbeside : L.Beside base base' [⟨name, .number n⟩] [⟨name, .number n⟩] m m' :=
    ⟨hm, hm', .cons ⟨rfl, L.values_refl _⟩ .nil, hrest m m'⟩
  obtain ⟨v', after', hrun', hv, -⟩ := (hbody m m' (hbase.beside hbeside)).of_ok hrun
  unfold Ends
  rw [hrun']
  cases hv with
  | collection hc => exact ⟨_, rfl, L.ordering.perm hc⟩

/-- The same elements in whatever order the likeness allows. -/
theorem alike_visits (hrestores : ∀ e, Restores (eval e)) (name : Name)
    (hbody : L.Alike (eval body) (eval body') (Value.Alike L.items)) {ns ns' : List Int}
    (hns : L.items ns ns') :
    L.Alike (visits eval name body ns) (visits eval name body' ns') L.items := by
  rcases L.order with hitems | ⟨hitems, hstops, hdice, hreports⟩
  · rw [hitems] at hns
    subst hns
    exact L.comparison.visits name hbody ns
  · intro m m' hm
    have hrest (m m' : Machine) : L.Rest m m' := ⟨hdice _ _, hreports _ _⟩
    unfold Couple
    cases hrun : visits eval name body ns m with
    | error stop after => exact .loose hstops _
    | ok c after =>
      obtain ⟨rows, rfl, hrows⟩ :=
        (visits_visited (hrestores body) name ns (atop_self m)).of_ok hrun
      rw [hitems] at hns
      obtain ⟨rows', hrows', hperm⟩ := List.perm_comp_forall₂ hns.symm hrows
      have hvisits := visits_of_visits (hrestores body') name
        (hrows'.imp fun _ _ h _ => visit_of_visited hbody hrest hm h) (atop_self m')
      obtain ⟨c', after', hrun', hc'⟩ := hvisits.exists_ok
      have hnests (body : Expr) (ns : List Int) : Nests (visits eval name body ns) :=
        nodeLaws_restores.visits name (hrestores body) ns
      have hafter := (hnests body ns m).of_ok hrun
      have hafter' := (hnests body' ns' m').of_ok hrun'
      rw [hrun']
      refine .values ⟨?_, hafter, hafter', .nil, hrest _ _⟩
      rw [hitems]
      exact hperm.symm.flatten.trans hc'

end

section

variable {eval : Expr → Eval Value}

theorem trees_missing_iff {e e' : Expr} (h : L.Trees e e') : e = .missing ↔ e' = .missing := by
  cases h <;> simp

/-- What is found under a name, if the evaluations of like bodies are alike. -/
theorem callees_of_entries
    (heval : ∀ {e e'}, L.Trees e e' → L.Alike (eval e) (eval e') (Value.Alike L.items)) {found found' : Option Expr}
    (h : Option.Rel L.Entries found found') : L.comparison.Callees eval eval found found' := by
  have hfault : L.comparison.holds .whole .value (fault .notCallable) (fault .notCallable) := alike_fault (.same _)
  cases h with
  | none => exact .none
  | some hentry =>
    rcases hentry with htree | ⟨rfl, harity⟩
    · cases htree with
      | function name parameters hbody => exact .function parameters (heval hbody)
      | _ => exact .other rfl rfl hfault
    · exact .other harity harity hfault

/-- One node beside a like one, if the evaluations of like expressions are alike. -/
theorem alike_step (hrestores : ∀ e, Restores (eval e))
    (heval : ∀ {e e'}, L.Trees e e' → L.Alike (eval e) (eval e') (Value.Alike L.items)) (fuel : Nat)
    {e e' : Expr} (h : L.Trees e e') :
    L.Alike (step eval fuel e) (step eval fuel e') (Value.Alike L.items) := by
  cases h with
  | missing => exact alike_fault (.same _)
  | literal v => exact alike_pure (L.values_refl v)
  | misfit form => exact alike_fault (.same _)
  | var hname h => exact L.comparison.variableValue hname (trees_missing_iff h) fun _ => heval h
  | binary hop schema hl hr => exact L.comparison.binaryNode hop schema (heval hl) (heval hr)
  | unary hop schema h => exact L.comparison.unaryNode hop (fun _ => trivial) (heval h)
  | conditional hc ht hf => exact L.comparison.conditional (heval hc) (heval ht) (heval hf)
  | foreach name hsource hbody =>
    exact L.comparison.foreach name (heval hsource) fun hns => alike_visits hrestores name (heval hbody) hns
  | @loop mode name style _ body' _ test' hbody htest =>
    have hbound : L.comparison.holds .part .values (throw .outOfFuel) (rounds eval mode name body' style test' 0) :=
      alike_outOfFuel
    exact L.comparison.loop mode name style (heval hbody) (heval htest) fuel hbound
  | binding name hdefinition huse => exact L.comparison.bound name (heval hdefinition) (heval huse)
  | call hname h => exact L.comparison.call hname (h.imp fun _ _ => heval) (callees_of_entries heval)
  | collection h => exact L.comparison.collectionNode (h.imp fun _ _ => heval)
  | pair ha hb => exact L.comparison.pairNode (heval ha) (heval hb)
  | group h => exact heval h
  | function name parameters h => exact alike_fault (.same _)

end

/-- Like trees, evaluated within the same bound. -/
theorem alike_eval (fuel : Nat) {e e' : Expr} (h : L.Trees e e') :
    L.Alike (eval fuel e) (eval fuel e') (Value.Alike L.items) := by
  induction fuel generalizing e e' with
  | zero => exact alike_outOfFuel
  | succ fuel ih => exact alike_step (restores_eval fuel) ih fuel h

/-- Like trees, evaluated for a host. Tracing shows both or none of them. -/
theorem couple_evaluate (hstops : L.stops) (fuel : Nat) {e e' : Expr} {m m' : Machine} (h : L.Trees e e')
    (hm : L.Machines m m')
    (hshown : (1 ≤ m.verbosity && !e.isShowable) = (1 ≤ m'.verbosity && !e'.isShowable)) :
    L.Couple (evaluate fuel e) m (evaluate fuel e') m' fun result after result' after' =>
      L.Outcomes (Value.Alike L.items) result result' ∧ L.Beside m m' [] [] after after' := by
  refine Couple.restored ?_ (restores_evaluate fuel e) (restores_evaluate fuel e')
  unfold Couple evaluate
  rw [hshown]
  split
  · exact .stopped (.fault (.same _)) hm.rest
  · have hrun := alike_eval fuel h (m.traced (.evaluating e)) (m'.traced (.evaluating e'))
      (hm.beside ((beside_self hm.rest).traced _ _))
    unfold Couple at hrun
    dsimp only
    generalize eval fuel e _ = result at hrun ⊢
    generalize eval fuel e' _ = result' at hrun ⊢
    cases hrun with
    | values h => exact .values ⟨.values h.1, h.2.rest.traced _ _⟩
    | loose h => exact absurd hstops h
    | stopped h hrest =>
      cases h with
      | error he => exact .values ⟨.errors he, (hrest.truncated _ _).traced _ _⟩
      | fault hf => exact .stopped (.fault hf) hrest
      | outOfFuel => exact .stopped .outOfFuel hrest

end DiceScript.Eval
