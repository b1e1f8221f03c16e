import DiceScript.Proofs.Evaluation.Likeness

/-!
# Reading does not see spelling

A reader looks at the kind of a token, at its literal and, if it is a name, at its spelling. Where a token
stands and how an operator is spelt go into the tree and into reports, but decide nothing. So tokens that
differ in nothing else are read alike: as trees that differ only in the operators that they carry, or not at
all, for the same cause. `Alike` says this of two readers, with one rule for each way to build one.
-/

namespace DiceScript

/-- Tokens that are the same but for where they stand and, unless they are names, how they are spelt. -/
structure Token.Respelt (t t' : Token) : Prop where
  kind : t.kind = t'.kind
  literal : t.literal = t'.literal
  name : t.kind = .identifier → t.lexeme = t'.lexeme

inductive Problem.Kind where
  | scan (cause : ScanError.Cause)
  | parse (kind : ParseError.Kind)
  | runtime (kind : RuntimeError.Kind)
deriving DecidableEq

def Problem.kind : Problem → Problem.Kind
  | .scan e => .scan e.cause
  | .parse e => .parse e.cause.kind
  | .runtime e => .runtime e.kind

/-- The same trees but for places and spellings, run on machines with the same bindings. -/
def Likeness.respelling : Likeness where
  token op op' := op.Respelt op' ∧ op.lexeme.isText = op'.lexeme.isText
  items := Eq
  seen _ := True
  called _ := True
  dice := Eq
  reports ps ps' := ps.map Problem.kind = ps'.map Problem.kind
  stops := True
  token_alike h := ⟨h.1.kind, h.2⟩
  reports_append h he := by
    rw [List.map_append, List.map_append, h]
    simp only [List.map_cons, List.map_nil, Problem.kind, he.kind_eq]
  chance _ _ := ⟨rfl, rfl⟩
  order := .inl rfl

open Likeness (respelling)

structure RespeltEntry (entry entry' : Name × Expr) : Prop where
  name : entry.1 = entry'.1
  tree : respelling.Trees entry.2 entry'.2

structure Script.Respelt (script script' : Script) : Prop where
  expression : respelling.Trees script.expression script'.expression
  functions : List.Forall₂ RespeltEntry script.functions script'.functions

namespace Read

variable {α β γ δ : Type}

/-- Two readings that end alike: with results in `R`, or with the same cause. -/
inductive Meets (R : α → β → Prop) : Except ReadStop α → Except ReadStop β → Prop
  | values {a : α} {b : β} (h : R a b) : Meets R (.ok a) (.ok b)
  | problems (cause : ParseError.Cause) (p p' : Mark) :
    Meets R (.error (.problem ⟨cause, p⟩)) (.error (.problem ⟨cause, p'⟩))
  | exhausted : Meets R (.error .exhausted) (.error .exhausted)
  | outOfFuel : Meets R (.error .outOfFuel) (.error .outOfFuel)

section

variable {R : α → β → Prop} {S : γ → δ → Prop} {result : Except ReadStop α} {result' : Except ReadStop β}

theorem Meets.bind {f : α → Except ReadStop γ} {g : β → Except ReadStop δ} (h : Meets R result result')
    (hf : ∀ a b, R a b → Meets S (f a) (g b)) : Meets S (result >>= f) (result' >>= g) := by
  cases h with
  | values h => exact hf _ _ h
  | problems cause p p' => exact .problems cause p p'
  | exhausted => exact .exhausted
  | outOfFuel => exact .outOfFuel

theorem Meets.map {f : α → γ} {g : β → δ} (h : Meets R result result') (hf : ∀ a b, R a b → S (f a) (g b)) :
    Meets S (result.map f) (result'.map g) := by
  cases h with
  | values h => exact .values (hf _ _ h)
  | problems cause p p' => exact .problems cause p p'
  | exhausted => exact .exhausted
  | outOfFuel => exact .outOfFuel

theorem Meets.mono {R' : α → β → Prop} (h : Meets R result result') (hR : ∀ a b, R a b → R' a b) :
    Meets R' result result' := by
  simpa only [Except.map_id, id] using h.map (f := id) (g := id) hR

end

/-- On respelt tokens two readers end alike, and leave respelt tokens. -/
def Alike (x : Read α) (y : Read β) (R : α → β → Prop) : Prop :=
  ∀ ts ts', List.Forall₂ respelling.token ts ts' →
    Meets (fun r r' => R r.1 r'.1 ∧ List.Forall₂ respelling.token r.2 r'.2) (x ts) (y ts')

section

variable {R : α → β → Prop} {S : γ → δ → Prop} {x : Read α} {y : Read β} {f : α → Read γ} {g : β → Read δ}

theorem alike_pure {a : α} {b : β} (h : R a b) : Alike (pure a) (pure b) R :=
  fun _ _ hts => .values ⟨h, hts⟩

theorem alike_outOfFuel : Alike (throw .outOfFuel : Read α) (throw .outOfFuel : Read β) R :=
  fun _ _ _ => .outOfFuel

theorem alike_problem (cause : ParseError.Cause) (p p' : Mark) :
    Alike (throw (.problem ⟨cause, p⟩) : Read α) (throw (.problem ⟨cause, p'⟩) : Read β) R :=
  fun _ _ _ => .problems cause p p'

theorem Alike.mono {R' : α → β → Prop} (h : Alike x y R) (hR : ∀ a b, R a b → R' a b) : Alike x y R' :=
  fun ts ts' hts => (h ts ts' hts).mono fun _ _ hr => ⟨hR _ _ hr.1, hr.2⟩

theorem Alike.bind (h : Alike x y R) (hf : ∀ a b, R a b → Alike (f a) (g b) S) :
    Alike (x >>= f) (y >>= g) S :=
  fun ts ts' hts => (h ts ts' hts).bind fun _ _ hr => hf _ _ hr.1 _ _ hr.2

theorem alike_fail (cause : ParseError.Cause) : Alike (fail cause : Read α) (fail cause : Read β) R := by
  intro ts ts' hts
  cases hts with
  | nil => exact .exhausted
  | cons ht _ => exact .problems cause _ _

/-- A token is taken in both readings or in none. -/
theorem alike_takeWhen (select : Kind → Option α) :
    Alike (takeWhen select) (takeWhen select) (Option.Rel fun r r' =>
      respelling.token r.1 r'.1 ∧ r.2 = r'.2 ∧ select r.1.kind = some r.2) := by
  intro ts ts' hts
  cases hts with
  | nil => exact .exhausted
  | @cons t t' ts ts' ht hts =>
    rw [takeWhen_cons, takeWhen_cons, ← ht.1.kind]
    split
    · exact .values ⟨.none, .cons ht hts⟩
    · cases hselect : select t.kind with
      | none => exact .values ⟨.none, .cons ht hts⟩
      | some a => exact .values ⟨.some ⟨ht, rfl, hselect⟩, hts⟩

/-- What follows a token that is taken or not. -/
theorem afterTakeWhen {select : Kind → Option α} {f : Option (Token × α) → Read γ}
    {g : Option (Token × α) → Read δ} (hnone : Alike (f none) (g none) S)
    (hsome : ∀ t t' a, respelling.token t t' → select t.kind = some a →
      Alike (f (some (t, a))) (g (some (t', a))) S) :
    Alike (takeWhen select >>= f) (takeWhen select >>= g) S := by
  apply (alike_takeWhen select).bind
  intro taken taken' h
  cases h with
  | none => exact hnone
  | @some r r' h =>
    obtain ⟨t, a⟩ := r
    obtain ⟨t', a'⟩ := r'
    obtain ⟨ht, rfl, hselect⟩ := h
    exact hsome t t' a ht hselect

theorem alike_peek : Alike peek peek respelling.token := by
  intro ts ts' hts
  cases hts with
  | nil => exact .exhausted
  | cons ht hts => exact .values ⟨ht, .cons ht hts⟩

theorem alike_take? (kind : Kind) :
    Alike (take? kind) (take? kind) (Option.Rel fun t t' => respelling.token t t' ∧ t.kind = kind) := by
  refine afterTakeWhen (alike_pure .none) fun t t' _ ht hselect => ?_
  refine alike_pure (.some ⟨ht, ?_⟩)
  simpa using hselect

theorem alike_expect (kind : Kind) (cause : ParseError.Cause) :
    Alike (expect kind cause) (expect kind cause) fun t t' => respelling.token t t' ∧ t.kind = kind := by
  apply (alike_take? kind).bind
  intro taken taken' h
  cases h with
  | none => exact alike_fail cause
  | some h => exact alike_pure h

/-- A name is the same in both readings. -/
theorem alike_identifier (cause : ParseError.Cause) :
    Alike (expect .identifier cause) (expect .identifier cause) fun t t' => t.lexeme = t'.lexeme :=
  (alike_expect .identifier cause).mono fun _ _ h => h.1.1.name h.2

end

end Read

namespace Ladder

open Read

inductive Goals : Goal → Goal → Prop
  | at (level : Level) : Goals (.at level) (.at level)
  | more (level : Level) {left left' : Expr} (h : respelling.Trees left left') :
    Goals (.more level left) (.more level left')

theorem alike_items {α β : Type} {R : α → β → Prop} {item : Read α} {item' : Read β}
    (h : Alike item item' R) (fuel : Nat) :
    Alike (items item fuel) (items item' fuel) (List.Forall₂ R) := by
  induction fuel with
  | zero => exact alike_outOfFuel
  | succ fuel ih =>
    apply h.bind
    intro a b hab
    apply (alike_take? .comma).bind
    intro taken taken' htaken
    cases htaken with
    | none => exact alike_pure (.cons hab .nil)
    | some _ => exact ih.bind fun _ _ hrest => alike_pure (.cons hab hrest)

theorem alike_enclosed {α β : Type} {R : α → β → Prop} {item : Read α} {item' : Read β}
    (h : Alike item item' R) (fuel : Nat) (closing : Kind) (what : Expected) :
    Alike (enclosed item fuel closing what) (enclosed item' fuel closing what)
      fun r r' => List.Forall₂ R r.1 r'.1 := by
  apply (alike_take? closing).bind
  intro taken taken' htaken
  cases htaken with
  | some _ => exact alike_pure .nil
  | none =>
    apply (alike_items h fuel).bind
    intro read read' hread
    exact (alike_expect closing _).bind fun _ _ _ => alike_pure hread

theorem trees_ofForm (form : Form) : respelling.Trees (.ofForm form) (.ofForm form) := by
  unfold Expr.ofForm
  split
  · exact .literal _
  · exact .misfit _

/-- Like literals stand for the same. -/
theorem trees_ofLiteral (kind : LiteralKind) {t t' : Token} (h : respelling.token t t') :
    respelling.Trees (.ofLiteral kind t.literal) (.ofLiteral kind t'.literal) := by
  rw [h.1.literal]
  cases kind with
  | number => exact trees_ofForm _
  | real => exact trees_ofForm _
  | text => exact trees_ofForm _

section

variable {read : Goal → Read Expr}
  (hread : ∀ {goal goal'}, Goals goal goal' → Alike (read goal) (read goal') respelling.Trees) (fuel : Nat)

include hread

theorem alike_conditional : Alike (conditional read) (conditional read) respelling.Trees := by
  apply (hread (.at .expression)).bind
  intro c c' hc
  refine (alike_expect .wordThen _).bind fun _ _ _ => ?_
  apply (hread (.at .expression)).bind
  intro t t' ht
  refine (alike_expect .wordElse _).bind fun _ _ _ => ?_
  apply (hread (.at .expression)).bind
  intro f f' hf
  exact alike_pure (.conditional hc ht hf)

theorem alike_foreach : Alike (foreach read) (foreach read) respelling.Trees := by
  apply (alike_identifier _).bind
  intro name name' hname
  refine (alike_expect .wordIn _).bind fun _ _ _ => ?_
  apply (hread (.at .expression)).bind
  intro source source' hsource
  refine (alike_expect .wordDo _).bind fun _ _ _ => ?_
  apply (hread (.at .expression)).bind
  intro body body' hbody
  rw [hname]
  exact alike_pure (.foreach _ hsource hbody)

theorem alike_loop (mode : LoopMode) : Alike (loop read mode) (loop read mode) respelling.Trees := by
  apply (alike_identifier _).bind
  intro name name' hname
  refine (alike_expect .assign _).bind fun _ _ _ => ?_
  apply (hread (.at .expression)).bind
  intro body body' hbody
  refine afterTakeWhen (alike_fail _) fun _ _ style _ _ => ?_
  apply (hread (.at .expression)).bind
  intro test test' htest
  rw [hname]
  exact alike_pure (.loop mode _ style hbody htest)

theorem alike_binding : Alike (binding read) (binding read) respelling.Trees := by
  apply (alike_identifier _).bind
  intro name name' hname
  refine (alike_expect .assign _).bind fun _ _ _ => ?_
  apply (hread (.at .expression)).bind
  intro definition definition' hdefinition
  refine (alike_expect .semicolon _).bind fun _ _ _ => ?_
  apply (hread (.at .expression)).bind
  intro use use' huse
  rw [hname]
  exact alike_pure (.binding _ hdefinition huse)

omit hread in
theorem alike_startsBinding : Alike startsBinding startsBinding Eq := by
  intro ts ts' hts
  cases hts with
  | nil => exact .values ⟨rfl, .nil⟩
  | cons hname hrest =>
    cases hrest with
    | nil => exact .values ⟨rfl, .cons hname .nil⟩
    | cons hsign hrest =>
      refine .values ⟨?_, .cons hname (.cons hsign hrest)⟩
      dsimp only
      rw [hname.1.kind, hsign.1.kind]

theorem alike_expression : Alike (expression read) (expression read) respelling.Trees := by
  refine afterTakeWhen ?_ fun _ _ statement _ _ => ?_
  · apply alike_startsBinding.bind
    rintro starts _ rfl
    split
    · exact alike_binding hread
    · exact hread (.at .layout)
  · cases statement with
    | conditional => exact alike_conditional hread
    | foreach => exact alike_foreach hread
    | loop mode => exact alike_loop hread mode

theorem alike_chain (level : Level) : Alike (chain read level) (chain read level) respelling.Trees := by
  apply (hread (.at level.below)).bind
  intro left left' hleft
  exact hread (.more level hleft)

theorem alike_chainMore (level : Level) {left left' : Expr} (hleft : respelling.Trees left left') :
    Alike (chainMore read level left) (chainMore read level left') respelling.Trees := by
  refine afterTakeWhen (alike_pure hleft) fun _ _ schema hop _ => ?_
  apply (hread (.at level.right)).bind
  intro right right' hright
  exact hread (.more level (.binary hop schema hleft hright))

theorem alike_range : Alike (range read) (range read) respelling.Trees := by
  apply (hread (.at .select)).bind
  intro left left' hleft
  refine afterTakeWhen (alike_pure hleft) fun _ _ schema hop _ => ?_
  exact (hread (.at .select)).bind fun _ _ hright => alike_pure (.binary hop schema hleft hright)

theorem alike_negate : Alike (negate read) (negate read) respelling.Trees := by
  apply (alike_take? .minus).bind
  intro taken taken' htaken
  cases htaken with
  | none => exact hread (.at .apply)
  | some h => exact (hread (.at .negate)).bind fun _ _ hoperand => alike_pure (.unary h.1 _ hoperand)

theorem alike_apply : Alike (apply read) (apply read) respelling.Trees := by
  refine afterTakeWhen ?_ fun _ _ schema hop _ => ?_
  · refine afterTakeWhen (alike_chain hread .apply) fun _ _ schema hop _ => ?_
    apply (hread (.at .apply)).bind
    intro left left' hleft
    exact (hread (.at .apply)).bind fun _ _ hright => alike_pure (.binary hop schema hleft hright)
  · exact (hread (.at .apply)).bind fun _ _ hoperand => alike_pure (.unary hop schema hoperand)

theorem alike_diceMore {left left' : Expr} (hleft : respelling.Trees left left') :
    Alike (diceMore read left) (diceMore read left') respelling.Trees := by
  refine afterTakeWhen (alike_pure hleft) fun _ _ schema hop _ => ?_
  cases schema with
  | some schema =>
    apply (hread (.at .die)).bind
    intro right right' hright
    exact hread (.more .dice (.binary hop schema hleft hright))
  | none =>
    apply (hread (.at .die)).bind
    intro right right' hright
    cases hleft with
    | var hname _ => exact hread (.more .dice (.var hname hright))
    | _ => exact alike_fail _

theorem alike_die : Alike (die read) (die read) respelling.Trees := by
  refine afterTakeWhen (hread (.at .primary)) fun _ _ schema hop _ => ?_
  exact (hread (.at .die)).bind fun _ _ hoperand => alike_pure (.unary hop schema hoperand)

omit hread in
theorem alike_probability {op op' : Token} (hop : respelling.token op op') :
    Alike (probability op) (probability op') respelling.Trees := by
  apply (alike_expect .real _).bind
  intro t t' ht
  exact alike_pure (.unary hop _ (trees_ofLiteral .real ht.1))

theorem alike_call : Alike (call read fuel) (call read fuel) respelling.Trees := by
  apply (alike_identifier _).bind
  intro name name' hname
  refine (alike_expect .leftParen _).bind fun _ _ _ => ?_
  apply (alike_enclosed (hread (.at .expression)) fuel _ _).bind
  intro r r' harguments
  rw [hname]
  exact alike_pure (.call trivial harguments)

theorem alike_group : Alike (group read) (group read) respelling.Trees := by
  apply (hread (.at .expression)).bind
  intro inner inner' hinner
  exact (alike_expect .rightParen _).bind fun _ _ _ => alike_pure (.group hinner)

theorem alike_collection : Alike (collection read fuel) (collection read fuel) respelling.Trees := by
  apply (alike_enclosed (hread (.at .expression)) fuel _ _).bind
  intro r r' helements
  exact alike_pure (.collection helements)

theorem alike_tuple : Alike (tuple read fuel) (tuple read fuel) respelling.Trees := by
  apply (alike_enclosed (hread (.at .expression)) fuel _ _).bind
  rintro ⟨elements, closing⟩ ⟨elements', closing'⟩ helements
  have hlength : elements.length = elements'.length := helements.length_eq
  have hsize : Alike (throw (.problem ⟨.tupleSize elements.length, closing.position⟩) : Read Expr)
      (throw (.problem ⟨.tupleSize elements'.length, closing'.position⟩)) respelling.Trees := by
    rw [hlength]
    exact alike_problem _ _ _
  cases helements with
  | nil => exact hsize
  | cons ha hrest =>
    cases hrest with
    | nil => exact hsize
    | cons hb hrest =>
      cases hrest with
      | nil => exact alike_pure (.pair ha hb)
      | cons _ _ => exact hsize

theorem alike_primary : Alike (primary read fuel) (primary read fuel) respelling.Trees := by
  refine afterTakeWhen (alike_fail _) fun t t' opening ht hopening => ?_
  cases opening with
  | probability => exact alike_probability ht
  | call => exact alike_call hread fuel
  | name =>
    have hkind : t.kind = .identifier := by
      revert hopening
      cases t.kind <;> simp [opening?]
    have hname : t.lexeme = t'.lexeme := ht.1.name hkind
    simp only [hname]
    exact alike_pure (.var trivial .missing)
  | text => exact alike_pure (trees_ofLiteral .text ht)
  | number => exact alike_pure (trees_ofLiteral .number ht)
  | group => exact alike_group hread
  | collection => exact alike_collection hread fuel
  | tuple => exact alike_tuple hread fuel

/-- One step towards a goal on respelt tokens, if further goals are reached alike. -/
theorem alike_step {goal goal' : Goal} (hgoal : Goals goal goal') :
    Alike (step read fuel goal) (step read fuel goal') respelling.Trees := by
  cases hgoal with
  | «at» level =>
    cases level with
    | expression => exact alike_expression hread
    | range => exact alike_range hread
    | negate => exact alike_negate hread
    | apply => exact alike_apply hread
    | die => exact alike_die hread
    | primary => exact alike_primary hread fuel
    | _ => exact alike_chain hread _
  | more level h =>
    cases level with
    | dice => exact alike_diceMore hread h
    | _ => exact alike_chainMore hread _ h

end

theorem alike_readGoal (fuel : Nat) {goal goal' : Goal} (hgoal : Goals goal goal') :
    Alike (readGoal fuel goal) (readGoal fuel goal') respelling.Trees := by
  induction fuel generalizing goal goal' with
  | zero => exact alike_outOfFuel
  | succ fuel ih => exact alike_step ih fuel hgoal

end Ladder

namespace Script

open Read Ladder

variable {known known' : Table Name Expr}

theorem find?_respelt (h : List.Forall₂ RespeltEntry known known') (name : Name) :
    Option.Rel respelling.Trees (known.find? name) (known'.find? name) := by
  induction h with
  | nil => exact .none
  | cons hentry _ ih =>
    rw [Table.find?, Table.find?, hentry.name]
    split
    · exact .some hentry.tree
    · exact ih

theorem isSome_eq_of_rel {α β : Type} {R : α → β → Prop} {a : Option α} {b : Option β}
    (h : Option.Rel R a b) : a.isSome = b.isSome := by
  cases h with
  | none => rfl
  | some _ => rfl

theorem insert_respelt (h : List.Forall₂ RespeltEntry known known') (name : Name) {e e' : Expr}
    (he : respelling.Trees e e') :
    List.Forall₂ RespeltEntry (known.insert name e) (known'.insert name e') := by
  induction h with
  | nil => exact .cons ⟨rfl, he⟩ .nil
  | cons hfirst hrest ih =>
    rw [Table.insert, Table.insert, hfirst.name]
    split
    · exact .cons ⟨rfl, he⟩ hrest
    · exact .cons ⟨rfl, hfirst.tree⟩ ih

theorem alike_readFunction (fuel : Nat) : Alike (readFunction fuel) (readFunction fuel) RespeltEntry := by
  apply (alike_identifier _).bind
  intro name name' hname
  refine (alike_expect .leftParen _).bind fun _ _ _ => ?_
  apply (alike_enclosed (alike_identifier _) fuel _ _).bind
  rintro ⟨parameters, closing⟩ ⟨parameters', closing'⟩ hparameters
  refine (alike_expect .equal _).bind fun _ _ _ => ?_
  apply (alike_readGoal fuel (.at .expression)).bind
  intro body body' hbody
  have hnames : parameters.map (·.lexeme) = parameters'.map (·.lexeme) := by
    rw [← List.forall₂_eq_eq_eq, List.forall₂_map_left_iff, List.forall₂_map_right_iff]
    exact hparameters
  rw [hname, hnames]
  exact alike_pure ⟨rfl, .function _ _ hbody⟩

theorem alike_readFunctions (fuel rounds : Nat) (h : List.Forall₂ RespeltEntry known known') :
    Alike (readFunctions fuel rounds known) (readFunctions fuel rounds known')
      (List.Forall₂ RespeltEntry) := by
  induction rounds generalizing known known' with
  | zero => exact alike_outOfFuel
  | succ rounds ih =>
    apply (alike_take? .wordFunction).bind
    intro taken taken' htaken
    cases htaken with
    | none => exact alike_pure h
    | some _ =>
      apply (alike_readFunction fuel).bind
      rintro ⟨name, definition⟩ ⟨name', definition'⟩ hentry
      obtain rfl : name = name' := hentry.name
      have hfound : (known.find? name).isSome = (known'.find? name).isSome :=
        isSome_eq_of_rel (find?_respelt h name)
      dsimp only
      rw [hfound]
      split
      · exact alike_fail _
      · exact ih (insert_respelt h name hentry.tree)

theorem alike_readScript (fuel : Nat) : Alike (readScript fuel) (readScript fuel) Script.Respelt := by
  apply (alike_readFunctions fuel fuel .nil).bind
  intro before before' hbefore
  apply (alike_readGoal fuel (.at .expression)).bind
  intro expression expression' hexpression
  apply (alike_readFunctions fuel fuel hbefore).bind
  intro functions functions' hfunctions
  apply alike_peek.bind
  intro t t' ht
  rw [ht.1.kind]
  split
  · exact alike_pure ⟨hexpression, hfunctions⟩
  · exact alike_fail _

/-- Respelt tokens stand for respelt scripts, or for none. -/
theorem ofTokens_respelt {tokens tokens' : List Token} (h : List.Forall₂ respelling.token tokens tokens') :
    Meets Script.Respelt (ofTokens tokens) (ofTokens tokens') := by
  have hread := alike_readScript (enoughFuel tokens) tokens tokens' h
  have hfuel : enoughFuel tokens' = enoughFuel tokens := by rw [enoughFuel, enoughFuel, h.length_eq]
  unfold ofTokens
  rw [hfuel]
  exact hread.map fun _ _ h => h.1

end Script

end DiceScript
