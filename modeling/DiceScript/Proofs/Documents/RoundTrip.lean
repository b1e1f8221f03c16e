import DiceScript.Document.Reader
import DiceScript.Proofs.Grammar.Trees

/-!
# Documents give back what they were made from

A tree that is written as a document and read again is the same tree: every node with its children in order,
every token with its five fields, every value with its items as they were stored. The one thing that may be
lost is content of the wrong sort: a literal that is the form of no value is given back only if its reals are
reals, since a document reads them as numbers. `isKept` says this, and it is exact. A script is given back with
its functions in their order, if they are entered under their own names.
-/

namespace DiceScript

def Form.ofValue : Value → Form
  | .collection c => .collection (c.map .integer)
  | .real x => .real (.real x)
  | .text s => .text (.text s)
  | .pair a b => .pair (ofValue a) (ofValue b)

/-- Whether the reals of a form are reals. -/
def Form.isKept : Form → Bool
  | .collection _ | .text _ => true
  | .real (.real _) => true
  | .real _ => false
  | .pair a b => a.isKept && b.isKept

theorem Form.toValue?_ofValue (v : Value) : (Form.ofValue v).toValue? = some v := by
  induction v with
  | collection c =>
    have hitems : (c.map Json.integer).mapM Form.number? = some c := by
      induction c with
      | nil => rfl
      | cons n c ih => simp [Form.number?, ih]
    simp [ofValue, toValue?, hitems]
  | real x => rfl
  | text s => rfl
  | pair a b iha ihb => simp [ofValue, toValue?, iha, ihb]

theorem Form.isKept_ofValue (v : Value) : (Form.ofValue v).isKept = true := by
  induction v with
  | collection c => rfl
  | real x => rfl
  | text s => rfl
  | pair a b iha ihb => simp [ofValue, isKept, iha, ihb]

namespace Expr

mutual

/-- Whether a document keeps a tree as it is. All that matters are literals that are the form of no value. -/
def isKept : Expr → Bool
  | .missing | .literal _ => true
  | .misfit form => form.toValue?.isNone && form.isKept
  | .var _ fallback => fallback.isKept
  | .binary left _ _ right => left.isKept && right.isKept
  | .unary _ _ operand => operand.isKept
  | .conditional c t f => c.isKept && t.isKept && f.isKept
  | .foreach _ source body => source.isKept && body.isKept
  | .loop _ _ body _ test => body.isKept && test.isKept
  | .binding _ definition use => definition.isKept && use.isKept
  | .call _ arguments => allKept arguments
  | .collection elements => allKept elements
  | .pair first second => first.isKept && second.isKept
  | .group inner => inner.isKept
  | .function _ _ body => body.isKept

def allKept : List Expr → Bool
  | [] => true
  | e :: rest => e.isKept && allKept rest

end

theorem allKept_iff {es : List Expr} : allKept es = true ↔ ∀ e ∈ es, e.isKept = true := by
  induction es with
  | nil => simp [allKept]
  | cons e es ih => simp [allKept, ih]

end Expr

/-- A script whose functions are entered under their own names, each name once and fit to be one. -/
structure Script.Keyed (s : Script) : Prop where
  own : ∀ entry ∈ s.functions, entry.2.name? = some entry.1
  once : s.functions.names.Nodup
  plain : ∀ name ∈ s.functions.names, name.isCompound = false

def Script.isKept (s : Script) : Bool :=
  s.expression.isKept && Expr.allKept (s.functions.map Prod.snd)

namespace Document

@[simp] theorem bind_eq_ok_iff {α β : Type} {x : Except Error α} {f : α → Except Error β} {b : β} :
    (x >>= f) = .ok b ↔ ∃ a, x = .ok a ∧ f a = .ok b := by
  cases x <;> simp [bind, Except.bind]

@[simp] theorem map_eq_ok_iff {α β : Type} {x : Except Error α} {f : α → β} {b : β} :
    f <$> x = .ok b ↔ ∃ a, x = .ok a ∧ f a = b := by
  cases x <;> simp [Functor.map, Except.map]

theorem toToken_ofToken (t : Token) : toToken (ofToken t) = .ok t := by
  have hkind : tokenKind (.text t.kind.name) = .ok t.kind := by
    simp [tokenKind, Kind.ofName?_name]
  have hread : toToken (ofToken t) =
      (do let kind ← tokenKind (.text t.kind.name); pure ⟨⟨kind, t.lexeme, t.literal⟩, t.position⟩) := rfl
  rw [hread, hkind]
  rfl

theorem choice_binarySchema (schema : BinarySchema) :
    choice .binarySchema BinarySchema.all BinarySchema.name (.text schema.name) = .ok schema := by
  cases schema <;> rfl

theorem choice_unarySchema (schema : UnarySchema) :
    choice .unarySchema UnarySchema.all UnarySchema.name (.text schema.name) = .ok schema := by
  cases schema <;> rfl

theorem choice_endStyle (style : EndStyle) :
    choice .endStyle EndStyle.all EndStyle.name (.text style.name) = .ok style := by
  cases style <;> rfl

theorem mapM_attach {α : Type} (f : Json → Except Error α) (items : List Json) :
    items.attach.mapM (fun item => f item.1) = items.mapM f := by
  rw [List.mapM_subtype fun _ _ => rfl, List.unattach_attach]

theorem ofForm_ofValue (v : Value) : ofForm (Form.ofValue v) = ofValue v := by
  induction v with
  | collection c => rfl
  | real x => rfl
  | text s => rfl
  | pair a b iha ihb => simp [Form.ofValue, ofForm, ofValue, iha, ihb]

theorem toForm_ofForm_iff (form : Form) : toForm (ofForm form) = .ok form ↔ form.isKept = true := by
  induction form with
  | collection items =>
    rw [ofForm, toForm]
    exact ⟨fun _ => rfl, fun _ => rfl⟩
  | real content =>
    have hread : toForm (ofForm (.real content)) = (do let x ← toReal content; pure (.real (.real x))) := by
      rw [ofForm, toForm]
      rfl
    cases content <;> simp [hread, Form.isKept, toReal]
  | text content =>
    rw [ofForm, toForm]
    exact ⟨fun _ => rfl, fun _ => rfl⟩
  | pair a b iha ihb =>
    have hread : toForm (ofForm (.pair a b)) =
        (do let a ← toForm (ofForm a); let b ← toForm (ofForm b); pure (.pair a b)) := by
      rw [ofForm, toForm]
      rfl
    simp [hread, Form.isKept, iha, ihb]

theorem toForm_ofValue (v : Value) : toForm (ofValue v) = .ok (Form.ofValue v) := by
  rw [← ofForm_ofValue, toForm_ofForm_iff]
  exact Form.isKept_ofValue v

/-! What the document of a node is read as, by what those of the nodes right below it are read as. -/

theorem toExpr_object (m : Members) : toExpr (.object m) = readObject fun part : Part m => toExpr part.1 := by
  rw [toExpr]

section

variable (name : Name)

theorem toExpr_ofExpr_missing : toExpr (ofExpr .missing) = .ok .missing := by
  rw [ofExpr, toExpr]

theorem toExpr_ofExpr_literal (v : Value) : toExpr (ofExpr (.literal v)) = .ok (.literal v) := by
  have hread : toExpr (ofExpr (.literal v)) = Expr.ofForm <$> toForm (ofValue v) :=
    toExpr_object _
  simp [hread, toForm_ofValue, Expr.ofForm, Form.toValue?_ofValue]

theorem toExpr_ofExpr_misfit (form : Form) :
    toExpr (ofExpr (.misfit form)) = Expr.ofForm <$> toForm (ofForm form) :=
  toExpr_object _

theorem toExpr_ofExpr_var (fallback : Expr) :
    toExpr (ofExpr (.var name fallback)) = Expr.var name <$> toExpr (ofExpr fallback) :=
  toExpr_object _

theorem toExpr_ofExpr_binary (left : Expr) (op : Token) (schema : BinarySchema) (right : Expr) :
    toExpr (ofExpr (.binary left op schema right)) =
      (do let left ← toExpr (ofExpr left); let right ← toExpr (ofExpr right); pure (.binary left op schema right)) := by
  have hread : toExpr (ofExpr (.binary left op schema right)) =
      (do let left ← toExpr (ofExpr left); let op ← toToken (ofToken op)
          let schema ← choice .binarySchema BinarySchema.all BinarySchema.name (.text schema.name)
          let right ← toExpr (ofExpr right); pure (.binary left op schema right)) :=
    toExpr_object _
  rw [hread, toToken_ofToken, choice_binarySchema]
  rfl

theorem toExpr_ofExpr_unary (op : Token) (schema : UnarySchema) (operand : Expr) :
    toExpr (ofExpr (.unary op schema operand)) = Expr.unary op schema <$> toExpr (ofExpr operand) := by
  have hread : toExpr (ofExpr (.unary op schema operand)) =
      (do let op ← toToken (ofToken op)
          let schema ← choice .unarySchema UnarySchema.all UnarySchema.name (.text schema.name)
          let operand ← toExpr (ofExpr operand); pure (.unary op schema operand)) :=
    toExpr_object _
  rw [hread, toToken_ofToken, choice_unarySchema]
  rfl

theorem toExpr_ofExpr_conditional (c t f : Expr) :
    toExpr (ofExpr (.conditional c t f)) =
      (do let c ← toExpr (ofExpr c); let t ← toExpr (ofExpr t); let f ← toExpr (ofExpr f)
          pure (.conditional c t f)) :=
  toExpr_object _

theorem toExpr_ofExpr_foreach (source body : Expr) :
    toExpr (ofExpr (.foreach name source body)) =
      (do let source ← toExpr (ofExpr source); let body ← toExpr (ofExpr body); pure (.foreach name source body)) :=
  toExpr_object _

theorem toExpr_ofExpr_loop (mode : LoopMode) (body : Expr) (style : EndStyle) (test : Expr) :
    toExpr (ofExpr (.loop mode name body style test)) =
      (do let body ← toExpr (ofExpr body); let test ← toExpr (ofExpr test)
          pure (.loop mode name body style test)) := by
  have hread : toExpr (ofExpr (.loop mode name body style test)) =
      (do let body ← toExpr (ofExpr body)
          let style ← choice .endStyle EndStyle.all EndStyle.name (.text style.name)
          let test ← toExpr (ofExpr test); pure (.loop mode name body style test)) := by
    cases mode <;> exact toExpr_object _
  rw [hread, choice_endStyle]
  rfl

theorem toExpr_ofExpr_binding (definition use : Expr) :
    toExpr (ofExpr (.binding name definition use)) =
      (do let definition ← toExpr (ofExpr definition); let use ← toExpr (ofExpr use)
          pure (.binding name definition use)) :=
  toExpr_object _

theorem toExpr_ofExpr_call (arguments : List Expr) :
    toExpr (ofExpr (.call name arguments)) = Expr.call name <$> (ofExprs arguments).mapM toExpr := by
  rw [← mapM_attach]
  exact toExpr_object _

theorem toExpr_ofExpr_collection (elements : List Expr) :
    toExpr (ofExpr (.collection elements)) = Expr.collection <$> (ofExprs elements).mapM toExpr := by
  rw [← mapM_attach]
  exact toExpr_object _

theorem toExpr_ofExpr_pair (first second : Expr) :
    toExpr (ofExpr (.pair first second)) =
      (do let first ← toExpr (ofExpr first); let second ← toExpr (ofExpr second); pure (.pair first second)) :=
  toExpr_object _

theorem toExpr_ofExpr_group (inner : Expr) :
    toExpr (ofExpr (.group inner)) = Expr.group <$> toExpr (ofExpr inner) :=
  toExpr_object _

theorem toExpr_ofExpr_function (parameters : List Name) (body : Expr) :
    toExpr (ofExpr (.function name parameters body)) = Expr.function name parameters <$> toExpr (ofExpr body) :=
  toExpr_object _

end

theorem toExpr_conditional_iff {c t f : Expr} :
    toExpr (ofExpr (.conditional c t f)) = .ok (.conditional c t f) ↔
      toExpr (ofExpr c) = .ok c ∧ toExpr (ofExpr t) = .ok t ∧ toExpr (ofExpr f) = .ok f := by
  rw [toExpr_ofExpr_conditional]
  constructor
  · intro h
    simp only [bind_eq_ok_iff] at h
    obtain ⟨_, hc, _, ht, _, hf, ⟨⟩⟩ := h
    exact ⟨hc, ht, hf⟩
  · rintro ⟨hc, ht, hf⟩
    rw [hc, ht, hf]
    rfl

theorem toExpr_misfit_iff (form : Form) :
    toExpr (ofExpr (.misfit form)) = .ok (.misfit form) ↔ (Expr.misfit form).isKept = true := by
  simp only [toExpr_ofExpr_misfit, map_eq_ok_iff, Expr.isKept, Bool.and_eq_true, Option.isNone_iff_eq_none]
  constructor
  · rintro ⟨found, hfound, hmisfit⟩
    unfold Expr.ofForm at hmisfit
    split at hmisfit
    · cases hmisfit
    · next hnone =>
      cases hmisfit
      exact ⟨hnone, (toForm_ofForm_iff form).1 hfound⟩
  · rintro ⟨hnone, hkept⟩
    refine ⟨form, (toForm_ofForm_iff form).2 hkept, ?_⟩
    rw [Expr.ofForm, hnone]

theorem mapM_toExpr_iff {es : List Expr} (h : ∀ e ∈ es, toExpr (ofExpr e) = .ok e ↔ e.isKept = true) :
    (ofExprs es).mapM toExpr = .ok es ↔ Expr.allKept es = true := by
  induction es with
  | nil => exact ⟨fun _ => rfl, fun _ => rfl⟩
  | cons e es ih =>
    obtain ⟨he, hes⟩ := List.forall_mem_cons.1 h
    simp [ofExprs, Expr.allKept, he, ih hes]

/-- A tree is given back if its document keeps it, and only then. -/
theorem toExpr_ofExpr_iff (e : Expr) : toExpr (ofExpr e) = .ok e ↔ e.isKept = true := by
  induction e using Expr.children_induction with
  | h e ih =>
    cases e with
    | missing => simp [toExpr_ofExpr_missing, Expr.isKept]
    | literal v => simp [toExpr_ofExpr_literal, Expr.isKept]
    | misfit form => exact toExpr_misfit_iff form
    | call name arguments =>
      have hmap : (ofExprs arguments).mapM toExpr = .ok arguments ↔ Expr.allKept arguments = true := mapM_toExpr_iff ih
      simp [toExpr_ofExpr_call, Expr.isKept, hmap]
    | collection elements =>
      have hmap : (ofExprs elements).mapM toExpr = .ok elements ↔ Expr.allKept elements = true := mapM_toExpr_iff ih
      simp [toExpr_ofExpr_collection, Expr.isKept, hmap]
    | var | unary | group | function =>
      simp_all [Expr.children, Expr.isKept, toExpr_ofExpr_var, toExpr_ofExpr_unary, toExpr_ofExpr_group,
        toExpr_ofExpr_function]
    | binary | foreach | loop | binding | pair =>
      simp_all [Expr.children, Expr.isKept, toExpr_ofExpr_binary, toExpr_ofExpr_foreach, toExpr_ofExpr_loop,
        toExpr_ofExpr_binding, toExpr_ofExpr_pair]
    | conditional => simp_all [Expr.children, Expr.isKept, toExpr_conditional_iff, and_assoc]

/-- The entries of a table are found again from its functions. -/
theorem mapM_functionEntry {functions : Table Name Expr}
    (hown : ∀ entry ∈ functions, entry.2.name? = some entry.1)
    (hplain : ∀ name ∈ functions.names, name.isCompound = false) :
    (functions.map Prod.snd).mapM functionEntry = .ok functions := by
  induction functions with
  | nil => rfl
  | cons entry rest ih =>
    obtain ⟨hentry, hrest⟩ := List.forall_mem_cons.1 hown
    obtain ⟨hname, hnames⟩ := List.forall_mem_cons.1 hplain
    have hfirst : functionEntry entry.2 = .ok entry := by
      simp [functionEntry, hentry, hname]
    simp [hfirst, ih hrest hnames]

theorem toScript_of_isKept {s : Script} (hkeyed : s.Keyed) (hkept : s.isKept = true) :
    toScript (ofScript s) = .ok s := by
  obtain ⟨hexpression, hfunctions⟩ := Bool.and_eq_true_iff.1 hkept
  have hread : toScript (ofScript s) =
      (do let nodes ← (ofExprs (s.functions.map Prod.snd)).mapM toExpr
          let expression ← toExpr (ofExpr s.expression)
          let entries ← nodes.mapM functionEntry
          pure ⟨expression, Table.ofList entries⟩) := rfl
  rw [hread, (mapM_toExpr_iff fun e _ => toExpr_ofExpr_iff e).2 hfunctions, (toExpr_ofExpr_iff _).2 hexpression]
  simp [mapM_functionEntry hkeyed.own hkeyed.plain, Table.ofList_of_nodup _ hkeyed.once]

/-- Whatever tree is written as a document, reading the document gives back that tree, unless the tree holds a
literal that is the form of no value and that a document does not keep. Such a literal has a real whose content
is no real, or a value has its form after all. A script is given back as it is, with its functions in their
order, if they are entered under their own names. -/
theorem toScript_ofScript :
    (∀ e : Expr, toExpr (ofExpr e) = .ok e ↔ e.isKept = true) ∧
      ∀ s : Script, s.Keyed → s.isKept = true → toScript (ofScript s) = .ok s :=
  ⟨toExpr_ofExpr_iff, fun _ => toScript_of_isKept⟩

/-- A function without a body, a call with a missing argument, and a pair of an unsorted collection and a real. -/
theorem toScript_ofScript_pair :
    let plus : Token := ⟨⟨.plus, .text "+", .null⟩, ⟨.integer 1, .integer 4⟩⟩
    let script : Script :=
      ⟨.binary (.call (.text "f") [.missing]) plus .deferred
        (.literal (.pair (.collection [3, 1]) (.real (.infinite true)))),
       [(.text "g", .function (.text "g") [.text "x"] .missing),
        (.text "f", .loop .accumulated (.text "f") .missing .whileTrue (.misfit (.collection [.null])))]⟩
    script.Keyed ∧ script.isKept = true ∧ toScript (ofScript script) = .ok script := by
  intro plus script
  have hkeyed : script.Keyed := ⟨by decide, by decide, by decide⟩
  exact ⟨hkeyed, by decide, toScript_ofScript.2 script hkeyed (by decide)⟩

end Document

end DiceScript
