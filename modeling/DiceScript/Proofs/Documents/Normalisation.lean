import DiceScript.Proofs.Documents.NormalForm

/-!
# A document that is read and written again

Whatever a document is read as, it is written again as the normal form of that document. `Only` says that all results of
a reader have a property, and there is one rule for each way to build a reader, so that each node comes down to the
list of its members. What a document lists as functions goes through the table of the script, which keeps one function
for each name.
-/

namespace DiceScript

namespace Document

def Only {α : Type} (x : Except Error α) (P : α → Prop) : Prop :=
  ∀ a, x = .ok a → P a

section

variable {α β γ : Type} {x : Except Error α} {f : α → Except Error β} {P : β → Prop} {Q : α → Prop} {m : Members}
  {key : String}

theorem only_ok {b : β} (h : P b) : Only (.ok b) P := by
  intro b' hb'
  cases hb'
  exact h

theorem only_error (e : Error) : Only (.error e) P := by
  intro b hb
  cases hb

theorem only_self (x : Except Error α) : Only x (fun a => x = .ok a) :=
  fun _ h => h

theorem Only.bind (hx : Only x Q) (hf : ∀ a, Q a → Only (f a) P) : Only (x >>= f) P := by
  cases x with
  | ok a => exact hf a (hx a rfl)
  | error e => exact only_error e

theorem Only.require {f : Part m → Except Error β} (hf : ∀ part, m.find? key = some part.1 → Only (f part) P) :
    Only (require m key >>= f) P := by
  unfold Document.require
  split
  · next part hfound => exact hf ⟨part, sizeOf_find? hfound⟩ hfound
  · exact only_error _

/-- What is found by its name is written as this name. -/
theorem gives_name {all : List α} {name : α → String} {text : String} {a : α}
    (h : all.find? (fun a => name a = text) = some a) : Slot.data.Gives (.text text) (.text (name a)) := by
  have hname := List.find?_some h
  rw [← of_decide_eq_true hname]
  exact gives_data _

theorem only_choice (family : Family) (all : List α) (name : α → String) (j : Json) :
    Only (choice family all name j) fun a => Slot.data.Gives j (.text (name a)) := by
  unfold choice
  split
  · split
    · next hfound => exact only_ok (gives_name hfound)
    · exact only_error _
  · exact only_error _

theorem only_tokenKind (j : Json) : Only (tokenKind j) fun kind => Slot.data.Gives j (.text kind.name) := by
  unfold tokenKind
  split
  · split
    · next hfound => exact only_ok (gives_name hfound)
    · exact only_error _
  all_goals exact only_error _

theorem only_toToken (j : Json) : Only (toToken j) fun t => Slot.token.Gives j (ofToken t) := by
  unfold toToken
  split
  · refine .require fun _ hkind => (only_tokenKind _).bind fun kind hgives => .require fun _ hlexeme => only_ok ?_
    refine Written.gives (.cons rfl hkind hgives (.cons rfl hlexeme (gives_data _) ?_)) rfl
    exact .optional rfl rfl (.optional rfl rfl (.optional rfl rfl .nil))
  · exact only_error _

theorem only_listed (j : Json) : Only (listed j) fun items => Slot.list.Gives j (.array items) := by
  intro items h hfits
  cases j with
  | array _ =>
    cases h
    rfl
  | _ => cases hfits

theorem only_toReal (j : Json) : Only (toReal j) fun x => Slot.real.Gives j (.real x) := by
  intro x h hfits
  cases j with
  | real _ =>
    cases h
    rfl
  | _ => cases hfits

/-- A form is written as the normal form of what it was read from, and a document keeps it. -/
theorem only_toForm (j : Json) :
    Only (toForm j) fun form => Slot.value.Gives j (ofForm form) ∧ form.isKept = true := by
  unfold toForm
  split
  · next m =>
    split
    · next htag =>
      refine .require fun _ hvalues => (only_listed _).bind fun items hitems => only_ok ⟨?_, rfl⟩
      exact gives_value htag (.cons rfl hvalues hitems .nil)
    · next htag =>
      refine .require fun _ hvalue => (only_toReal _).bind fun x hx => only_ok ⟨?_, rfl⟩
      exact gives_value htag (.cons rfl hvalue hx .nil)
    · next htag =>
      refine .require fun _ hvalue => only_ok ⟨?_, rfl⟩
      exact gives_value htag (.cons rfl hvalue (gives_data _) .nil)
    · next htag =>
      refine .require fun first hfirst => (only_toForm first.1).bind fun a ha => ?_
      refine .require fun second hsecond => (only_toForm second.1).bind fun b hb => only_ok ⟨?_, ?_⟩
      · exact gives_value htag (.cons rfl hfirst ha.1 (.cons rfl hsecond hb.1 .nil))
      · simp [Form.isKept, ha.2, hb.2]
    · exact only_error _
  · exact only_error _
termination_by sizeOf j
decreasing_by
  all_goals
    have := first.2
    subst_vars
    simp
    omega

end

theorem eq_map_integer {items : List Json} {c : Collection} (h : items.mapM Form.number? = some c) :
    items = c.map Json.integer := by
  induction items generalizing c with
  | nil =>
    cases h
    rfl
  | cons item items ih =>
    rw [List.mapM_cons] at h
    simp only [Option.bind_eq_bind, Option.bind_eq_some_iff] at h
    obtain ⟨n, hn, rest, hrest, hc⟩ := h
    cases hc
    rw [List.map_cons, ih hrest]
    cases item <;> cases hn
    rfl

/-- A value is written as its form is. -/
theorem ofForm_of_toValue? {form : Form} {v : Value} (h : form.toValue? = some v) : ofForm form = ofValue v := by
  induction form generalizing v with
  | collection items =>
    obtain ⟨c, hc, rfl⟩ := Option.map_eq_some_iff.1 h
    rw [ofForm, ofValue, eq_map_integer hc]
  | real content =>
    cases content <;> cases h
    rfl
  | text content =>
    cases content <;> cases h
    rfl
  | pair first second ihfirst ihsecond =>
    simp only [Form.toValue?, Option.bind_eq_bind, Option.bind_eq_some_iff] at h
    obtain ⟨a, ha, b, hb, h⟩ := h
    cases h
    rw [ofForm, ofValue, ihfirst ha, ihsecond hb]

theorem ofExpr_ofForm (form : Form) :
    ofExpr (.ofForm form) = .object [("type", .text "Literal"), ("value", ofForm form)] := by
  unfold Expr.ofForm
  cases hvalue : form.toValue? with
  | none => rw [ofExpr]
  | some v => rw [ofExpr, ofForm_of_toValue? hvalue]

theorem isKept_ofForm {form : Form} (h : form.isKept = true) : (Expr.ofForm form).isKept = true := by
  unfold Expr.ofForm
  cases hvalue : form.toValue? with
  | none => simp [Expr.isKept, hvalue, h]
  | some v => rfl

/-- A tree is written as the normal form of the data, and a document keeps it. -/
def Faithful (j : Json) (e : Expr) : Prop :=
  Slot.node.Gives j (ofExpr e) ∧ e.isKept = true

/-- Nodes are written as the normal forms of the data that they were read from. -/
theorem only_nodes {α : Type} {items : List α} {data : α → Json} {read : α → Except Error Expr}
    (h : ∀ item ∈ items, Only (read item) (Faithful (data item))) :
    Only (items.mapM read) fun es =>
      (Slot.fitNodes (items.map data) = true → Slot.tidiedNodes (items.map data) = ofExprs es) ∧
        Expr.allKept es = true := by
  induction items with
  | nil => exact only_ok ⟨fun _ => rfl, rfl⟩
  | cons item rest ih =>
    obtain ⟨hitem, hrest⟩ := List.forall_mem_cons.1 h
    rw [List.mapM_cons, List.map_cons]
    refine hitem.bind fun e he => (ih hrest).bind fun es hes => only_ok ⟨fun hfits => ?_, ?_⟩
    · rw [Slot.fitNodes, Bool.and_eq_true] at hfits
      rw [Slot.tidiedNodes, ofExprs, he.1 hfits.1, hes.1 hfits.2]
    · simp [Expr.allKept, he.2, hes.2]

theorem Only.requireNodes {β : Type} {P : β → Prop} {m : Members} {key : String}
    {f : { items : List Json // ∀ item ∈ items, sizeOf item < sizeOf m } → Except Error β}
    (hf : ∀ nodes part, m.find? key = some part → (Slot.nodes.fits part = true → part = .array nodes.1) →
      Only (f nodes) P) : Only (requireNodes m key >>= f) P := by
  unfold Document.requireNodes
  rw [bind_assoc]
  refine .require ?_
  rintro ⟨part, hsmaller⟩ hfound
  cases part with
  | array items => exact hf _ _ hfound fun _ => rfl
  | _ =>
    intro b hb
    rw [bind_eq_ok_iff] at hb
    obtain ⟨nodes, -, hb⟩ := hb
    exact hf nodes _ hfound (fun hfits => by cases hfits) b hb

theorem find?_eq_none_of_optional {m : Members} {key : String} (h : optional m key = none) : m.find? key = none := by
  unfold optional at h
  split at h
  · cases h
  · next hfound => exact hfound

theorem loopWord_of_loopMode? {tag : String} {mode : LoopMode} (h : loopMode? tag = some mode) :
    tag = Expr.loopWord mode := by
  unfold loopMode? at h
  split at h <;> cases h
  all_goals rfl

theorem nodeFields_loopWord (mode : LoopMode) : nodeFields (Expr.loopWord mode) = nodeFields "Repeat" := by
  cases mode <;> rfl

theorem only_readLiteral {m : Members} (htag : tag? m "type" = some "Literal") :
    Only (readLiteral m) (Faithful (.object m)) := by
  refine .require fun _ hvalue => (only_toForm _).bind fun form hform => only_ok ⟨?_, isKept_ofForm hform.2⟩
  rw [ofExpr_ofForm]
  exact gives_node htag (.cons rfl hvalue hform.1 .nil)

section

variable {β : Type} {P : β → Prop} {m : Members} {node : Part m → Except Error Expr}
  (hnode : ∀ part, Only (node part) (Faithful part.1))
include hnode

theorem Only.readNode {key : String} {f : Expr → Except Error β}
    (hf : ∀ part e, m.find? key = some part → Faithful part e → Only (f e) P) : Only (readNode node key >>= f) P := by
  rw [Document.readNode, bind_assoc]
  exact .require fun part hfound => (hnode part).bind fun e he => hf part.1 e hfound he

theorem Only.readNodes {key : String} {f : List Expr → Except Error β}
    (hf : ∀ part es, m.find? key = some part → Slot.nodes.Gives part (.array (ofExprs es)) → Expr.allKept es = true →
      Only (f es) P) : Only (readNodes node key >>= f) P := by
  rw [Document.readNodes, bind_assoc]
  refine .requireNodes fun nodes part hfound hpart => ?_
  refine (only_nodes fun item _ => hnode _).bind fun es hes => hf part es hfound (fun hfits => ?_) hes.2
  obtain rfl := hpart hfits
  rw [List.attach_map_subtype_val] at hes
  exact congrArg Json.array (hes.1 hfits)

/-! Each node comes down to its members, in the order of its fields. -/

theorem only_readVariable (htag : tag? m "type" = some "Variable") :
    Only (readVariable node) (Faithful (.object m)) := by
  refine .require fun _ hname => ?_
  cases hdefault : optional m "default" with
  | none =>
    refine only_ok ⟨gives_node htag (.cons rfl hname (gives_data _) ?_), rfl⟩
    exact .absent (find?_eq_none_of_optional hdefault) rfl .nil
  | some part =>
    refine (hnode part).bind fun e he => only_ok ⟨gives_node htag (.cons rfl hname (gives_data _) ?_), he.2⟩
    exact .cons rfl (find?_of_optional hdefault) he.1 .nil

theorem only_readBinary (htag : tag? m "type" = some "Binary") : Only (readBinary node) (Faithful (.object m)) := by
  refine .readNode hnode fun _ left hleft hl => ?_
  refine .require fun _ hop => (only_toToken _).bind fun op ho => ?_
  refine .require fun _ hschema => (only_choice _ _ _ _).bind fun schema hs => ?_
  refine .readNode hnode fun _ right hright hr => only_ok ⟨?_, by simp [Expr.isKept, hl.2, hr.2]⟩
  refine gives_node htag (.cons rfl hleft hl.1 (.cons rfl hop ho ?_))
  exact .cons rfl hschema hs (.cons rfl hright hr.1 .nil)

theorem only_readUnary (htag : tag? m "type" = some "Unary") : Only (readUnary node) (Faithful (.object m)) := by
  refine .require fun _ hop => (only_toToken _).bind fun op ho => ?_
  refine .require fun _ hschema => (only_choice _ _ _ _).bind fun schema hs => ?_
  refine .readNode hnode fun _ operand hright hr => only_ok ⟨?_, hr.2⟩
  exact gives_node htag (.cons rfl hop ho (.cons rfl hschema hs (.cons rfl hright hr.1 .nil)))

theorem only_readConditional (htag : tag? m "type" = some "If") :
    Only (readConditional node) (Faithful (.object m)) := by
  refine .readNode hnode fun _ c hcondition hc => ?_
  refine .readNode hnode fun _ t htrue ht => ?_
  refine .readNode hnode fun _ f hfalse hf => only_ok ⟨?_, by simp [Expr.isKept, hc.2, ht.2, hf.2]⟩
  exact gives_node htag (.cons rfl hcondition hc.1 (.cons rfl htrue ht.1 (.cons rfl hfalse hf.1 .nil)))

theorem only_readForeach (htag : tag? m "type" = some "Foreach") : Only (readForeach node) (Faithful (.object m)) := by
  refine .require fun _ hname => .readNode hnode fun _ source hsource hs => ?_
  refine .readNode hnode fun _ body hbody hb => only_ok ⟨?_, by simp [Expr.isKept, hs.2, hb.2]⟩
  exact gives_node htag (.cons rfl hname (gives_data _) (.cons rfl hsource hs.1 (.cons rfl hbody hb.1 .nil)))

theorem only_readLoop {mode : LoopMode} (htag : tag? m "type" = some (Expr.loopWord mode)) :
    Only (readLoop node mode) (Faithful (.object m)) := by
  refine .require fun _ hname => .readNode hnode fun _ body hbody hb => ?_
  refine .require fun _ hstyle => (only_choice _ _ _ _).bind fun style hs => ?_
  refine .readNode hnode fun _ test htest ht => only_ok ⟨gives_node htag ?_, by simp [Expr.isKept, hb.2, ht.2]⟩
  rw [nodeFields_loopWord]
  exact .cons rfl hname (gives_data _) (.cons rfl hbody hb.1 (.cons rfl hstyle hs (.cons rfl htest ht.1 .nil)))

theorem only_readBinding (htag : tag? m "type" = some "Binding") : Only (readBinding node) (Faithful (.object m)) := by
  refine .require fun _ hname => .readNode hnode fun _ definition hdefinition hd => ?_
  refine .readNode hnode fun _ use huse hu => only_ok ⟨?_, by simp [Expr.isKept, hd.2, hu.2]⟩
  exact gives_node htag (.cons rfl hname (gives_data _) (.cons rfl hdefinition hd.1 (.cons rfl huse hu.1 .nil)))

theorem only_readCall (htag : tag? m "type" = some "FunctionCall") : Only (readCall node) (Faithful (.object m)) := by
  refine .require fun _ hname => .readNodes hnode fun _ arguments hfound ha hkept => only_ok ⟨?_, hkept⟩
  exact gives_node htag (.cons rfl hname (gives_data _) (.cons rfl hfound ha .nil))

theorem only_readCollection (htag : tag? m "type" = some "CollectionLiteral") :
    Only (readCollection node) (Faithful (.object m)) := by
  refine .readNodes hnode fun _ elements hfound he hkept => only_ok ⟨?_, hkept⟩
  exact gives_node htag (.cons rfl hfound he .nil)

theorem only_readPair (htag : tag? m "type" = some "TupleLiteral") : Only (readPair node) (Faithful (.object m)) := by
  refine .readNode hnode fun _ first hfirst ha => ?_
  refine .readNode hnode fun _ second hsecond hb => only_ok ⟨?_, by simp [Expr.isKept, ha.2, hb.2]⟩
  exact gives_node htag (.cons rfl hfirst ha.1 (.cons rfl hsecond hb.1 .nil))

theorem only_readGroup (htag : tag? m "type" = some "Group") : Only (readGroup node) (Faithful (.object m)) := by
  refine .readNode hnode fun _ inner hinner hi => only_ok ⟨?_, hi.2⟩
  exact gives_node htag (.cons rfl hinner hi.1 .nil)

theorem only_readFunction (htag : tag? m "type" = some "FunctionDefinition") :
    Only (readFunction node) (Faithful (.object m)) := by
  refine .require fun _ hname => .require fun _ hparameters => (only_listed _).bind fun parameters hp => ?_
  refine .readNode hnode fun _ body hbody hb => only_ok ⟨?_, hb.2⟩
  exact gives_node htag (.cons rfl hname (gives_data _) (.cons rfl hparameters hp (.cons rfl hbody hb.1 .nil)))

theorem only_readObject : Only (readObject node) (Faithful (.object m)) := by
  unfold readObject
  split
  · next htag => exact only_readLiteral htag
  · next htag => exact only_readVariable hnode htag
  · next htag => exact only_readBinary hnode htag
  · next htag => exact only_readUnary hnode htag
  · next htag => exact only_readConditional hnode htag
  · next htag => exact only_readForeach hnode htag
  · next htag => exact only_readBinding hnode htag
  · next htag => exact only_readCall hnode htag
  · next htag => exact only_readCollection hnode htag
  · next htag => exact only_readPair hnode htag
  · next htag => exact only_readGroup hnode htag
  · next htag => exact only_readFunction hnode htag
  · next htag =>
    split
    · next mode hmode =>
      rw [loopWord_of_loopMode? hmode] at htag
      exact only_readLoop hnode htag
    · exact only_error _
  · exact only_error _

end

/-- Whatever node is read, it is written again as the normal form of what it was read from. -/
theorem only_toExpr (j : Json) : Only (toExpr j) (Faithful j) := by
  rw [toExpr.eq_def]
  split
  · exact only_ok ⟨fun _ => rfl, rfl⟩
  · exact only_readObject fun part => only_toExpr part.1
  · exact only_error _
termination_by sizeOf j
decreasing_by
  have := part.2
  subst_vars
  simp
  omega

/-! The functions of a script. -/

theorem ofExprs_eq_map (es : List Expr) : ofExprs es = es.map ofExpr := by
  induction es with
  | nil => rfl
  | cons e es ih => rw [ofExprs, List.map_cons, ih]

theorem nameOf_ofExpr {e : Expr} {name : Name} (h : e.name? = some name) : nameOf (ofExpr e) = name := by
  cases e <;> cases h
  all_goals rw [ofExpr]; rfl

theorem entries_of_mapM {nodes : List Expr} {entries : Table Name Expr} (h : nodes.mapM functionEntry = .ok entries) :
    nodes = entries.map Prod.snd ∧ ∀ entry ∈ entries, entry.2.name? = some entry.1 ∧ entry.1.isCompound = false := by
  induction nodes generalizing entries with
  | nil =>
    cases h
    exact ⟨rfl, List.forall_mem_nil _⟩
  | cons node nodes ih =>
    rw [List.mapM_cons] at h
    simp only [bind_eq_ok_iff] at h
    obtain ⟨entry, hentry, rest, hrest, h⟩ := h
    cases h
    obtain ⟨hnodes, hnamed⟩ := ih hrest
    have hfirst : entry.2 = node ∧ node.name? = some entry.1 ∧ entry.1.isCompound = false := by
      unfold functionEntry at hentry
      split at hentry
      · next name hname =>
        split at hentry
        · cases hentry
        · next hplain =>
          cases hentry
          exact ⟨rfl, hname, by simpa using hplain⟩
      · cases hentry
    obtain ⟨rfl, hname⟩ := hfirst
    exact ⟨by rw [List.map_cons, hnodes], List.forall_mem_cons.2 ⟨hname, hnamed⟩⟩

theorem find?_ofExprs {entries : Table Name Expr} (h : ∀ entry ∈ entries, entry.2.name? = some entry.1) (name : Name) :
    ((ofExprs (entries.map Prod.snd)).find? fun node => nameOf node = name) = (entries.find? name).map ofExpr := by
  induction entries with
  | nil => rfl
  | cons entry entries ih =>
    obtain ⟨hentry, hrest⟩ := List.forall_mem_cons.1 h
    rw [List.map_cons, ofExprs, List.find?_cons, nameOf_ofExpr hentry, Table.find?]
    by_cases hit : entry.1 = name
    · simp [hit]
    · simpa [hit] using ih hrest

/-- Nodes are entered in a table as their documents are collapsed. -/
theorem collapsed_ofExprs {entries : Table Name Expr} (h : ∀ entry ∈ entries, entry.2.name? = some entry.1) :
    collapsed (ofExprs (entries.map Prod.snd)) = ofExprs ((Table.ofList entries).map Prod.snd) := by
  have hnames : (ofExprs (entries.map Prod.snd)).map nameOf = entries.names := by
    rw [ofExprs_eq_map, List.map_map, List.map_map]
    exact List.map_congr_left fun entry hentry => nameOf_ofExpr (h entry hentry)
  have hlast (name : Name) : ((ofExprs (entries.map Prod.snd)).reverse.find? fun node => nameOf node = name) =
      (Table.find? entries.reverse name).map ofExpr := by
    rw [ofExprs_eq_map, ← List.map_reverse, ← List.map_reverse, ← ofExprs_eq_map]
    exact find?_ofExprs (fun entry hentry => h entry (List.mem_reverse.1 hentry)) name
  rw [collapsed, hnames, Table.contents_ofList, ofExprs_eq_map (List.filterMap _ _), List.map_filterMap]
  simp only [hlast]

theorem gives_functions {part : Json} {parts : List Json} {entries : Table Name Expr}
    (hparts : listed part = .ok parts) (hnodes : parts.mapM toExpr = .ok (entries.map Prod.snd))
    (hnamed : ∀ entry ∈ entries, entry.2.name? = some entry.1) :
    Slot.functions.Gives part (.array (ofExprs ((Table.ofList entries).map Prod.snd))) := by
  intro hfits
  cases part with
  | array items =>
    cases hparts
    have hread := only_nodes (fun item _ => only_toExpr item) _ hnodes
    rw [List.map_id'] at hread
    rw [Slot.tidied, hread.1 hfits, collapsed_ofExprs hnamed]
  | _ => cases hfits

theorem object_of_toScript {o : Json} {script : Script} (h : toScript o = .ok script) :
    ∃ m, o = .object m ∧ tag? m "type" = some "Script" := by
  unfold toScript at h
  split at h
  · next m =>
    split at h
    · next htag => exact ⟨m, rfl, htag⟩
    · cases h
  · cases h

theorem written_functions {m : Members} {all : List Field} {parts : List Json} {entries : Table Name Expr}
    (hslot : slotOf? all "functions" = some .functions) (hparts : functionParts m = .ok parts)
    (hnodes : parts.mapM toExpr = .ok (entries.map Prod.snd))
    (hnamed : ∀ entry ∈ entries, entry.2.name? = some entry.1) :
    Written all m [⟨"functions", .functions, some (.array [])⟩]
      [("functions", .array (ofExprs ((Table.ofList entries).map Prod.snd)))] := by
  unfold functionParts at hparts
  cases hfound : optional m "functions" with
  | none =>
    rw [hfound] at hparts
    cases hparts
    obtain rfl : entries = [] := List.map_eq_nil_iff.1 (Except.ok.inj hnodes).symm
    exact .absent (find?_eq_none_of_optional hfound) rfl .nil
  | some part =>
    rw [hfound] at hparts
    exact .cons hslot (find?_of_optional hfound) (gives_functions hparts hnodes hnamed) .nil

/-- Whatever script is read, it is written again as the normal form of its document, and a document keeps it. -/
theorem only_toScript (o : Json) :
    Only (toScript o) fun script =>
      Slot.script.Gives o (ofScript script) ∧ script.Keyed ∧ script.isKept = true := by
  intro script h
  obtain ⟨m, rfl, htag⟩ := object_of_toScript h
  revert script
  rw [toScript_object m htag]
  refine Only.bind (only_self _) fun parts hparts => Only.bind (only_self _) fun nodes hnodes => ?_
  refine .require fun part hpart => (only_toExpr _).bind fun e he => Only.bind (only_self _) fun entries hentries => ?_
  obtain ⟨rfl, hentered⟩ := entries_of_mapM hentries
  have hkept := (only_nodes (fun item _ => only_toExpr item) _ hnodes).2
  have hlisted {entry} (hentry : entry ∈ Table.ofList entries) : entry ∈ entries :=
    (Table.mem_of_mem_merge hentry).resolve_left List.not_mem_nil
  have hown (entry) (hentry : entry ∈ Table.ofList entries) := (hentered entry (hlisted hentry)).1
  refine only_ok ⟨?_, ⟨hown, Table.nodup_names_ofList entries, ?_⟩, ?_⟩
  · refine gives_tagged rfl htag (.cons rfl hpart he.1 ?_)
    exact written_functions rfl hparts hnodes fun entry hentry => (hentered entry hentry).1
  · intro name hname
    obtain ⟨entry, hentry, rfl⟩ := List.mem_map.1 hname
    exact (hentered entry (hlisted hentry)).2
  · rw [Expr.allKept_iff, List.forall_mem_map] at hkept
    rw [Script.isKept, he.2, Expr.allKept_iff.2, Bool.and_true]
    rw [List.forall_mem_map]
    exact fun entry hentry => hkept entry (hlisted hentry)

/-- Let a document be read as a script, and let lists, reals, objects and `null` stand in it where they are written.
Written again, the script is the normal form of the document: at every depth members that nothing asks for are dropped,
an absent literal, line, column or default is filled in, and so are absent functions, and functions of one name are one,
at the place of the first and with the content of the last. Everything else is as it was. From its normal form the
same script is read. -/
theorem documents_normalised {o : Json} {script : Script} (h : toScript o = .ok script)
    (hfits : Slot.script.fits o = true) :
    ofScript script = Slot.script.tidied o ∧ toScript (Slot.script.tidied o) = .ok script := by
  obtain ⟨hgives, hkeyed, hkept⟩ := only_toScript o script h
  refine ⟨(hgives hfits).symm, ?_⟩
  rw [hgives hfits]
  exact toScript_of_isKept hkeyed hkept

/-- Members in another order, some that nothing asks for, a variable without a default, an operator without its place,
and three functions, two of them of one name. -/
theorem documents_normalised_collapsed :
    let function (name : String) (body : Json) : Json :=
      .object [("type", .text "FunctionDefinition"), ("identifier", .text name), ("parameters", .array []),
        ("body", body)]
    let call : Json := .object [("type", .text "FunctionCall"), ("identifier", .text "g"), ("arguments", .array [])]
    let untidy : Json :=
      .object [("functions", .array [function "f" .null, function "g" .null, function "f" call]),
        ("note", .array []), ("type", .text "Script"),
        ("expression", .object [("right", .object [("identifier", .text "x"), ("type", .text "Variable")]),
          ("schema", .text "singleton"), ("type", .text "Unary"),
          ("op", .object [("lexeme", .text "-"), ("token_type", .text "MINUS"), ("place", .null)])])]
    let tidy : Json :=
      .object [("type", .text "Script"),
        ("expression", .object [("type", .text "Unary"),
          ("op", .object [("token_type", .text "MINUS"), ("lexeme", .text "-"), ("literal", .null),
            ("line", .integer 0), ("column", .integer 0)]),
          ("schema", .text "singleton"),
          ("right", .object [("type", .text "Variable"), ("identifier", .text "x"), ("default", .null)])]),
        ("functions", .array [function "f" call, function "g" .null])]
    Slot.script.fits untidy = true ∧
      ∃ script, toScript untidy = .ok script ∧ ofScript script = tidy ∧ toScript tidy = .ok script := by
  intro function call untidy tidy
  have hread : (toScript untidy).isOk = true := by decide +kernel
  have hfits : Slot.script.fits untidy = true := by decide +kernel
  have htidy : Slot.script.tidied untidy = tidy := by decide +kernel
  cases hscript : toScript untidy with
  | error e =>
    rw [hscript] at hread
    cases hread
  | ok script =>
    have hnormal := documents_normalised hscript hfits
    rw [htidy] at hnormal
    exact ⟨hfits, script, rfl, hnormal⟩

end Document

end DiceScript
