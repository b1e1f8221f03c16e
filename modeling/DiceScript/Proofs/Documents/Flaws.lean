import DiceScript.Proofs.Documents.RoundTrip

/-!
# Documents that are not turned down

A document that is no script should be turned down with a message, and most are. The reader takes some of its input
for granted, though: that a document, a value and the parts of a pair are objects, that a whole number given for a
real is in the range of reals, and that what is listed among the functions has a name and is a function. `Flawed`
names these assumptions. A document that meets them is a script all of whose functions are functions, or it is
turned down. One that does not may break the command off, or be taken for a script with a function that is none.
-/

namespace DiceScript

inductive Json.Within (part : Json) : Json → Prop
  | here : Within part part
  | item {items : List Json} {item : Json} (hitem : item ∈ items) (h : Within part item) :
    Within part (.array items)
  | member {members : List (String × Json)} {key : String} {content : Json} (hmember : (key, content) ∈ members)
    (h : Within part content) : Within part (.object members)

theorem Json.Within.trans {a b c : Json} (hab : a.Within b) (hbc : b.Within c) : a.Within c := by
  induction hbc with
  | here => exact hab
  | item hitem _ ih => exact .item hitem ih
  | member hmember _ ih => exact .member hmember ih

namespace Document

def NotObject (j : Json) : Prop :=
  ∀ m, j ≠ .object m

/-- A literal or a value in which the reader finds something other than what it takes for granted. -/
inductive Broken : Json → Prop
  | literal {m : Members} {part : Json} (htag : tag? m "type" = some "Literal")
    (hfound : m.find? "value" = some part) (h : NotObject part) : Broken (.object m)
  | pair {m : Members} {key : String} {part : Json} (htag : tag? m "__value__" = some "Pair")
    (hkey : key = "first" ∨ key = "second") (hfound : m.find? key = some part) (h : NotObject part) :
    Broken (.object m)
  | real {m : Members} {n : Int} (htag : tag? m "__value__" = some "Real")
    (hfound : m.find? "value" = some (.integer n)) (h : Binary64.ofInt? n = none) : Broken (.object m)

def HasBroken (j : Json) : Prop :=
  ∃ part, part.Within j ∧ Broken part

/-- What is listed among the functions is nothing, or a node that is not a function. -/
def Stranger (item : Json) : Prop :=
  item = .null ∨ ∃ m, item = .object m ∧ tag? m "type" ≠ some "FunctionDefinition"

inductive Flawed : Json → Prop
  | notObject {j : Json} (h : NotObject j) : Flawed j
  | broken {j : Json} (h : HasBroken j) : Flawed j
  | stranger {m : Members} {items : List Json} {item : Json} (hfound : m.find? "functions" = some (.array items))
    (hitem : item ∈ items) (h : Stranger item) : Flawed (.object m)

/-- A reader gives a result or turns its input down, unless there is a flaw. -/
def Unless (flaw : Prop) {α : Type} (x : Except Error α) : Prop :=
  ∀ e, x = .error e → e.isRejection = true ∨ flaw

section

variable {flaw : Prop} {α β γ : Type} {x : Except Error α} {f : α → Except Error β} {m : Members}

theorem unless_ok (a : α) : Unless flaw (.ok a) := by
  intro e h
  cases h

theorem unless_rejected {e : Error} (he : e.isRejection = true) : Unless flaw (.error e : Except Error α) := by
  intro e' h
  cases h
  exact .inl he

theorem unless_flaw (h : flaw) (x : Except Error α) : Unless flaw x :=
  fun _ _ => .inr h

theorem Unless.mono {flaw' : Prop} (hx : Unless flaw x) (h : flaw → flaw') : Unless flaw' x :=
  fun e he => (hx e he).imp_right h

theorem Unless.bind (hx : Unless flaw x) (hf : ∀ a, x = .ok a → Unless flaw (f a)) : Unless flaw (x >>= f) := by
  cases x with
  | ok a => exact hf a rfl
  | error e =>
    intro e' h
    cases h
    exact hx e rfl

/-- A member that has to be there is found, or the document is turned down. -/
theorem Unless.require {key : String} {f : Part m → Except Error β}
    (hf : ∀ part, m.find? key = some part.1 → Unless flaw (f part)) : Unless flaw (require m key >>= f) := by
  unfold Document.require
  split
  · next part hfound => exact hf ⟨part, sizeOf_find? hfound⟩ hfound
  · exact unless_rejected rfl

theorem find?_of_optional {key : String} {part : Part m} (h : optional m key = some part) :
    m.find? key = some part.1 := by
  unfold optional at h
  split at h
  · next hfound =>
    cases h
    exact hfound
  · cases h

theorem Unless.mapM {g : γ → Except Error β} {items : List γ} (h : ∀ item ∈ items, Unless flaw (g item)) :
    Unless flaw (items.mapM g) := by
  induction items with
  | nil => exact unless_ok []
  | cons item rest ih =>
    rw [List.mapM_cons]
    refine (h item (by simp)).bind fun _ _ => ?_
    refine (ih fun item hitem => h item (by simp [hitem])).bind fun _ _ => ?_
    exact unless_ok _

theorem unless_choice (family : Family) (all : List α) (name : α → String) (j : Json) :
    Unless flaw (choice family all name j) := by
  unfold choice
  split
  · split
    · exact unless_ok _
    · exact unless_rejected rfl
  · exact unless_rejected rfl

theorem unless_tokenKind (j : Json) : Unless flaw (tokenKind j) := by
  unfold tokenKind
  split
  · split
    · exact unless_ok _
    · exact unless_rejected rfl
  all_goals exact unless_rejected rfl

theorem unless_toToken (j : Json) : Unless flaw (toToken j) := by
  unfold toToken
  split
  · refine .require fun kind _ => (unless_tokenKind kind.1).bind fun _ _ => ?_
    exact .require fun _ _ => unless_ok _
  · exact unless_rejected rfl

theorem unless_listed (j : Json) : Unless flaw (listed j) := by
  unfold listed
  split
  case h_4 => exact unless_rejected rfl
  all_goals exact unless_ok _

theorem unless_toReal {j : Json} (h : ∀ n, j = .integer n → Binary64.ofInt? n = none → flaw) :
    Unless flaw (toReal j) := by
  unfold toReal
  split
  · exact unless_ok _
  · next n =>
    split
    · exact unless_ok _
    · next hnone => exact unless_flaw (h n rfl hnone) _
  · exact unless_ok _
  · split
    · exact unless_ok _
    · exact unless_rejected rfl
  · exact unless_rejected rfl

/-- The nodes under a key are items of a list that is there, or there are none. -/
theorem Unless.requireNodes {key : String}
    {f : { items : List Json // ∀ item ∈ items, sizeOf item < sizeOf m } → Except Error β}
    (hf : ∀ nodes, nodes.1 = [] ∨ m.find? key = some (.array nodes.1) → Unless flaw (f nodes)) :
    Unless flaw (requireNodes m key >>= f) := by
  unfold Document.requireNodes
  rw [bind_assoc]
  refine .require ?_
  rintro ⟨part, hsmaller⟩ hfound
  cases part with
  | array items => exact hf _ (.inr hfound)
  | _ =>
    change Unless flaw ((listed _ >>= _) >>= f)
    rw [bind_assoc]
    refine (unless_listed _).bind fun items _ => ?_
    split
    · exact hf _ (.inl rfl)
    · exact unless_rejected rfl

end

theorem within_of_find? {m : Members} {key : String} {part : Json} (hfound : m.find? key = some part) :
    part.Within (.object m) :=
  .member (Table.mem_of_find? hfound) .here

theorem within_of_listed {m : Members} {key : String} {items : List Json} {item : Json}
    (hfound : m.find? key = some (.array items)) (hitem : item ∈ items) : item.Within (.object m) :=
  .member (Table.mem_of_find? hfound) (.item hitem .here)

theorem HasBroken.within {part j : Json} (h : HasBroken part) (hpart : part.Within j) : HasBroken j := by
  obtain ⟨inner, hinner, hbroken⟩ := h
  exact ⟨inner, hinner.trans hpart, hbroken⟩

theorem Broken.here {j : Json} (h : Broken j) : HasBroken j :=
  ⟨j, .here, h⟩

theorem unless_toForm (j : Json) : Unless (NotObject j ∨ HasBroken j) (toForm j) := by
  by_cases hnot : NotObject j
  · exact unless_flaw (.inl hnot) _
  obtain ⟨m, rfl⟩ : ∃ m, j = .object m := by simpa [NotObject] using hnot
  have hpart : ∀ {key : String} {part : Json}, tag? m "__value__" = some "Pair" →
      key = "first" ∨ key = "second" → Table.find? m key = some part →
      Unless (NotObject (.object m) ∨ HasBroken (.object m)) (toForm part) := by
    intro key part htag hkey hfound
    have := sizeOf_find? hfound
    refine (unless_toForm part).mono fun hflaw => .inr ?_
    rcases hflaw with hnot | hbroken
    · exact (Broken.pair htag hkey hfound hnot).here
    · exact hbroken.within (within_of_find? hfound)
  rw [toForm]
  split
  · exact .require fun _ _ => (unless_listed _).bind fun _ _ => unless_ok _
  · next htag =>
    refine .require fun part hfound => ?_
    refine (unless_toReal fun n hn hnone => ?_).bind fun _ _ => unless_ok _
    exact .inr (Broken.real htag (hn ▸ hfound) hnone).here
  · exact .require fun _ _ => unless_ok _
  · next htag =>
    refine .require fun first hfirst => (hpart htag (.inl rfl) hfirst).bind fun _ _ => ?_
    refine .require fun second hsecond => (hpart htag (.inr rfl) hsecond).bind fun _ _ => ?_
    exact unless_ok _
  · exact unless_rejected rfl
termination_by sizeOf j
decreasing_by
  subst_vars
  simp
  omega

/-- Only a literal reads a value. -/
theorem unless_readLiteral {m : Members} (htag : tag? m "type" = some "Literal") :
    Unless (HasBroken (.object m)) (readLiteral m) := by
  refine .require fun part hfound => Unless.bind ?_ fun _ _ => unless_ok _
  refine (unless_toForm part.1).mono fun hflaw => ?_
  rcases hflaw with hnot | hbroken
  · exact (Broken.literal htag hfound hnot).here
  · exact hbroken.within (within_of_find? hfound)

section

variable {flaw : Prop} {m : Members} {node : Part m → Except Error Expr}
  (hnode : ∀ part : Part m, part.1.Within (.object m) → Unless flaw (node part))
include hnode

/-! The other nodes read names, tokens and nodes, which are turned down if unfit. -/

theorem unless_readNode (key : String) : Unless flaw (readNode node key) :=
  .require fun part hfound => hnode part (within_of_find? hfound)

theorem unless_readNodes (key : String) : Unless flaw (readNodes node key) := by
  refine .requireNodes fun nodes hnodes => .mapM fun part _ => hnode _ ?_
  rcases hnodes with hnone | hfound
  · simpa [hnone] using part.2
  · exact within_of_listed hfound part.2

theorem unless_readVariable : Unless flaw (readVariable node) := by
  refine .require fun _ _ => ?_
  cases hdefault : optional m "default" with
  | none => exact unless_ok _
  | some part => exact (hnode part (within_of_find? (find?_of_optional hdefault))).bind fun _ _ => unless_ok _

theorem unless_readBinary : Unless flaw (readBinary node) := by
  refine (unless_readNode hnode "left").bind fun _ _ => ?_
  refine .require fun _ _ => (unless_toToken _).bind fun _ _ => ?_
  refine .require fun _ _ => (unless_choice _ _ _ _).bind fun _ _ => ?_
  exact (unless_readNode hnode "right").bind fun _ _ => unless_ok _

theorem unless_readUnary : Unless flaw (readUnary node) := by
  refine .require fun _ _ => (unless_toToken _).bind fun _ _ => ?_
  refine .require fun _ _ => (unless_choice _ _ _ _).bind fun _ _ => ?_
  exact (unless_readNode hnode "right").bind fun _ _ => unless_ok _

theorem unless_readConditional : Unless flaw (readConditional node) := by
  refine (unless_readNode hnode "condition").bind fun _ _ => ?_
  refine (unless_readNode hnode "then_branch").bind fun _ _ => ?_
  exact (unless_readNode hnode "else_branch").bind fun _ _ => unless_ok _

theorem unless_readForeach : Unless flaw (readForeach node) := by
  refine .require fun _ _ => (unless_readNode hnode "source").bind fun _ _ => ?_
  exact (unless_readNode hnode "body").bind fun _ _ => unless_ok _

theorem unless_readLoop (mode : LoopMode) : Unless flaw (readLoop node mode) := by
  refine .require fun _ _ => (unless_readNode hnode "expr").bind fun _ _ => ?_
  refine .require fun _ _ => (unless_choice _ _ _ _).bind fun _ _ => ?_
  exact (unless_readNode hnode "test").bind fun _ _ => unless_ok _

theorem unless_readBinding : Unless flaw (readBinding node) := by
  refine .require fun _ _ => (unless_readNode hnode "definition").bind fun _ _ => ?_
  exact (unless_readNode hnode "use").bind fun _ _ => unless_ok _

theorem unless_readCall : Unless flaw (readCall node) :=
  .require fun _ _ => (unless_readNodes hnode "arguments").bind fun _ _ => unless_ok _

theorem unless_readCollection : Unless flaw (readCollection node) :=
  (unless_readNodes hnode "elements").bind fun _ _ => unless_ok _

theorem unless_readPair : Unless flaw (readPair node) := by
  refine (unless_readNode hnode "first").bind fun _ _ => ?_
  exact (unless_readNode hnode "second").bind fun _ _ => unless_ok _

theorem unless_readGroup : Unless flaw (readGroup node) :=
  (unless_readNode hnode "expr").bind fun _ _ => unless_ok _

theorem unless_readFunction : Unless flaw (readFunction node) := by
  refine .require fun _ _ => .require fun _ _ => (unless_listed _).bind fun _ _ => ?_
  exact (unless_readNode hnode "body").bind fun _ _ => unless_ok _

theorem unless_readObject (hliteral : tag? m "type" = some "Literal" → Unless flaw (readLiteral m)) :
    Unless flaw (readObject node) := by
  unfold readObject
  split
  · next htag => exact hliteral htag
  · exact unless_readVariable hnode
  · exact unless_readBinary hnode
  · exact unless_readUnary hnode
  · exact unless_readConditional hnode
  · exact unless_readForeach hnode
  · exact unless_readBinding hnode
  · exact unless_readCall hnode
  · exact unless_readCollection hnode
  · exact unless_readPair hnode
  · exact unless_readGroup hnode
  · exact unless_readFunction hnode
  · split
    · exact unless_readLoop hnode _
    · exact unless_rejected rfl
  · exact unless_rejected rfl

end

/-- The reader of a node takes for granted what the readers of its values do, and nothing else. -/
theorem unless_toExpr (j : Json) : Unless (HasBroken j) (toExpr j) := by
  rw [toExpr.eq_def]
  split
  · exact unless_ok _
  · next m =>
    refine unless_readObject (fun part hpart => ?_) unless_readLiteral
    exact (unless_toExpr part.1).mono fun hbroken => hbroken.within hpart
  · exact unless_rejected rfl
termination_by sizeOf j
decreasing_by
  have := part.2
  subst_vars
  simp
  omega

theorem mem_of_mapM {α β : Type} {g : α → Except Error β} {items : List α} {results : List β}
    (h : items.mapM g = .ok results) {result : β} (hresult : result ∈ results) :
    ∃ item ∈ items, g item = .ok result := by
  induction items generalizing results with
  | nil =>
    cases h
    cases hresult
  | cons item rest ih =>
    rw [List.mapM_cons] at h
    simp only [bind_eq_ok_iff] at h
    obtain ⟨first, hfirst, others, hothers, hall⟩ := h
    cases hall
    rcases List.mem_cons.1 hresult with rfl | hmem
    · exact ⟨item, by simp, hfirst⟩
    · obtain ⟨source, hsource, hread⟩ := ih hothers hmem
      exact ⟨source, by simp [hsource], hread⟩

theorem toExpr_text (s : String) : toExpr (.text s) = .error .notNode := by
  rw [toExpr.eq_def]

/-- What is gone through is a list, or texts. -/
theorem listed_eq_ok {part : Json} {items : List Json} (h : listed part = .ok items) {item : Json}
    (hitem : item ∈ items) : part = .array items ∨ ∃ s, item = .text s := by
  unfold listed at h
  split at h
  all_goals cases h
  · exact .inl rfl
  · obtain ⟨c, _, rfl⟩ := List.mem_map.1 hitem
    exact .inr ⟨_, rfl⟩
  · obtain ⟨member, _, rfl⟩ := List.mem_map.1 hitem
    exact .inr ⟨_, rfl⟩

/-- A node that is read is a function, unless the data say that it is none. -/
theorem function_of_toExpr {j : Json} {node : Expr} (h : toExpr j = .ok node) (hj : ¬Stranger j) :
    ∃ name parameters body, node = .function name parameters body := by
  rw [toExpr.eq_def] at h
  split at h
  · exact absurd (.inl rfl) hj
  · next m =>
    have htag : tag? m "type" = some "FunctionDefinition" := by
      simpa [Stranger] using hj
    simp only [readObject, htag, readFunction, bind_eq_ok_iff] at h
    obtain ⟨name, _, parts, _, parameters, _, body, _, h⟩ := h
    cases h
    exact ⟨_, _, _, rfl⟩
  · cases h

theorem functionEntry_function (name : Name) (parameters : List Json) (body : Expr) :
    functionEntry (.function name parameters body) =
      if name.isCompound then .error (.compoundName name) else .ok (name, .function name parameters body) :=
  rfl

def functionParts (m : Members) : Except Error (List Json) :=
  (optional m "functions").elim (pure []) fun part => listed part.1

theorem toScript_object (m : Members) (h : tag? m "type" = some "Script") :
    toScript (.object m) = (do
      let parts ← functionParts m
      let nodes ← parts.mapM toExpr
      let expression ← toExpr (← require m "expression").1
      let entries ← nodes.mapM functionEntry
      pure ⟨expression, Table.ofList entries⟩) := by
  rw [toScript, if_pos h, functionParts]
  cases optional m "functions" with
  | none => rfl
  | some part => rfl

section

variable {m : Members} {parts : List Json} {item : Json}

theorem find?_of_functionParts (hparts : functionParts m = .ok parts) (hitem : item ∈ parts) :
    m.find? "functions" = some (.array parts) ∨ ∃ s, item = .text s := by
  unfold functionParts at hparts
  cases hfound : optional m "functions" with
  | none =>
    rw [hfound] at hparts
    cases hparts
    cases hitem
  | some part =>
    rw [hfound] at hparts
    refine (listed_eq_ok hparts hitem).imp_left fun hpart => ?_
    rw [find?_of_optional hfound, hpart]

theorem unless_functionParts {flaw : Prop} : Unless flaw (functionParts m) := by
  unfold functionParts
  cases optional m "functions" with
  | none => exact unless_ok _
  | some part => exact unless_listed _

/-- The nodes that stand for the functions of a script are functions, unless the document is flawed. -/
theorem function_of_functionParts (hparts : functionParts m = .ok parts) (hitem : item ∈ parts) {node : Expr}
    (hnode : toExpr item = .ok node) (hm : ¬Flawed (.object m)) :
    ∃ name parameters body, node = .function name parameters body := by
  refine function_of_toExpr hnode fun hstranger => ?_
  rcases find?_of_functionParts hparts hitem with hfound | ⟨s, rfl⟩
  · exact hm (.stranger hfound hitem hstranger)
  · rw [toExpr_text] at hnode
    cases hnode

end

/-- A script is read or turned down, unless the document is flawed. -/
theorem unless_toScript (j : Json) : Unless (Flawed j) (toScript j) := by
  by_cases hflawed : Flawed j
  · exact unless_flaw hflawed _
  obtain ⟨m, rfl⟩ : ∃ m, j = .object m := by
    simpa [NotObject] using fun hnot => hflawed (.notObject hnot)
  by_cases htag : tag? m "type" = some "Script"
  · rw [toScript_object m htag]
    refine unless_functionParts.bind fun parts hparts => ?_
    refine Unless.bind (.mapM fun item hitem => ?_) fun nodes hnodes => ?_
    · rcases find?_of_functionParts hparts hitem with hfound | ⟨s, rfl⟩
      · exact (unless_toExpr item).mono fun hbroken => .broken (hbroken.within (within_of_listed hfound hitem))
      · rw [toExpr_text]
        exact unless_rejected rfl
    refine .require fun expression hfound => ?_
    refine ((unless_toExpr _).mono fun hbroken => .broken (hbroken.within (within_of_find? hfound))).bind fun _ _ => ?_
    refine Unless.bind (.mapM fun node hnode => ?_) fun _ _ => unless_ok _
    obtain ⟨item, hitem, hread⟩ := mem_of_mapM hnodes hnode
    obtain ⟨name, parameters, body, rfl⟩ := function_of_functionParts hparts hitem hread hflawed
    rw [functionEntry_function]
    split
    · exact unless_rejected rfl
    · exact unless_ok _
  · rw [toScript, if_neg htag]
    exact unless_rejected rfl

/-- The functions of a script that is read are functions under their own names, unless the document is flawed. -/
theorem functions_of_toScript {j : Json} {script : Script} (h : toScript j = .ok script) (hj : ¬Flawed j) :
    ∀ entry ∈ script.functions, ∃ parameters body, entry.2 = .function entry.1 parameters body := by
  obtain ⟨m, rfl⟩ : ∃ m, j = .object m := by
    simpa [NotObject] using fun hnot => hj (.notObject hnot)
  by_cases htag : tag? m "type" = some "Script"
  · rw [toScript_object m htag] at h
    simp only [bind_eq_ok_iff] at h
    obtain ⟨parts, hparts, nodes, hnodes, part, _, expression, _, entries, hentries, hscript⟩ := h
    cases hscript
    intro entry hentry
    have hlisted : entry ∈ entries := (Table.mem_of_mem_merge hentry).resolve_left List.not_mem_nil
    obtain ⟨node, hnode, hnamed⟩ := mem_of_mapM hentries hlisted
    obtain ⟨item, hitem, hread⟩ := mem_of_mapM hnodes hnode
    obtain ⟨name, parameters, body, rfl⟩ := function_of_functionParts hparts hitem hread hj
    rw [functionEntry_function] at hnamed
    split at hnamed
    · cases hnamed
    · cases hnamed
      exact ⟨parameters, body, rfl⟩
  · rw [toScript, if_neg htag] at h
    cases h

end Document

end DiceScript
