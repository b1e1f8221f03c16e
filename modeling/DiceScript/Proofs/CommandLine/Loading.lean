import DiceScript.Proofs.CommandLine.Emission
import DiceScript.Proofs.Documents.Flaws

/-!
# Loading a document

Whatever JSON data a document holds, loading it ends in one of three ways: with a script, with a complaint and the
status for wrong usage, or in an error that nothing handles. The last is left to flawed documents, and so are scripts
whose functions are something else. Both do happen.
-/

namespace DiceScript.CommandLine.Work

section

variable {job : Job} {path text : String}

theorem loadDocument_of_rejection {e : Document.Error} (htext : job.currentFiles.plainText path = .ok text)
    (h : Document.parse text = .error e) (he : e.isRejection = true) :
    loadDocument path job = .error (.status usageStatus) { job with
      complaints := job.complaints ++ ("Error: " ++ path ++ " is not a Troll AST file: " ++ e.message) ++ "\n" } := by
  refine (bind_of_ok (readDocument_of_readText (readText_of_currentFiles htext))).trans ?_
  simp only [h, he]
  rfl

theorem loadDocument_of_escape {e : Document.Error} (htext : job.currentFiles.plainText path = .ok text)
    (h : Document.parse text = .error e) (he : e.isRejection = false) :
    loadDocument path job = .error (.escaped (.document e)) job := by
  refine (bind_of_ok (readDocument_of_readText (readText_of_currentFiles htext))).trans ?_
  simp only [h, he]
  rfl

/-- A document of any JSON data is loaded or turned down, and what is loaded has functions for functions, unless the
document is flawed. A flawed one may also break the command off, with one of three errors. -/
theorem loadDocument_settled {j : Json} (htext : job.currentFiles.plainText path = .ok text)
    (hjson : Json.parse text = .ok j) :
    (∃ script, loadDocument path job = .ok script job ∧ (¬Document.Flawed j →
      ∀ entry ∈ script.functions, ∃ parameters body, entry.2 = .function entry.1 parameters body)) ∨
    (∃ reason, loadDocument path job = .error (.status 64) { job with
      complaints := job.complaints ++ ("Error: " ++ path ++ " is not a Troll AST file: " ++ reason) ++ "\n" }) ∨
    (Document.Flawed j ∧ ∃ e, loadDocument path job = .error (.escaped (.document e)) job ∧
      (e = .notObject ∨ e = .realOverflow ∨ e = .unnamedFunction)) := by
  have hparse : Document.parse text = Document.toScript j := by
    rw [Document.parse, hjson]
  cases hread : Document.toScript j with
  | ok script =>
    exact .inl ⟨script, loadDocument_of_script htext (hparse.trans hread), Document.functions_of_toScript hread⟩
  | error e =>
    cases he : e.isRejection with
    | true => exact .inr (.inl ⟨e.message, loadDocument_of_rejection htext (hparse.trans hread) he⟩)
    | false =>
      have hflawed : Document.Flawed j := (Document.unless_toScript j e hread).resolve_left (by simp [he])
      refine .inr (.inr ⟨hflawed, e, loadDocument_of_escape htext (hparse.trans hread) he, ?_⟩)
      cases e <;> simp_all [Document.Error.isRejection]

end

/-- A document without an expression is not flawed, so it does not break the command off. -/
theorem loadDocument_settled_bare :
    let job : Job := .begun (.initial ⟨[], 0⟩ 0) [("a.json", .file "\x7b\"type\": \"Script\"\x7d")] []
    (∃ script, loadDocument "a.json" job = .ok script job ∧
      ∀ entry ∈ script.functions, ∃ parameters body, entry.2 = .function entry.1 parameters body) ∨
    (∃ reason, loadDocument "a.json" job = .error (.status 64) { job with
      complaints := job.complaints ++ ("Error: " ++ "a.json" ++ " is not a Troll AST file: " ++ reason) ++ "\n" }) := by
  intro job
  have hjson : (Json.parse "\x7b\"type\": \"Script\"\x7d").toOption = some (.object [("type", .text "Script")]) := by
    decide +kernel
  have hsound : ¬Document.Flawed (.object [("type", .text "Script")]) := by
    intro hflawed
    cases hflawed with
    | notObject h => exact h _ rfl
    | broken h =>
      obtain ⟨part, hwithin, hbroken⟩ := h
      cases hwithin with
      | here => cases hbroken <;> simp_all [Document.tag?, Table.find?]
      | member hmember h =>
        obtain ⟨-, rfl⟩ : _ ∧ _ := by simpa using hmember
        cases h
        cases hbroken
    | stranger hfound => simp [Table.find?] at hfound
  have htext : job.currentFiles.plainText "a.json" = .ok "\x7b\"type\": \"Script\"\x7d" := by decide +kernel
  rcases loadDocument_settled htext (eq_ok_of_toOption hjson) with ⟨script, hload, hfunctions⟩ | hrejected | hescaped
  · exact .inl ⟨script, hload, hfunctions hsound⟩
  · exact .inr hrejected
  · exact absurd hescaped.1 hsound

/-- Flawed documents do break the command off, and a variable among the functions is taken for one. -/
theorem loadDocument_unprepared :
    let job (text : String) : Job := .begun (.initial ⟨[], 0⟩ 0) [("a.json", .file text)] []
    let listing (item : String) : String :=
      "\x7b\"type\": \"Script\", \"expression\": null, \"functions\": [" ++ item ++ "]\x7d"
    let variableNode : String := "\x7b\"type\": \"Variable\", \"identifier\": \"x\"\x7d"
    loadDocument "a.json" (job "[]") = .error (.escaped (.document .notObject)) (job "[]") ∧
      loadDocument "a.json" (job (listing "null")) =
        .error (.escaped (.document .unnamedFunction)) (job (listing "null")) ∧
      loadDocument "a.json" (job (listing variableNode)) =
        .ok ⟨.missing, [(.text "x", .var (.text "x") .missing)]⟩ (job (listing variableNode)) := by
  intro job listing variableNode
  let members (item : Json) : Document.Members :=
    [("type", .text "Script"), ("expression", .null), ("functions", .array [item])]
  let node : Json := .object [("type", .text "Variable"), ("identifier", .text "x")]
  have hnull : Document.toExpr .null = .ok .missing := by rw [Document.toExpr]
  have hnode : Document.toExpr node = .ok (.var (.text "x") .missing) := by
    rw [Document.toExpr]
    rfl
  have hscript {item : Json} {e : Expr} (h : Document.toExpr item = .ok e) :
      Document.toScript (.object (members item)) =
        (Document.functionEntry e).map fun entry => ⟨.missing, Table.ofList [entry]⟩ := by
    have hparts : Document.functionParts (members item) = .ok [item] := rfl
    have hfound : (members item).find? "expression" = some .null := rfl
    have hrequire : Document.require (members item) "expression" = .ok ⟨.null, Document.sizeOf_find? hfound⟩ := rfl
    rw [Document.toScript_object _ rfl, hparts]
    simp only [List.mapM_cons, List.mapM_nil, h, hrequire, hnull, Bind.bind, Except.bind, pure, Except.pure]
    cases Document.functionEntry e <;> rfl
  have hread (text : String) (h : String.ofList (Text.unixNewlines text.toList) = text) :
      (job text).currentFiles.plainText "a.json" = .ok text :=
    congrArg Except.ok h
  have hparse {text : String} {j : Json} (h : (Json.parse text).toOption = some j) :
      Document.parse text = Document.toScript j := by
    rw [Document.parse, eq_ok_of_toOption h]
  refine ⟨?_, ?_, ?_⟩
  · exact loadDocument_of_escape (hread _ (by decide +kernel)) (hparse (j := .array []) (by decide +kernel)) rfl
  · have hjson : (Json.parse (listing "null")).toOption = some (.object (members .null)) := by decide +kernel
    exact loadDocument_of_escape (hread _ (by decide +kernel)) ((hparse hjson).trans (hscript hnull)) rfl
  · have hjson : (Json.parse (listing variableNode)).toOption = some (.object (members node)) := by decide +kernel
    exact loadDocument_of_script (hread _ (by decide +kernel)) ((hparse hjson).trans (hscript hnode))

end DiceScript.CommandLine.Work
