import DiceScript.Token

/-!
# Layout operators inside string literals

A string literal may hold layout operators: `"a<>b"` reads as the two strings `"a"` and `"b"` with the
operator between them. The text is cut at the leftmost operator, and so on in what follows it, so every
operator stands between two pieces and no piece holds an operator.
-/

namespace DiceScript

inductive LayoutOp where
  | beside | aboveLeft | aboveRight | aboveCentre
deriving DecidableEq

namespace LayoutOp

def ofChars? : Char → Char → Option LayoutOp
  | '<', '>' => some .aboveCentre
  | '|', '>' => some .aboveLeft
  | '<', '|' => some .aboveRight
  | '|', '|' => some .beside
  | _, _ => none

def spelling : LayoutOp → List Char
  | .beside => ['|', '|']
  | .aboveLeft => ['|', '>']
  | .aboveRight => ['<', '|']
  | .aboveCentre => ['<', '>']

def kind : LayoutOp → Kind
  | .beside => .beside
  | .aboveLeft => .aboveLeft
  | .aboveRight => .aboveRight
  | .aboveCentre => .aboveCentre

theorem ofChars?_eq_some_iff {a b : Char} {op : LayoutOp} :
    ofChars? a b = some op ↔ op.spelling = [a, b] := by
  constructor
  · intro h
    unfold ofChars? at h
    split at h <;> simp_all [spelling] <;> subst h <;> rfl
  · intro h
    cases op <;> simp [spelling] at h <;> obtain ⟨rfl, rfl⟩ := h <;> rfl

end LayoutOp

/-- A text cut at its layout operators: the piece before the first operator, then each operator with
the piece after it. -/
abbrev Pieces := List Char × List (LayoutOp × List Char)

namespace Pieces

def ofText : List Char → Pieces
  | [] => ([], [])
  | [a] => ([a], [])
  | a :: b :: rest =>
    match LayoutOp.ofChars? a b with
    | some op =>
      let cut := ofText rest
      ([], (op, cut.1) :: cut.2)
    | none =>
      let cut := ofText (b :: rest)
      (a :: cut.1, cut.2)

def toText (p : Pieces) : List Char :=
  p.1 ++ p.2.flatMap fun part => part.1.spelling ++ part.2

def toList (p : Pieces) : List String :=
  String.ofList p.1 :: p.2.flatMap fun part =>
    [String.ofList part.1.spelling, String.ofList part.2]

def textWord (piece : List Char) : Word :=
  ⟨.string, .text ("\"" ++ String.ofList piece ++ "\""), .text (String.ofList piece)⟩

def operatorWord (op : LayoutOp) : Word :=
  ⟨op.kind, .text (String.ofList op.spelling), .null⟩

def words (p : Pieces) : List Word :=
  textWord p.1 :: p.2.flatMap fun part => [operatorWord part.1, textWord part.2]

theorem toText_ofText (cs : List Char) : (ofText cs).toText = cs := by
  fun_induction ofText cs with
  | case1 => rfl
  | case2 a => rfl
  | case3 a b rest op spelt cut ih =>
    have spelling := LayoutOp.ofChars?_eq_some_iff.1 spelt
    simp only [toText, List.flatMap_cons, List.nil_append, spelling, List.cons_append] at ih ⊢
    rw [ih]
  | case4 a b rest spelt cut ih =>
    simp only [toText, List.cons_append] at ih ⊢
    rw [ih]

end Pieces

end DiceScript
