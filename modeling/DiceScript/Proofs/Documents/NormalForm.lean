import DiceScript.Proofs.Documents.Flaws

/-!
# The normal form of a document

A document may have members that nothing asks for, may lack members that have a default, and may list several functions
of one name. `tidied` is the document without all that: at every depth it has the members that belong there and no
others, in the order in which they are written, with defaults filled in, and of the functions of one name it has the
last, at the place of the first. It goes by tables of members and knows nothing of scripts. A document that is read and
written again has this form.
-/

namespace DiceScript

namespace Document

inductive Slot where
  /-- Data that are kept as they are, such as names, lexemes and lines. -/
  | data
  | list
  | real
  | token
  | value
  | node
  | nodes
  | functions
  | script

/-- A member of an object, and what its absence stands for if it may be absent. -/
structure Field where
  key : String
  slot : Slot
  fallback : Option Json := none

def valueFields : String → List Field
  | "Collection" => [⟨"values", .list, none⟩]
  | "Real" => [⟨"value", .real, none⟩]
  | "Text" => [⟨"value", .data, none⟩]
  | "Pair" => [⟨"first", .value, none⟩, ⟨"second", .value, none⟩]
  | _ => []

def nodeFields : String → List Field
  | "Literal" => [⟨"value", .value, none⟩]
  | "Variable" => [⟨"identifier", .data, none⟩, ⟨"default", .node, some .null⟩]
  | "Binary" => [⟨"left", .node, none⟩, ⟨"op", .token, none⟩, ⟨"schema", .data, none⟩, ⟨"right", .node, none⟩]
  | "Unary" => [⟨"op", .token, none⟩, ⟨"schema", .data, none⟩, ⟨"right", .node, none⟩]
  | "If" => [⟨"condition", .node, none⟩, ⟨"then_branch", .node, none⟩, ⟨"else_branch", .node, none⟩]
  | "Foreach" => [⟨"identifier", .data, none⟩, ⟨"source", .node, none⟩, ⟨"body", .node, none⟩]
  | "Repeat" | "Accumulate" =>
    [⟨"identifier", .data, none⟩, ⟨"expr", .node, none⟩, ⟨"end_style", .data, none⟩, ⟨"test", .node, none⟩]
  | "Binding" => [⟨"identifier", .data, none⟩, ⟨"definition", .node, none⟩, ⟨"use", .node, none⟩]
  | "FunctionCall" => [⟨"identifier", .data, none⟩, ⟨"arguments", .nodes, none⟩]
  | "CollectionLiteral" => [⟨"elements", .nodes, none⟩]
  | "TupleLiteral" => [⟨"first", .node, none⟩, ⟨"second", .node, none⟩]
  | "Group" => [⟨"expr", .node, none⟩]
  | "FunctionDefinition" =>
    [⟨"identifier", .data, none⟩, ⟨"parameters", .list, none⟩, ⟨"body", .node, none⟩]
  | _ => []

def Slot.fields? (slot : Slot) (m : Members) : Option (List Field) :=
  match slot with
  | .token =>
    some [⟨"token_type", .data, none⟩, ⟨"lexeme", .data, none⟩, ⟨"literal", .data, some .null⟩,
      ⟨"line", .data, some (.integer 0)⟩, ⟨"column", .data, some (.integer 0)⟩]
  | .value => some (⟨"__value__", .data, none⟩ :: valueFields ((tag? m "__value__").getD ""))
  | .node => some (⟨"type", .data, none⟩ :: nodeFields ((tag? m "type").getD ""))
  | .script =>
    some [⟨"type", .data, none⟩, ⟨"expression", .node, none⟩, ⟨"functions", .functions, some (.array [])⟩]
  | .data | .list | .real | .nodes | .functions => none

def slotOf? (fields : List Field) (key : String) : Option Slot :=
  (fields.find? fun field => field.key = key).map Field.slot

/-- Members in the order of their fields, where an absent one has its fallback. -/
def arranged (fields : List Field) (m : Members) : Members :=
  fields.filterMap fun field => ((m.find? field.key).or field.fallback).map fun part => (field.key, part)

def nameOf : Json → Json
  | .object m => member m "identifier" .null
  | _ => .null

/-- Of the nodes of one name only the last, at the place of the first. -/
def collapsed (nodes : List Json) : List Json :=
  (nodes.map nameOf).eraseDups.filterMap fun name => nodes.reverse.find? fun node => nameOf node = name

namespace Slot

mutual

def tidied : Slot → Json → Json
  | .nodes, .array items => .array (tidiedNodes items)
  | .functions, .array items => .array (collapsed (tidiedNodes items))
  | slot, .object m =>
    match slot.fields? m with
    | some fields => .object (arranged fields (tidiedMembers fields m))
    | none => .object m
  | _, j => j

def tidiedNodes : List Json → List Json
  | [] => []
  | item :: rest => tidied .node item :: tidiedNodes rest

/-- The normal forms of the members that belong to an object. The others are dropped. -/
def tidiedMembers (fields : List Field) : List (String × Json) → List (String × Json)
  | [] => []
  | (key, part) :: rest =>
    match slotOf? fields key with
    | some slot => (key, tidied slot part) :: tidiedMembers fields rest
    | none => tidiedMembers fields rest

end

mutual

/-- Whether lists, reals, objects and `null` stand where they are written. Of other data nothing is asked. -/
def fits : Slot → Json → Bool
  | .data, _ => true
  | .list, .array _ => true
  | .real, .real _ => true
  | .node, .null => true
  | .nodes, .array items => fitNodes items
  | .functions, .array items => fitNodes items
  | slot, .object m =>
    match slot.fields? m with
    | some fields => fitMembers fields m
    | none => false
  | _, _ => false

def fitNodes : List Json → Bool
  | [] => true
  | item :: rest => fits .node item && fitNodes rest

def fitMembers (fields : List Field) : List (String × Json) → Bool
  | [] => true
  | (key, part) :: rest =>
    match slotOf? fields key with
    | some slot => fits slot part && fitMembers fields rest
    | none => fitMembers fields rest

end

end Slot

section

variable {m : Members} {fields : List Field} {slot : Slot} {key : String} {part : Json}

open Slot

theorem find?_tidiedMembers (fields : List Field) (m : Members) (key : String) :
    Table.find? (tidiedMembers fields m) key =
      (m.find? key).bind fun part => (slotOf? fields key).map fun slot => slot.tidied part := by
  induction m with
  | nil => rfl
  | cons member rest ih =>
    obtain ⟨k, content⟩ := member
    rw [tidiedMembers, Table.find?]
    by_cases hit : k = key
    · subst hit
      cases hslot : slotOf? fields k with
      | some slot => simp [Table.find?]
      | none => simp [ih, hslot]
    · cases slotOf? fields k with
      | some slot => simpa [Table.find?, hit] using ih
      | none => simpa [hit] using ih

theorem fits_of_find? (h : fitMembers fields m = true) (hslot : slotOf? fields key = some slot)
    (hfound : m.find? key = some part) : slot.fits part = true := by
  induction m with
  | nil => cases hfound
  | cons member rest ih =>
    obtain ⟨k, content⟩ := member
    rw [Table.find?] at hfound
    rw [fitMembers] at h
    by_cases hit : k = key
    · subst hit
      simp_all
    · rw [if_neg hit] at hfound
      cases hother : slotOf? fields k with
      | some other =>
        simp only [hother, Bool.and_eq_true] at h
        exact ih h.2 hfound
      | none =>
        rw [hother] at h
        exact ih h hfound

theorem tidied_object (hfields : slot.fields? m = some fields) :
    slot.tidied (.object m) = .object (arranged fields (tidiedMembers fields m)) := by
  rw [tidied.eq_def]
  simp only [hfields]

theorem fits_object (hfields : slot.fields? m = some fields) : slot.fits (.object m) = fitMembers fields m := by
  cases slot <;> simp_all [fits, fields?]

end

section

variable {m members : Members} {all fields : List Field} {field : Field} {slot : Slot} {key tag : String}
  {part part' j j' : Json}

/-- This is the normal form of what stands in a slot, if that fits there. -/
def Slot.Gives (slot : Slot) (j j' : Json) : Prop :=
  slot.fits j = true → slot.tidied j = j'

/-- These members are the normal form of those of an object, from a field on. -/
inductive Written (all : List Field) (m : Members) : List Field → Members → Prop
  | nil : Written all m [] []
  | cons {field : Field} {fields : List Field} {members : Members} {slot : Slot} {part part' : Json}
    (hslot : slotOf? all field.key = some slot) (hfound : m.find? field.key = some part)
    (hpart : slot.Gives part part') (hrest : Written all m fields members) :
    Written all m (field :: fields) ((field.key, part') :: members)
  | absent {field : Field} {fields : List Field} {members : Members} {part : Json}
    (hfound : m.find? field.key = none) (hfallback : field.fallback = some part)
    (hrest : Written all m fields members) : Written all m (field :: fields) ((field.key, part) :: members)

theorem Written.arranged_eq (h : Written all m fields members) (hfits : Slot.fitMembers all m = true) :
    arranged fields (Slot.tidiedMembers all m) = members := by
  induction h with
  | nil => rfl
  | cons hslot hfound hpart _ ih =>
    have hpart := hpart (fits_of_find? hfits hslot hfound)
    simp [arranged, find?_tidiedMembers, hfound, hslot, hpart, ← ih]
  | absent hfound hfallback _ ih =>
    simp [arranged, find?_tidiedMembers, hfound, hfallback, ← ih]

theorem Written.gives (h : Written fields m fields members) (hfields : slot.fields? m = some fields) :
    slot.Gives (.object m) (.object members) := by
  intro hfits
  rw [fits_object hfields] at hfits
  rw [tidied_object hfields, h.arranged_eq hfits]

theorem gives_data (j : Json) : Slot.data.Gives j j := by
  intro _
  cases j <;> rfl

/-- A member that may be absent. -/
theorem Written.optional (hslot : slotOf? all field.key = some .data) (hfallback : field.fallback = some part)
    (hrest : Written all m fields members) :
    Written all m (field :: fields) ((field.key, member m field.key part) :: members) := by
  unfold member
  cases hfound : Table.find? m field.key with
  | none => exact .absent hfound hfallback hrest
  | some found => exact .cons hslot hfound (gives_data found) hrest

theorem find?_of_tag? (h : tag? m key = some tag) : m.find? key = some (.text tag) := by
  unfold tag? at h
  split at h
  · next hfound =>
    cases h
    exact hfound
  · cases h

/-- An object with its tag first. -/
theorem gives_tagged (hfields : slot.fields? m = some (⟨key, .data, none⟩ :: fields)) (htag : tag? m key = some tag)
    (h : Written (⟨key, .data, none⟩ :: fields) m fields members) :
    slot.Gives (.object m) (.object ((key, .text tag) :: members)) := by
  have hslot : slotOf? (⟨key, .data, none⟩ :: fields) key = some .data := by simp [slotOf?]
  let field : Field := ⟨key, .data, none⟩
  have hall : Written (field :: fields) m (field :: fields) ((field.key, .text tag) :: members) :=
    .cons hslot (find?_of_tag? htag) (gives_data _) h
  exact hall.gives hfields

theorem gives_value (htag : tag? m "__value__" = some tag)
    (h : Written (⟨"__value__", .data, none⟩ :: valueFields tag) m (valueFields tag) members) :
    Slot.value.Gives (.object m) (.object (("__value__", .text tag) :: members)) := by
  refine gives_tagged ?_ htag h
  rw [Slot.fields?, htag]
  rfl

theorem gives_node (htag : tag? m "type" = some tag)
    (h : Written (⟨"type", .data, none⟩ :: nodeFields tag) m (nodeFields tag) members) :
    Slot.node.Gives (.object m) (.object (("type", .text tag) :: members)) := by
  refine gives_tagged ?_ htag h
  rw [Slot.fields?, htag]
  rfl

end

end Document

end DiceScript
