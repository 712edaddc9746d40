import Mathlib.Data.List.Forall2
import TreeShape.Proofs.Node.Tree
import TreeShape.Proofs.Shape.Reached
/- Which node a JSON value writes; the value has the shape of a tree just if the node is valid. -/
namespace TreeShape

section Related

variable {α β : Type} {r : α → β → Prop} {a : α} {b : β} {first : Option α} {second : Option β}

theorem cases_of_rel (h : Option.Rel r first second) :
    (first = none ∧ second = none) ∨ ∃ a b, first = some a ∧ second = some b ∧ r a b := by
  cases h with
  | none => exact .inl ⟨rfl, rfl⟩
  | some hab => exact .inr ⟨_, _, rfl, rfl, hab⟩

theorem exists_of_rel_left (h : Option.Rel r first second) (ha : first = some a) :
    ∃ b, second = some b ∧ r a b := by
  cases h with
  | none => cases ha
  | some hab =>
      cases ha
      exact ⟨_, rfl, hab⟩

theorem exists_of_rel_right (h : Option.Rel r first second) (hb : second = some b) :
    ∃ a, first = some a ∧ r a b := by
  cases h with
  | none => cases hb
  | some hab =>
      cases hb
      exact ⟨_, rfl, hab⟩

theorem eq_none_of_rel (h : Option.Rel r first none) : first = none := by
  cases h
  rfl

theorem eq_map_of_rel {f : β → α} (h : Option.Rel r first second)
    (hf : ∀ a b, r a b → a = f b) : first = second.map f := by
  cases h with
  | none => rfl
  | some hab => rw [hf _ _ hab, Option.map_some]

theorem rel_imp {s : α → β → Prop} (h : Option.Rel r first second)
    (himp : ∀ a b, first = some a → r a b → s a b) : Option.Rel s first second := by
  cases h with
  | none => exact .none
  | some hab => exact .some (himp _ _ rfl hab)

theorem exists_rel (h : ∀ a, first = some a → ∃ b, r a b) : ∃ second, Option.Rel r first second := by
  cases first with
  | none => exact ⟨none, .none⟩
  | some a =>
      obtain ⟨b, hb⟩ := h a rfl
      exact ⟨some b, .some hb⟩

theorem forall_iff_of_forall₂ {p : α → Prop} {q : β → Prop} {left : List α} {right : List β}
    (h : List.Forall₂ (fun a b => p a ↔ q b) left right) :
    (∀ a ∈ left, p a) ↔ ∀ b ∈ right, q b := by
  induction h with
  | nil => simp
  | cons hhead htail ih => rw [List.forall_mem_cons, List.forall_mem_cons, hhead, ih]

theorem exists_mem_of_forall₂ {left : List α} {right : List β} (h : List.Forall₂ r left right)
    (ha : a ∈ left) : ∃ b ∈ right, r a b := by
  induction h with
  | nil => cases ha
  | cons hhead htail ih =>
      rcases List.mem_cons.mp ha with rfl | ha
      · exact ⟨_, List.mem_cons_self, hhead⟩
      · obtain ⟨b, hb, hab⟩ := ih ha
        exact ⟨b, List.mem_cons_of_mem _ hb, hab⟩

/-- Two lists that are each related to a third are related to each other. -/
theorem forall₂_of_common {γ : Type} {s : γ → β → Prop} {t : α → γ → Prop} {left : List α}
    {right : List β} {other : List γ} (h : List.Forall₂ r left right)
    (h' : List.Forall₂ s other right) (hjoin : ∀ a b c, r a b → s c b → t a c) :
    List.Forall₂ t left other := by
  induction h generalizing other with
  | nil =>
      cases h'
      exact .nil
  | cons hhead htail ih =>
      cases h' with
      | cons hhead' htail' => exact .cons (hjoin _ _ _ hhead hhead') (ih htail')

theorem exists_forall₂ {left : List α} (h : ∀ a ∈ left, ∃ b, r a b) :
    ∃ right, List.Forall₂ r left right := by
  induction left with
  | nil => exact ⟨[], .nil⟩
  | cons a rest ih =>
      rw [List.forall_mem_cons] at h
      obtain ⟨b, hb⟩ := h.1
      obtain ⟨later, hlater⟩ := ih h.2
      exact ⟨b :: later, .cons hb hlater⟩

end Related

namespace Json

variable {fields : List (String × Json)} {v : Json} {n : Node}

/-- The fields of a node: its label, its data, its position and its value, as they are written. -/
structure HoldsNode (fields : List (String × Json)) (n : Node) : Prop where
  type : Entries.get? "type" fields = some (.string n.type)
  data : present? "data" fields = n.data.map Data.toJson
  position : Option.Rel WritesPosition (present? "position" fields) n.position
  value : Entries.get? "value" fields = n.value

/-- An object writes a node by its fields and by the list of its children, if it has one. Other
fields may stand beside them. -/
inductive WritesNode : Json → Node → Prop
  | leaf {fields : List (String × Json)} {n : Node} : HoldsNode fields n →
      present? "children" fields = none → n.children = none → WritesNode (.object fields) n
  -- Items and children are paired by `zip`, not by `List.Forall₂`, so that `induction` applies.
  | parent {fields : List (String × Json)} {n : Node} {items : List Json} {list : List Node} :
      HoldsNode fields n → present? "children" fields = some (.array items) →
      n.children = some list → items.length = list.length →
      (∀ item child, (item, child) ∈ items.zip list → WritesNode item child) →
      WritesNode (.object fields) n

theorem WritesNode.ofChildren {items : List Json} {list : List Node} (h : HoldsNode fields n)
    (hitems : present? "children" fields = some (.array items)) (hlist : n.children = some list)
    (hall : List.Forall₂ WritesNode items list) : (object fields).WritesNode n := by
  obtain ⟨hlength, hall⟩ := List.forall₂_iff_zip.mp hall
  exact .parent h hitems hlist hlength fun item child hmem => hall hmem

/-- The parts are in shape just if the node is valid. -/
theorem HoldsNode.shape_iff (h : HoldsNode fields n) :
    NodeShape false fields ↔ SyntaxNode.validate n = .ok () := by
  rw [Node.validate_eq_ok_iff]
  constructor
  · intro hshape
    refine ⟨?_, ?_, ?_⟩
    · obtain ⟨label, hlabel, hne⟩ := hshape.type
      rw [h.type] at hlabel
      cases hlabel
      exact hne
    · intro d hd
      obtain ⟨entries, hentries, hspace⟩ := hshape.data d.toJson (by rw [h.data, hd]; rfl)
      cases hentries
      exact Data.validate_eq_ok_iff.mpr hspace
    · intro p hp
      obtain ⟨v, hv, hwrites⟩ := exists_of_rel_right h.position hp
      obtain ⟨q, hq, hvalid⟩ := hshape.position v hv
      cases hq.unique hwrites
      exact Position.validate_eq_ok_iff.mpr hvalid
  · rintro ⟨htype, hdata, hposition⟩
    refine ⟨⟨n.type, h.type, htype⟩, ?_, by simp, ?_⟩
    · intro v hv
      rw [h.data] at hv
      obtain ⟨d, hd, rfl⟩ := Option.map_eq_some_iff.mp hv
      exact ⟨d.entries, rfl, Data.validate_eq_ok_iff.mp (hdata d hd)⟩
    · intro v hv
      obtain ⟨p, hp, hwrites⟩ := exists_of_rel_left h.position hv
      exact ⟨p, hwrites, Position.validate_eq_ok_iff.mp (hposition p hp)⟩

/-- A value that writes a node is a tree just if the whole node is valid. -/
theorem WritesNode.conforms_iff (h : v.WritesNode n) :
    v.Conforms false ↔ n.validateTree = .ok () := by
  induction h with
  | leaf hparts hnone hchildren =>
      rw [conforms_object_iff, hparts.shape_iff, Node.validateTree_eq_ok_iff]
      simp [hnone, Node.childList, hchildren]
  | @parent fields n items list hparts hitems hchildren hlength hall ih =>
      have hbelow : (∀ item ∈ items, item.Conforms false) ↔
          ∀ child ∈ list, child.validateTree = .ok () :=
        forall_iff_of_forall₂ (List.forall₂_iff_zip.mpr ⟨hlength, fun hmem => ih _ _ hmem⟩)
      rw [conforms_object_iff, hparts.shape_iff, Node.validateTree_eq_ok_iff]
      simp [hitems, Node.childList, hchildren, hbelow]

end Json

end TreeShape
