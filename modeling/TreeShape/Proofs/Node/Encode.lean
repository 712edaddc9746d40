import TreeShape.Proofs.Json.Entries
import TreeShape.Proofs.Shape.Node
/- What the JSON value of a node holds under the keys of its parts, and that it writes the node. -/
namespace TreeShape

/-- The coordinates of a point fit words. -/
def Point.Fits (p : Point) : Prop :=
  p.line < Json.wordLimit ∧ p.column < Json.wordLimit ∧ p.offset < Json.wordLimit

theorem Point.writes_toJson {p : Point} (h : p.Fits) : p.toJson.WritesPoint p := by
  obtain ⟨hline, hcolumn, hoffset⟩ := h
  refine ⟨_, rfl, ⟨?_, hline⟩, ⟨?_, hcolumn⟩, ⟨?_, hoffset⟩⟩
  · simp [Entries.get?]
  · simp [Entries.get?]
  · simp [Entries.get?]

instance (p : Point) : Decidable p.Fits := inferInstanceAs (Decidable (_ ∧ _))

/-- The coordinates and columns of a position fit words. -/
def Position.Fits (p : Position) : Prop :=
  p.start.Fits ∧ p.stop.Fits ∧ ∀ column ∈ p.indent, column < Json.wordLimit

instance (p : Position) : Decidable p.Fits := inferInstanceAs (Decidable (_ ∧ _))

theorem Position.writes_toJson {p : Position} (h : p.Fits) : p.toJson.WritesPosition p := by
  obtain ⟨hstart, hstop, hindent⟩ := h
  refine ⟨_, rfl, ⟨p.start.toJson, ?_, Point.writes_toJson hstart⟩,
    ⟨p.stop.toJson, ?_, Point.writes_toJson hstop⟩, ?_⟩
  · simp [Json.present?_eq_some_iff, Entries.get?, Point.toJson]
  · simp [Json.present?_eq_some_iff, Entries.get?, Point.toJson]
  · have hpresent : Json.present? "indent" [("end", p.stop.toJson), ("indent", p.indentJson),
        ("start", p.start.toJson)] = some p.indentJson := by
      simp [Json.present?_eq_some_iff, Entries.get?, Position.indentJson]
    rw [hpresent]
    exact ⟨rfl, hindent⟩

theorem Json.WritesPosition.fits {v : Json} {p : Position} (h : v.WritesPosition p) : p.Fits := by
  obtain ⟨fields, rfl, h⟩ := h
  obtain ⟨start, -, _, -, hline, hcolumn, hoffset⟩ := h.start
  obtain ⟨stop, -, _, -, hline', hcolumn', hoffset'⟩ := h.stop
  exact ⟨⟨hline.2, hcolumn.2, hoffset.2⟩, ⟨hline'.2, hcolumn'.2, hoffset'.2⟩, h.indent.fits⟩

namespace Node

/-- No field of the node is named like a part. -/
def PartsApart (n : Node) : Prop := ∀ key ∈ partKeys, Entries.contains key n.fields = false

instance (n : Node) : Decidable n.PartsApart := inferInstanceAs (Decidable (∀ key ∈ partKeys, _))

/-- The coordinates of a node's position fit words. -/
def Fits (n : Node) : Prop := ∀ p ∈ n.position, p.Fits

instance (n : Node) : Decidable n.Fits := inferInstanceAs (Decidable (∀ p ∈ n.position, _))

theorem get?_reverse_entry (part key : String) (value : Option Json) :
    Entries.get? key (entry part value).reverse = if part = key then value else none := by
  cases value with
  | none => simp [entry, Entries.get?]
  | some v => simp [entry, Entries.get?]

variable {n : Node}

/-- What the JSON value of a node holds under the keys of its parts. -/
structure Parts (n : Node) (fields : List (String × Json)) : Prop where
  type : Entries.get? "type" fields = some (.string n.type)
  data : Entries.get? "data" fields = n.data.map Data.toJson
  position : Entries.get? "position" fields = n.position.map Position.toJson
  children : Entries.get? "children" fields = n.children.map fun nodes => .array (nodes.map toJson)
  value : Entries.get? "value" fields = n.value

section Parts

variable {fields : List (String × Json)}

theorem Parts.present_data (h : n.Parts fields) :
    Json.present? "data" fields = n.data.map Data.toJson := by
  apply Json.present?_of_get? h.data
  cases n.data <;> simp [Data.toJson]

theorem Parts.present_position (h : n.Parts fields) :
    Json.present? "position" fields = n.position.map Position.toJson := by
  apply Json.present?_of_get? h.position
  cases n.position <;> simp [Position.toJson]

theorem Parts.present_children (h : n.Parts fields) :
    Json.present? "children" fields = n.children.map fun nodes => .array (nodes.map toJson) := by
  apply Json.present?_of_get? h.children
  cases n.children <;> simp

theorem Parts.holdsNode (h : n.Parts fields) (hfits : n.Fits) : Json.HoldsNode fields n := by
  refine ⟨h.type, h.present_data, ?_, h.value⟩
  rw [h.present_position]
  cases hposition : n.position with
  | none => exact .none
  | some p => exact .some (Position.writes_toJson (hfits p hposition))

end Parts

theorem PartsApart.exists_parts (hn : n.PartsApart) :
    ∃ fields, n.toJson = .object fields ∧ n.Parts fields := by
  have hfields : ∀ key ∈ partKeys, Entries.get? key n.fields.reverse = none := by
    intro key hkey
    exact Entries.get?_reverse_eq_none (by simpa [Entries.contains] using hn key hkey)
  simp only [partKeys, List.forall_mem_cons] at hfields
  obtain ⟨htype, hdata, hposition, hchildren, hvalue, -⟩ := hfields
  refine ⟨_, toJson_eq n, ⟨?_, ?_, ?_, ?_, ?_⟩⟩ <;>
    simp [Entries.get?_ofList, entries, Entries.get?_append, get?_reverse_entry, Entries.get?, htype,
      hdata, hposition, hchildren, hvalue]

/-- A value writes coordinates that fit words, throughout a tree. -/
theorem fits_of_writesNode {v : Json} (h : v.WritesNode n) : ∀ m ∈ n.nodes, m.Fits := by
  have hself : ∀ {fields : List (String × Json)} {n : Node}, Json.HoldsNode fields n → n.Fits := by
    intro fields n h p hp
    obtain ⟨q, -, hq⟩ := exists_of_rel_right h.position hp
    exact hq.fits
  induction h with
  | leaf h hnone hchildren =>
      intro m hm
      rw [nodes_eq] at hm
      simp only [childList, hchildren, Option.getD_none, List.flatMap_nil, List.mem_singleton] at hm
      subst hm
      exact hself h
  | @parent fields n items list h hitems hchildren hlength hall ih =>
      have hbelow : List.Forall₂ (fun _ child => ∀ m ∈ child.nodes, m.Fits) items list :=
        List.forall₂_iff_zip.mpr ⟨hlength, fun hmem => ih _ _ hmem⟩
      intro m hm
      rw [nodes_eq, List.mem_cons, List.mem_flatMap] at hm
      rcases hm with rfl | ⟨child, hchild, hm⟩
      · exact hself h
      · have hchild : child ∈ list := by simpa [childList, hchildren] using hchild
        obtain ⟨item, -, hitem⟩ := exists_mem_of_forall₂ hbelow.flip hchild
        exact hitem m hm

/-- The JSON value of a tree writes it, as long as no field takes the place of a part. -/
theorem writesNode_toJson (hn : ∀ m ∈ n.nodes, m.PartsApart ∧ m.Fits) : n.toJson.WritesNode n := by
  induction n using child_induction with
  | step n ih =>
      obtain ⟨hparts, hfits⟩ := hn n n.self_mem_nodes
      obtain ⟨fields, hjson, hparts⟩ := hparts.exists_parts
      rw [hjson]
      cases hchildren : n.children with
      | none =>
          refine .leaf (hparts.holdsNode hfits) ?_ hchildren
          rw [hparts.present_children, hchildren]
          rfl
      | some list =>
          have hitems : Json.present? "children" fields = some (.array (list.map toJson)) := by
            rw [hparts.present_children, hchildren]
            rfl
          refine .ofChildren (hparts.holdsNode hfits) hitems hchildren ?_
          rw [List.forall₂_map_left_iff, List.forall₂_same]
          intro child hchild
          have hchild : child ∈ n.childList := by simpa [childList, hchildren] using hchild
          exact ih child hchild fun m hm => hn m (mem_nodes_of_child hchild hm)

end Node

end TreeShape
