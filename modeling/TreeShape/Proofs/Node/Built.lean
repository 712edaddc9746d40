import TreeShape.Proofs.Node.Normal
/- Nodes that are put together step by step are read back from their JSON values, unless a field was
named like a part. -/
namespace TreeShape

namespace Node

variable {n : Node}

/-- Nodes made from a type, maybe with children or a value, to which positions, data, fields and more
children are added one by one. Coordinates fit words; keys and values may be any. -/
inductive Built : Node → Prop
  | new (type : String) : Built (.new type)
  | parent (type : String) {children : List Node} : (∀ child ∈ children, Built child) →
      Built (.parent type children)
  | literal (type : String) (value : Json) : Built (.literal type value)
  | placedAt {n : Node} {p : Position} : Built n → p.Fits → Built (n.placedAt p)
  | withData {n : Node} (d : Data) : Built n → Built (n.withData d)
  | withField {n : Node} (key : String) (value : Json) : Built n → Built (n.withField key value)
  | withChildList {n : Node} : Built n → Built n.withChildList
  | push {n child : Node} : Built n → Built child → Built (n.push child)

theorem forall_nodes_iff {P : Node → Prop} :
    (∀ m ∈ n.nodes, P m) ↔ P n ∧ ∀ child ∈ n.childList, ∀ m ∈ child.nodes, P m := by
  rw [nodes_eq, List.forall_mem_cons]
  simp only [List.mem_flatMap, forall_exists_index, and_imp]
  constructor
  · rintro ⟨hself, hbelow⟩
    exact ⟨hself, fun child hchild m hm => hbelow m child hchild hm⟩
  · rintro ⟨hself, hbelow⟩
    exact ⟨hself, fun m child hchild hm => hbelow child hchild m hm⟩

/-- Every step keeps the fields of all nodes in order, and their coordinates fit words. -/
theorem Built.keys_fits (h : Built n) : ∀ m ∈ n.nodes, Entries.Sorted m.fields ∧ m.Fits := by
  have hplain : ∀ {n : Node}, n.position = none → n.Fits := by
    intro n hnone p hp
    rw [hnone] at hp
    cases hp
  induction h with
  | new type =>
      rw [forall_nodes_iff]
      exact ⟨⟨Entries.sorted_nil, hplain rfl⟩, by simp [childList, Node.new]⟩
  | parent type hchildren ih =>
      rw [forall_nodes_iff]
      exact ⟨⟨Entries.sorted_nil, hplain rfl⟩, ih⟩
  | literal type value =>
      rw [forall_nodes_iff]
      exact ⟨⟨Entries.sorted_nil, hplain rfl⟩, by simp [childList, Node.literal, Node.new]⟩
  | placedAt hn hp ih =>
      rw [forall_nodes_iff] at ih ⊢
      refine ⟨⟨ih.1.1, ?_⟩, ih.2⟩
      rintro q ⟨⟩
      exact hp
  | withData d hn ih =>
      rw [forall_nodes_iff] at ih ⊢
      exact ih
  | withField key value hn ih =>
      rw [forall_nodes_iff] at ih ⊢
      exact ⟨⟨ih.1.1.insert, ih.1.2⟩, ih.2⟩
  | withChildList hn ih =>
      rw [forall_nodes_iff] at ih ⊢
      exact ih
  | push hn hchild ih ihChild =>
      rw [forall_nodes_iff] at ih ⊢
      refine ⟨ih.1, ?_⟩
      intro child hmem
      rcases List.mem_append.mp hmem with hmem | hmem
      · exact ih.2 child hmem
      · rw [List.mem_singleton.mp hmem]
        exact ihChild

/-- A node that was put together is read back from its JSON value just if no node in it got a field
named like a part; such a field takes the place of the part. -/
theorem built_decodes_iff (n : Node) (hn : Built n) :
    decode n.toJson = .ok n ↔ ∀ m ∈ n.nodes, m.PartsApart := by
  constructor
  · intro hdecode
    exact partsApart_of_decode hdecode
  · intro hapart
    refine decode_toJson fun m hm => ?_
    obtain ⟨hkeys, hfits⟩ := hn.keys_fits m hm
    exact ⟨hapart m hm, hkeys, hfits⟩

/-- A heading with an extra field and a second child whose value is null. -/
theorem built_decodes_iff_heading :
    let n := (((Node.parent "heading" [.new "text"]).withData ⟨[("id", .string "top")]⟩).withField
      "depth" (.nat 1)).push ((Node.literal "break" .null).placedAt ⟨⟨1, 3, 2⟩, ⟨2, 1, 3⟩, [1]⟩)
    Built n ∧ decode n.toJson = .ok n := by
  intro n
  have hn : Built n := by
    refine .push (.withField _ _ (.withData _ (.parent _ ?_))) (.placedAt (.literal _ _) (by decide))
    simp [Built.new]
  exact ⟨hn, (built_decodes_iff n hn).mpr (by decide)⟩

/-- A field named `type` is read back as the type. -/
theorem field_named_type_not_restored :
    let n := (Node.new "text").withField "type" (.string "link")
    Built n ∧ decode n.toJson = .ok (.new "link") ∧ decode n.toJson ≠ .ok n := by
  intro n
  have hread : decode n.toJson = .ok (.new "link") := by rfl
  refine ⟨.withField _ _ (.new _), hread, ?_⟩
  rw [hread]
  simp [n, Node.new, withField]

end Node

end TreeShape
