import TreeShape.Proofs.Node.Encode
import TreeShape.Proofs.Position.Decode
/- What decoding a node reads: its parts from the fields of an object, and its children from the
items of a list. -/
namespace TreeShape

namespace Node

variable {fields : List (String × Json)} {v q : Json} {n : Node}

theorem decodeNodes_eq_ok_iff {items : List Json} {list : List Node} :
    decodeNodes items = .ok list ↔ List.Forall₂ (Json.Gives decode) items list := by
  induction items generalizing list with
  | nil =>
      constructor
      · rintro ⟨⟩
        exact .nil
      · rintro ⟨⟩
        rfl
  | cons item rest ih =>
      simp only [decodeNodes, bind_eq_ok_iff, ih]
      constructor
      · rintro ⟨n, hn, nodes, hnodes, ⟨⟩⟩
        exact .cons hn hnodes
      · rintro (_ | ⟨hn, hnodes⟩)
        exact ⟨_, hn, _, hnodes, rfl⟩

/-- The nodes that the items of a list give; children are read in this way where they are not null. -/
def decodeList : Json → Except DecodeError (List Node)
  | .array items => decodeNodes items
  | value => .error (.wrongType value .sequence)

theorem decodeList_eq_ok_iff {list : List Node} :
    decodeList v = .ok list ↔
      ∃ items, v = .array items ∧ List.Forall₂ (Json.Gives decode) items list := by
  constructor
  · intro h
    cases v with
    | array items => exact ⟨items, rfl, decodeNodes_eq_ok_iff.mp h⟩
    | null => cases h
    | bool value => cases h
    | number value => cases h
    | string value => cases h
    | object fields => cases h
  · rintro ⟨items, rfl, h⟩
    exact decodeNodes_eq_ok_iff.mpr h

theorem decodeChildren_eq (v : Json) : decodeChildren v = Json.decodeOption decodeList v := by
  cases v with
  | null => rfl
  | array items => rfl
  | bool value => rfl
  | number value => rfl
  | string value => rfl
  | object fields => rfl

/-- The recursion over the fields of an object is a lookup. -/
theorem decodeChildrenOf_eq (fields : List (String × Json)) :
    decodeChildrenOf fields =
      (Json.decodeField "children" fields (Json.decodeOption decodeList)).map Option.join := by
  unfold Json.decodeField
  induction fields with
  | nil => rfl
  | cons field rest ih =>
      obtain ⟨key, v⟩ := field
      rw [decodeChildrenOf, Entries.get?]
      split
      · change decodeChildren v = ((Json.decodeOption decodeList v).map some).map Option.join
        rw [decodeChildren_eq]
        cases Json.decodeOption decodeList v with
        | error e => rfl
        | ok children => rfl
      · exact ih

theorem decodeChildrenOf_eq_ok_iff {children : Option (List Node)} :
    decodeChildrenOf fields = .ok children ↔
      Option.Rel (Json.Gives decodeList) (Json.present? "children" fields) children := by
  rw [decodeChildrenOf_eq, map_eq_ok_iff, Json.decodeOption_iff]

/-- The parts of a node as decoding takes them from the fields of an object. -/
structure ReadFrom (fields : List (String × Json)) (n : Node) : Prop where
  type : Entries.get? "type" fields = some (.string n.type)
  data : Option.Rel (Json.Gives Data.decode) (Json.present? "data" fields) n.data
  position : Option.Rel (Json.Gives Position.decode) (Json.present? "position" fields) n.position
  children : Option.Rel (Json.Gives decodeList) (Json.present? "children" fields) n.children
  value : Entries.get? "value" fields = n.value
  others : n.fields = fields.filter fun field => ¬ partKeys.contains field.1

theorem decodeType_eq_ok_iff {type : String} : decodeType v = .ok type ↔ v = .string type := by
  cases v with
  | string s => simp [decodeType]
  | null => simp [decodeType]
  | bool value => simp [decodeType]
  | number value => simp [decodeType]
  | array items => simp [decodeType]
  | object fields => simp [decodeType]

theorem decode_object_iff : decode (.object fields) = .ok n ↔ ReadFrom fields n := by
  rw [decode]
  simp only [bind_eq_ok_iff, Json.required_eq_ok_iff, decodeChildrenOf_eq_ok_iff]
  constructor
  · rintro ⟨children, hchildren, data, hdata, position, hposition, _, htype, type, rfl, ⟨⟩⟩
    obtain ⟨v, hv, htype⟩ := Json.decodeField_eq_some_iff.mp htype
    refine ⟨?_, Json.decodeOption_iff.mp ⟨data, hdata, rfl⟩,
      Json.decodeOption_iff.mp ⟨position, hposition, rfl⟩, hchildren, rfl, rfl⟩
    rw [hv, decodeType_eq_ok_iff.mp htype]
  · intro h
    obtain ⟨data, hdata, hdataPart⟩ := Json.decodeOption_iff.mpr h.data
    obtain ⟨position, hposition, hpositionPart⟩ := Json.decodeOption_iff.mpr h.position
    have htype : Json.decodeField "type" fields decodeType = .ok (some n.type) :=
      Json.decodeField_eq_some_iff.mpr ⟨_, h.type, rfl⟩
    refine ⟨n.children, h.children, data, hdata, position, hposition, _, htype, _, rfl, ?_⟩
    rw [hdataPart, hpositionPart, h.value, ← h.others]
    cases n
    rfl

theorem exists_readFrom (h : decode v = .ok n) : ∃ fields, v = .object fields ∧ ReadFrom fields n := by
  cases v with
  | object fields => exact ⟨fields, rfl, decode_object_iff.mp h⟩
  | null => cases h
  | bool value => cases h
  | number value => cases h
  | string value => cases h
  | array items => cases h

theorem ReadFrom.data_eq (h : ReadFrom fields n) :
    Json.present? "data" fields = n.data.map Data.toJson := by
  refine eq_map_of_rel h.data ?_
  intro v d hd
  cases v with
  | object entries =>
      cases hd
      rfl
  | null => cases hd
  | bool value => cases hd
  | number value => cases hd
  | string value => cases hd
  | array items => cases hd

theorem ReadFrom.partsApart (h : ReadFrom fields n) : n.PartsApart := by
  intro key hkey
  have hfilter : Entries.get? key (fields.filter fun field => ¬ partKeys.contains field.1) = none := by
    refine Entries.get?_filter_eq_none fun field _ heq => ?_
    simp [heq, hkey]
  rw [h.others, Entries.contains, hfilter]
  rfl

/-- The items of a list of children are read in order, and nothing else is a child. -/
theorem decode_children (hn : decode v = .ok n) :
    List.Forall₂ (Json.Gives decode) v.childItems n.childList := by
  obtain ⟨fields, rfl, h⟩ := exists_readFrom hn
  cases hchildren : n.children with
  | none =>
      have hnone : Json.present? "children" fields = none := by
        have hrel := h.children
        rw [hchildren] at hrel
        exact eq_none_of_rel hrel
      rw [Json.childItems_absent hnone]
      simp [childList, hchildren]
  | some list =>
      obtain ⟨w, hw, hlist⟩ := exists_of_rel_right h.children hchildren
      obtain ⟨items, rfl, hall⟩ := decodeList_eq_ok_iff.mp hlist
      rw [Json.childItems_present hw]
      simpa [childList, hchildren] using hall

/-- No field of a decoded tree is named like a part. -/
theorem partsApart_of_decode (hn : decode v = .ok n) : ∀ m ∈ n.nodes, m.PartsApart := by
  induction n using child_induction generalizing v with
  | step n ih =>
      intro m hm
      rw [nodes_eq, List.mem_cons, List.mem_flatMap] at hm
      rcases hm with rfl | ⟨child, hchild, hm⟩
      · obtain ⟨fields, rfl, h⟩ := exists_readFrom hn
        exact h.partsApart
      · obtain ⟨item, -, hitem⟩ := exists_mem_of_forall₂ (decode_children hn).flip hchild
        exact ih child hchild hitem m hm

/-- No position in a decoded tree has an indent that is null. -/
theorem indent_of_decode (hn : decode v = .ok n) (hq : v.Reaches q) :
    q.step? (.key "indent") ≠ some .null := by
  induction hq generalizing n with
  | root hroot =>
      obtain ⟨fields, rfl, h⟩ := exists_readFrom hn
      obtain ⟨p, -, hp⟩ := exists_of_rel_left h.position hroot
      exact Position.indent_of_decode hp
  | child hitem hq ih =>
      obtain ⟨child, -, hchild⟩ := exists_mem_of_forall₂ (decode_children hn) hitem
      exact ih hchild

theorem ReadFrom.holdsNode (h : ReadFrom fields n)
    (hposition : ∀ q, Json.present? "position" fields = some q → q.WrittenOut) :
    Json.HoldsNode fields n := by
  refine ⟨h.type, h.data_eq, rel_imp h.position ?_, h.value⟩
  intro q p hq hp
  exact Position.writes_of_decode hp (hposition q hq)

/-- Where no list stands for a position or a point, decoding reads the node that a value writes. -/
theorem writesNode_of_decode (hn : decode v = .ok n) (hv : ∀ q, v.Reaches q → q.WrittenOut) :
    v.WritesNode n := by
  induction v using Json.node_induction generalizing n with
  | step v ih =>
      have hall := decode_children hn
      obtain ⟨fields, rfl, h⟩ := exists_readFrom hn
      have hparts := h.holdsNode fun q hq => hv q (.root hq)
      cases hchildren : n.children with
      | none =>
          have hrel := h.children
          rw [hchildren] at hrel
          exact .leaf hparts (eq_none_of_rel hrel) hchildren
      | some list =>
          obtain ⟨w, hw, hlist⟩ := exists_of_rel_right h.children hchildren
          obtain ⟨items, rfl, hitems⟩ := decodeList_eq_ok_iff.mp hlist
          obtain ⟨hlength, hzip⟩ := List.forall₂_iff_zip.mp hitems
          refine .parent hparts hw hchildren hlength ?_
          intro item child hmem
          have hitem : item ∈ (Json.object fields).childItems := by
            rw [Json.childItems_present hw]
            exact (List.of_mem_zip hmem).1
          exact ih item hitem (hzip hmem) fun q hq => hv q (.child hitem hq)

/-- An object with the shape of a node is read, if its children are and no indent is null. -/
theorem exists_decode_of_shape {required : Bool} {children : Option (List Node)}
    (hshape : Json.NodeShape required fields)
    (hnull : ∀ q, Json.present? "position" fields = some q → q.step? (.key "indent") ≠ some .null)
    (hchildren : Option.Rel (Json.Gives decodeList) (Json.present? "children" fields) children) :
    ∃ n, decode (.object fields) = .ok n := by
  obtain ⟨label, hlabel, -⟩ := hshape.type
  have hdata : ∀ v, Json.present? "data" fields = some v → ∃ d, Json.Gives Data.decode v d := by
    intro v hv
    obtain ⟨entries, rfl, -⟩ := hshape.data v hv
    exact ⟨⟨entries⟩, rfl⟩
  have hposition : ∀ q, Json.present? "position" fields = some q →
      ∃ p, Json.Gives Position.decode q p := by
    intro q hq
    obtain ⟨p, hp, -⟩ := hshape.position q hq
    exact ⟨p, Position.decode_of_writes hp (hnull q hq)⟩
  obtain ⟨data, hdata⟩ := exists_rel hdata
  obtain ⟨position, hposition⟩ := exists_rel hposition
  exact ⟨⟨label, data, position, children, Entries.get? "value" fields, _⟩,
    decode_object_iff.mpr ⟨hlabel, hdata, hposition, hchildren, rfl, rfl⟩⟩

/-- A tree in shape is read, unless an indent in it is null. -/
theorem exists_decode_of_conforms {required : Bool} (hv : v.Conforms required)
    (hnull : ∀ q, v.Reaches q → q.step? (.key "indent") ≠ some .null) :
    ∃ n, decode v = .ok n := by
  induction hv with
  | @leaf fields hshape hnone =>
      have hchildren : Option.Rel (Json.Gives decodeList) (Json.present? "children" fields) none := by
        rw [hnone]
        exact .none
      exact exists_decode_of_shape hshape (fun q hq => hnull q (.root hq)) hchildren
  | @parent fields items hshape hitems hall ih =>
      have hread : ∀ item ∈ items, ∃ n, Json.Gives decode item n := by
        intro item hitem
        have hchild : item ∈ (Json.object fields).childItems := by
          rwa [Json.childItems_present hitems]
        exact ih item hitem fun q hq => hnull q (.child hchild hq)
      obtain ⟨list, hlist⟩ := exists_forall₂ hread
      have hchildren : Option.Rel (Json.Gives decodeList) (Json.present? "children" fields)
          (some list) := by
        rw [hitems]
        exact .some (decodeList_eq_ok_iff.mpr ⟨items, rfl, hlist⟩)
      exact exists_decode_of_shape hshape (fun q hq => hnull q (.root hq)) hchildren

end Node

end TreeShape
