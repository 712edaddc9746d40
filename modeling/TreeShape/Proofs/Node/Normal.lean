import TreeShape.Proofs.Json.Ordered
import TreeShape.Proofs.Node.Decode
import TreeShape.Proofs.Shape.Normal
/- Decoding a tree and writing it again brings it into normal form, and decoding that gives the same
tree. -/
namespace TreeShape

theorem Json.mapM_eq_ok_iff {α : Type} {read : Json → Except DecodeError α} {items : List Json}
    {list : List α} : items.mapM read = .ok list ↔ List.Forall₂ (Json.Gives read) items list := by
  induction items generalizing list with
  | nil =>
      constructor
      · rintro ⟨⟩
        exact .nil
      · rintro ⟨⟩
        rfl
  | cons item rest ih =>
      simp only [List.mapM_cons, bind_eq_ok_iff, ih]
      constructor
      · rintro ⟨a, ha, later, hlater, ⟨⟩⟩
        exact .cons ha hlater
      · rintro (_ | ⟨ha, hlater⟩)
        exact ⟨_, ha, _, hlater, rfl⟩

namespace Point

variable {v : Json} {p : Point}

theorem decode_array {items : List Json} (h : decode (.array items) = .ok p) :
    items = [.nat p.line, .nat p.column, .nat p.offset] ∧ p.Fits := by
  obtain ⟨coordinates, hread, h⟩ := bind_eq_ok_iff.mp h
  rw [Json.mapM_eq_ok_iff] at hread
  split at h
  · split at h
    · rename_i hlength
      cases h
      rw [List.take_of_length_le (Nat.le_of_eq hlength)] at hread
      cases hread with
      | cons hline hread =>
          cases hread with
          | cons hcolumn hread =>
              cases hread with
              | cons hoffset hread =>
                  cases hread
                  obtain ⟨rfl, hlineFits⟩ := Json.decodeWord_eq_ok_iff.mp hline
                  obtain ⟨rfl, hcolumnFits⟩ := Json.decodeWord_eq_ok_iff.mp hcolumn
                  obtain ⟨rfl, hoffsetFits⟩ := Json.decodeWord_eq_ok_iff.mp hoffset
                  exact ⟨rfl, hlineFits, hcolumnFits, hoffsetFits⟩
    · cases h
  · cases h

/-- A point is read from its three coordinates, which fit words. -/
theorem parts_of_decode (h : decode v = .ok p) :
    v.PointParts (.nat p.line) (.nat p.column) (.nat p.offset) ∧ p.Fits := by
  cases v with
  | object fields =>
      obtain ⟨_, ⟨⟩, hline, hcolumn, hoffset⟩ := decode_object_iff.mp h
      exact ⟨.fields hline.1 hcolumn.1 hoffset.1, hline.2, hcolumn.2, hoffset.2⟩
  | array items =>
      obtain ⟨rfl, hfits⟩ := decode_array h
      exact ⟨.items _ _ _, hfits⟩
  | null => cases h
  | bool value => cases h
  | number value => cases h
  | string value => cases h

theorem normal_of_decode (h : decode v = .ok p) : v.NormalPoint p.toJson :=
  ⟨_, _, _, (parts_of_decode h).1, rfl⟩

end Point

namespace Position

variable {v : Json} {p : Position}

theorem normal_of_writesIndent {indent : Option Json} {columns : List Nat}
    (h : Json.WritesIndent indent columns) :
    Json.NormalIndent indent (.array (columns.map Json.nat)) := by
  unfold Json.WritesIndent at h
  split at h
  · rw [h]
    exact .absent
  · obtain ⟨rfl, -⟩ := h
    exact .list _
  · obtain ⟨column, rfl, -, rfl⟩ := h
    exact .single column

theorem decode_array {items : List Json} (h : decode (.array items) = .ok p) :
    ∃ start stop indent, (Json.array items).PositionParts start stop indent ∧
      Point.decode start = .ok p.start ∧ Point.decode stop = .ok p.stop ∧
      Json.WritesIndent indent p.indent := by
  match items, h with
  | [], h => cases h
  | [start], h =>
    obtain ⟨point, -, h⟩ := bind_eq_ok_iff.mp h
    cases h
  | [start, stop], h =>
    obtain ⟨first, hstart, h⟩ := bind_eq_ok_iff.mp h
    obtain ⟨last, hstop, h⟩ := bind_eq_ok_iff.mp h
    cases h
    exact ⟨start, stop, none, .pair start stop, hstart, hstop, rfl⟩
  | start :: stop :: indent :: more, h =>
    obtain ⟨first, hstart, h⟩ := bind_eq_ok_iff.mp h
    obtain ⟨last, hstop, h⟩ := bind_eq_ok_iff.mp h
    obtain ⟨columns, hindent, h⟩ := bind_eq_ok_iff.mp h
    cases more with
    | nil =>
        cases h
        exact ⟨start, stop, some indent, .triple start stop indent, hstart, hstop,
          decodeIndent_eq_ok_iff.mp hindent⟩
    | cons next rest => cases h

/-- A position is read from its two points and its indent, in either of its forms. -/
theorem parts_of_decode (h : decode v = .ok p) :
    ∃ start stop indent, v.PositionParts start stop indent ∧ Point.decode start = .ok p.start ∧
      Point.decode stop = .ok p.stop ∧ Json.WritesIndent indent p.indent := by
  cases v with
  | object fields =>
      obtain ⟨⟨start, hstart, hfirst⟩, ⟨stop, hstop, hlast⟩, hindent⟩ := decode_object_iff.mp h
      exact ⟨start, stop, _, .fields hstart hstop, hfirst, hlast, hindent⟩
  | array items => exact decode_array h
  | null => cases h
  | bool value => cases h
  | number value => cases h
  | string value => cases h

theorem normal_of_decode (h : decode v = .ok p) : v.NormalPosition p.toJson := by
  obtain ⟨start, stop, indent, hparts, hstart, hstop, hindent⟩ := parts_of_decode h
  exact ⟨start, stop, indent, _, _, _, hparts, Point.normal_of_decode hstart,
    Point.normal_of_decode hstop, normal_of_writesIndent hindent, rfl⟩

theorem fits_of_decode (h : decode v = .ok p) : p.Fits := by
  obtain ⟨start, stop, indent, -, hstart, hstop, hindent⟩ := parts_of_decode h
  exact ⟨(Point.parts_of_decode hstart).2, (Point.parts_of_decode hstop).2, hindent.fits⟩

/-- A position with coordinates that fit words is read back from its JSON value. -/
theorem decode_toJson (h : p.Fits) : decode p.toJson = .ok p := by
  refine decode_of_writes (writes_toJson h) ?_
  simp [toJson, Json.step?, Entries.get?, indentJson]

end Position

namespace Node

variable {fields : List (String × Json)} {v : Json} {n : Node}

/-- What decoding keeps of a tree: no field is named like a part, fields are in order, and coordinates
fit words. -/
structure Sound (n : Node) : Prop where
  apart : n.PartsApart
  keys : Entries.Sorted n.fields
  fits : n.Fits

/-- The JSON value of a node has its parts, and beside them the other fields. -/
structure Written (n : Node) (fields : List (String × Json)) : Prop extends n.Parts fields where
  keys : Entries.Sorted fields
  others : ∀ key ∉ partKeys, Entries.get? key fields = Entries.get? key n.fields

theorem exists_written (hn : n.PartsApart) (hkeys : Entries.Sorted n.fields) :
    ∃ fields, n.toJson = .object fields ∧ n.Written fields := by
  obtain ⟨fields, hjson, hparts⟩ := hn.exists_parts
  have hfields := hjson
  rw [toJson_eq, Json.object.injEq] at hfields
  refine ⟨fields, hjson, hparts, ?_, ?_⟩
  · rw [← hfields]
    exact Entries.sorted_ofList _
  · intro key hkey
    simp only [partKeys, List.mem_cons, List.not_mem_nil, or_false, not_or] at hkey
    obtain ⟨htype, hdata, hposition, hchildren, hvalue⟩ := hkey
    rw [← hfields, Entries.get?_ofList]
    simp [entries, Entries.get?_append, get?_reverse_entry, Entries.get?, hkeys.get?_reverse,
      Ne.symm htype, Ne.symm hdata, Ne.symm hposition, Ne.symm hchildren, Ne.symm hvalue]

/-- The other fields are what is left of the JSON value without the parts. -/
theorem Written.fields_eq (h : n.Written fields) (hn : n.Sound) :
    n.fields = fields.filter fun field => ¬ partKeys.contains field.1 := by
  refine hn.keys.ext (h.keys.filter _) fun key => ?_
  rw [Entries.get?_filter (fun key => ¬ partKeys.contains key)]
  by_cases hkey : key ∈ partKeys
  · have hnone := hn.apart key hkey
    rw [Entries.contains, Option.isSome_eq_false_iff, Option.isNone_iff_eq_none] at hnone
    simp [hkey, hnone]
  · simp [hkey, h.others key hkey]

theorem Written.readFrom (h : n.Written fields) (hn : n.Sound)
    (hchildren : ∀ child ∈ n.childList, decode child.toJson = .ok child) : ReadFrom fields n := by
  refine ⟨h.type, ?_, ?_, ?_, h.value, h.fields_eq hn⟩
  · rw [h.present_data]
    cases n.data with
    | none => exact .none
    | some d => exact .some rfl
  · rw [h.present_position]
    cases hposition : n.position with
    | none => exact .none
    | some p => exact .some (Position.decode_toJson (hn.fits p hposition))
  · rw [h.present_children]
    cases hlist : n.children with
    | none => exact .none
    | some list =>
        refine .some (decodeList_eq_ok_iff.mpr ⟨list.map toJson, rfl, ?_⟩)
        rw [List.forall₂_map_left_iff, List.forall₂_same]
        intro child hchild
        exact hchildren child (by simpa [childList, hlist] using hchild)

/-- A sound tree is read back from its JSON value. -/
theorem decode_toJson (hn : ∀ m ∈ n.nodes, m.Sound) : decode n.toJson = .ok n := by
  induction n using child_induction with
  | step n ih =>
      have hself := hn n n.self_mem_nodes
      obtain ⟨fields, hjson, hwritten⟩ := exists_written hself.apart hself.keys
      rw [hjson, decode_object_iff]
      refine hwritten.readFrom hself fun child hchild => ?_
      exact ih child hchild fun m hm => hn m (mem_nodes_of_child hchild hm)

theorem ReadFrom.sound (h : ReadFrom fields n) (hkeys : Entries.Sorted fields) : n.Sound := by
  refine ⟨h.partsApart, ?_, ?_⟩
  · rw [h.others]
    exact hkeys.filter _
  · intro p hp
    obtain ⟨q, -, hq⟩ := exists_of_rel_right h.position hp
    exact Position.fits_of_decode hq

theorem ordered_of_mem_childItems {item : Json} (hv : v.Ordered) (hitem : item ∈ v.childItems) :
    item.Ordered := by
  obtain ⟨fields, items, rfl, hitems⟩ := Json.exists_of_mem_childItems hitem
  rw [Json.childItems_object hitems] at hitem
  exact (hv.of_get? hitems).of_mem hitem

/-- Every node of a decoded tree is sound. -/
theorem sound_of_decode (hn : decode v = .ok n) (hv : v.Ordered) : ∀ m ∈ n.nodes, m.Sound := by
  induction n using child_induction generalizing v with
  | step n ih =>
      intro m hm
      rw [nodes_eq, List.mem_cons, List.mem_flatMap] at hm
      rcases hm with rfl | ⟨child, hchild, hm⟩
      · obtain ⟨fields, rfl, h⟩ := exists_readFrom hn
        exact h.sound hv.keys
      · obtain ⟨item, hitem, hdecode⟩ := exists_mem_of_forall₂ (decode_children hn).flip hchild
        exact ih child hchild hdecode (ordered_of_mem_childItems hv hitem) m hm

theorem ReadFrom.normalFields {fields' : List (String × Json)} (h : ReadFrom fields n)
    (h' : n.Written fields') : Json.NormalFields fields fields' := by
  refine ⟨h'.keys, ?_, ?_, ?_⟩
  · rw [h'.data, h.data_eq]
  · rw [h'.position]
    cases hposition : n.position with
    | none =>
        have hrel := h.position
        rw [hposition] at hrel
        rw [eq_none_of_rel hrel]
        exact .none
    | some p =>
        obtain ⟨q, hq, hread⟩ := exists_of_rel_right h.position hposition
        rw [hq]
        exact .some (Position.normal_of_decode hread)
  · intro key hkey
    by_cases htype : key = "type"
    · rw [htype, h'.type, h.type]
    · by_cases hvalue : key = "value"
      · rw [hvalue, h'.value, h.value]
      · have hpart : key ∉ partKeys := by
          simp only [partKeys, List.mem_cons, List.not_mem_nil, or_false, not_or] at hkey ⊢
          exact ⟨htype, hkey.1, hkey.2.1, hkey.2.2, hvalue⟩
        rw [h'.others key hpart, h.others,
          Entries.get?_filter (fun key => ¬ partKeys.contains key)]
        simp [hpart]

/-- The JSON value of a decoded tree is the normal form of what was decoded. -/
theorem normal_of_decode (hn : decode v = .ok n) (hv : v.Ordered) : v.Normal n.toJson := by
  induction v using Json.node_induction generalizing n with
  | step v ih =>
      have hsound := sound_of_decode hn hv n n.self_mem_nodes
      have hall := decode_children hn
      obtain ⟨fields, rfl, h⟩ := exists_readFrom hn
      obtain ⟨fields', hjson, hwritten⟩ := exists_written hsound.apart hsound.keys
      have hparts := h.normalFields hwritten
      rw [hjson]
      cases hchildren : n.children with
      | none =>
          have hrel := h.children
          rw [hchildren] at hrel
          refine .leaf hparts (eq_none_of_rel hrel) ?_
          rw [hwritten.children, hchildren]
          rfl
      | some list =>
          obtain ⟨w, hw, hlist⟩ := exists_of_rel_right h.children hchildren
          obtain ⟨items, rfl, -⟩ := decodeList_eq_ok_iff.mp hlist
          have hnodes : n.childList = list := by simp [childList, hchildren]
          rw [Json.childItems_present hw, hnodes] at hall
          rw [Json.childItems_present hw] at ih
          have hitem : ∀ item ∈ items, item.Ordered := fun item hitem =>
            ordered_of_mem_childItems hv (by rwa [Json.childItems_present hw])
          have hwrittenItems : Entries.get? "children" fields' = some (.array (list.map toJson)) := by
            rw [hwritten.children, hchildren]
            rfl
          refine .parent hparts hw hwrittenItems ?_ ?_
          · rw [List.length_map, hall.length_eq]
          · intro item item' hmem
            rw [List.zip_map_right, List.mem_map] at hmem
            obtain ⟨⟨item, child⟩, hmem, heq⟩ := hmem
            cases heq
            have hread := (List.forall₂_iff_zip.mp hall).2 hmem
            exact ih item (List.of_mem_zip hmem).1 hread (hitem item (List.of_mem_zip hmem).1)

/-- Writing a decoded tree brings the value it was decoded from into normal form and loses nothing:
decoding the result gives the same tree. No field of a decoded node is named like a part. -/
theorem reencoded_normal (v : Json) (n : Node) (hn : decode v = .ok n) (hv : v.Ordered) :
    v.Normal n.toJson ∧ (∀ m ∈ n.nodes, m.PartsApart) ∧ decode n.toJson = .ok n :=
  ⟨normal_of_decode hn hv, partsApart_of_decode hn, decode_toJson (sound_of_decode hn hv)⟩

/-- A list stands for the position of the root and for one of its points, and there is one column. -/
theorem reencoded_normal_listed :
    let stop := Json.object [("column", .nat 2), ("line", .nat 2), ("note", .null), ("offset", .nat 4)]
    let start := Json.array [.nat 1, .nat 1, .nat 0]
    let child := Json.object [("children", .null), ("type", .string "text"), ("value", .null)]
    let v := Json.object [("children", .array [child]), ("data", .null), ("lang", .string "en"),
      ("position", .array [start, stop, .nat 2]), ("type", .string "root")]
    let position := Json.object [("end", (Point.mk 2 2 4).toJson), ("indent", .array [.nat 2]),
      ("start", (Point.mk 1 1 0).toJson)]
    let child' := Json.object [("type", .string "text"), ("value", .null)]
    let w := Json.object [("children", .array [child']), ("lang", .string "en"),
      ("position", position), ("type", .string "root")]
    let n := ((Node.parent "root" [.literal "text" .null]).placedAt
      ⟨⟨1, 1, 0⟩, ⟨2, 2, 4⟩, [2]⟩).withField "lang" (.string "en")
    decode v = .ok n ∧ v.Ordered ∧ v.Normal w ∧ decode w = .ok n := by
  intro stop start child v position child' w n
  have hn : decode v = .ok n := by rfl
  have hw : n.toJson = w := by rfl
  have hv : v.Ordered := by
    simp [v, start, stop, child, Json.ordered_object_iff, Json.ordered_array_iff, Json.nat,
      Json.Ordered.null, Json.Ordered.number, Json.Ordered.string]
    decide
  obtain ⟨hnormal, -, hagain⟩ := reencoded_normal v n hn hv
  rw [hw] at hnormal hagain
  exact ⟨hn, hv, hnormal, hagain⟩

end Node

end TreeShape
