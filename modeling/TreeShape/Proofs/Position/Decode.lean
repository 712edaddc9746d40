import TreeShape.Node.Decode
import TreeShape.Proofs.Shape.Node
/- What decoding a point or a position reads: what the value writes, where no list stands for either
and no indent is null. -/
namespace TreeShape

section Except

variable {ε ε' α β : Type} {x : Except ε α} {a : α} {b : β}

theorem bind_eq_ok_iff {f : α → Except ε β} :
    (x >>= f) = .ok b ↔ ∃ a, x = .ok a ∧ f a = .ok b := by
  cases x with
  | error e => simp [bind, Except.bind]
  | ok a => simp [bind, Except.bind]

theorem map_eq_ok_iff {f : α → β} : x.map f = .ok b ↔ ∃ a, x = .ok a ∧ f a = b := by
  cases x with
  | error e => simp [Except.map]
  | ok a => simp [Except.map]

theorem mapError_eq_ok_iff {f : ε → ε'} : x.mapError f = .ok a ↔ x = .ok a := by
  cases x with
  | error e => simp [Except.mapError]
  | ok a => simp [Except.mapError]

theorem exists_ok_of_any {p : α → Bool} (h : x.toOption.any p) : ∃ a, x = .ok a ∧ p a := by
  cases x with
  | error e => cases h
  | ok a => exact ⟨a, rfl, h⟩

end Except

namespace Json

variable {α : Type} {key name : String} {fields : List (String × Json)} {v : Json} {n : Nat}
  {read : Json → Except DecodeError α} {a : α}

/-- Reading a value succeeds with a result. -/
def Gives (read : Json → Except DecodeError α) (v : Json) (a : α) : Prop := read v = .ok a

theorem decodeWord_eq_ok_iff : v.decodeWord = .ok n ↔ v = .nat n ∧ n < wordLimit := by
  constructor
  · intro h
    unfold decodeWord at h
    split at h
    · split at h
      · cases h
        exact ⟨rfl, by assumption⟩
      · cases h
    · cases h
    · cases h
  · rintro ⟨rfl, hlt⟩
    change (if n < wordLimit then Except.ok n else _) = .ok n
    rw [if_pos hlt]

theorem decodeField_eq_ok_iff {found : Option α} :
    decodeField key fields read = .ok found ↔
      Option.Rel (Gives read) (Entries.get? key fields) found := by
  unfold decodeField
  cases Entries.get? key fields with
  | none =>
      constructor
      · rintro ⟨⟩
        exact .none
      · rintro ⟨⟩
        rfl
  | some v =>
      rw [map_eq_ok_iff]
      constructor
      · rintro ⟨a, ha, rfl⟩
        exact .some ha
      · rintro (h | -)
        exact ⟨_, h, rfl⟩

theorem decodeField_eq_some_iff :
    decodeField key fields read = .ok (some a) ↔
      ∃ v, Entries.get? key fields = some v ∧ read v = .ok a := by
  rw [decodeField_eq_ok_iff]
  constructor
  · intro h
    obtain ⟨v, hv, ha⟩ := exists_of_rel_right h rfl
    exact ⟨v, hv, ha⟩
  · rintro ⟨v, hv, ha⟩
    rw [hv]
    exact .some ha

theorem required_eq_ok_iff {found : Option α} : required name found = .ok a ↔ found = some a := by
  cases found with
  | none => simp [required]
  | some a' => simp [required]

/-- A part that may be null is read where it is present. -/
theorem decodeOption_iff {part : Option α} :
    (∃ found, decodeField key fields (decodeOption read) = .ok found ∧ found.join = part) ↔
      Option.Rel (Gives read) (present? key fields) part := by
  simp only [decodeField_eq_ok_iff]
  cases hget : Entries.get? key fields with
  | none =>
      rw [present?_eq_none_iff.mpr (.inl hget)]
      constructor
      · rintro ⟨found, ⟨⟩, rfl⟩
        exact .none
      · rintro ⟨⟩
        exact ⟨none, .none, rfl⟩
  | some v =>
      -- A null is read as a part that is there and empty, which `join` makes one that is absent.
      by_cases hnull : v = .null
      · subst hnull
        rw [present?_eq_none_iff.mpr (.inr hget)]
        constructor
        · rintro ⟨found, ⟨h⟩, rfl⟩
          cases h
          exact .none
        · rintro ⟨⟩
          exact ⟨some none, .some rfl, rfl⟩
      · have hoption : decodeOption read v = (read v).map some := by
          cases v with
          | null => exact absurd rfl hnull
          | bool value => rfl
          | number value => rfl
          | string value => rfl
          | array items => rfl
          | object fields => rfl
        rw [present?_eq_some_iff.mpr ⟨hget, hnull⟩]
        constructor
        · rintro ⟨found, ⟨h⟩, rfl⟩
          rw [Gives, hoption, map_eq_ok_iff] at h
          obtain ⟨a, ha, rfl⟩ := h
          exact .some ha
        · rintro (h | -)
          exact ⟨_, .some (by rw [Gives, hoption, h]; rfl), rfl⟩

end Json

namespace Point

variable {fields : List (String × Json)} {v : Json} {p : Point}

theorem decode_object_iff : decode (.object fields) = .ok p ↔ (Json.object fields).WritesPoint p := by
  have hword : ∀ key n, Json.decodeField key fields Json.decodeWord = .ok (some n) ↔
      Json.Holds key fields n := by
    intro key n
    simp [Json.decodeField_eq_some_iff, Json.decodeWord_eq_ok_iff, Json.Holds]
  simp only [decode, bind_eq_ok_iff, Json.required_eq_ok_iff]
  constructor
  · rintro ⟨_, hcolumn, _, hline, _, hoffset, line, rfl, column, rfl, offset, rfl, ⟨⟩⟩
    exact ⟨fields, rfl, (hword _ _).mp hline, (hword _ _).mp hcolumn, (hword _ _).mp hoffset⟩
  · rintro ⟨fields, ⟨⟩, hline, hcolumn, hoffset⟩
    exact ⟨_, (hword _ _).mpr hcolumn, _, (hword _ _).mpr hline, _, (hword _ _).mpr hoffset, _, rfl,
      _, rfl, _, rfl, rfl⟩

theorem decode_of_writes (h : v.WritesPoint p) : decode v = .ok p := by
  obtain ⟨fields, rfl, hp⟩ := id h
  exact decode_object_iff.mpr h

/-- A point that is not written as a list is read from its coordinates. -/
theorem writes_of_decode (h : decode v = .ok p) (hv : ∀ items, v ≠ .array items) :
    v.WritesPoint p := by
  cases v with
  | object fields => exact decode_object_iff.mp h
  | array items => exact absurd rfl (hv items)
  | null => cases h
  | bool value => cases h
  | number value => cases h
  | string value => cases h

theorem present_of_decode {key : String}
    (h : ∃ v, Entries.get? key fields = some v ∧ decode v = .ok p)
    (hlist : ∀ items, Entries.get? key fields ≠ some (.array items)) :
    ∃ v, Json.present? key fields = some v ∧ v.WritesPoint p := by
  obtain ⟨v, hv, hp⟩ := h
  have hwrites := writes_of_decode hp fun items hitems => hlist items (hitems ▸ hv)
  refine ⟨v, Json.present?_eq_some_iff.mpr ⟨hv, ?_⟩, hwrites⟩
  obtain ⟨fields, rfl, -⟩ := hwrites
  simp

end Point

namespace Position

variable {fields : List (String × Json)} {v : Json} {p : Position}

theorem mapM_word?_eq_some_iff {items : List Json} {columns : List Nat} :
    items.mapM Json.word? = some columns ↔
      items = columns.map .nat ∧ ∀ column ∈ columns, column < Json.wordLimit := by
  constructor
  · intro h
    induction items generalizing columns with
    | nil =>
        cases h
        simp
    | cons item rest ih =>
        rw [List.mapM_cons] at h
        obtain ⟨column, hcolumn, h⟩ := Option.bind_eq_some_iff.mp h
        obtain ⟨later, hlater, h⟩ := Option.bind_eq_some_iff.mp h
        cases h
        obtain ⟨rfl, hlt⟩ := Json.word?_eq_some_iff.mp hcolumn
        obtain ⟨rfl, hall⟩ := ih hlater
        exact ⟨rfl, List.forall_mem_cons.mpr ⟨hlt, hall⟩⟩
  · rintro ⟨rfl, hall⟩
    induction columns with
    | nil => rfl
    | cons column later ih =>
        rw [List.forall_mem_cons] at hall
        rw [List.map_cons, List.mapM_cons, Json.word?_eq_some_iff.mpr ⟨rfl, hall.1⟩, ih hall.2]
        rfl

/-- An indent is read from a list of columns or from one; a null is neither. -/
theorem decodeIndent_eq_ok_iff {columns : List Nat} :
    decodeIndent v = .ok columns ↔ Json.WritesIndent (some v) columns := by
  unfold decodeIndent
  split
  · rename_i items
    rw [Json.WritesIndent, ← mapM_word?_eq_some_iff]
    split
    · rename_i hsome
      simp [hsome]
    · rename_i hnone
      simp [hnone]
  · rename_i hv
    have hsingle : Json.WritesIndent (some v) columns ↔
        ∃ column, v.word? = some column ∧ columns = [column] := by
      simp only [Json.word?_eq_some_iff, and_assoc]
      unfold Json.WritesIndent
      split
      · rename_i h
        cases h
      · rename_i h
        exact absurd (Option.some.inj h) (hv _)
      · rename_i h
        rw [Option.some.inj h]
    rw [hsingle]
    split
    · rename_i hsome
      simp [hsome, eq_comm]
    · rename_i hnone
      simp [hnone]

theorem decode_indent_iff {columns : List Nat} :
    (∃ found, Json.decodeField "indent" fields decodeIndent = .ok found ∧
      found.getD [] = columns) ↔ Json.WritesIndent (Entries.get? "indent" fields) columns := by
  simp only [Json.decodeField_eq_ok_iff]
  cases Entries.get? "indent" fields with
  | none =>
      constructor
      · rintro ⟨found, ⟨⟩, rfl⟩
        rfl
      · rintro rfl
        exact ⟨none, .none, rfl⟩
  | some v =>
      constructor
      · rintro ⟨found, ⟨h⟩, rfl⟩
        exact decodeIndent_eq_ok_iff.mp h
      · intro h
        exact ⟨some columns, .some (decodeIndent_eq_ok_iff.mpr h), rfl⟩

theorem decode_object_iff :
    decode (.object fields) = .ok p ↔
      (∃ v, Entries.get? "start" fields = some v ∧ Point.decode v = .ok p.start) ∧
        (∃ v, Entries.get? "end" fields = some v ∧ Point.decode v = .ok p.stop) ∧
        Json.WritesIndent (Entries.get? "indent" fields) p.indent := by
  simp only [decode, bind_eq_ok_iff, Json.required_eq_ok_iff, ← Json.decodeField_eq_some_iff,
    ← decode_indent_iff]
  constructor
  · rintro ⟨_, hstop, indent, hindent, _, hstart, start, rfl, stop, rfl, ⟨⟩⟩
    exact ⟨hstart, hstop, indent, hindent, rfl⟩
  · rintro ⟨hstart, hstop, indent, hindent, hcolumns⟩
    refine ⟨_, hstop, indent, hindent, _, hstart, _, rfl, _, rfl, ?_⟩
    rw [hcolumns]
    rfl

theorem indent_of_decode (h : decode v = .ok p) : v.step? (.key "indent") ≠ some .null := by
  cases v with
  | object fields =>
      intro hnull
      obtain ⟨-, -, hindent⟩ := decode_object_iff.mp h
      change Entries.get? "indent" fields = some .null at hnull
      rw [hnull] at hindent
      obtain ⟨column, hcolumn, -⟩ := hindent
      cases hcolumn
  | array items => simp [Json.step?]
  | null => cases h
  | bool value => cases h
  | number value => cases h
  | string value => cases h

/-- Where no list stands for a position or a point, reading a position is reading what it writes. -/
theorem writes_of_decode (h : decode v = .ok p) (hv : v.WrittenOut) : v.WritesPosition p := by
  have hnull := indent_of_decode h
  cases v with
  | object fields =>
      obtain ⟨hstart, hstop, hindent⟩ := decode_object_iff.mp h
      refine ⟨fields, rfl, Point.present_of_decode hstart hv.start,
        Point.present_of_decode hstop hv.stop, ?_⟩
      rwa [Json.present?_of_get? rfl hnull]
  | array items => exact absurd rfl (hv.position items)
  | null => cases h
  | bool value => cases h
  | number value => cases h
  | string value => cases h

/-- A written position is read, unless its indent is null. -/
theorem decode_of_writes (h : v.WritesPosition p) (hnull : v.step? (.key "indent") ≠ some .null) :
    decode v = .ok p := by
  obtain ⟨fields, rfl, h⟩ := h
  have hindent := h.indent
  rw [Json.present?_of_get? rfl hnull] at hindent
  obtain ⟨start, hstart, hstartPoint⟩ := h.start
  obtain ⟨stop, hstop, hstopPoint⟩ := h.stop
  exact decode_object_iff.mpr
    ⟨⟨start, (Json.present?_eq_some_iff.mp hstart).1, Point.decode_of_writes hstartPoint⟩,
      ⟨stop, (Json.present?_eq_some_iff.mp hstop).1, Point.decode_of_writes hstopPoint⟩, hindent⟩

end Position

end TreeShape
