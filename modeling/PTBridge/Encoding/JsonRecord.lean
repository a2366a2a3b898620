import PTBridge.Stream.Bytes

/-!
# Records as JSON objects

A record is the list of its values, and a table says under which name each of them is written,
what kind it has and whether it is left out when it is empty, as the tags of a Go struct do. JSON is
taken as trees, with the strings as their bytes.

- `marshal` writes the members of an object. `unmarshal` reads a record into zero values: members
  of other names are ignored, a value of the wrong kind is an error.
- `unmarshal_marshal`: what is written is read back.
- `Record` ties a type to its table; `Record.Keeps` says that no field that was set has changed.
-/

namespace PTBridge.Encoding

open PTBridge.Stream

inductive Json where
  | null
  | bool (b : Bool)
  | str (s : Bytes)
  | arr (elements : List Json)
  | obj (members : List (String × Json))

namespace JsonRecord

/-- The kinds of fields. -/
inductive Kind where
  | text
  | flag
  /-- a pointer to a flag -/
  | flagPtr
  deriving DecidableEq

inductive Value where
  | text (s : Bytes)
  | flag (b : Bool)
  | flagPtr (b : Option Bool)
  deriving DecidableEq

namespace Value

def kind : Value → Kind
  | text _ => .text
  | flag _ => .flag
  | flagPtr _ => .flagPtr

/-- The empty values of `omitempty`: a pointer is empty only if it is nil. -/
def isEmpty : Value → Bool
  | text s => s.isEmpty
  | flag b => !b
  | flagPtr b => b.isNone

def toJson : Value → Json
  | text s => .str s
  | flag b => .bool b
  | flagPtr none => .null
  | flagPtr (some b) => .bool b

/-- The value of a text field. -/
def asText : Value → Bytes
  | text s => s
  | _ => []

def asFlag : Value → Bool
  | flag b => b
  | _ => false

def asFlagPtr : Value → Option Bool
  | flagPtr b => b
  | _ => none

end Value

/-- The zero value, which a field has before anything is read into it. -/
def Kind.zero : Kind → Value
  | .text => .text []
  | .flag => .flag false
  | .flagPtr => .flagPtr none

/-- A value is read into a field; `null` leaves it as it is. -/
def Kind.fromJson : Kind → Json → Option Value
  | kind, .null => some kind.zero
  | .text, .str s => some (.text s)
  | .flag, .bool b => some (.flag b)
  | .flagPtr, .bool b => some (.flagPtr (some b))
  | _, _ => none

structure Field where
  name : String
  kind : Kind
  omitEmpty : Bool

/-- The fields of a record type, under distinct names. -/
structure Table where
  fields : List Field
  nodup : (fields.map Field.name).Nodup

/-- The members for fields and their values. -/
def members : List (Field × Value) → List (String × Json)
  | [] => []
  | (f, v) :: rest =>
      if f.omitEmpty && v.isEmpty then members rest else (f.name, v.toJson) :: members rest

/-- The value under a name; the last one if it is there twice. -/
def member (name : String) : List (String × Json) → Option Json
  | [] => none
  | (n, j) :: rest =>
      match member name rest with
      | some j' => some j'
      | none => if n = name then some j else none

/-- What is read into a field, from the member of its name if there is one. -/
def Field.read (f : Field) (ms : List (String × Json)) : Option Value :=
  match member f.name ms with
  | none => some f.kind.zero
  | some j => f.kind.fromJson j

def Table.marshal (t : Table) (values : List Value) : Json := .obj (members (t.fields.zip values))

def Table.unmarshal (t : Table) : Json → Option (List Value)
  | .null => some (t.fields.map fun f => f.kind.zero)
  | .obj ms => t.fields.mapM fun f => f.read ms
  | _ => none

/-! ## Round trip -/

theorem Value.fromJson_toJson (v : Value) : v.kind.fromJson v.toJson = some v := by
  cases v with
  | text s => rfl
  | flag b => rfl
  | flagPtr b => cases b <;> rfl

theorem Value.zero_of_isEmpty {v : Value} (h : v.isEmpty = true) : v.kind.zero = v := by
  cases v with
  | text s =>
    obtain rfl : s = [] := List.isEmpty_iff.mp h
    rfl
  | flag b =>
    obtain rfl : b = false := by simpa [Value.isEmpty] using h
    rfl
  | flagPtr b =>
    obtain rfl : b = none := by simpa [Value.isEmpty] using h
    rfl

section RoundTrip

variable {record : List (Field × Value)} {f : Field} {v : Value} {name : String}

/-- A name that no field has is not written. -/
theorem member_of_notMem (h : name ∉ record.map fun p => p.1.name) :
    member name (members record) = none := by
  induction record with
  | nil => rfl
  | cons p record ih =>
    obtain ⟨f, v⟩ := p
    rw [List.map_cons, List.mem_cons, not_or] at h
    have hrest := ih h.2
    rw [members]
    split
    · exact hrest
    · rw [member, hrest]
      exact if_neg (Ne.symm h.1)

/-- A field is found under its name, unless it was left out. -/
theorem member_members (hnodup : (record.map fun p => p.1.name).Nodup) (hin : (f, v) ∈ record) :
    member f.name (members record) =
      if f.omitEmpty && v.isEmpty then none else some v.toJson := by
  induction record with
  | nil => cases hin
  | cons p record ih =>
    obtain ⟨g, w⟩ := p
    rw [List.map_cons, List.nodup_cons] at hnodup
    rw [members]
    rcases List.mem_cons.mp hin with heq | hrest
    · -- no later field has the name
      cases heq
      have hnone := member_of_notMem hnodup.1
      split
      · exact hnone
      · rw [member, hnone]
        exact if_pos rfl
    · have hne : g.name ≠ f.name := by
        intro hname
        apply hnodup.1
        exact List.mem_map.mpr ⟨(f, v), hrest, hname.symm⟩
      rw [← ih hnodup.2 hrest]
      split
      · rfl
      · rw [member, if_neg hne]
        split
        · rename_i hsome
          exact hsome.symm
        · rename_i hnone
          exact hnone.symm

theorem read_members (hnodup : (record.map fun p => p.1.name).Nodup) (hin : (f, v) ∈ record)
    (hkind : v.kind = f.kind) : f.read (members record) = some v := by
  rw [Field.read, member_members hnodup hin, ← hkind]
  by_cases hskip : (f.omitEmpty && v.isEmpty) = true
  · rw [if_pos hskip]
    exact congrArg some (Value.zero_of_isEmpty (Bool.and_eq_true_iff.mp hskip).2)
  · rw [if_neg hskip]
    exact v.fromJson_toJson

/-- Reading all fields, each of them back to its value. -/
theorem mapM_zip {g : Field → Option Value} :
    ∀ {fields : List Field} {values : List Value}, fields.length = values.length →
      (∀ p ∈ fields.zip values, g p.1 = some p.2) → fields.mapM g = some values
  | [], [], _, _ => rfl
  | f :: fields, v :: values, hlen, h => by
    have hhead := h (f, v) (by simp)
    have htail : fields.mapM g = some values := mapM_zip (by simpa using hlen)
      fun p hp => h p (by simp [hp])
    simp [List.mapM_cons, hhead, htail]

end RoundTrip

/-- A record that is written is read back. -/
theorem unmarshal_marshal (t : Table) {values : List Value}
    (hkinds : values.map Value.kind = t.fields.map Field.kind) :
    t.unmarshal (t.marshal values) = some values := by
  have hlen : t.fields.length = values.length := by
    simpa using (congrArg List.length hkinds).symm
  have hnames : ((t.fields.zip values).map fun p => p.1.name) = t.fields.map Field.name := by
    have hfst := List.map_fst_zip (Nat.le_of_eq hlen)
    rw [← congrArg (List.map Field.name) hfst, List.map_map]
    rfl
  apply mapM_zip hlen
  intro p hp
  refine read_members (hnames ▸ t.nodup) hp ?_
  obtain ⟨i, hi⟩ := List.mem_iff_getElem?.mp hp
  obtain ⟨hf, hv⟩ := List.getElem?_zip_eq_some.mp hi
  have hk := congrArg (·[i]?) hkinds
  simpa [hf, hv] using hk

/-! ## Record types -/

/-- A type whose elements are given by the values of a table's fields. -/
structure Record (α : Type) where
  table : Table
  values : α → List Value
  ofValues : List Value → α
  kinds : ∀ r, (values r).map Value.kind = table.fields.map Field.kind
  ofValues_values : ∀ r, ofValues (values r) = r

namespace Record

variable {α : Type} (R : Record α)

def marshal (r : α) : Json := R.table.marshal (R.values r)

def unmarshal (j : Json) : Option α := (R.table.unmarshal j).map R.ofValues

/-- A list of records; `null` and no member at all are the empty list. -/
def marshalList (rs : List α) : Json := .arr (rs.map R.marshal)

def unmarshalList : Option Json → Option (List α)
  | none | some .null => some []
  | some (.arr js) => js.mapM R.unmarshal
  | some _ => none

/-- Every field that is not empty in `r` has the same value in `r'`. -/
def Keeps (r r' : α) : Prop :=
  ∀ (i : Nat) (v : Value), (R.values r)[i]? = some v → v.isEmpty = false → (R.values r')[i]? = some v

theorem unmarshal_marshal (r : α) : R.unmarshal (R.marshal r) = some r := by
  rw [unmarshal, marshal, JsonRecord.unmarshal_marshal R.table (R.kinds r), Option.map_some,
    R.ofValues_values]

theorem unmarshalList_marshalList (rs : List α) :
    R.unmarshalList (some (R.marshalList rs)) = some rs := by
  rw [marshalList, unmarshalList, List.mapM_map]
  induction rs with
  | nil => rfl
  | cons r rs ih => simp [List.mapM_cons, R.unmarshal_marshal, ih]

theorem Keeps.refl (r : α) : R.Keeps r r := fun _ _ hv _ => hv

end Record

end JsonRecord

end PTBridge.Encoding
