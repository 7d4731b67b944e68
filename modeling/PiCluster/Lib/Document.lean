/-
JSON documents, structural schemas that admit them, and readers of records whose
fields are required, optional or have a default.  A reader's laws say which of
the documents a schema admits it can read.
-/
import PiCluster.Lib.Text

namespace Document

open Text

inductive Json where
  | null
  | bool (value : Bool)
  | int (value : Int)
  | float (text : Str)
  | str (value : Str)
  | arr (items : List Json)
  | obj (fields : List (Str × Json))

/-- An object is a finite map, kept as its members: the first of a name is its value. -/
abbrev Fields := List (Str × Json)

/-- `oneOf` is a string with an enumeration. -/
inductive Schema where
  | string
  | oneOf (allowed : List Str)
  | boolean
  | integer (minimum : Option Int)
  | array (items : Schema)
  | object (required : List Str) (properties : List (Str × Schema))

mutual

/-- Members without a property are not looked at. -/
def Schema.admits : Schema → Json → Bool
  | .string, .str _ => true
  | .oneOf allowed, .str value => allowed.contains value
  | .boolean, .bool _ => true
  | .integer minimum, .int value => minimum.all fun bound => decide (bound ≤ value)
  | .array items, .arr values => values.all items.admits
  | .object required properties, .obj fields =>
      required.all (fun name => (fields.lookup name).isSome) && admitsAll properties fields
  | _, _ => false

def admitsAll : List (Str × Schema) → Fields → Bool
  | [], _ => true
  | (name, schema) :: rest, fields =>
      (fields.lookup name).all schema.admits && admitsAll rest fields

end

section Admission

variable {fields : Fields} {name : Str} {value : Json}

/-- The member is there and its value is of the kind. -/
def Has (name : Str) (kind : Json → Prop) (fields : Fields) : Prop :=
  ∃ value, fields.lookup name = some value ∧ kind value

/-- The member is absent or its value is of the kind. -/
def MayHave (name : Str) (kind : Json → Prop) (fields : Fields) : Prop :=
  ∀ value, fields.lookup name = some value → kind value

theorem mayHave_true : MayHave name (fun _ => True) fields :=
  fun _ _ => trivial

def Present (name : Str) : Fields → Prop :=
  Has name fun _ => True

/-- The member, if it is there, is admitted by the schema. -/
def Typed (schema : Schema) (name : Str) : Fields → Prop :=
  MayHave name fun value => schema.admits value = true

theorem admitsAll_iff {properties : List (Str × Schema)} :
    admitsAll properties fields = true ↔
      ∀ property ∈ properties, Typed property.2 property.1 fields := by
  induction properties with
  | nil => simp [admitsAll]
  | cons property rest ih =>
      obtain ⟨name, schema⟩ := property
      simp only [admitsAll, Bool.and_eq_true, ih, List.forall_mem_cons, Typed, MayHave]
      refine and_congr_left' ?_
      cases fields.lookup name <;> simp

theorem admits_object_iff {required : List Str} {properties : List (Str × Schema)} :
    (Schema.object required properties).admits (.obj fields) = true ↔
      (∀ name ∈ required, Present name fields) ∧
        ∀ property ∈ properties, Typed property.2 property.1 fields := by
  simp [Schema.admits, admitsAll_iff, Present, Has, Option.isSome_iff_exists]

theorem not_admits_null (schema : Schema) : schema.admits .null = false := by
  cases schema <;> simp [Schema.admits]

theorem exists_obj_of_admits {required : List Str} {properties : List (Str × Schema)}
    (hadmits : (Schema.object required properties).admits value = true) :
    ∃ fields, value = .obj fields := by
  cases value with
  | obj fields => exact ⟨fields, rfl⟩
  | null | bool | int | float | str | arr => simp [Schema.admits] at hadmits

theorem exists_str_of_admits (hadmits : Schema.string.admits value = true) :
    ∃ text, value = .str text := by
  cases value with
  | str text => exact ⟨text, rfl⟩
  | null | bool | int | float | arr | obj => simp [Schema.admits] at hadmits

theorem admits_str (content : Str) : Schema.string.admits (.str content) = true := rfl

theorem exists_bool_of_admits (hadmits : Schema.boolean.admits value = true) :
    ∃ flag, value = .bool flag := by
  cases value with
  | bool flag => exact ⟨flag, rfl⟩
  | null | int | float | str | arr | obj => simp [Schema.admits] at hadmits

theorem exists_int_of_admits {minimum : Option Int}
    (hadmits : (Schema.integer minimum).admits value = true) : ∃ n, value = .int n := by
  cases value with
  | int n => exact ⟨n, rfl⟩
  | null | bool | float | str | arr | obj => simp [Schema.admits] at hadmits

theorem exists_arr_of_admits {items : Schema}
    (hadmits : (Schema.array items).admits value = true) :
    ∃ values, value = .arr values ∧ ∀ item ∈ values, items.admits item = true := by
  cases value with
  | arr values => exact ⟨values, rfl, by simpa [Schema.admits] using hadmits⟩
  | null | bool | int | float | str | obj => simp [Schema.admits] at hadmits

theorem exists_tag_of_admits {allowed : List Str}
    (hadmits : (Schema.oneOf allowed).admits value = true) :
    ∃ tag ∈ allowed, value = .str tag := by
  cases value with
  | str tag => exact ⟨tag, by simpa [Schema.admits] using hadmits, rfl⟩
  | null | bool | int | float | arr | obj => simp [Schema.admits] at hadmits

theorem mem_of_lookup_eq_some {β : Type} {members : List (Str × β)} {member : β}
    (hlookup : members.lookup name = some member) : (name, member) ∈ members := by
  obtain ⟨before, after, rfl, _⟩ := List.lookup_eq_some_iff.mp hlookup
  simp

theorem lookup_of_mem {β : Type} {members : List (Str × β)} {member : Str × β}
    (hnames : (members.map Prod.fst).Nodup) (hmem : member ∈ members) :
    members.lookup member.1 = some member.2 := by
  induction members with
  | nil => cases hmem
  | cons head rest ih =>
      obtain ⟨key, entry⟩ := head
      rw [List.map_cons, List.nodup_cons] at hnames
      rcases List.mem_cons.mp hmem with rfl | hrest
      · simp
      · have hkey : member.1 ∈ rest.map Prod.fst := List.mem_map_of_mem hrest
        have hne : (member.1 == key) = false := by
          rw [beq_eq_false_iff_ne]
          rintro rfl
          exact hnames.1 hkey
        rw [List.lookup_cons, hne]
        exact ih hnames.2 hrest

/-- A written member has a property, which admits it. -/
def Fits (properties : List (Str × Schema)) (field : Str × Json) : Prop :=
  ∃ schema, properties.lookup field.1 = some schema ∧ schema.admits field.2 = true

theorem admits_object_of_fits {properties : List (Str × Schema)}
    (hnames : (properties.map Prod.fst).Nodup) (hfits : ∀ field ∈ fields, Fits properties field) :
    (Schema.object [] properties).admits (.obj fields) = true := by
  rw [admits_object_iff]
  refine ⟨List.forall_mem_nil _, ?_⟩
  intro property hproperty value hlookup
  obtain ⟨schema, hschema, hadmits⟩ := hfits _ (mem_of_lookup_eq_some hlookup)
  rw [lookup_of_mem hnames hproperty] at hschema
  obtain rfl := Option.some.inj hschema
  exact hadmits

/-- The written member of an option: none is omitted. -/
def member {α : Type} (name : Str) (write : α → Json) : Option α → Fields
  | none => []
  | some value => [(name, write value)]

theorem fits_member {α : Type} {properties : List (Str × Schema)} {schema : Schema}
    {write : α → Json} (hlookup : properties.lookup name = some schema)
    (hwrite : ∀ value, schema.admits (write value) = true) (content : Option α) :
    ∀ field ∈ member name write content, Fits properties field := by
  cases content with
  | none => exact List.forall_mem_nil _
  | some value =>
      intro field hfield
      obtain rfl := List.mem_singleton.mp hfield
      exact ⟨schema, hlookup, hwrite value⟩

end Admission

section Readers

variable {α : Type}

def text : Json → Option Str
  | .str value => some value
  | _ => none

def flag : Json → Option Bool
  | .bool value => some value
  | _ => none

/-- An unsigned integer below a bound. -/
def unsigned (bound : Nat) : Json → Option Nat
  | .int value => if 0 ≤ value ∧ value < bound then some value.toNat else none
  | _ => none

/-- A variant without data, as its name or as a member without a value. -/
def variant (names : List (Str × α)) : Json → Option α
  | .str tag => names.lookup tag
  | .obj [(tag, .null)] => names.lookup tag
  | _ => none

def record (body : Fields → Option α) : Json → Option α
  | .obj fields => body fields
  | _ => none

def readAll (item : Json → Option α) : List Json → Option (List α)
  | [] => some []
  | value :: rest => List.cons <$> item value <*> readAll item rest

def sequence (item : Json → Option α) : Json → Option (List α)
  | .arr values => readAll item values
  | _ => none

def required (name : Str) (read : Json → Option α) (fields : Fields) : Option α :=
  (fields.lookup name).bind read

/-- An absent member and `null` are both `none`. -/
def optional (name : Str) (read : Json → Option α) (fields : Fields) : Option (Option α) :=
  match fields.lookup name with
  | none => some none
  | some .null => some none
  | some value => (read value).map some

def defaulted (name : Str) (read : Json → Option α) (default : α) (fields : Fields) :
    Option α :=
  match fields.lookup name with
  | none => some default
  | some value => read value

end Readers

section Laws

variable {α β : Type} {fields : Fields} {name : Str}

@[simp] theorem isSome_seq (f : Option (α → β)) (value : Option α) :
    (f <*> value).isSome = (f.isSome && value.isSome) := by
  cases f <;> cases value <;> rfl

@[simp] theorem isSome_map (f : α → β) (value : Option α) :
    (f <$> value).isSome = value.isSome := by
  cases value <;> rfl

theorem seq_eq_some_iff {f : Option (α → β)} {content : Option α} {result : β} :
    f <*> content = some result ↔
      ∃ apply value, f = some apply ∧ content = some value ∧ apply value = result := by
  cases f with
  | none => simp [Seq.seq]
  | some apply => cases content <;> simp [Seq.seq]

theorem isSome_readAll_iff (item : Json → Option α) (values : List Json) :
    (readAll item values).isSome = true ↔ ∀ value ∈ values, (item value).isSome = true := by
  induction values with
  | nil => simp [readAll]
  | cons value rest ih => simp [readAll, ih]

/-- Of the values the schema admits, the reader reads those of the kind. -/
def ReadsWhen (schema : Schema) (read : Json → Option α) (kind : Json → Prop) : Prop :=
  ∀ value, schema.admits value = true → ((read value).isSome = true ↔ kind value)

section Members

variable {schema : Schema} {read : Json → Option α} {kind : Json → Prop}
  (hreads : ReadsWhen schema read kind) (htyped : Typed schema name fields)

include hreads htyped

theorem ReadsWhen.required :
    (required name read fields).isSome = true ↔ Has name kind fields := by
  unfold Document.required Has
  cases hlookup : fields.lookup name with
  | none => simp
  | some value => simpa using hreads value (htyped value hlookup)

theorem ReadsWhen.optional :
    (optional name read fields).isSome = true ↔ MayHave name kind fields := by
  unfold Document.optional MayHave
  split
  · rename_i hlookup
    simp [hlookup]
  · rename_i hlookup
    have hnull := htyped .null hlookup
    simp [not_admits_null] at hnull
  · rename_i value _ hlookup
    simpa [hlookup] using hreads value (htyped value hlookup)

theorem ReadsWhen.defaulted (default : α) :
    (defaulted name read default fields).isSome = true ↔ MayHave name kind fields := by
  unfold Document.defaulted MayHave
  cases hlookup : fields.lookup name with
  | none => simp
  | some value => simpa using hreads value (htyped value hlookup)

end Members

theorem readsWhen_text : ReadsWhen .string text fun _ => True := by
  intro value hadmits
  obtain ⟨content, rfl⟩ := exists_str_of_admits hadmits
  simp [text]

theorem readsWhen_flag : ReadsWhen .boolean flag fun _ => True := by
  intro value hadmits
  obtain ⟨content, rfl⟩ := exists_bool_of_admits hadmits
  simp [flag]

/-- An enumeration of names the type has. -/
theorem readsWhen_variant {allowed : List Str} {names : List (Str × α)}
    (hnames : ∀ tag ∈ allowed, (names.lookup tag).isSome = true) :
    ReadsWhen (.oneOf allowed) (variant names) fun _ => True := by
  intro value hadmits
  obtain ⟨tag, htag, rfl⟩ := exists_tag_of_admits hadmits
  simpa [variant] using hnames tag htag

/-- A string the reader makes something of. -/
def StringOf (parse : Str → Option α) (value : Json) : Prop :=
  ∃ content, value = .str content ∧ (parse content).isSome = true

theorem readsWhen_string {read : Json → Option α} {parse : Str → Option α}
    (hread : ∀ content, read (.str content) = parse content) :
    ReadsWhen .string read (StringOf parse) := by
  intro value hadmits
  obtain ⟨content, rfl⟩ := exists_str_of_admits hadmits
  simp [StringOf, hread]

/-- A number from zero up to the bound. -/
def Below (bound : Nat) (value : Json) : Prop :=
  ∃ n : Int, value = .int n ∧ 0 ≤ n ∧ n < bound

theorem readsWhen_unsigned (minimum : Option Int) (bound : Nat) :
    ReadsWhen (.integer minimum) (unsigned bound) (Below bound) := by
  intro value hadmits
  obtain ⟨n, rfl⟩ := exists_int_of_admits hadmits
  unfold unsigned
  split <;> simp_all [Below]

def RecordOf (readable : Fields → Prop) (value : Json) : Prop :=
  ∃ inner, value = .obj inner ∧ readable inner

theorem readsWhen_record {names : List Str} {properties : List (Str × Schema)}
    {body : Fields → Option α} {readable : Fields → Prop}
    (hbody : ∀ inner, (Schema.object names properties).admits (.obj inner) = true →
      ((body inner).isSome = true ↔ readable inner)) :
    ReadsWhen (.object names properties) (record body) (RecordOf readable) := by
  intro value hadmits
  obtain ⟨inner, rfl⟩ := exists_obj_of_admits hadmits
  simpa [RecordOf, record] using hbody inner hadmits

def ArrayOf (kind : Json → Prop) (value : Json) : Prop :=
  ∃ values, value = .arr values ∧ ∀ item ∈ values, kind item

theorem ReadsWhen.sequence {items : Schema} {item : Json → Option α} {kind : Json → Prop}
    (hitem : ReadsWhen items item kind) :
    ReadsWhen (.array items) (sequence item) (ArrayOf kind) := by
  intro value hadmits
  obtain ⟨values, rfl, hvalues⟩ := exists_arr_of_admits hadmits
  simp only [Document.sequence, isSome_readAll_iff, ArrayOf, Json.arr.injEq, exists_eq_left']
  exact forall₂_congr fun value hmem => hitem value (hvalues value hmem)

end Laws

end Document
