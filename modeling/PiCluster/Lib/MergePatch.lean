/-
JSON merge patches.  A patch that is an object is merged member by member: a
`null` removes the member, an object is merged into it, and anything else takes
its place.  What a member becomes depends on that member alone.
-/
import PiCluster.Lib.Document

namespace Document

open Text

def Fields.erase (name : Str) (fields : Fields) : Fields :=
  fields.filter fun field => field.1 != name

def Fields.put (name : Str) (value : Json) (fields : Fields) : Fields :=
  (name, value) :: Fields.erase name fields

/-- The members of a document; one that is no object counts as an empty object. -/
def members : Json → Fields
  | .obj fields => fields
  | _ => []

mutual

def mergePatch : Json → Json → Json
  | .obj patch, target => .obj (mergeFields patch (members target))
  | patch, _ => patch

def mergeFields : Fields → Fields → Fields
  | [], target => target
  | (name, .null) :: rest, target => mergeFields rest (Fields.erase name target)
  | (name, value) :: rest, target => mergeFields rest
      (Fields.put name (mergePatch value ((target.lookup name).getD .null)) target)

end

section Laws

variable {name other : Str} {value : Json} {fields patch target : Fields}

theorem lookup_erase_self : (Fields.erase name fields).lookup name = none := by
  induction fields with
  | nil => rfl
  | cons field rest ih =>
      obtain ⟨first, content⟩ := field
      by_cases hname : first = name
      · rw [Fields.erase, List.filter_cons_of_neg (by simp [hname])]
        exact ih
      · have hne : (name == first) = false := by simpa using Ne.symm hname
        rw [Fields.erase, List.filter_cons_of_pos (by simpa using hname), List.lookup_cons, hne]
        exact ih

theorem lookup_erase_of_ne (hne : other ≠ name) :
    (Fields.erase name fields).lookup other = fields.lookup other := by
  induction fields with
  | nil => rfl
  | cons field rest ih =>
      obtain ⟨first, content⟩ := field
      by_cases hname : first = name
      · have hother : (other == first) = false := by simpa [hname] using hne
        rw [Fields.erase, List.filter_cons_of_neg (by simp [hname]), List.lookup_cons, hother]
        exact ih
      · rw [Fields.erase, List.filter_cons_of_pos (by simpa using hname), List.lookup_cons,
          List.lookup_cons]
        split
        · rfl
        · exact ih

theorem lookup_put_self : (Fields.put name value fields).lookup name = some value := by
  simp [Fields.put]

theorem lookup_put_of_ne (hne : other ≠ name) :
    (Fields.put name value fields).lookup other = fields.lookup other := by
  have hother : (other == name) = false := by simpa using hne
  rw [Fields.put, List.lookup_cons, hother]
  exact lookup_erase_of_ne hne

/-- A patch leaves the members it does not name. -/
theorem lookup_mergeFields_of_not_mem (hname : name ∉ patch.map Prod.fst) :
    (mergeFields patch target).lookup name = target.lookup name := by
  induction patch generalizing target with
  | nil => rfl
  | cons field rest ih =>
      obtain ⟨first, value⟩ := field
      rw [List.map_cons, List.mem_cons, not_or] at hname
      obtain ⟨hne, hrest⟩ := hname
      cases value with
      | null => exact (ih hrest).trans (lookup_erase_of_ne hne)
      | bool | int | float | str | arr | obj =>
          exact (ih hrest).trans (lookup_put_of_ne hne)

/-- A member after the patch that names it: removed by `null`, merged otherwise. -/
def patched (value : Json) (old : Option Json) : Option Json :=
  match value with
  | .null => none
  | value => some (mergePatch value (old.getD .null))

theorem lookup_mergeFields_of_mem (hnames : (patch.map Prod.fst).Nodup)
    (hmem : (name, value) ∈ patch) :
    (mergeFields patch target).lookup name = patched value (target.lookup name) := by
  induction patch generalizing target with
  | nil => cases hmem
  | cons field rest ih =>
      obtain ⟨first, content⟩ := field
      obtain ⟨hfirst, hrest⟩ := List.nodup_cons.mp hnames
      rcases List.mem_cons.mp hmem with heq | hlater
      · cases heq
        cases value with
        | null => exact (lookup_mergeFields_of_not_mem hfirst).trans lookup_erase_self
        | bool | int | float | str | arr | obj =>
            exact (lookup_mergeFields_of_not_mem hfirst).trans lookup_put_self
      · have hne : name ≠ first := by
          intro heq
          exact hfirst (List.mem_map.mpr ⟨(name, value), hlater, heq⟩)
        cases content with
        | null => exact (ih hrest hlater).trans (congrArg _ (lookup_erase_of_ne hne))
        | bool | int | float | str | arr | obj =>
            exact (ih hrest hlater).trans (congrArg _ (lookup_put_of_ne hne))

/-- A value that takes the place of what it is merged into. -/
def Json.isPlain : Json → Bool
  | .null | .obj _ => false
  | .bool _ | .int _ | .float _ | .str _ | .arr _ => true

theorem required_mergeFields {α : Type} {read : Json → Option α}
    (hnames : (patch.map Prod.fst).Nodup) (hmem : (name, value) ∈ patch)
    (hplain : value.isPlain = true) :
    required name read (mergeFields patch target) = read value := by
  rw [required, lookup_mergeFields_of_mem hnames hmem]
  cases value with
  | null | obj => cases hplain
  | bool | int | float | str | arr => rfl

section Optional

variable {α : Type} {read : Json → Option α}

theorem optional_record {body : Fields → Option α} {inner : Fields}
    (hlookup : fields.lookup name = some (.obj inner)) :
    Document.optional name (record body) fields = (body inner).map some := by
  rw [Document.optional, hlookup]
  rfl

theorem optional_mergeFields (hnames : (patch.map Prod.fst).Nodup) (hmem : (name, value) ∈ patch)
    (hplain : value.isPlain = true) :
    Document.optional name read (mergeFields patch target) = (read value).map some := by
  rw [Document.optional, lookup_mergeFields_of_mem hnames hmem]
  cases value with
  | null | obj => cases hplain
  | bool | int | float | str | arr => rfl

theorem optional_mergeFields_null (hnames : (patch.map Prod.fst).Nodup)
    (hmem : (name, .null) ∈ patch) :
    Document.optional name read (mergeFields patch target) = some none := by
  rw [Document.optional, lookup_mergeFields_of_mem hnames hmem]
  rfl

theorem optional_mergeFields_of_not_mem (hname : name ∉ patch.map Prod.fst) :
    Document.optional name read (mergeFields patch target) =
      Document.optional name read target := by
  rw [Document.optional, lookup_mergeFields_of_not_mem hname]
  rfl

end Optional

end Laws

end Document
