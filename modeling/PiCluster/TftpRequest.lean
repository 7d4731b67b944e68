/-
The read request as a format: what a client encodes after RFC 2347 is what the
server's parser reads back, option by option.
-/
import PiCluster.Tftp

namespace PiCluster

namespace Tftp

open Text Bytes

/-- A text and the NUL byte that ends it. -/
def encodeField (field : Str) : List UInt8 := asBytes field ++ [0]

def encodeOptions (options : List (Str × Str)) : List UInt8 :=
  options.flatMap fun pair => encodeField pair.1 ++ encodeField pair.2

/-- The payload of a read request, after the opcode. -/
def encodeRrq (filename mode : Str) (options : List (Str × Str)) : List UInt8 :=
  encodeField filename ++ encodeField mode ++ encodeOptions options

/-- No NUL character, so that the text is one field. -/
def NulFree (field : Str) : Prop := Char.ofNat 0 ∉ field

theorem nulFields_encodeField {field : Str} (hfield : NulFree field) (rest : List UInt8) :
    nulFields (encodeField field ++ rest) = field :: nulFields rest := by
  rw [encodeField, List.append_assoc, List.singleton_append, nulFields_field hfield]

/-- Each option is read as the two fields it was written as. -/
theorem optionPairs_nulFields (lowercase : Str → Str) {options : List (Str × Str)}
    (hoptions : ∀ pair ∈ options, NulFree pair.1 ∧ NulFree pair.2) :
    optionPairs lowercase (nulFields (encodeOptions options)) =
      options.map fun pair => (lowercase pair.1, pair.2) := by
  induction options with
  | nil => rfl
  | cons pair rest ih =>
      obtain ⟨hname, hvalue⟩ := hoptions pair List.mem_cons_self
      have hrest := ih fun other hother => hoptions other (List.mem_cons_of_mem pair hother)
      rw [encodeOptions, List.flatMap_cons, List.append_assoc, nulFields_encodeField hname,
        nulFields_encodeField hvalue, optionPairs, List.map_cons]
      exact congrArg _ hrest

theorem parseRrq_eq (lowercase : Str → Str) {filename mode : Str} {options : List (Str × Str)}
    (hfilename : NulFree filename) (hmode : NulFree mode)
    (hoptions : ∀ pair ∈ options, NulFree pair.1 ∧ NulFree pair.2) :
    parseRrq lowercase (encodeRrq filename mode options) =
      .ok ⟨filename, lowercase mode, options.map fun pair => (lowercase pair.1, pair.2)⟩ := by
  rw [parseRrq, encodeRrq, List.append_assoc, nulFields_encodeField hfilename,
    nulFields_encodeField hmode]
  simp only [optionPairs_nulFields lowercase hoptions]

/-- With distinct keys a lookup finds the only pair of its key. -/
theorem optionGet_eq_some {options : List (Str × Str)} {key value : Str}
    (hnodup : (options.map Prod.fst).Nodup) (hmem : (key, value) ∈ options) :
    optionGet options key = some value := by
  obtain ⟨before, after, hsplit⟩ := List.append_of_mem hmem
  rw [optionGet, List.lookup_eq_some_iff]
  refine ⟨after.reverse, before.reverse, by simp [hsplit], ?_⟩
  intro pair hpair
  rw [hsplit, List.map_append, List.map_cons] at hnodup
  have hnot := (List.nodup_cons.mp (List.nodup_append.mp hnodup).2.1).1
  simp only [bne_iff_ne, ne_eq]
  rintro rfl
  exact hnot (List.mem_map.mpr ⟨pair, List.mem_reverse.mp hpair, rfl⟩)

theorem mem_of_optionGet {options : List (Str × Str)} {key value : Str}
    (hget : optionGet options key = some value) : (key, value) ∈ options := by
  obtain ⟨before, after, hsplit, _⟩ := List.lookup_eq_some_iff.mp hget
  rw [← List.mem_reverse, hsplit]
  exact List.mem_append_right before List.mem_cons_self

/-- The parser inverts the encoding: the file name and the lowercased mode come
back, and the options as the map from lowercased names to their values. -/
theorem parseRrq_encodeRrq (lowercase : Str → Str) {filename mode : Str}
    {options : List (Str × Str)} (hfilename : NulFree filename) (hmode : NulFree mode)
    (hoptions : ∀ pair ∈ options, NulFree pair.1 ∧ NulFree pair.2)
    (hdistinct : (options.map fun pair => lowercase pair.1).Nodup) :
    ∃ rrq, parseRrq lowercase (encodeRrq filename mode options) = .ok rrq ∧
      rrq.filename = filename ∧ rrq.mode = lowercase mode ∧
      ∀ key value, optionGet rrq.options key = some value ↔
        ∃ name, (name, value) ∈ options ∧ lowercase name = key := by
  refine ⟨_, parseRrq_eq lowercase hfilename hmode hoptions, rfl, rfl, ?_⟩
  intro key value
  have hnodup : ((options.map fun pair => (lowercase pair.1, pair.2)).map Prod.fst).Nodup := by
    simpa [Function.comp_def] using hdistinct
  constructor
  · intro hget
    obtain ⟨⟨name, kept⟩, hpair, heq⟩ := List.mem_map.mp (mem_of_optionGet hget)
    obtain ⟨hkey, rfl⟩ := Prod.mk.inj heq
    exact ⟨name, hpair, hkey⟩
  · rintro ⟨name, hpair, rfl⟩
    exact optionGet_eq_some hnodup
      (List.mem_map_of_mem (f := fun pair => (lowercase pair.1, pair.2)) hpair)

namespace RequestWitness

/-- A file name outside ASCII and an option with two empty strings. -/
def options : List (Str × Str) :=
  [("blksize".toList, "1428".toList), ([], []), ("tsize".toList, "0".toList)]

theorem nulFree_of_all {field : Str}
    (hall : field.all (fun c => c != Char.ofNat 0) = true) : NulFree field := by
  intro hmem
  have htest := List.all_eq_true.mp hall _ hmem
  simp at htest

theorem umlaut_request_read :
    ∃ rrq, parseRrq id (encodeRrq "küche.img".toList "octet".toList options) = .ok rrq ∧
      rrq.filename = "küche.img".toList ∧ rrq.mode = "octet".toList ∧
      ∀ key value, optionGet rrq.options key = some value ↔
        ∃ name, (name, value) ∈ options ∧ name = key := by
  refine parseRrq_encodeRrq id (nulFree_of_all (by decide)) (nulFree_of_all (by decide)) ?_
    (by decide)
  intro pair hpair
  simp only [options, List.mem_cons, List.not_mem_nil, or_false] at hpair
  rcases hpair with rfl | rfl | rfl
  · exact ⟨nulFree_of_all (by decide), nulFree_of_all (by decide)⟩
  · exact ⟨nulFree_of_all (by decide), nulFree_of_all (by decide)⟩
  · exact ⟨nulFree_of_all (by decide), nulFree_of_all (by decide)⟩

end RequestWitness

end Tftp

end PiCluster
