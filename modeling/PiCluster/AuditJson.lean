/-
The lines of the audit log: `serde_json` writes an entry as one object with the
fields in the order of their declaration, and reads that text back.
-/
import PiCluster.Lib.Wire
import PiCluster.Storage

namespace PiCluster

open Text Wire

/-- An audit record with its time stamp, kept as the text that is printed. -/
structure StampedEntry where
  timestamp : Str
  entry : AuditEntry
deriving DecidableEq, Repr

def AuditAction.variants : List AuditAction :=
  [.format, .mount, .unmount, .eepromWrite, .roleChange, .evacuate, .demote, .promote]

def AuditAction.name : AuditAction → Str
  | .format => "Format".toList
  | .mount => "Mount".toList
  | .unmount => "Unmount".toList
  | .eepromWrite => "EepromWrite".toList
  | .roleChange => "RoleChange".toList
  | .evacuate => "Evacuate".toList
  | .demote => "Demote".toList
  | .promote => "Promote".toList

def AuditPhase.variants : List AuditPhase := [.preMutation, .postMutation, .failed]

def AuditPhase.name : AuditPhase → Str
  | .preMutation => "PreMutation".toList
  | .postMutation => "PostMutation".toList
  | .failed => "Failed".toList

namespace AuditJson

open Format

def action : Format AuditAction :=
  named AuditAction.variants AuditAction.name (by intro value; cases value <;> rfl)

def phase : Format AuditPhase :=
  named AuditPhase.variants AuditPhase.name (by intro value; cases value <;> rfl)

def strings : Format (List Str) :=
  list '[' ']' (by decide) (by decide) quoted (quoted_avoids (by decide))

def trueText : Str := "true".toList

def falseText : Str := "false".toList

def printValue : JsonValue → Str
  | .null => nullText
  | .bool true => trueText
  | .bool false => falseText
  | .int n => integer.print n
  | .str s => quoted.print s
  | .strs values => strings.print values

/-- The first character tells which kind of value follows. -/
def parseValue (input : Str) : Option (JsonValue × Str) :=
  if input.head? = some 'n' then (expect nullText input).map fun rest => (.null, rest)
  else if input.head? = some 't' then
    (expect trueText input).map fun rest => (.bool true, rest)
  else if input.head? = some 'f' then
    (expect falseText input).map fun rest => (.bool false, rest)
  else if input.head? = some '"' then
    (quoted.parse input).map fun found => (.str found.1, found.2)
  else if input.head? = some '[' then
    (strings.parse input).map fun found => (.strs found.1, found.2)
  else (integer.parse input).map fun found => (.int found.1, found.2)

theorem plain_printValue (value : JsonValue) : Plain (printValue value) := by
  cases value with
  | null => exact plain_nullText
  | bool value =>
      cases value with
      | false => exact List.all_eq_true.mp (by decide)
      | true => exact List.all_eq_true.mp (by decide)
  | int n => exact integer.print_plain n
  | str s => exact quoted.print_plain s
  | strs values => exact strings.print_plain values

theorem strings_head (values : List Str) (rest : Str) :
    (strings.print values ++ rest).head? = some '[' := by
  cases values <;> rfl

theorem parseValue_printValue (value : JsonValue) (rest : Str) (hrest : Stops rest) :
    parseValue (printValue value ++ rest) = some (value, rest) := by
  unfold parseValue
  cases value with
  | null =>
      have hhead : (printValue .null ++ rest).head? = some 'n' := rfl
      rw [if_pos hhead, printValue, expect_append]
      rfl
  | bool value =>
      cases value with
      | false =>
          have hhead : (printValue (.bool false) ++ rest).head? = some 'f' := rfl
          simp only [hhead, Option.some.injEq, Char.reduceEq, ↓reduceIte]
          rw [printValue, expect_append]
          rfl
      | true =>
          have hhead : (printValue (.bool true) ++ rest).head? = some 't' := rfl
          simp only [hhead, Option.some.injEq, Char.reduceEq, ↓reduceIte]
          rw [printValue, expect_append]
          rfl
  | int n =>
      rw [printValue, if_neg (integer_avoids (by decide) (by decide) n rest),
        if_neg (integer_avoids (by decide) (by decide) n rest),
        if_neg (integer_avoids (by decide) (by decide) n rest),
        if_neg (integer_avoids (by decide) (by decide) n rest),
        if_neg (integer_avoids (by decide) (by decide) n rest),
        integer.parse_print n rest hrest]
      rfl
  | str s =>
      have hhead : (printValue (.str s) ++ rest).head? = some '"' := rfl
      simp only [hhead, Option.some.injEq, Char.reduceEq, ↓reduceIte]
      rw [printValue, quoted.parse_print s rest hrest]
      rfl
  | strs values =>
      have hhead : (printValue (.strs values) ++ rest).head? = some '[' :=
        strings_head values rest
      simp only [hhead, Option.some.injEq, Char.reduceEq, ↓reduceIte]
      rw [printValue, strings.parse_print values rest hrest]
      rfl

def value : Format JsonValue where
  print := printValue
  parse := parseValue
  print_plain := plain_printValue
  parse_print := parseValue_printValue

def member : Format (Str × JsonValue) :=
  quoted.pair ⟨":".toList, by decide, by decide⟩ value

def object : Format JsonObject :=
  list '\x7b' '\x7d' (by decide) (by decide) member
    (pair_avoids (quoted_avoids (by decide)) _ _)

/-- A state or the details of an entry. -/
def state : Format (Option JsonObject) := object.orNull (list_avoids (by decide))

def optionalString : Format (Option Str) := quoted.orNull (quoted_avoids (by decide))

def timestampKey : Mark := ⟨"\x7b\"timestamp\":".toList, by decide, by decide⟩
def deviceSerialKey : Mark := ⟨",\"device_serial\":".toList, by decide, by decide⟩
def devicePathKey : Mark := ⟨",\"device_path\":".toList, by decide, by decide⟩
def actionKey : Mark := ⟨",\"action\":".toList, by decide, by decide⟩
def phaseKey : Mark := ⟨",\"phase\":".toList, by decide, by decide⟩
def requestedByKey : Mark := ⟨",\"requested_by\":".toList, by decide, by decide⟩
def beforeStateKey : Mark := ⟨",\"before_state\":".toList, by decide, by decide⟩
def afterStateKey : Mark := ⟨",\"after_state\":".toList, by decide, by decide⟩
def detailsKey : Mark := ⟨",\"details\":".toList, by decide, by decide⟩
def closingBrace : Mark := ⟨"\x7d".toList, by decide, by decide⟩

/-- The fields of an entry in the order in which they are declared. -/
abbrev Fields :=
  Str × Str × Option Str × AuditAction × AuditPhase × Str × Option JsonObject ×
    Option JsonObject × Option JsonObject

def toFields (stamped : StampedEntry) : Fields :=
  (stamped.timestamp, stamped.entry.deviceSerial, stamped.entry.devicePath,
    stamped.entry.action, stamped.entry.phase, stamped.entry.requestedBy,
    stamped.entry.beforeState, stamped.entry.afterState, stamped.entry.details)

def ofFields : Fields → StampedEntry
  | (timestamp, deviceSerial, devicePath, action, phase, requestedBy, beforeState, afterState,
      details) =>
      ⟨timestamp, ⟨deviceSerial, devicePath, action, phase, requestedBy, beforeState, afterState,
        details⟩⟩

def fields : Format Fields :=
  (quoted.pair deviceSerialKey <|
    quoted.pair devicePathKey <|
    optionalString.pair actionKey <|
    action.pair phaseKey <|
    phase.pair requestedByKey <|
    quoted.pair beforeStateKey <|
    state.pair afterStateKey <|
    state.pair detailsKey state).after timestampKey |>.closed closingBrace

/-- `serde_json::to_string` and `from_str` for an audit entry. -/
def entry : Format StampedEntry :=
  fields.convert toFields (fun found => some (ofFields found)) fun _ => rfl

theorem entry_head (stamped : StampedEntry) :
    ∃ tail, entry.print stamped = '\x7b' :: tail := ⟨_, rfl⟩

end AuditJson

end PiCluster
