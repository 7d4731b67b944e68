/-
The audit log as a file of bytes.  `record` appends one JSON line and fsyncs it;
`read_entries` goes through the lines and gives up at the first one it cannot
decode.  A power loss leaves any initial part of the line being written, and the
next record is appended right behind it.
-/
import PiCluster.AuditJson
import PiCluster.Lib.StepRun

namespace PiCluster

open Text Bytes

/-- What `serde_json` is assumed to do with the entries of a log: `to_string`
gives one line that is not blank, and `from_str` decodes it back. -/
structure EntryCodec (Entry : Type) where
  encode : Entry → Str
  decode : Str → Except Str Entry
  newline_not_mem : ∀ entry, '\n' ∉ encode entry
  return_not_mem : ∀ entry, '\r' ∉ encode entry
  trim_ne_nil : ∀ entry, trim (encode entry) ≠ []
  decode_encode : ∀ entry, decode (encode entry) = .ok entry

/-- Stands for the parser's own error texts. -/
def notAnEntry : Str := "not an audit entry".toList

/-- The codec of the log's own entries. -/
def jsonCodec : EntryCodec StampedEntry where
  encode := AuditJson.entry.print
  decode text :=
    match AuditJson.entry.decode text with
    | some stamped => .ok stamped
    | none => .error notAnEntry
  newline_not_mem stamped hmem :=
    absurd (AuditJson.entry.print_plain stamped '\n' hmem) (by decide)
  return_not_mem stamped hmem :=
    absurd (AuditJson.entry.print_plain stamped '\r' hmem) (by decide)
  trim_ne_nil stamped := by
    obtain ⟨tail, heq⟩ := AuditJson.entry_head stamped
    rw [heq]
    exact trim_cons_ne_nil (by decide) tail
  decode_encode stamped := by rw [AuditJson.entry.decode_print]

/-- Two entries on one line are not an entry. -/
theorem decode_two_entries (first second : StampedEntry) :
    jsonCodec.decode (jsonCodec.encode first ++ jsonCodec.encode second) =
      .error notAnEntry := by
  obtain ⟨tail, htail⟩ := AuditJson.entry_head second
  have hnone : AuditJson.entry.decode
      (AuditJson.entry.print first ++ AuditJson.entry.print second) = none := by
    rw [htail]
    exact AuditJson.entry.decode_print_append first (Wire.stops_cons (by decide) tail)
      (List.cons_ne_nil _ tail)
  simp [jsonCodec, hnone]

namespace AuditFile

variable {Entry : Type} (codec : EntryCodec Entry)

/-- One round of the reading loop: blank lines are skipped. -/
def readLine (line : List UInt8) : Except AuditError (Option Entry) :=
  match decodeUtf8 line with
  | none => .error (.io "stream did not contain valid UTF-8".toList)
  | some text =>
      if trim text = [] then .ok none
      else
        match codec.decode text with
        | .ok entry => .ok (some entry)
        | .error e => .error (.serialization e)

def readLoop (entries : List Entry) : List (List UInt8) → Except AuditError (List Entry)
  | [] => .ok entries
  | line :: rest =>
      match readLine codec line with
      | .error e => .error e
      | .ok none => readLoop entries rest
      | .ok (some entry) => readLoop (entries ++ [entry]) rest

/-- `AuditLog::read_entries`; a file that does not exist has no entries. -/
def readEntries : Option (List UInt8) → Except AuditError (List Entry)
  | none => .ok []
  | some bytes => readLoop codec [] (bufLines bytes)

/-- The first of the two writes of `writeln!`. -/
def entryBytes (entry : Entry) : List UInt8 := asBytes (codec.encode entry)

/-- Everything `writeln!` writes. -/
def lineBytes (entry : Entry) : List UInt8 := entryBytes codec entry ++ [newline]

/-- The bytes after the last newline of a file. -/
def unfinished (file : Option (List UInt8)) : List UInt8 := (splitLines (file.getD [])).rest

section Reading

variable {codec}

theorem readEntries_eq (file : Option (List UInt8)) :
    readEntries codec file = readLoop codec [] (bufLines (file.getD [])) := by
  cases file <;> rfl

theorem newline_not_mem_entryBytes (codec : EntryCodec Entry) (entry : Entry) :
    newline ∉ entryBytes codec entry :=
  not_mem_asBytes (codec.newline_not_mem entry) rfl (by decide)

theorem chomp_entryBytes (entry : Entry) :
    chomp (entryBytes codec entry) = entryBytes codec entry :=
  chomp_eq_self (not_mem_asBytes (codec.return_not_mem entry) rfl (by decide))

/-- A line that `record` wrote is read back. -/
theorem readLine_entryBytes (entry : Entry) :
    readLine codec (entryBytes codec entry) = .ok (some entry) := by
  simp [readLine, entryBytes, codec.trim_ne_nil entry, codec.decode_encode entry]

theorem readLoop_append {entries found : List Entry} {lines : List (List UInt8)}
    (hfound : readLoop codec entries lines = .ok found) (more : List (List UInt8)) :
    readLoop codec entries (lines ++ more) = readLoop codec found more := by
  induction lines generalizing entries with
  | nil =>
      cases hfound
      rfl
  | cons line rest ih =>
      simp only [List.cons_append, readLoop] at hfound ⊢
      split at hfound
      · cases hfound
      · exact ih hfound
      · exact ih hfound

/-- One more written line is one more entry. -/
theorem readLoop_entryBytes {entries found : List Entry} {lines : List (List UInt8)}
    (hfound : readLoop codec entries lines = .ok found) (entry : Entry) :
    readLoop codec entries (lines ++ [entryBytes codec entry]) = .ok (found ++ [entry]) := by
  rw [readLoop_append hfound, readLoop, readLine_entryBytes]
  rfl

theorem readLoop_error_append {entries : List Entry} {lines : List (List UInt8)}
    {e : AuditError} (herror : readLoop codec entries lines = .error e)
    (more : List (List UInt8)) : readLoop codec entries (lines ++ more) = .error e := by
  induction lines generalizing entries with
  | nil => cases herror
  | cons line rest ih =>
      simp only [List.cons_append, readLoop] at herror ⊢
      split at herror
      · exact herror
      · exact ih herror
      · exact ih herror

/-- A complete line that cannot be decoded spoils the log for good. -/
theorem readEntries_spoiled {bytes : List UInt8} {e : AuditError}
    (herror : readLoop codec [] (splitLines bytes).lines = .error e) (more : List UInt8) :
    readEntries codec (some (bytes ++ more)) = .error e := by
  obtain ⟨later, hlater⟩ := lines_splitLines_append bytes more
  rw [readEntries, bufLines, ← hlater, List.append_assoc]
  exact readLoop_error_append herror _

/-- A line of text that cannot be decoded ends the reading. -/
theorem readLoop_line {text : Str} (hnewline : '\n' ∉ text) (hreturn : '\r' ∉ text)
    (htrim : trim text ≠ []) {reason : Str} (hdecode : codec.decode text = .error reason) :
    readLoop codec [] (splitLines (asBytes text ++ [newline])).lines =
      .error (.serialization reason) := by
  have hline : newline ∉ asBytes text := not_mem_asBytes hnewline rfl (by decide)
  have hchomp : chomp (asBytes text) = asBytes text :=
    chomp_eq_self (not_mem_asBytes hreturn rfl (by decide))
  have hsplit : splitLines (asBytes text) = ⟨[], asBytes text⟩ := splitLines_append hline []
  rw [splitLines_newline, hsplit, hchomp]
  simp [readLoop, readLine, htrim, hdecode]

/-- The complete lines of the file are readable, and the unfinished one is empty
or a whole entry that only lacks its newline. -/
structure Readable (codec : EntryCodec Entry) (bytes : List UInt8) (entries : List Entry) :
    Prop where
  lines_read : readLoop codec [] (splitLines bytes).lines = .ok entries
  rest_whole : (splitLines bytes).rest = [] ∨
    ∃ entry, (splitLines bytes).rest = entryBytes codec entry

/-- Reading such a file succeeds; a whole unfinished entry counts as well. -/
theorem Readable.readLoop_bufLines {bytes : List UInt8} {entries : List Entry}
    (hreadable : Readable codec bytes entries) :
    ∃ more, readLoop codec [] (bufLines bytes) = .ok (entries ++ more) := by
  unfold bufLines
  rcases hreadable.rest_whole with hempty | ⟨entry, hwhole⟩
  · refine ⟨[], ?_⟩
    simpa [hempty] using hreadable.lines_read
  · by_cases hempty : (splitLines bytes).rest = []
    · refine ⟨[], ?_⟩
      simpa [hempty] using hreadable.lines_read
    · refine ⟨[entry], ?_⟩
      rw [if_neg hempty, hwhole]
      exact readLoop_entryBytes hreadable.lines_read entry

/-- The entry's bytes reach the file, its newline does not. -/
theorem Readable.append_entry {bytes : List UInt8} {entries : List Entry}
    (hreadable : Readable codec bytes entries) (hrest : (splitLines bytes).rest = [])
    (entry : Entry) : Readable codec (bytes ++ entryBytes codec entry) entries := by
  have hsplit := splitLines_append (newline_not_mem_entryBytes codec entry) bytes
  refine ⟨?_, Or.inr ⟨entry, ?_⟩⟩
  · rw [hsplit]
    exact hreadable.lines_read
  · rw [hsplit, hrest, List.nil_append]

/-- The newline that completes an entry. -/
theorem Readable.append_newline {bytes : List UInt8} {entries : List Entry} {entry : Entry}
    (hreadable : Readable codec bytes entries)
    (hrest : (splitLines bytes).rest = entryBytes codec entry) :
    Readable codec (bytes ++ [newline]) (entries ++ [entry]) := by
  refine ⟨?_, Or.inl ?_⟩
  · rw [splitLines_newline, hrest, chomp_entryBytes]
    exact readLoop_entryBytes hreadable.lines_read entry
  · rw [splitLines_newline]

theorem Readable.append_line {bytes : List UInt8} {entries : List Entry}
    (hreadable : Readable codec bytes entries) (hrest : (splitLines bytes).rest = [])
    (entry : Entry) : Readable codec (bytes ++ lineBytes codec entry) (entries ++ [entry]) := by
  have hsplit := splitLines_append (newline_not_mem_entryBytes codec entry) bytes
  rw [lineBytes, ← List.append_assoc]
  refine (hreadable.append_entry hrest entry).append_newline ?_
  rw [hsplit, hrest, List.nil_append]

theorem unfinished_append_line (bytes : List UInt8) (entry : Entry) :
    unfinished (some (bytes ++ lineBytes codec entry)) = [] := by
  rw [unfinished, Option.getD_some, lineBytes, ← List.append_assoc, splitLines_newline]

end Reading

end AuditFile

/-- The file, whether a log is open on it, and the entries whose `record` call
returned `Ok`, oldest first. -/
structure LogState (Entry : Type) where
  file : Option (List UInt8)
  running : Bool
  committed : List Entry

/-- `cutOff entry written` is a `record` call that a power loss ended after that
many of its bytes reached the file. -/
inductive LogEvent (Entry : Type) where
  | opened
  | recorded (entry : Entry)
  | cutOff (entry : Entry) (written : Nat)

namespace LogState

open AuditFile

variable {Entry : Type} (codec : EntryCodec Entry)

/-- Before the first `AuditLog::new`. -/
def initial : LogState Entry := ⟨none, false, []⟩

def append (state : LogState Entry) (bytes : List UInt8) : Option (List UInt8) :=
  some (state.file.getD [] ++ bytes)

def step (state : LogState Entry) : LogEvent Entry → LogState Entry
  | .opened => { state with file := state.append [], running := true }
  | .recorded entry =>
      if state.running then
        { state with
          file := state.append (lineBytes codec entry)
          committed := state.committed ++ [entry] }
      else state
  | .cutOff entry written =>
      if state.running then
        { state with
          file := state.append ((lineBytes codec entry).take written)
          running := false }
      else state

/-- No record is appended behind an unfinished line, and a power loss leaves
nothing of an entry or all of it. -/
def Unbroken (state : LogState Entry) : LogEvent Entry → Prop
  | .opened => True
  | .recorded _ => unfinished state.file = []
  | .cutOff entry written =>
      written = 0 ∨
        unfinished state.file = [] ∧ (entryBytes codec entry).length ≤ written

/-- Every committed entry is among those that the complete lines hold. -/
def LogInv (state : LogState Entry) : Prop :=
  ∃ entries, Readable codec (state.file.getD []) entries ∧ state.committed.Sublist entries

theorem logInv_initial : LogInv codec initial :=
  ⟨[], ⟨rfl, Or.inl rfl⟩, List.Sublist.refl []⟩

theorem take_lineBytes {entry : Entry} {written : Nat}
    (hwhole : (entryBytes codec entry).length ≤ written) :
    (lineBytes codec entry).take written = entryBytes codec entry ∨
      (lineBytes codec entry).take written = lineBytes codec entry := by
  have hlength : (lineBytes codec entry).length = (entryBytes codec entry).length + 1 := by
    simp [lineBytes]
  rcases Nat.eq_or_lt_of_le hwhole with heq | hlt
  · exact Or.inl (List.take_left' heq)
  · exact Or.inr (List.take_of_length_le (by omega))

variable {codec}

/-- One step keeps the committed entries readable. -/
theorem logInv_step (state : LogState Entry) (event : LogEvent Entry)
    (hinv : LogInv codec state) (hunbroken : state.Unbroken codec event) :
    LogInv codec (state.step codec event) := by
  obtain ⟨entries, hreadable, hcommitted⟩ := hinv
  cases event with
  | opened => exact ⟨entries, by simpa [step, append] using hreadable, hcommitted⟩
  | recorded entry =>
      simp only [step]
      split
      · exact ⟨entries ++ [entry], hreadable.append_line hunbroken entry,
          hcommitted.append (List.Sublist.refl [entry])⟩
      · exact ⟨entries, hreadable, hcommitted⟩
  | cutOff entry written =>
      simp only [step]
      split
      · rcases hunbroken with rfl | ⟨hrest, hwhole⟩
        · exact ⟨entries, by simpa [append] using hreadable, hcommitted⟩
        · rcases take_lineBytes codec hwhole with htake | htake <;> rw [htake]
          · exact ⟨entries, hreadable.append_entry hrest entry, hcommitted⟩
          · exact ⟨entries ++ [entry], hreadable.append_line hrest entry,
              hcommitted.trans (List.sublist_append_left entries [entry])⟩
      · exact ⟨entries, hreadable, hcommitted⟩

/-- As long as no line is broken, the log stays readable across power losses and
holds every committed entry in order. -/
theorem run_reads_committed {Entry : Type} (codec : EntryCodec Entry)
    (events : List (LogEvent Entry))
    (hunbroken : StepRun.Meets (step codec) (Unbroken codec) initial events) :
    ∀ reached, reached <+: events →
      let state := reached.foldl (step codec) initial
      ∃ entries, readEntries codec state.file = .ok entries ∧
        state.committed.Sublist entries := by
  intro reached hreached state
  have hinv : LogInv codec state :=
    (hunbroken.of_isPrefix hreached).foldl_inv logInv_step (logInv_initial codec)
  obtain ⟨entries, hreadable, hcommitted⟩ := hinv
  obtain ⟨more, hread⟩ := hreadable.readLoop_bufLines
  refine ⟨entries ++ more, ?_, hcommitted.trans (List.sublist_append_left entries more)⟩
  rw [readEntries_eq, hread]

end LogState

namespace LogWitness

open AuditFile LogState

def started : StampedEntry where
  timestamp := "2026-01-01T00:00:00Z".toList
  entry := AuditEntry.builder "SERIAL123".toList .format "cluster-operator".toList

def completed : StampedEntry where
  timestamp := "2026-01-01T00:00:09Z".toList
  entry := { started.entry with phase := .postMutation }

/-- The power fails before the second record reaches the file. -/
def survivedEvents : List (LogEvent StampedEntry) :=
  [.opened, .recorded started, .cutOff completed 0, .opened, .recorded completed]

theorem survived_reads_committed :
    ∃ entries, readEntries jsonCodec (survivedEvents.foldl (step jsonCodec) initial).file =
        .ok entries ∧
      (survivedEvents.foldl (step jsonCodec) initial).committed.Sublist entries := by
  have hclosed :
      unfinished (some ([] ++ [] ++ lineBytes jsonCodec started ++ [] ++ [])) = [] := by
    simp only [List.append_nil]
    exact unfinished_append_line [] started
  exact run_reads_committed jsonCodec survivedEvents
    ⟨trivial, rfl, Or.inl rfl, trivial, hclosed, trivial⟩ survivedEvents (List.prefix_refl _)

/-- The power fails after the first byte of a record. -/
def tornEvents : List (LogEvent StampedEntry) :=
  [.opened, .cutOff started 1, .opened, .recorded completed]

def tornLine : Str := '\x7b' :: jsonCodec.encode completed

/-- The next record is appended to the torn line, which nothing can decode. -/
theorem torn_not_read :
    (tornEvents.foldl (step jsonCodec) initial).committed = [completed] ∧
      ∃ reason, readEntries jsonCodec (tornEvents.foldl (step jsonCodec) initial).file =
        .error (.serialization reason) := by
  have hfile : (tornEvents.foldl (step jsonCodec) initial).file =
      some (asBytes tornLine ++ [newline] ++ []) := by
    simp only [List.append_nil]
    rfl
  have hnewline : '\n' ∉ tornLine := by
    simpa [tornLine] using jsonCodec.newline_not_mem completed
  have hreturn : '\r' ∉ tornLine := by
    simpa [tornLine] using jsonCodec.return_not_mem completed
  have hdecode : jsonCodec.decode tornLine = .error notAnEntry := rfl
  refine ⟨rfl, notAnEntry, ?_⟩
  rw [hfile]
  exact readEntries_spoiled
    (readLoop_line hnewline hreturn (trim_cons_ne_nil (by decide) _) hdecode) []

end LogWitness

end PiCluster
