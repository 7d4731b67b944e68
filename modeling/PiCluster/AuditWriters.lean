/-
Concurrent writers of one audit file.  Every request builds its own `AuditLog`
values, so the mutex inside a log excludes only the calls that share that log,
and the two appends of a `writeln!` can be separated by those of another one.
-/
import Mathlib.Logic.Function.Basic
import PiCluster.AuditFile

namespace PiCluster

open Text Bytes AuditFile

/-- The `record` calls in flight: the log each one is made on and its entry. -/
structure RecordCalls (ι κ Entry : Type) where
  log : ι → κ
  entry : ι → Entry

/-- Where a `record` call stands; between `entered` and `returned` it holds the
mutex of its log. -/
inductive RecordPhase where
  | waiting
  | entered
  | appended
  | terminated
  | returned
deriving DecidableEq, Repr

/-- The shared file, the mutexes and the calls. -/
structure WriterState (ι κ : Type) where
  file : List UInt8
  locked : κ → Bool
  phase : ι → RecordPhase

inductive WriterEvent (ι : Type) where
  | enter (i : ι)
  | append (i : ι)
  | terminate (i : ι)
  | finish (i : ι)
deriving DecidableEq, Repr

namespace WriterState

variable {ι κ Entry : Type}

/-- No call has started. -/
def initial (file : List UInt8) : WriterState ι κ := ⟨file, fun _ => false, fun _ => .waiting⟩

variable [DecidableEq ι]

def setPhase (state : WriterState ι κ) (i : ι) (phase : RecordPhase) : WriterState ι κ :=
  { state with phase := Function.update state.phase i phase }

def setLocked [DecidableEq κ] (state : WriterState ι κ) (log : κ) (locked : Bool) :
    WriterState ι κ :=
  { state with locked := Function.update state.locked log locked }

variable (codec : EntryCodec Entry) (calls : RecordCalls ι κ Entry)

/-- A step of a call that is not its turn does nothing. -/
def step [DecidableEq κ] (state : WriterState ι κ) : WriterEvent ι → WriterState ι κ
  | .enter i =>
      if state.phase i = .waiting ∧ state.locked (calls.log i) = false then
        (state.setPhase i .entered).setLocked (calls.log i) true
      else state
  | .append i =>
      if state.phase i = .entered then
        { state.setPhase i .appended with
          file := state.file ++ entryBytes codec (calls.entry i) }
      else state
  | .terminate i =>
      if state.phase i = .appended then
        { state.setPhase i .terminated with file := state.file ++ [newline] }
      else state
  | .finish i =>
      if state.phase i = .terminated then
        (state.setPhase i .returned).setLocked (calls.log i) false
      else state

/-- No entry is appended while another call, on whichever log, is between its
two appends. -/
def Exclusive (state : WriterState ι κ) : WriterEvent ι → Prop
  | .append _ => ∀ j, state.phase j ≠ .appended
  | _ => True

/-- The calls whose line is complete. -/
def Written (state : WriterState ι κ) (i : ι) : Prop :=
  state.phase i = .terminated ∨ state.phase i = .returned

/-- The lines of the complete calls follow the earlier ones in some order, and
at most one call is between its appends. -/
structure WriterInv (earlier : List Entry) (state : WriterState ι κ) (order : List ι) :
    Prop where
  nodup : order.Nodup
  mem_iff : ∀ i, i ∈ order ↔ state.Written i
  readable : Readable codec state.file (earlier ++ order.map calls.entry)
  open_line : (splitLines state.file).rest = [] ∧ (∀ j, state.phase j ≠ .appended) ∨
    ∃ i, (splitLines state.file).rest = entryBytes codec (calls.entry i) ∧
      ∀ j, state.phase j = .appended ↔ j = i

section Steps

variable {codec calls} {earlier : List Entry} {state : WriterState ι κ} {order : List ι}

/-- A call moves on without touching the file. -/
theorem WriterInv.move (hinv : WriterInv codec calls earlier state order) {i : ι}
    {phase : RecordPhase} (locked : κ → Bool)
    (hbefore : state.phase i ≠ .appended) (hafter : phase ≠ .appended)
    (hwritten : (phase = .terminated ∨ phase = .returned) ↔ state.Written i) :
    WriterInv codec calls earlier { state.setPhase i phase with locked := locked } order := by
  have happended : ∀ j, Function.update state.phase i phase j = .appended ↔
      state.phase j = .appended := by
    intro j
    by_cases hji : j = i
    · subst hji
      simp [hbefore, hafter]
    · rw [Function.update_of_ne hji]
  refine ⟨hinv.nodup, ?_, hinv.readable, ?_⟩
  · intro j
    rw [hinv.mem_iff]
    by_cases hji : j = i
    · subst hji
      simpa [Written, setPhase] using hwritten.symm
    · simp [Written, setPhase, Function.update_of_ne hji]
  · simpa only [setPhase, ne_eq, happended] using hinv.open_line

/-- The first append of a call. -/
theorem WriterInv.append (hinv : WriterInv codec calls earlier state order) {i : ι}
    (hphase : state.phase i = .entered) (hexclusive : ∀ j, state.phase j ≠ .appended) :
    WriterInv codec calls earlier { state.setPhase i .appended with
      file := state.file ++ entryBytes codec (calls.entry i) } order := by
  have hrest : (splitLines state.file).rest = [] := by
    rcases hinv.open_line with ⟨hrest, _⟩ | ⟨j, _, hj⟩
    · exact hrest
    · exact absurd ((hj j).mpr rfl) (hexclusive j)
  have hsplit := splitLines_append
    (newline_not_mem_entryBytes codec (calls.entry i)) state.file
  refine ⟨hinv.nodup, ?_, hinv.readable.append_entry hrest _, Or.inr ⟨i, ?_, ?_⟩⟩
  · intro j
    rw [hinv.mem_iff]
    by_cases hji : j = i
    · subst hji
      simp [Written, setPhase, hphase]
    · simp [Written, setPhase, Function.update_of_ne hji]
  · rw [hsplit, hrest, List.nil_append]
  · intro j
    by_cases hji : j = i
    · subst hji
      simp [setPhase]
    · simp [setPhase, hexclusive j, hji]

/-- The second append completes the line of the call between its appends. -/
theorem WriterInv.terminate (hinv : WriterInv codec calls earlier state order) {i : ι}
    (hphase : state.phase i = .appended) :
    WriterInv codec calls earlier { state.setPhase i .terminated with
      file := state.file ++ [newline] } (order ++ [i]) := by
  obtain ⟨hrest, halone⟩ : (splitLines state.file).rest = entryBytes codec (calls.entry i) ∧
      ∀ j, state.phase j = .appended ↔ j = i := by
    rcases hinv.open_line with ⟨_, hnone⟩ | ⟨j, hrest, hj⟩
    · exact absurd hphase (hnone i)
    · obtain rfl := (hj i).mp hphase
      exact ⟨hrest, hj⟩
  have hnew : i ∉ order := by
    rw [hinv.mem_iff]
    simp [Written, hphase]
  refine ⟨?_, ?_, ?_, Or.inl ⟨?_, ?_⟩⟩
  · exact List.Nodup.append hinv.nodup (List.nodup_singleton i)
      (List.disjoint_singleton.mpr hnew)
  · intro j
    rw [List.mem_append, hinv.mem_iff, List.mem_singleton]
    by_cases hji : j = i
    · subst hji
      simp [Written, setPhase]
    · simp [Written, setPhase, hji]
  · have hreadable := hinv.readable.append_newline hrest
    rwa [List.append_assoc, ← List.map_singleton, ← List.map_append] at hreadable
  · rw [splitLines_newline]
  · intro j
    by_cases hji : j = i
    · subst hji
      simp [setPhase]
    · simpa [setPhase, Function.update_of_ne hji] using fun heq => hji ((halone j).mp heq)

end Steps

/-- One step of an exclusive schedule keeps the invariant. -/
theorem writerInv_step [DecidableEq κ] {codec : EntryCodec Entry} {calls : RecordCalls ι κ Entry}
    {earlier : List Entry} (state : WriterState ι κ) (event : WriterEvent ι)
    (hinv : ∃ order, WriterInv codec calls earlier state order)
    (hexclusive : state.Exclusive event) :
    ∃ order, WriterInv codec calls earlier (state.step codec calls event) order := by
  obtain ⟨order, hinv⟩ := hinv
  cases event with
  | enter i =>
      simp only [step]
      split
      · rename_i hfree
        exact ⟨order, hinv.move _ (by simp [hfree.1]) (by simp) (by simp [Written, hfree.1])⟩
      · exact ⟨order, hinv⟩
  | append i =>
      simp only [step]
      split
      · rename_i hphase
        exact ⟨order, hinv.append hphase hexclusive⟩
      · exact ⟨order, hinv⟩
  | terminate i =>
      simp only [step]
      split
      · rename_i hphase
        exact ⟨order ++ [i], hinv.terminate hphase⟩
      · exact ⟨order, hinv⟩
  | finish i =>
      simp only [step]
      split
      · rename_i hphase
        exact ⟨order, hinv.move _ (by simp [hphase]) (by simp) (by simp [Written, hphase])⟩
      · exact ⟨order, hinv⟩

/-- Once all calls of an exclusive schedule have returned, the log holds the
entries it had and each new one exactly once. -/
theorem run_reads_all {ι κ Entry : Type} [DecidableEq ι] [DecidableEq κ]
    (codec : EntryCodec Entry) (calls : RecordCalls ι κ Entry) (file : List UInt8)
    (earlier : List Entry) (hfile : unfinished (some file) = [])
    (hearlier : readEntries codec (some file) = .ok earlier) (events : List (WriterEvent ι))
    (hexclusive : StepRun.Meets (step codec calls) Exclusive (initial file) events)
    (hreturned : ∀ i, (events.foldl (step codec calls) (initial file)).phase i = .returned) :
    ∃ order : List ι, order.Nodup ∧ (∀ i, i ∈ order) ∧
      readEntries codec (some (events.foldl (step codec calls) (initial file)).file) =
        .ok (earlier ++ order.map calls.entry) := by
  have hrest : (splitLines file).rest = [] := hfile
  have hlines : readLoop codec [] (splitLines file).lines = .ok earlier := by
    simpa [readEntries, bufLines, hrest] using hearlier
  have hstart : WriterInv codec calls earlier (initial file) [] :=
    ⟨List.nodup_nil, by simp [Written, initial], ⟨by simpa [initial] using hlines, Or.inl hrest⟩,
      Or.inl ⟨hrest, by simp [initial]⟩⟩
  obtain ⟨order, hinv⟩ := hexclusive.foldl_inv writerInv_step ⟨[], hstart⟩
  refine ⟨order, hinv.nodup, fun i => (hinv.mem_iff i).mpr (Or.inr (hreturned i)), ?_⟩
  have hdone : (splitLines (events.foldl (step codec calls) (initial file)).file).rest = [] := by
    rcases hinv.open_line with ⟨hrest, _⟩ | ⟨i, _, hi⟩
    · exact hrest
    · have happended := (hi i).mpr rfl
      rw [hreturned i] at happended
      cases happended
  simpa [readEntries, bufLines, hdone] using hinv.readable.lines_read

end WriterState

namespace WriterWitness

open WriterState LogWitness

/-- Two calls, each on a log of its own. -/
def twoCalls : RecordCalls Bool Bool StampedEntry where
  log i := i
  entry i := if i then completed else started

/-- The calls overlap, but one line is finished before the other is begun. -/
def orderlyEvents : List (WriterEvent Bool) :=
  [.enter false, .enter true, .append false, .terminate false, .append true, .terminate true,
    .finish true, .finish false]

theorem orderly_reads_all :
    ∃ order : List Bool, order.Nodup ∧ (∀ i, i ∈ order) ∧
      readEntries jsonCodec
          (some (orderlyEvents.foldl (step jsonCodec twoCalls) (initial [])).file) =
        .ok ([] ++ order.map twoCalls.entry) := by
  refine run_reads_all jsonCodec twoCalls [] [] rfl rfl orderlyEvents
    ⟨trivial, trivial, ?_, trivial, ?_, trivial, trivial, trivial, trivial⟩ ?_
  · intro i
    cases i <;> decide
  · intro i
    cases i <;> decide
  · decide

/-- Both entries are appended before either newline. -/
def tangledEvents : List (WriterEvent Bool) :=
  [.enter false, .enter true, .append false, .append true, .terminate false, .terminate true,
    .finish false, .finish true]

/-- Two entries that share a line make the log unreadable. -/
theorem readEntries_tangled (first second : StampedEntry) (more : List UInt8) :
    readEntries jsonCodec
        (some (entryBytes jsonCodec first ++ entryBytes jsonCodec second ++ [newline] ++ more)) =
      .error (.serialization notAnEntry) := by
  have hbytes : entryBytes jsonCodec first ++ entryBytes jsonCodec second =
      asBytes (jsonCodec.encode first ++ jsonCodec.encode second) :=
    List.flatMap_append.symm
  have hnewline : '\n' ∉ jsonCodec.encode first ++ jsonCodec.encode second := by
    simp [jsonCodec.newline_not_mem]
  have hreturn : '\r' ∉ jsonCodec.encode first ++ jsonCodec.encode second := by
    simp [jsonCodec.return_not_mem]
  have htrim : trim (jsonCodec.encode first ++ jsonCodec.encode second) ≠ [] :=
    trim_cons_ne_nil (by decide) _
  rw [hbytes]
  exact readEntries_spoiled
    (readLoop_line hnewline hreturn htrim (decode_two_entries first second)) more

/-- Both calls return, and the log cannot be read any more. -/
theorem tangled_not_read :
    (∀ i, (tangledEvents.foldl (step jsonCodec twoCalls) (initial [])).phase i = .returned) ∧
      ∃ reason, readEntries jsonCodec
          (some (tangledEvents.foldl (step jsonCodec twoCalls) (initial [])).file) =
        .error (.serialization reason) := by
  refine ⟨by decide, notAnEntry, ?_⟩
  exact readEntries_tangled (twoCalls.entry false) (twoCalls.entry true) [newline]

end WriterWitness

end PiCluster
