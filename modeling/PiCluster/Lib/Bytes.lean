/-
Bytes of a wire format or a file: UTF-8 text, strict and lossy decoding,
NUL-terminated fields, newline-terminated lines and 16-bit big-endian numbers.
-/
import PiCluster.Lib.Text

namespace Bytes

open Text

/-- `str::as_bytes`. -/
def asBytes (s : Str) : List UInt8 := s.flatMap String.utf8EncodeChar

/-- A UTF-8 sequence in progress: how many bytes it still needs, the range the
next byte must lie in, and the bits collected so far. -/
structure Pending where
  need : Nat
  low : Nat
  high : Nat
  code : Nat

def replacement : Char := Char.ofNat 0xFFFD

/-- The effect of a byte that starts a sequence. -/
def startSequence (b : Nat) : Str × Option Pending :=
  if b ≤ 0x7F then ([Char.ofNat b], none)
  else if 0xC2 ≤ b ∧ b ≤ 0xDF then ([], some ⟨1, 0x80, 0xBF, b - 0xC0⟩)
  else if 0xE0 ≤ b ∧ b ≤ 0xEF then
    ([], some ⟨2, if b = 0xE0 then 0xA0 else 0x80, if b = 0xED then 0x9F else 0xBF,
      b - 0xE0⟩)
  else if 0xF0 ≤ b ∧ b ≤ 0xF4 then
    ([], some ⟨3, if b = 0xF0 then 0x90 else 0x80, if b = 0xF4 then 0x8F else 0xBF,
      b - 0xF0⟩)
  else ([replacement], none)

/-- One byte of lossy decoding.  A byte that cannot continue the sequence in
progress replaces it by one replacement character and starts anew. -/
def decodeStep (pending : Option Pending) (b : Nat) : Str × Option Pending :=
  match pending with
  | none => startSequence b
  | some seq =>
      if seq.low ≤ b ∧ b ≤ seq.high then
        let code := seq.code * 64 + (b - 0x80)
        if seq.need = 1 then ([Char.ofNat code], none)
        else ([], some ⟨seq.need - 1, 0x80, 0xBF, code⟩)
      else (replacement :: (startSequence b).1, (startSequence b).2)

def decodeFrom (pending : Option Pending) : List UInt8 → Str
  | [] => if pending.isSome then [replacement] else []
  | b :: rest =>
      (decodeStep pending b.toNat).1 ++ decodeFrom (decodeStep pending b.toNat).2 rest

/-- `String::from_utf8_lossy`. -/
def decodeLossy (bytes : List UInt8) : Str := decodeFrom none bytes

/-- The decoded fields of a NUL-terminated sequence; bytes after the last NUL
are dropped. -/
def nulFieldsFrom (current : List UInt8) : List UInt8 → List Str
  | [] => []
  | b :: rest =>
      if b = 0 then decodeLossy current :: nulFieldsFrom [] rest
      else nulFieldsFrom (current ++ [b]) rest

def nulFields (bytes : List UInt8) : List Str := nulFieldsFrom [] bytes

/-- `u16::to_be_bytes`. -/
def toBeBytes (n : UInt16) : List UInt8 :=
  [UInt8.ofNat (n.toNat / 256), UInt8.ofNat (n.toNat % 256)]

/-- `u16::from_be_bytes`. -/
def fromBeBytes (high low : UInt8) : UInt16 :=
  UInt16.ofNat (high.toNat * 256 + low.toNat)

theorem fromBeBytes_toBeBytes (n : UInt16) :
    fromBeBytes (UInt8.ofNat (n.toNat / 256)) (UInt8.ofNat (n.toNat % 256)) = n := by
  have hlt := n.toNat_lt
  rw [fromBeBytes, UInt16.ofNat_eq_iff_mod_eq_toNat]
  simp only [UInt8.toNat_ofNat']
  omega

/-- Block numbers that agree modulo 2 ^ 16 and are less than that apart are
equal. -/
theorem ofNat_inj_of_window {n m : Nat} (hle : n ≤ m) (hwindow : m < n + 65536)
    (heq : UInt16.ofNat n = UInt16.ofNat m) : n = m := by
  have hmod := congrArg UInt16.toNat heq
  simp only [UInt16.toNat_ofNat'] at hmod
  omega

/-- Characters that UTF-8 stores in one nonzero byte. -/
def IsAscii (s : Str) : Prop := ∀ c ∈ s, c ≠ Char.ofNat 0 ∧ c.toNat ≤ 127

theorem isAscii_of_all {s : Str}
    (hall : s.all (fun c => c != Char.ofNat 0 && decide (c.toNat ≤ 127)) = true) :
    IsAscii s := by
  intro c hc
  have htest := List.all_eq_true.mp hall c hc
  simpa only [Bool.and_eq_true, bne_iff_ne, ne_eq, decide_eq_true_eq] using htest

section Sequences

variable {b : UInt8} {seq : Pending} {c : Char} (rest : List UInt8)

theorem decodeFrom_lead2 (hlow : 0xC2 ≤ b.toNat) (hhigh : b.toNat ≤ 0xDF) :
    decodeFrom none (b :: rest) = decodeFrom (some ⟨1, 0x80, 0xBF, b.toNat - 0xC0⟩) rest := by
  have hstart : startSequence b.toNat = ([], some ⟨1, 0x80, 0xBF, b.toNat - 0xC0⟩) := by
    rw [startSequence, if_neg (by omega), if_pos ⟨hlow, hhigh⟩]
  rw [decodeFrom, decodeStep, hstart, List.nil_append]

theorem decodeFrom_lead3 (hlow : 0xE0 ≤ b.toNat) (hhigh : b.toNat ≤ 0xEF) :
    decodeFrom none (b :: rest) =
      decodeFrom (some ⟨2, if b.toNat = 0xE0 then 0xA0 else 0x80,
        if b.toNat = 0xED then 0x9F else 0xBF, b.toNat - 0xE0⟩) rest := by
  have hstart : startSequence b.toNat =
      ([], some ⟨2, if b.toNat = 0xE0 then 0xA0 else 0x80,
        if b.toNat = 0xED then 0x9F else 0xBF, b.toNat - 0xE0⟩) := by
    rw [startSequence, if_neg (by omega), if_neg (by omega), if_pos ⟨hlow, hhigh⟩]
  rw [decodeFrom, decodeStep, hstart, List.nil_append]

theorem decodeFrom_lead4 (hlow : 0xF0 ≤ b.toNat) (hhigh : b.toNat ≤ 0xF4) :
    decodeFrom none (b :: rest) =
      decodeFrom (some ⟨3, if b.toNat = 0xF0 then 0x90 else 0x80,
        if b.toNat = 0xF4 then 0x8F else 0xBF, b.toNat - 0xF0⟩) rest := by
  have hstart : startSequence b.toNat =
      ([], some ⟨3, if b.toNat = 0xF0 then 0x90 else 0x80,
        if b.toNat = 0xF4 then 0x8F else 0xBF, b.toNat - 0xF0⟩) := by
    rw [startSequence, if_neg (by omega), if_neg (by omega), if_neg (by omega),
      if_pos ⟨hlow, hhigh⟩]
  rw [decodeFrom, decodeStep, hstart, List.nil_append]

/-- A byte in range after which the sequence still needs more. -/
theorem decodeFrom_continue (hlow : seq.low ≤ b.toNat) (hhigh : b.toNat ≤ seq.high)
    (hneed : seq.need ≠ 1) :
    decodeFrom (some seq) (b :: rest) =
      decodeFrom (some ⟨seq.need - 1, 0x80, 0xBF, seq.code * 64 + (b.toNat - 0x80)⟩) rest := by
  simp [decodeFrom, decodeStep, hlow, hhigh, hneed]

theorem decodeFrom_complete (hlow : seq.low ≤ b.toNat) (hhigh : b.toNat ≤ seq.high)
    (hneed : seq.need = 1) (hcode : seq.code * 64 + (b.toNat - 0x80) = c.toNat) :
    decodeFrom (some seq) (b :: rest) = c :: decodeFrom none rest := by
  simp [decodeFrom, decodeStep, hlow, hhigh, hneed, hcode, Char.ofNat_toNat]

variable {b3 b2 b1 b0 : UInt8}

theorem decodeFrom_two (h1 : b1.toNat = c.toNat / 64 + 192) (h0 : b0.toNat = c.toNat % 64 + 128)
    (hlow : 127 < c.toNat) (hhigh : c.toNat ≤ 2047) :
    decodeFrom none (b1 :: b0 :: rest) = c :: decodeFrom none rest := by
  rw [decodeFrom_lead2 _ (by omega) (by omega)]
  apply decodeFrom_complete
  · simp only [h0]
    omega
  · simp only [h0]
    omega
  · rfl
  · simp only [h1, h0]
    omega

/-- The first continuation byte keeps overlong encodings and surrogates out. -/
theorem decodeFrom_three (h2 : b2.toNat = c.toNat / 4096 + 224)
    (h1 : b1.toNat = c.toNat / 64 % 64 + 128) (h0 : b0.toNat = c.toNat % 64 + 128)
    (hlow : 2047 < c.toNat) (hhigh : c.toNat ≤ 65535) :
    decodeFrom none (b2 :: b1 :: b0 :: rest) = c :: decodeFrom none rest := by
  have hvalid : c.toNat < 0xD800 ∨ 0xDFFF < c.toNat ∧ c.toNat < 0x110000 := c.valid
  rw [decodeFrom_lead3 _ (by omega) (by omega), decodeFrom_continue]
  · apply decodeFrom_complete
    · simp only [h0]
      omega
    · simp only [h0]
      omega
    · rfl
    · simp only [h2, h1, h0]
      omega
  · simp only [h2, h1]
    split <;> omega
  · simp only [h2, h1]
    split <;> omega
  · exact Nat.succ_succ_ne_one 0

theorem decodeFrom_four (h3 : b3.toNat = c.toNat / 262144 + 240)
    (h2 : b2.toNat = c.toNat / 4096 % 64 + 128) (h1 : b1.toNat = c.toNat / 64 % 64 + 128)
    (h0 : b0.toNat = c.toNat % 64 + 128) (hlow : 65535 < c.toNat) :
    decodeFrom none (b3 :: b2 :: b1 :: b0 :: rest) = c :: decodeFrom none rest := by
  have hvalid : c.toNat < 0xD800 ∨ 0xDFFF < c.toNat ∧ c.toNat < 0x110000 := c.valid
  rw [decodeFrom_lead4 _ (by omega) (by omega), decodeFrom_continue, decodeFrom_continue]
  · apply decodeFrom_complete
    · simp only [h0]
      omega
    · simp only [h0]
      omega
    · rfl
    · simp only [h3, h2, h1, h0]
      omega
  · simp only [h1]
    omega
  · simp only [h1]
    omega
  · exact Nat.succ_succ_ne_one 0
  · simp only [h3, h2]
    split <;> omega
  · simp only [h3, h2]
    split <;> omega
  · exact Nat.succ_succ_ne_one 1

end Sequences

theorem toNat_ofNat_of_lt {n : Nat} (hn : n < 256) : (UInt8.ofNat n).toNat = n := by
  rw [UInt8.toNat_ofNat', Nat.mod_eq_of_lt hn]

/-- An encoded character is decoded whatever follows it. -/
theorem decodeFrom_utf8EncodeChar (c : Char) (rest : List UInt8) :
    decodeFrom none (String.utf8EncodeChar c ++ rest) = c :: decodeFrom none rest := by
  have hval : c.val.toNat = c.toNat := rfl
  have hvalid : c.toNat < 0xD800 ∨ 0xDFFF < c.toNat ∧ c.toNat < 0x110000 := c.valid
  unfold String.utf8EncodeChar
  simp only [hval]
  split
  · rename_i hone
    rw [List.singleton_append, decodeFrom, toNat_ofNat_of_lt (by omega), decodeStep,
      startSequence, if_pos hone, Char.ofNat_toNat]
    rfl
  · split
    · apply decodeFrom_two
      · rw [toNat_ofNat_of_lt (by omega)]
        omega
      · rw [toNat_ofNat_of_lt (by omega)]
      · omega
      · assumption
    · split
      · apply decodeFrom_three
        · rw [toNat_ofNat_of_lt (by omega)]
          omega
        · rw [toNat_ofNat_of_lt (by omega)]
        · rw [toNat_ofNat_of_lt (by omega)]
        · omega
        · assumption
      · apply decodeFrom_four
        · rw [toNat_ofNat_of_lt (by omega)]
          omega
        · rw [toNat_ofNat_of_lt (by omega)]
        · rw [toNat_ofNat_of_lt (by omega)]
        · rw [toNat_ofNat_of_lt (by omega)]
        · omega

/-- Lossy decoding loses nothing of valid UTF-8. -/
theorem decodeLossy_asBytes (s : Str) : decodeLossy (asBytes s) = s := by
  unfold decodeLossy asBytes
  induction s with
  | nil => rfl
  | cons c rest ih => rw [List.flatMap_cons, decodeFrom_utf8EncodeChar, ih]

theorem nulFieldsFrom_append {field : List UInt8} (hfield : (0 : UInt8) ∉ field)
    (current rest : List UInt8) :
    nulFieldsFrom current (field ++ 0 :: rest) =
      decodeLossy (current ++ field) :: nulFieldsFrom [] rest := by
  induction field generalizing current with
  | nil => simp [nulFieldsFrom]
  | cons b tail ih =>
      simp only [List.mem_cons, not_or] at hfield
      rw [List.cons_append, nulFieldsFrom, if_neg (Ne.symm hfield.1), ih hfield.2]
      simp

/-- Strict decoding, as `String::from_utf8`. -/
def decodeUtf8 (bytes : List UInt8) : Option Str :=
  bytes.toByteArray.utf8Decode?.map Array.toList

@[simp] theorem decodeUtf8_asBytes (s : Str) : decodeUtf8 (asBytes s) = some s := by
  have hdecode : (asBytes s).toByteArray.utf8Decode? = some s.toArray :=
    List.utf8Decode?_utf8Encode
  simp [decodeUtf8, hdecode]

/-- A byte below 128 in the encoding of a character is that character. -/
theorem toNat_of_mem_utf8EncodeChar {c : Char} {b : UInt8}
    (hb : b ∈ String.utf8EncodeChar c) (hlt : b.toNat < 128) : c.toNat = b.toNat := by
  have hval : c.val.toNat = c.toNat := rfl
  unfold String.utf8EncodeChar at hb
  simp only [hval] at hb
  split at hb
  · rw [List.mem_singleton] at hb
    subst hb
    rw [toNat_ofNat_of_lt (by omega)]
  · -- every byte of a longer sequence has its top bit set
    exfalso
    split at hb
    · simp only [List.mem_cons, List.not_mem_nil, or_false] at hb
      rcases hb with rfl | rfl <;> rw [UInt8.toNat_ofNat'] at hlt <;> omega
    · split at hb
      · simp only [List.mem_cons, List.not_mem_nil, or_false] at hb
        rcases hb with rfl | rfl | rfl <;> rw [UInt8.toNat_ofNat'] at hlt <;> omega
      · simp only [List.mem_cons, List.not_mem_nil, or_false] at hb
        rcases hb with rfl | rfl | rfl | rfl <;> rw [UInt8.toNat_ofNat'] at hlt <;> omega

theorem not_mem_asBytes {s : Str} {c : Char} {b : UInt8} (hc : c ∉ s)
    (hb : c.toNat = b.toNat) (hlt : b.toNat < 128) : b ∉ asBytes s := by
  simp only [asBytes, List.mem_flatMap, not_exists, not_and]
  intro other hother hmem
  have hcode := toNat_of_mem_utf8EncodeChar hmem hlt
  have hsame : other = c := Char.toNat_inj.mp (hcode.trans hb.symm)
  exact hc (hsame ▸ hother)

theorem zero_not_mem_asBytes {s : Str} (hs : Char.ofNat 0 ∉ s) : (0 : UInt8) ∉ asBytes s :=
  not_mem_asBytes hs rfl (by decide)

/-- A NUL-terminated text field is read back first. -/
theorem nulFields_field {s : Str} (hs : Char.ofNat 0 ∉ s) (rest : List UInt8) :
    nulFields (asBytes s ++ 0 :: rest) = s :: nulFields rest := by
  rw [nulFields, nulFieldsFrom_append (zero_not_mem_asBytes hs), List.nil_append,
    decodeLossy_asBytes]
  rfl

theorem IsAscii.zero_not_mem {s : Str} (hs : IsAscii s) : Char.ofNat 0 ∉ s :=
  fun hmem => (hs _ hmem).1 rfl

def newline : UInt8 := 10

def carriageReturn : UInt8 := 13

/-- Complete lines, without their terminators, and the bytes after the last
newline. -/
structure LineSplit where
  lines : List (List UInt8)
  rest : List UInt8
deriving DecidableEq, Repr

/-- A carriage return before the newline belongs to the terminator. -/
def chomp (line : List UInt8) : List UInt8 :=
  if line.getLast? = some carriageReturn then line.dropLast else line

def LineSplit.feed (split : LineSplit) (b : UInt8) : LineSplit :=
  if b = newline then ⟨split.lines ++ [chomp split.rest], []⟩
  else ⟨split.lines, split.rest ++ [b]⟩

def splitLines (bytes : List UInt8) : LineSplit := bytes.foldl LineSplit.feed ⟨[], []⟩

/-- The pieces of `BufRead::lines`: the last one need not be terminated. -/
def bufLines (bytes : List UInt8) : List (List UInt8) :=
  (splitLines bytes).lines ++
    if (splitLines bytes).rest = [] then [] else [(splitLines bytes).rest]

theorem LineSplit.foldl_feed {line : List UInt8} (hline : newline ∉ line) (split : LineSplit) :
    line.foldl feed split = ⟨split.lines, split.rest ++ line⟩ := by
  induction line generalizing split with
  | nil => simp
  | cons b tail ih =>
      simp only [List.mem_cons, not_or] at hline
      rw [List.foldl_cons, ih hline.2, feed, if_neg (Ne.symm hline.1)]
      simp

/-- Bytes without a newline extend the last line. -/
theorem splitLines_append {piece : List UInt8} (hpiece : newline ∉ piece)
    (bytes : List UInt8) :
    splitLines (bytes ++ piece) =
      ⟨(splitLines bytes).lines, (splitLines bytes).rest ++ piece⟩ := by
  rw [splitLines, List.foldl_append, LineSplit.foldl_feed hpiece]
  rfl

/-- A newline completes the last line. -/
theorem splitLines_newline (bytes : List UInt8) :
    splitLines (bytes ++ [newline]) =
      ⟨(splitLines bytes).lines ++ [chomp (splitLines bytes).rest], []⟩ := by
  rw [splitLines, List.foldl_append]
  rfl

/-- Complete lines stay what they are, whatever follows. -/
theorem LineSplit.lines_foldl_feed (more : List UInt8) (split : LineSplit) :
    split.lines <+: (more.foldl feed split).lines := by
  induction more generalizing split with
  | nil => exact List.prefix_refl split.lines
  | cons b tail ih =>
      refine List.IsPrefix.trans ?_ (ih (split.feed b))
      unfold feed
      split
      · exact List.prefix_append _ _
      · exact List.prefix_refl _

theorem lines_splitLines_append (bytes more : List UInt8) :
    (splitLines bytes).lines <+: (splitLines (bytes ++ more)).lines := by
  rw [splitLines, splitLines, List.foldl_append]
  exact LineSplit.lines_foldl_feed more _

theorem chomp_eq_self {line : List UInt8} (hline : carriageReturn ∉ line) :
    chomp line = line :=
  if_neg fun hlast => hline (List.mem_of_getLast? hlast)

end Bytes
