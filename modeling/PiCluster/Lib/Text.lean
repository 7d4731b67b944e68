/-
Strings as lists of Unicode scalar values, with the operations of Rust's `str`
that line-oriented programs use.  Every operation is structurally recursive or
built from Mathlib's list operations, so closed instances evaluate.
-/
import Mathlib.Data.List.DropRight
import Mathlib.Data.List.Basic

namespace Text

/-- A string is the sequence of its Unicode scalar values. -/
abbrev Str := List Char

/-- The code points with Unicode property `White_Space`. -/
def whitespaceRanges : List (Nat × Nat) :=
  [(0x9, 0xD), (0x20, 0x20), (0x85, 0x85), (0xA0, 0xA0), (0x1680, 0x1680),
   (0x2000, 0x200A), (0x2028, 0x2029), (0x202F, 0x202F), (0x205F, 0x205F),
   (0x3000, 0x3000)]

/-- The code points of general category Nd, Nl or No. -/
def numericRanges : List (Nat × Nat) :=
  [(0x30, 0x39), (0xB2, 0xB3), (0xB9, 0xB9), (0xBC, 0xBE), (0x660, 0x669),
   (0x6F0, 0x6F9), (0x7C0, 0x7C9), (0x966, 0x96F), (0x9E6, 0x9EF),
   (0x9F4, 0x9F9), (0xA66, 0xA6F), (0xAE6, 0xAEF), (0xB66, 0xB6F),
   (0xB72, 0xB77), (0xBE6, 0xBF2), (0xC66, 0xC6F), (0xC78, 0xC7E),
   (0xCE6, 0xCEF), (0xD58, 0xD5E), (0xD66, 0xD78), (0xDE6, 0xDEF),
   (0xE50, 0xE59), (0xED0, 0xED9), (0xF20, 0xF33), (0x1040, 0x1049),
   (0x1090, 0x1099), (0x1369, 0x137C), (0x16EE, 0x16F0), (0x17E0, 0x17E9),
   (0x17F0, 0x17F9), (0x1810, 0x1819), (0x1946, 0x194F), (0x19D0, 0x19DA),
   (0x1A80, 0x1A89), (0x1A90, 0x1A99), (0x1B50, 0x1B59), (0x1BB0, 0x1BB9),
   (0x1C40, 0x1C49), (0x1C50, 0x1C59), (0x2070, 0x2070), (0x2074, 0x2079),
   (0x2080, 0x2089), (0x2150, 0x2182), (0x2185, 0x2189), (0x2460, 0x249B),
   (0x24EA, 0x24FF), (0x2776, 0x2793), (0x2CFD, 0x2CFD), (0x3007, 0x3007),
   (0x3021, 0x3029), (0x3038, 0x303A), (0x3192, 0x3195), (0x3220, 0x3229),
   (0x3248, 0x324F), (0x3251, 0x325F), (0x3280, 0x3289), (0x32B1, 0x32BF),
   (0xA620, 0xA629), (0xA6E6, 0xA6EF), (0xA830, 0xA835), (0xA8D0, 0xA8D9),
   (0xA900, 0xA909), (0xA9D0, 0xA9D9), (0xA9F0, 0xA9F9), (0xAA50, 0xAA59),
   (0xABF0, 0xABF9), (0xFF10, 0xFF19), (0x10107, 0x10133), (0x10140, 0x10178),
   (0x1018A, 0x1018B), (0x102E1, 0x102FB), (0x10320, 0x10323),
   (0x10341, 0x10341), (0x1034A, 0x1034A), (0x103D1, 0x103D5),
   (0x104A0, 0x104A9), (0x10858, 0x1085F), (0x10879, 0x1087F),
   (0x108A7, 0x108AF), (0x108FB, 0x108FF), (0x10916, 0x1091B),
   (0x109BC, 0x109BD), (0x109C0, 0x109CF), (0x109D2, 0x109FF),
   (0x10A40, 0x10A48), (0x10A7D, 0x10A7E), (0x10A9D, 0x10A9F),
   (0x10AEB, 0x10AEF), (0x10B58, 0x10B5F), (0x10B78, 0x10B7F),
   (0x10BA9, 0x10BAF), (0x10CFA, 0x10CFF), (0x10D30, 0x10D39),
   (0x10D40, 0x10D49), (0x10E60, 0x10E7E), (0x10F1D, 0x10F26),
   (0x10F51, 0x10F54), (0x10FC5, 0x10FCB), (0x11052, 0x1106F),
   (0x110F0, 0x110F9), (0x11136, 0x1113F), (0x111D0, 0x111D9),
   (0x111E1, 0x111F4), (0x112F0, 0x112F9), (0x11450, 0x11459),
   (0x114D0, 0x114D9), (0x11650, 0x11659), (0x116C0, 0x116C9),
   (0x116D0, 0x116E3), (0x11730, 0x1173B), (0x118E0, 0x118F2),
   (0x11950, 0x11959), (0x11BF0, 0x11BF9), (0x11C50, 0x11C6C),
   (0x11D50, 0x11D59), (0x11DA0, 0x11DA9), (0x11F50, 0x11F59),
   (0x11FC0, 0x11FD4), (0x12400, 0x1246E), (0x16130, 0x16139),
   (0x16A60, 0x16A69), (0x16AC0, 0x16AC9), (0x16B50, 0x16B59),
   (0x16B5B, 0x16B61), (0x16D70, 0x16D79), (0x16E80, 0x16E96),
   (0x1CCF0, 0x1CCF9), (0x1D2C0, 0x1D2D3), (0x1D2E0, 0x1D2F3),
   (0x1D360, 0x1D378), (0x1D7CE, 0x1D7FF), (0x1E140, 0x1E149),
   (0x1E2F0, 0x1E2F9), (0x1E4F0, 0x1E4F9), (0x1E5F1, 0x1E5FA),
   (0x1E8C7, 0x1E8CF), (0x1E950, 0x1E959), (0x1EC71, 0x1ECAB),
   (0x1ECAD, 0x1ECAF), (0x1ECB1, 0x1ECB4), (0x1ED01, 0x1ED2D),
   (0x1ED2F, 0x1ED3D), (0x1F100, 0x1F10C), (0x1FBF0, 0x1FBF9)]

def codeInRanges (ranges : List (Nat × Nat)) (code : Nat) : Bool :=
  ranges.any fun range => decide (range.1 ≤ code) && decide (code ≤ range.2)

/-- `char::is_whitespace`. -/
def isWhitespace (c : Char) : Bool := codeInRanges whitespaceRanges c.toNat

/-- `char::is_numeric`. -/
def isNumeric (c : Char) : Bool := codeInRanges numericRanges c.toNat

/-- `str::starts_with`. -/
def startsWith (s start : Str) : Bool := start.isPrefixOf s

/-- `str::ends_with`. -/
def endsWith (s finish : Str) : Bool := finish.isSuffixOf s

/-- `str::trim_end_matches` with a character predicate. -/
def trimEndMatches (p : Char → Bool) (s : Str) : Str := s.rdropWhile p

/-- `str::trim_start_matches` with a character predicate. -/
def trimStartMatches (p : Char → Bool) (s : Str) : Str := s.dropWhile p

def trimEnd (s : Str) : Str := trimEndMatches isWhitespace s

/-- `str::trim`. -/
def trim (s : Str) : Str := trimStartMatches isWhitespace (trimEnd s)

/-- `str::split_whitespace`: the non-empty pieces between whitespace. -/
def splitWhitespace (s : Str) : List Str :=
  (s.splitOnP isWhitespace).filter fun piece => !piece.isEmpty

/-- `str::rfind` for a character, as an index into the scalar sequence. -/
def rfind (c : Char) (s : Str) : Option Nat :=
  (s.reverse.findIdx? (· == c)).map fun i => s.length - 1 - i

/-- `str::split_once` for a character. -/
def splitOnce (sep : Char) : Str → Option (Str × Str)
  | [] => none
  | c :: rest =>
      if c = sep then some ([], rest)
      else (splitOnce sep rest).map fun pair => (c :: pair.1, pair.2)

/-- `str::split_inclusive` for a character: each piece keeps its terminator. -/
def splitInclusive (sep : Char) : Str → List Str
  | [] => []
  | c :: rest =>
      if c = sep then [c] :: splitInclusive sep rest
      else match splitInclusive sep rest with
        | [] => [[c]]
        | piece :: pieces => (c :: piece) :: pieces

/-- `str::strip_suffix` for a character. -/
def stripSuffix (c : Char) (s : Str) : Option Str :=
  if s.getLast? = some c then some s.dropLast else none

/-- Drop one trailing carriage return. -/
def dropCr (s : Str) : Str := (stripSuffix '\r' s).getD s

/-- A terminated line loses its `\n` and one `\r` before it; an unterminated
last line is kept as it is. -/
def lineBody (piece : Str) : Str :=
  match stripSuffix '\n' piece with
  | none => piece
  | some body => dropCr body

/-- `str::lines`. -/
def lines (s : Str) : List Str := (splitInclusive '\n' s).map lineBody

/-- `[String]::join`. -/
def join (sep : Str) (pieces : List Str) : Str := sep.intercalate pieces

/-- Comparison of strings by scalar values, which is also the byte order of
their UTF-8 encodings. -/
def strLe : Str → Str → Bool
  | [], _ => true
  | _ :: _, [] => false
  | a :: as, b :: bs =>
      decide (a.toNat < b.toNat) || (decide (a.toNat = b.toNat) && strLe as bs)

/-- `str::parse` for an unsigned integer type with values below `bound`: one
leading `+` is allowed, then at least one digit and nothing else. -/
def parseUnsigned (bound : Nat) (s : Str) : Option Nat :=
  let digits := if s.head? = some '+' then s.tail else s
  if digits ≠ [] ∧ digits.all Char.isDigit ∧ Nat.ofDigitChars 10 digits 0 < bound then
    some (Nat.ofDigitChars 10 digits 0)
  else none

/-- The decimal digits of a number, as `to_string` prints them. -/
def decimal (n : Nat) : Str := Nat.toDigits 10 n

/-- A test of every character of a literal, by evaluation. -/
theorem forall_mem_of_all {test : Char → Bool} {value : Bool} {s : Str}
    (hall : s.all (fun c => test c == value) = true) : ∀ c ∈ s, test c = value := by
  simpa using hall

/-- A literal is the string of its characters: no decoding is needed to see that
a character is not in it. -/
theorem not_mem_literal {c : Char} {chars : List Char} (hnot : chars.contains c = false) :
    c ∉ (String.ofList chars).toList := by
  rw [String.toList_ofList]
  simpa using hnot

theorem startsWith_iff {s start : Str} : startsWith s start = true ↔ start <+: s :=
  List.isPrefixOf_iff_prefix

@[simp] theorem startsWith_append (start rest : Str) :
    startsWith (start ++ rest) start = true :=
  startsWith_iff.mpr (List.prefix_append start rest)

theorem strLe_cons {a b : Char} {s t : Str} :
    strLe (a :: s) (b :: t) = true ↔
      a.toNat < b.toNat ∨ (a.toNat = b.toNat ∧ strLe s t = true) := by
  simp [strLe]

theorem strLe_total (s t : Str) : strLe s t = true ∨ strLe t s = true := by
  induction s generalizing t with
  | nil => exact Or.inl rfl
  | cons a s ih =>
      cases t with
      | nil => exact Or.inr rfl
      | cons b t =>
          rw [strLe_cons, strLe_cons]
          rcases Nat.lt_trichotomy a.toNat b.toNat with hlt | heq | hgt
          · exact Or.inl (Or.inl hlt)
          · exact (ih t).imp (fun hle => Or.inr ⟨heq, hle⟩) fun hle => Or.inr ⟨heq.symm, hle⟩
          · exact Or.inr (Or.inl hgt)

theorem strLe_trans {s t u : Str} (hst : strLe s t = true) (htu : strLe t u = true) :
    strLe s u = true := by
  induction s generalizing t u with
  | nil => rfl
  | cons a s ih =>
      cases t with
      | nil => cases hst
      | cons b t =>
          cases u with
          | nil => cases htu
          | cons c u =>
              rw [strLe_cons] at hst htu ⊢
              rcases hst with hab | ⟨hab, hst⟩
              · left
                omega
              · rcases htu with hbc | ⟨hbc, htu⟩
                · left
                  omega
                · exact Or.inr ⟨hab.trans hbc, ih hst htu⟩

theorem strLe_antisymm {s t : Str} (hst : strLe s t = true) (hts : strLe t s = true) :
    s = t := by
  induction s generalizing t with
  | nil =>
      cases t with
      | nil => rfl
      | cons b t => cases hts
  | cons a s ih =>
      cases t with
      | nil => cases hst
      | cons b t =>
          rw [strLe_cons] at hst hts
          have heq : a.toNat = b.toNat := by omega
          obtain rfl : a = b := Char.toNat_inj.mp heq
          have htail := ih (hst.resolve_left (lt_irrefl _)).2 (hts.resolve_left (lt_irrefl _)).2
          rw [htail]

theorem toNat_of_isDigit {c : Char} (hc : c.isDigit = true) :
    48 ≤ c.toNat ∧ c.toNat ≤ 57 := by
  simp only [Char.isDigit, Bool.and_eq_true, decide_eq_true_eq] at hc
  exact ⟨hc.1, hc.2⟩

theorem toNat_of_isLower {c : Char} (hc : c.isLower = true) :
    97 ≤ c.toNat ∧ c.toNat ≤ 122 := by
  obtain ⟨hlow, hhigh⟩ := (Bool.and_eq_true_iff).mp hc
  exact ⟨of_decide_eq_true hlow, of_decide_eq_true hhigh⟩

theorem isDigit_of_mem_decimal {n : Nat} {c : Char} (hc : c ∈ decimal n) :
    c.isDigit = true :=
  Nat.isDigit_of_mem_toDigits (by decide) (by decide) hc

/-- A printed number is parsed back. -/
theorem parseUnsigned_decimal {bound n : Nat} (hlt : n < bound) :
    parseUnsigned bound (decimal n) = some n := by
  have hplus : (decimal n).head? ≠ some '+' := by
    intro hhead
    exact absurd (isDigit_of_mem_decimal (List.mem_of_head? hhead)) (by decide)
  have hne : decimal n ≠ [] := Nat.toDigits_ne_nil
  have hall : (decimal n).all Char.isDigit = true :=
    List.all_eq_true.mpr fun c hc => isDigit_of_mem_decimal hc
  have hvalue : Nat.ofDigitChars 10 (decimal n) 0 = n :=
    Nat.ofDigitChars_toDigits (by decide) (by decide)
  simp only [parseUnsigned, hplus, ↓reduceIte, hne, ne_eq, not_false_eq_true, hall, hvalue,
    hlt, and_self]

theorem codeInRanges_of_mem {ranges : List (Nat × Nat)} {low high code : Nat}
    (hmem : (low, high) ∈ ranges) (hlow : low ≤ code) (hhigh : code ≤ high) :
    codeInRanges ranges code = true :=
  List.any_eq_true.mpr ⟨(low, high), hmem, by simp [hlow, hhigh]⟩

/-- A code point in a gap of the table. -/
theorem codeInRanges_of_gap {ranges : List (Nat × Nat)} {low high code : Nat}
    (hgap : ranges.all (fun range => decide (range.2 < low) || decide (high ≤ range.1)) = true)
    (hlow : low ≤ code) (hhigh : code < high) : codeInRanges ranges code = false := by
  refine List.any_eq_false.mpr fun range hrange => ?_
  have houtside := List.all_eq_true.mp hgap range hrange
  simp only [Bool.or_eq_true, Bool.and_eq_true, decide_eq_true_eq] at houtside ⊢
  omega

theorem isNumeric_of_isDigit {c : Char} (hc : c.isDigit = true) :
    isNumeric c = true := by
  have hrange := toNat_of_isDigit hc
  exact codeInRanges_of_mem List.mem_cons_self hrange.1 hrange.2

/-- Between the ASCII digits and U+00B2 no code point is numeric. -/
theorem isNumeric_eq_false_of_range {c : Char} (hlow : 58 ≤ c.toNat)
    (hhigh : c.toNat < 178) : isNumeric c = false :=
  codeInRanges_of_gap (by decide) hlow hhigh

theorem isNumeric_of_isLower {c : Char} (hc : c.isLower = true) :
    isNumeric c = false := by
  have hrange := toNat_of_isLower hc
  exact isNumeric_eq_false_of_range (by omega) (by omega)

/-- Trimming stops at the last character that does not satisfy the
predicate. -/
theorem trimEndMatches_append {p : Char → Bool} {s tail : Str}
    (htail : ∀ c ∈ tail, p c = true)
    (hlast : ∀ hs : s ≠ [], p (s.getLast hs) = false) :
    trimEndMatches p (s ++ tail) = s := by
  induction tail using List.reverseRecOn with
  | nil =>
      rw [List.append_nil, trimEndMatches, List.rdropWhile_eq_self_iff]
      intro hs
      simp [hlast hs]
  | append_singleton init last ih =>
      rw [trimEndMatches, ← List.append_assoc, List.rdropWhile_concat_pos]
      · exact ih fun c hc => htail c (by simp [hc])
      · exact htail last (by simp)

theorem rfind_append_cons {c : Char} {s tail : Str} (htail : c ∉ tail) :
    rfind c (s ++ c :: tail) = some s.length := by
  have hnone : tail.reverse.findIdx? (· == c) = none := by
    rw [List.findIdx?_eq_none_iff]
    intro d hd
    have hne : d ≠ c := fun heq => htail (heq ▸ List.mem_reverse.mp hd)
    simp [hne]
  simp [rfind, List.findIdx?_append, hnone, List.findIdx?_cons]

theorem splitInclusive_append_sep {sep : Char} {line : Str} (hline : sep ∉ line)
    (rest : Str) :
    splitInclusive sep (line ++ sep :: rest) =
      (line ++ [sep]) :: splitInclusive sep rest := by
  induction line with
  | nil => simp [splitInclusive]
  | cons c line ih =>
      simp only [List.mem_cons, not_or] at hline
      simp [splitInclusive, Ne.symm hline.1, ih hline.2]

/-- Every piece but the last ends in the separator, which stands nowhere
else. -/
theorem mem_splitInclusive {sep : Char} {s piece : Str}
    (hpiece : piece ∈ splitInclusive sep s) :
    sep ∉ piece ∨ ∃ body, sep ∉ body ∧ piece = body ++ [sep] := by
  induction s generalizing piece with
  | nil => simp [splitInclusive] at hpiece
  | cons c rest ih =>
      by_cases hsep : c = sep
      · simp only [splitInclusive, hsep, ↓reduceIte, List.mem_cons] at hpiece
        rcases hpiece with rfl | hpiece
        · exact Or.inr ⟨[], by simp, rfl⟩
        · exact ih hpiece
      · simp only [splitInclusive, hsep, ↓reduceIte] at hpiece
        split at hpiece
        · simp only [List.mem_singleton] at hpiece
          subst hpiece
          exact Or.inl (by simp [Ne.symm hsep])
        · rename_i first pieces hsplit
          rcases List.mem_cons.mp hpiece with rfl | hpiece
          · have hfirst : first ∈ splitInclusive sep rest := by simp [hsplit]
            rcases ih hfirst with hnot | ⟨body, hbody, rfl⟩
            · exact Or.inl (by simp [Ne.symm hsep, hnot])
            · exact Or.inr ⟨c :: body, by simp [Ne.symm hsep, hbody], rfl⟩
          · exact ih (by simp [hsplit, hpiece])

theorem stripSuffix_append (c : Char) (s : Str) : stripSuffix c (s ++ [c]) = some s := by
  simp [stripSuffix]

theorem lineBody_terminated (line : Str) : lineBody (line ++ ['\n']) = dropCr line := by
  simp [lineBody, stripSuffix_append]

theorem dropCr_cases (s : Str) : dropCr s = s ∨ s = dropCr s ++ ['\r'] := by
  by_cases hlast : s.getLast? = some '\r'
  · right
    obtain ⟨init, rfl⟩ := List.getLast?_eq_some_iff.mp hlast
    simp [dropCr, stripSuffix]
  · left
    simp [dropCr, stripSuffix, hlast]

theorem mem_of_mem_dropCr {c : Char} {s : Str} (hc : c ∈ dropCr s) : c ∈ s := by
  rcases dropCr_cases s with heq | heq
  · rwa [heq] at hc
  · rw [heq]
    exact List.mem_append_left _ hc

/-- A line read back never holds a line feed. -/
theorem newline_not_mem_of_mem_lines {s line : Str} (hline : line ∈ lines s) :
    '\n' ∉ line := by
  simp only [lines, List.mem_map] at hline
  obtain ⟨piece, hpiece, rfl⟩ := hline
  rcases mem_splitInclusive hpiece with hnot | ⟨body, hbody, rfl⟩
  · have hnone : stripSuffix '\n' piece = none := by
      have : piece.getLast? ≠ some '\n' := fun hlast => hnot (List.mem_of_getLast? hlast)
      simp [stripSuffix, this]
    simpa [lineBody, hnone] using hnot
  · rw [lineBody_terminated]
    exact fun hmem => hbody (mem_of_mem_dropCr hmem)

theorem join_singleton_sep (sep : Char) {pieces : List Str} (hne : pieces ≠ []) :
    join [sep] pieces ++ [sep] = pieces.flatMap (· ++ [sep]) := by
  induction pieces with
  | nil => exact absurd rfl hne
  | cons piece rest ih =>
      cases rest with
      | nil => simp [join, List.intercalate]
      | cons next rest =>
          have htail := ih (by simp)
          have hhead : join [sep] (piece :: next :: rest) =
              piece ++ sep :: join [sep] (next :: rest) := by
            simp [join, List.intercalate]
          rw [hhead, List.flatMap_cons, ← htail]
          simp

/-- Terminated pieces in front of any text are its first lines. -/
theorem lines_flatMap_append {pieces : List Str} (hpieces : ∀ line ∈ pieces, '\n' ∉ line)
    (rest : Str) :
    lines (pieces.flatMap (· ++ ['\n']) ++ rest) = pieces.map dropCr ++ lines rest := by
  induction pieces with
  | nil => rfl
  | cons piece others ih =>
      have hothers := ih fun line hline => hpieces line (List.mem_cons_of_mem piece hline)
      have hsplit := splitInclusive_append_sep (hpieces piece List.mem_cons_self)
        (others.flatMap (· ++ ['\n']) ++ rest)
      have hassoc : (piece :: others).flatMap (· ++ ['\n']) ++ rest =
          piece ++ '\n' :: (others.flatMap (· ++ ['\n']) ++ rest) := by
        simp
      rw [hassoc, lines, hsplit, List.map_cons, lineBody_terminated, List.map_cons,
        List.cons_append, ← hothers, lines]

theorem lines_flatMap_terminated {pieces : List Str}
    (hpieces : ∀ line ∈ pieces, '\n' ∉ line) :
    lines (pieces.flatMap (· ++ ['\n'])) = pieces.map dropCr := by
  simpa [lines, splitInclusive] using lines_flatMap_append hpieces []

theorem splitInclusive_append_ne_nil (sep : Char) (s : Str) :
    splitInclusive sep (s ++ [sep]) ≠ [] := by
  cases s with
  | nil => simp [splitInclusive]
  | cons c s =>
      simp only [List.cons_append, splitInclusive]
      split
      · simp
      · split <;> simp

/-- A text is split at a separator whatever stands on either side. -/
theorem splitInclusive_append_terminated (sep : Char) (s rest : Str) :
    splitInclusive sep (s ++ sep :: rest) =
      splitInclusive sep (s ++ [sep]) ++ splitInclusive sep rest := by
  induction s with
  | nil => simp [splitInclusive]
  | cons c s ih =>
      by_cases hsep : c = sep
      · simp [splitInclusive, hsep, ih]
      · simp only [List.cons_append, splitInclusive, hsep, ↓reduceIte, ih]
        cases hfirst : splitInclusive sep (s ++ [sep]) with
        | nil => exact absurd hfirst (splitInclusive_append_ne_nil sep s)
        | cons piece pieces => rfl

theorem lines_append_terminated (s rest : Str) :
    lines (s ++ '\n' :: rest) = lines (s ++ ['\n']) ++ lines rest := by
  simp [lines, splitInclusive_append_terminated '\n' s rest]

/-- The lines of terminated pieces are the lines of each piece. -/
theorem mem_lines_flatMap_terminated {line : Str} {pieces : List Str} :
    line ∈ lines (pieces.flatMap (· ++ ['\n'])) ↔
      ∃ piece ∈ pieces, line ∈ lines (piece ++ ['\n']) := by
  induction pieces with
  | nil => simp [lines, splitInclusive]
  | cons piece rest ih =>
      rw [List.flatMap_cons, List.append_assoc, List.singleton_append,
        lines_append_terminated, List.mem_append, ih]
      simp

/-- A terminated text has one line more than it has newlines inside. -/
theorem length_lines_terminated (s : Str) :
    (lines (s ++ ['\n'])).length = s.count '\n' + 1 := by
  rw [lines, List.length_map]
  induction s with
  | nil => simp [splitInclusive]
  | cons c s ih =>
      by_cases hc : c = '\n'
      · simp [splitInclusive, hc, ih]
      · obtain ⟨piece, pieces, hsplit⟩ :=
          List.exists_cons_of_ne_nil (splitInclusive_append_ne_nil '\n' s)
        rw [hsplit] at ih
        simpa [splitInclusive, hc, hsplit] using ih

/-- Terminated pieces have as many lines as there are pieces exactly when none
of them is broken by a newline. -/
theorem length_lines_flatMap_terminated_iff (pieces : List Str) :
    (lines (pieces.flatMap (· ++ ['\n']))).length = pieces.length ↔
      ∀ piece ∈ pieces, '\n' ∉ piece := by
  have hle : ∀ others : List Str,
      others.length ≤ (lines (others.flatMap (· ++ ['\n']))).length := by
    intro others
    induction others with
    | nil => simp
    | cons piece rest ih =>
        rw [List.flatMap_cons, List.append_assoc, List.singleton_append,
          lines_append_terminated, List.length_append, length_lines_terminated,
          List.length_cons]
        omega
  induction pieces with
  | nil => simp [lines, splitInclusive]
  | cons piece rest ih =>
      have hrest := hle rest
      rw [List.forall_mem_cons, List.flatMap_cons, List.append_assoc, List.singleton_append,
        lines_append_terminated, List.length_append, length_lines_terminated,
        List.length_cons]
      constructor
      · intro hlength
        exact ⟨List.count_eq_zero.mp (by omega), ih.mp (by omega)⟩
      · rintro ⟨hpiece, hpieces⟩
        have hcount := List.count_eq_zero.mpr hpiece
        have hsame := ih.mpr hpieces
        omega

/-- Writing lines with a final newline and reading them back only loses one
carriage return at the end of each line; no lines at all come back as one empty
line. -/
theorem lines_join_newline {pieces : List Str}
    (hpieces : ∀ line ∈ pieces, '\n' ∉ line) :
    lines (join ['\n'] pieces ++ ['\n']) =
      if pieces = [] then [[]] else pieces.map dropCr := by
  by_cases hne : pieces = []
  · subst hne
    decide
  · rw [join_singleton_sep '\n' hne, lines_flatMap_terminated hpieces, if_neg hne]

theorem trimEnd_concat {c : Char} (hc : isWhitespace c = true) (s : Str) :
    trimEnd (s ++ [c]) = trimEnd s := by
  simp [trimEnd, trimEndMatches, hc]

@[simp] theorem trimEnd_dropCr (s : Str) : trimEnd (dropCr s) = trimEnd s := by
  rcases dropCr_cases s with heq | heq
  · rw [heq]
  · nth_rewrite 2 [heq]
    rw [trimEnd_concat (by decide)]

@[simp] theorem trim_dropCr (s : Str) : trim (dropCr s) = trim s := by
  simp [trim]

theorem trimEnd_trimEnd (s : Str) : trimEnd (trimEnd s) = trimEnd s :=
  List.rdropWhile_idempotent _ _

theorem trim_trimEnd (s : Str) : trim (trimEnd s) = trim s := by
  simp [trim, trimEnd_trimEnd]

/-- A string without whitespace at either end. -/
theorem trim_eq_self {s : Str} (hne : s ≠ [])
    (hhead : isWhitespace (s.head hne) = false)
    (hlast : isWhitespace (s.getLast hne) = false) :
    trimEnd s = s ∧ trim s = s := by
  have hend : trimEnd s = s := by
    rw [trimEnd, trimEndMatches, List.rdropWhile_eq_self_iff]
    intro hs
    simp [hlast]
  refine ⟨hend, ?_⟩
  rw [trim, hend]
  cases s with
  | nil => exact absurd rfl hne
  | cons c rest => simpa [trimStartMatches] using hhead

theorem trim_cons_ne_nil {c : Char} (hc : isWhitespace c = false) (rest : Str) :
    trim (c :: rest) ≠ [] := by
  intro hnil
  have hend : trimEnd (c :: rest) ≠ [] := by
    rw [trimEnd, trimEndMatches, ne_eq, List.rdropWhile_eq_nil_iff]
    intro hall
    exact absurd (hall c List.mem_cons_self) (by simp [hc])
  obtain ⟨d, tail, heq⟩ := List.exists_cons_of_ne_nil hend
  -- what the end loses is not the first character
  have hfirst : d :: tail <+: c :: rest := heq ▸ List.rdropWhile_prefix _ _
  obtain rfl : d = c := (List.cons_prefix_cons.mp hfirst).1
  rw [trim, heq, trimStartMatches] at hnil
  simp [hc] at hnil

/-- A non-empty string without whitespace. -/
def IsWord (s : Str) : Prop := s ≠ [] ∧ ∀ c ∈ s, isWhitespace c = false

theorem isWord_of_all {s : Str} (hne : s ≠ [])
    (hall : s.all (fun c => isWhitespace c == false) = true) : IsWord s :=
  ⟨hne, forall_mem_of_all hall⟩

theorem false_of_mem_splitOnP {α : Type} {p : α → Bool} {xs piece : List α}
    (hpiece : piece ∈ xs.splitOnP p) : ∀ x ∈ piece, p x = false := by
  induction xs generalizing piece with
  | nil =>
      rw [List.splitOnP_nil, List.mem_singleton] at hpiece
      exact hpiece ▸ List.forall_mem_nil _
  | cons head rest ih =>
      rw [List.splitOnP_cons_eq_if_modifyHead] at hpiece
      split at hpiece
      · rcases List.mem_cons.mp hpiece with rfl | hrest
        · exact List.forall_mem_nil _
        · exact ih hrest
      · rename_i hhead
        obtain ⟨first, later, hsplit⟩ :=
          List.exists_cons_of_ne_nil (List.splitOnP_ne_nil p rest)
        rw [hsplit] at ih
        rw [hsplit, List.modifyHead_cons] at hpiece
        rcases List.mem_cons.mp hpiece with rfl | hlater
        · rw [List.forall_mem_cons]
          exact ⟨by simpa using hhead, ih List.mem_cons_self⟩
        · exact ih (List.mem_cons_of_mem first hlater)

theorem isWord_of_mem_splitWhitespace {s piece : Str} (hpiece : piece ∈ splitWhitespace s) :
    IsWord piece := by
  obtain ⟨hsplit, hne⟩ := List.mem_filter.mp hpiece
  exact ⟨by simpa using hne, false_of_mem_splitOnP hsplit⟩

theorem splitWhitespace_word_append {word : Str} (hword : IsWord word) {c : Char}
    (hc : isWhitespace c = true) (rest : Str) :
    splitWhitespace (word ++ c :: rest) = word :: splitWhitespace rest := by
  have hsplit := List.splitOnP_append_cons_of_forall_mem hword.2 c hc rest
  simp [splitWhitespace, hsplit, hword.1]

end Text
