/-
Printers paired with the parsers that read their output back, for JSON text.  A
format prints no control character, so every printed value fits on one line, and
its parser stops exactly where the printed value ends.
-/
import PiCluster.Lib.Text

namespace Wire

open Text

variable {α β : Type}

/-- Not a control character. -/
def isPlain (c : Char) : Bool := decide (32 ≤ c.toNat)

def Plain (s : Str) : Prop := ∀ c ∈ s, isPlain c = true

/-- What may follow a printed number. -/
def Stops (rest : Str) : Prop := ∀ c, rest.head? = some c → c.isDigit = false

/-- A printer and the parser that undoes it in front of any text that cannot
continue a number. -/
structure Format (α : Type) where
  print : α → Str
  parse : Str → Option (α × Str)
  print_plain : ∀ value, Plain (print value)
  parse_print : ∀ value rest, Stops rest → parse (print value ++ rest) = some (value, rest)

/-- Fixed text between two values. -/
structure Mark where
  text : Str
  plain : text.all isPlain = true
  stops : text.head?.any (fun c => !c.isDigit) = true

def expect (text input : Str) : Option Str :=
  if startsWith input text then some (input.drop text.length) else none

/-- No printed value starts with this character. -/
def Format.Avoids (format : Format α) (c : Char) : Prop :=
  ∀ value rest, (format.print value ++ rest).head? ≠ some c

@[simp] theorem expect_append (text rest : Str) : expect text (text ++ rest) = some rest := by
  simp [expect]

theorem plain_append {s t : Str} (hs : Plain s) (ht : Plain t) : Plain (s ++ t) := by
  intro c hc
  rcases List.mem_append.mp hc with hc | hc
  · exact hs c hc
  · exact ht c hc

theorem plain_flatMap {print : α → Str} (hprint : ∀ value, Plain (print value))
    (values : List α) : Plain (values.flatMap print) := by
  intro c hc
  obtain ⟨value, _, hc⟩ := List.mem_flatMap.mp hc
  exact hprint value c hc

theorem Mark.plain_text (mark : Mark) : Plain mark.text := List.all_eq_true.mp mark.plain

theorem stops_cons {c : Char} (hc : c.isDigit = false) (rest : Str) : Stops (c :: rest) := by
  intro d hd
  cases hd
  exact hc

theorem Mark.stops_append (mark : Mark) (rest : Str) : Stops (mark.text ++ rest) := by
  have hstops := mark.stops
  cases htext : mark.text with
  | nil => simp [htext] at hstops
  | cons c tail =>
      refine stops_cons ?_ (tail ++ rest)
      simpa [htext] using hstops

namespace Format

/-- The whole text is one printed value. -/
def decode (format : Format α) (input : Str) : Option α :=
  match format.parse input with
  | some (value, []) => some value
  | _ => none

theorem decode_print (format : Format α) (value : α) :
    format.decode (format.print value) = some value := by
  have hparse := format.parse_print value [] nofun
  rw [List.append_nil] at hparse
  simp [decode, hparse]

/-- Anything behind a printed value spoils it. -/
theorem decode_print_append (format : Format α) (value : α) {rest : Str} (hrest : Stops rest)
    (hne : rest ≠ []) : format.decode (format.print value ++ rest) = none := by
  obtain ⟨c, tail, rfl⟩ := List.exists_cons_of_ne_nil hne
  simp [decode, format.parse_print value _ hrest]

def after (mark : Mark) (format : Format α) : Format α where
  print value := mark.text ++ format.print value
  parse input := (expect mark.text input).bind format.parse
  print_plain value := plain_append mark.plain_text (format.print_plain value)
  parse_print value rest hrest := by
    rw [List.append_assoc, expect_append]
    exact format.parse_print value rest hrest

def closed (format : Format α) (mark : Mark) : Format α where
  print value := format.print value ++ mark.text
  parse input := do
    let (value, rest) ← format.parse input
    let rest ← expect mark.text rest
    return (value, rest)
  print_plain value := plain_append (format.print_plain value) mark.plain_text
  parse_print value rest _ := by
    rw [List.append_assoc, format.parse_print value _ (mark.stops_append rest)]
    simp

/-- Two values with fixed text between them. -/
def pair (first : Format α) (mark : Mark) (second : Format β) : Format (α × β) where
  print values := first.print values.1 ++ (second.after mark).print values.2
  parse input := do
    let (one, rest) ← first.parse input
    let (other, rest) ← (second.after mark).parse rest
    return ((one, other), rest)
  print_plain values :=
    plain_append (first.print_plain values.1) ((second.after mark).print_plain values.2)
  parse_print values rest hrest := by
    have hstops : Stops ((second.after mark).print values.2 ++ rest) := by
      rw [after, List.append_assoc]
      exact mark.stops_append _
    rw [List.append_assoc, first.parse_print values.1 _ hstops]
    simp [(second.after mark).parse_print values.2 rest hrest]

theorem pair_avoids {first : Format α} {c : Char} (hfirst : first.Avoids c) (mark : Mark)
    (second : Format β) : (first.pair mark second).Avoids c := by
  intro values rest
  rw [pair, List.append_assoc]
  exact hfirst values.1 _

/-- The same text for another type of values. -/
def convert (format : Format α) (write : β → α) (read : α → Option β)
    (hread : ∀ value, read (write value) = some value) : Format β where
  print value := format.print (write value)
  parse input := do
    let (value, rest) ← format.parse input
    let value ← read value
    return (value, rest)
  print_plain value := format.print_plain (write value)
  parse_print value rest hrest := by
    rw [format.parse_print (write value) rest hrest]
    simp [hread value]

def nullText : Str := "null".toList

theorem plain_nullText : Plain nullText := List.all_eq_true.mp (by decide)

/-- `Option` values, with `null` for `None`. -/
def orNull (format : Format α) (havoid : format.Avoids 'n') : Format (Option α) where
  print
    | none => nullText
    | some value => format.print value
  parse input :=
    if input.head? = some 'n' then (expect nullText input).map fun rest => (none, rest)
    else (format.parse input).map fun found => (some found.1, found.2)
  print_plain
    | none => plain_nullText
    | some value => format.print_plain value
  parse_print
    | none, rest, _ => by
        have hhead : (nullText ++ rest).head? = some 'n' := rfl
        simp [hhead]
    | some value, rest, hrest => by
        rw [if_neg (havoid value rest), format.parse_print value rest hrest]
        rfl

end Format

/-- Read units until the closing character. -/
def readMany (unit : Str → Option (α × Str)) (close : Char) : Nat → Str → Option (List α × Str)
  | 0, _ => none
  | fuel + 1, input =>
      if input.head? = some close then some ([], input.tail)
      else do
        let (value, rest) ← unit input
        let (values, rest) ← readMany unit close fuel rest
        return (value :: values, rest)

/-- Enough fuel reads every printed unit.  `Good` is what the reader of a unit
needs to know about the text behind it. -/
theorem readMany_flatMap {print : α → Str} {unit : Str → Option (α × Str)} {close : Char}
    {Good : Str → Prop} (hgood : ∀ value rest, Good (print value ++ rest))
    (hclose : ∀ rest, Good (close :: rest))
    (hunit : ∀ value rest, Good rest → unit (print value ++ rest) = some (value, rest))
    (hhead : ∀ value rest, (print value ++ rest).head? ≠ some close)
    (values : List α) (rest : Str) {fuel : Nat} (hfuel : values.length < fuel) :
    readMany unit close fuel (values.flatMap print ++ close :: rest) = some (values, rest) := by
  induction values generalizing fuel with
  | nil =>
      obtain ⟨fuel, rfl⟩ := Nat.exists_eq_add_of_lt hfuel
      simp [readMany]
  | cons value values ih =>
      obtain ⟨fuel, rfl⟩ : ∃ more, fuel = more + 1 := ⟨fuel - 1, by omega⟩
      have hbehind : Good (values.flatMap print ++ close :: rest) := by
        cases values with
        | nil => exact hclose rest
        | cons next values =>
            rw [List.flatMap_cons, List.append_assoc]
            exact hgood next _
      have hvalues := ih (by simpa using hfuel)
      rw [List.flatMap_cons, List.append_assoc, readMany, if_neg (hhead value _),
        hunit value _ hbehind]
      simp [hvalues]

/-- A unit that never looks like the closing character takes some text. -/
theorem length_le_flatMap {print : α → Str} {close : Char}
    (hhead : ∀ value rest, (print value ++ rest).head? ≠ some close) (values : List α) :
    values.length ≤ (values.flatMap print).length := by
  induction values with
  | nil => simp
  | cons value values ih =>
      have hne : print value ≠ [] := by
        intro hnil
        exact hhead value [close] (by simp [hnil])
      have hpos := List.length_pos_of_ne_nil hne
      simp only [List.flatMap_cons, List.length_append, List.length_cons]
      omega

def hexDigits : Str := "0123456789abcdef".toList

def hexDigit (n : Nat) : Char := hexDigits.getD n '0'

def hexValue (c : Char) : Option Nat := hexDigits.findIdx? (· == c)

theorem hexValue_hexDigit : ∀ n < 16, hexValue (hexDigit n) = some n := by decide

theorem isPlain_hexDigit : ∀ n < 16, isPlain (hexDigit n) = true := by decide

/-- The escapes of two characters, by the character they stand for. -/
def shortEscapes : List (Char × Char) :=
  [('"', '"'), ('\\', '\\'), ('\n', 'n'), ('\r', 'r'), ('\t', 't'), (Char.ofNat 8, 'b'),
    (Char.ofNat 12, 'f')]

/-- One character of a JSON string. -/
def escape (c : Char) : Str :=
  match shortEscapes.find? (·.1 == c) with
  | some short => ['\\', short.2]
  | none =>
      if isPlain c then [c]
      else "\\u00".toList ++ [hexDigit (c.toNat / 16), hexDigit (c.toNat % 16)]

/-- Read one character of a JSON string; of the long escapes only those below
U+0100 are ever printed. -/
def unescape : Str → Option (Char × Str)
  | [] => none
  | c :: rest =>
      if c ≠ '\\' then some (c, rest)
      else
        match rest with
        | [] => none
        | key :: rest =>
            match shortEscapes.find? (·.2 == key) with
            | some short => some (short.1, rest)
            | none =>
                match key, rest with
                | 'u', '0' :: '0' :: high :: low :: rest => do
                    let high ← hexValue high
                    let low ← hexValue low
                    return (Char.ofNat (16 * high + low), rest)
                | _, _ => none

/-- How a character is printed: a short escape, itself, or a long escape. -/
theorem escape_cases (c : Char) :
    (∃ short ∈ shortEscapes, short.1 = c ∧ escape c = ['\\', short.2]) ∨
      (c ≠ '"' ∧ c ≠ '\\' ∧ isPlain c = true ∧ escape c = [c]) ∨
      (isPlain c = false ∧ escape c =
        ['\\', 'u', '0', '0', hexDigit (c.toNat / 16), hexDigit (c.toNat % 16)]) := by
  unfold escape
  split
  · rename_i short hfind
    refine Or.inl ⟨short, List.mem_of_find?_eq_some hfind, ?_, rfl⟩
    simpa using List.find?_some hfind
  · rename_i hfind
    have hnone := List.find?_eq_none.mp hfind
    have hquote : c ≠ '"' := fun heq => hnone ('"', '"') (by decide) (by simp [heq])
    have hslash : c ≠ '\\' := fun heq => hnone ('\\', '\\') (by decide) (by simp [heq])
    by_cases hplain : isPlain c = true
    · exact Or.inr (Or.inl ⟨hquote, hslash, hplain, if_pos hplain⟩)
    · exact Or.inr (Or.inr ⟨by simpa using hplain, if_neg hplain⟩)

theorem unescape_short : ∀ short ∈ shortEscapes, ∀ rest,
    unescape ('\\' :: short.2 :: rest) = some (short.1, rest) := by
  simp only [shortEscapes, List.forall_mem_cons, List.not_mem_nil, false_implies,
    implies_true, and_true]
  refine ⟨?_, ?_, ?_, ?_, ?_, ?_, ?_⟩ <;> intro rest <;> rfl

theorem unescape_escape (c : Char) (rest : Str) :
    unescape (escape c ++ rest) = some (c, rest) := by
  rcases escape_cases c with ⟨short, hshort, rfl, heq⟩ | ⟨_, hslash, _, heq⟩ | ⟨hcontrol, heq⟩
  · rw [heq]
    exact unescape_short short hshort rest
  · rw [heq]
    simp [unescape, hslash]
  · have hlt : c.toNat < 32 := by simpa [isPlain] using hcontrol
    have hhigh := hexValue_hexDigit (c.toNat / 16) (by omega)
    have hlow := hexValue_hexDigit (c.toNat % 16) (by omega)
    have hcode : 16 * (c.toNat / 16) + c.toNat % 16 = c.toNat := Nat.div_add_mod c.toNat 16
    have hkey : shortEscapes.find? (·.2 == 'u') = none := by decide
    rw [heq]
    simp [unescape, hkey, hhigh, hlow, hcode]

theorem escape_head (c : Char) (rest : Str) : (escape c ++ rest).head? ≠ some '"' := by
  rcases escape_cases c with ⟨short, _, _, heq⟩ | ⟨hquote, _, _, heq⟩ | ⟨_, heq⟩
  · simp [heq]
  · simp [heq, hquote]
  · simp [heq]

theorem plain_escape (c : Char) : Plain (escape c) := by
  have hshorts : ∀ short ∈ shortEscapes, isPlain short.2 = true :=
    List.all_eq_true.mp (by decide)
  rcases escape_cases c with ⟨short, hshort, _, heq⟩ | ⟨_, _, hplain, heq⟩ | ⟨hcontrol, heq⟩
  · rw [heq]
    exact List.forall_mem_cons.mpr ⟨by decide, by simpa using hshorts short hshort⟩
  · rw [heq]
    simpa [Plain] using hplain
  · have hlt : c.toNat < 32 := by simpa [isPlain] using hcontrol
    have hhigh := isPlain_hexDigit (c.toNat / 16) (by omega)
    have hlow := isPlain_hexDigit (c.toNat % 16) (by omega)
    have hlead : Plain ['\\', 'u', '0', '0'] := List.all_eq_true.mp (by decide)
    rw [heq]
    refine plain_append hlead ?_
    simp [Plain, hhigh, hlow]

namespace Format

/-- A string between quotes. -/
def quoted : Format Str where
  print s := '"' :: (s.flatMap escape ++ ['"'])
  parse input :=
    if input.head? = some '"' then readMany unescape '"' input.length input.tail else none
  print_plain s := by
    have hquote : Plain ['"'] := List.all_eq_true.mp (by decide)
    exact plain_append hquote (plain_append (plain_flatMap plain_escape s) hquote)
  parse_print s rest _ := by
    have hlength := length_le_flatMap escape_head s
    simp only [List.cons_append, List.append_assoc, List.nil_append, List.head?_cons,
      ↓reduceIte, List.tail_cons]
    have hfuel : s.length < (s.flatMap escape ++ '"' :: rest).length + 1 := by
      rw [List.length_append]
      omega
    have hunit : ∀ c rest, True → unescape (escape c ++ rest) = some (c, rest) :=
      fun c rest _ => unescape_escape c rest
    exact readMany_flatMap (fun _ _ => trivial) (fun _ => trivial) hunit escape_head s rest hfuel

theorem quoted_avoids {c : Char} (hc : c ≠ '"') : quoted.Avoids c := by
  intro s rest
  simp [quoted, Ne.symm hc]

def readDigits (input : Str) : Option (Nat × Str) :=
  if input.takeWhile Char.isDigit = [] then none
  else some (Nat.ofDigitChars 10 (input.takeWhile Char.isDigit) 0, input.dropWhile Char.isDigit)

theorem readDigits_decimal (n : Nat) {rest : Str} (hrest : Stops rest) :
    readDigits (decimal n ++ rest) = some (n, rest) := by
  have hall : ∀ c ∈ decimal n, c.isDigit = true := fun c hc => isDigit_of_mem_decimal hc
  have hstop : rest.takeWhile Char.isDigit = [] ∧ rest.dropWhile Char.isDigit = rest := by
    cases rest with
    | nil => exact ⟨rfl, rfl⟩
    | cons c tail => simp [hrest c rfl]
  have htake : (decimal n ++ rest).takeWhile Char.isDigit = decimal n := by
    rw [List.takeWhile_append_of_pos hall, hstop.1, List.append_nil]
  have hdrop : (decimal n ++ rest).dropWhile Char.isDigit = rest := by
    rw [List.dropWhile_append_of_pos hall, hstop.2]
  have hne : decimal n ≠ [] := Nat.toDigits_ne_nil
  have hvalue : Nat.ofDigitChars 10 (decimal n) 0 = n :=
    Nat.ofDigitChars_toDigits (by decide) (by decide)
  simp [readDigits, htake, hdrop, hne, hvalue]

theorem exists_decimal (n : Nat) : ∃ c tail, decimal n = c :: tail ∧ c.isDigit = true := by
  obtain ⟨c, tail, heq⟩ := List.exists_cons_of_ne_nil (Nat.toDigits_ne_nil (b := 10) (n := n))
  exact ⟨c, tail, heq, isDigit_of_mem_decimal (n := n) (by simp [decimal, heq])⟩

theorem plain_decimal (n : Nat) : Plain (decimal n) := by
  intro c hc
  have hrange := toNat_of_isDigit (isDigit_of_mem_decimal hc)
  simp only [isPlain, decide_eq_true_eq]
  omega

def integer : Format Int where
  print
    | .ofNat n => decimal n
    | .negSucc n => '-' :: decimal (n + 1)
  parse input :=
    if input.head? = some '-' then
      (readDigits input.tail).map fun found => (-(found.1 : Int), found.2)
    else (readDigits input).map fun found => (found.1, found.2)
  print_plain
    | .ofNat n => plain_decimal n
    | .negSucc n => List.forall_mem_cons.mpr ⟨by decide, plain_decimal (n + 1)⟩
  parse_print
    | .ofNat n, rest, hrest => by
        have hhead : (decimal n ++ rest).head? ≠ some '-' := by
          obtain ⟨c, tail, heq, hdigit⟩ := exists_decimal n
          rw [heq]
          rintro ⟨⟩
          exact absurd hdigit (by decide)
        rw [if_neg hhead, readDigits_decimal n hrest]
        rfl
    | .negSucc n, rest, hrest => by
        simp [readDigits_decimal (n + 1) hrest, Int.negSucc_eq]

theorem integer_avoids {c : Char} (hdigit : c.isDigit = false) (hminus : c ≠ '-') :
    integer.Avoids c := by
  intro value rest
  cases value with
  | ofNat n =>
      obtain ⟨d, tail, heq, hd⟩ := exists_decimal n
      simp only [integer, heq, List.cons_append, List.head?_cons, ne_eq, Option.some.injEq]
      rintro rfl
      exact absurd (hd.symm.trans hdigit) (by decide)
  | negSucc n => simp [integer, Ne.symm hminus]

def comma : Mark := ⟨",".toList, by decide, by decide⟩

/-- Values between brackets, with commas between them. -/
def list (opening closing : Char) (hopening : isPlain opening = true)
    (hclosing : isPlain closing = true ∧ closing.isDigit = false ∧ closing ≠ ',')
    (item : Format α) (havoid : item.Avoids closing) : Format (List α) where
  print
    | [] => [opening, closing]
    | first :: others =>
        opening :: (item.print first ++ (others.flatMap (item.after comma).print ++ [closing]))
  parse input :=
    if input.head? = some opening then
      if input.tail.head? = some closing then some ([], input.tail.tail)
      else do
        let (first, rest) ← item.parse input.tail
        let (others, rest) ← readMany (item.after comma).parse closing (rest.length + 1) rest
        return (first :: others, rest)
    else none
  print_plain
    | [] => by simp [Plain, hopening, hclosing.1]
    | first :: others => by
        refine List.forall_mem_cons.mpr ⟨hopening, ?_⟩
        refine plain_append (item.print_plain first) (plain_append ?_ ?_)
        · exact plain_flatMap (item.after comma).print_plain others
        · simp [Plain, hclosing.1]
  parse_print
    | [], rest, _ => by simp
    | first :: others, rest, _ => by
        have hcomma : ∀ value rest,
            ((item.after comma).print value ++ rest).head? ≠ some closing := by
          intro value rest
          simp [after, comma, Ne.symm hclosing.2.2]
        have hmarked : ∀ value rest, Stops ((item.after comma).print value ++ rest) :=
          fun value rest => stops_cons (by decide) _
        have hclose : ∀ rest, Stops (closing :: rest) := fun rest => stops_cons hclosing.2.1 rest
        have hbehind : Stops (others.flatMap (item.after comma).print ++ closing :: rest) := by
          cases others with
          | nil => exact hclose rest
          | cons next others =>
              rw [List.flatMap_cons, List.append_assoc]
              exact hmarked next _
        have hfuel : others.length <
            (others.flatMap (item.after comma).print ++ closing :: rest).length + 1 := by
          have hlength := length_le_flatMap hcomma others
          rw [List.length_append]
          omega
        have hothers := readMany_flatMap hmarked hclose (item.after comma).parse_print hcomma
          others rest hfuel
        simp only [List.cons_append, List.append_assoc, List.nil_append, List.head?_cons,
          ↓reduceIte, List.tail_cons, havoid first _, item.parse_print first _ hbehind,
          Option.bind_eq_bind, Option.bind_some, hothers]
        rfl

theorem list_avoids {opening closing : Char} {hopening : isPlain opening = true}
    {hclosing : isPlain closing = true ∧ closing.isDigit = false ∧ closing ≠ ','}
    {item : Format α} {havoid : item.Avoids closing} {c : Char} (hc : c ≠ opening) :
    (list opening closing hopening hclosing item havoid).Avoids c := by
  intro values rest
  cases values with
  | nil => simp [list, Ne.symm hc]
  | cons first others => simp [list, Ne.symm hc]

/-- The variants of an enumeration, by their names. -/
def named [DecidableEq α] (variants : List α) (name : α → Str)
    (hfind : ∀ value, variants.find? (fun other => name other == name value) = some value) :
    Format α :=
  quoted.convert name (fun text => variants.find? fun other => name other == text) hfind

end Format

end Wire
