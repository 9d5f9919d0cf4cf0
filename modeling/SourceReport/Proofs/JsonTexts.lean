import Mathlib.Data.List.Nodup
import Mathlib.Tactic.SplitIfs
import SourceReport.Json.Reader
import SourceReport.Json.Writer

/-!
# Written JSON

What is written is read back: texts character by character, whole numbers by their digits, and
tables of scalars field by field.
-/

namespace SourceReport

/-!
# Digits
-/

namespace Digits

theorem number_append (base : Nat) (front back : List Char) :
    number base (front ++ back) =
      back.foldl (fun n c => n * base + (value? c).getD 0) (number base front) := by
  rw [number, number, List.foldl_append]

theorem value?_digitChar : ∀ {d : Nat}, d < 16 → value? d.digitChar = some d := by
  decide

variable {base : Nat}

/-- The digits of a number are digits, and write it. -/
theorem number_toDigits (two : 1 < base) (small : base ≤ 16) (n : Nat) :
    number base (Nat.toDigits base n) = n := by
  induction n using Nat.strongRecOn with
  | ind n ih =>
      rw [Nat.toDigits_eq_if two]
      split
      · next digit =>
          have value := value?_digitChar (Nat.lt_of_lt_of_le digit small)
          simp [number, value]
      · next large =>
          have positive : 0 < base := by omega
          have value := value?_digitChar (Nat.lt_of_lt_of_le (Nat.mod_lt n positive) small)
          have less : n / base < n := Nat.div_lt_self (by omega) two
          rw [number_append, ih _ less, List.foldl_cons, List.foldl_nil, value, Option.getD_some,
            Nat.div_add_mod']

theorem isDigit_of_mem_toDigits (two : 1 < base) (small : base ≤ 16) {n : Nat} {c : Char}
    (member : c ∈ Nat.toDigits base n) : isDigit base c = true := by
  have digit {d : Nat} (below : d < base) : isDigit base d.digitChar = true := by
    rw [isDigit, value?_digitChar (Nat.lt_of_lt_of_le below small)]
    exact decide_eq_true below
  induction n using Nat.strongRecOn with
  | ind n ih =>
      rw [Nat.toDigits_eq_if two] at member
      split at member
      · next below =>
          rw [List.mem_singleton] at member
          rw [member]
          exact digit below
      · next large =>
          have less : n / base < n := Nat.div_lt_self (by omega) two
          rw [List.mem_append, List.mem_singleton] at member
          rcases member with earlier | rfl
          · exact ih _ less earlier
          · exact digit (Nat.mod_lt n (by omega))

theorem number_replicate_append (count : Nat) (digits : List Char) :
    number base (List.replicate count '0' ++ digits) = number base digits := by
  have zeros : number base (List.replicate count '0') = 0 := by
    induction count with
    | zero => rfl
    | succ count ih =>
        have zero : value? '0' = some 0 := by decide
        rw [List.replicate_succ', number_append, ih, List.foldl_cons, List.foldl_nil, zero,
          Option.getD_some, Nat.zero_mul]
  rw [number_append, zeros, number]

end Digits

/-- A field with a new name comes last. -/
theorem Value.insert_of_not_mem {name : Text} {value : Value} {fields : Fields}
    (new : name ∉ fields.map Prod.fst) : insert name value fields = fields ++ [(name, value)] := by
  induction fields with
  | nil => rfl
  | cons field rest ih =>
      rw [List.map_cons, List.mem_cons, not_or] at new
      rw [insert, if_neg (Ne.symm new.1), ih new.2]
      rfl

namespace Json

/-!
# Characters
-/

/-- A unit of sixteen bits is written with four digits. -/
theorem exists_hex_eq {unit : Nat} (small : unit < 0x10000) : ∃ a b c d,
    Quoted.hex 4 unit = [a, b, c, d] ∧ Digits.fixed? 16 4 [a, b, c, d] = some (unit, []) := by
  have short : (Nat.toDigits 16 unit).length ≤ 4 :=
    (Nat.length_toDigits_le_iff (by decide) (by decide)).mpr small
  have length : (Quoted.hex 4 unit).length = 4 := by
    rw [Quoted.hex, List.length_append, List.length_replicate]
    omega
  have number : Digits.number 16 (Quoted.hex 4 unit) = unit := by
    rw [Quoted.hex, Digits.number_replicate_append,
      Digits.number_toDigits (by decide) (by decide)]
  have digits : (Quoted.hex 4 unit).all (Digits.isDigit 16) = true := by
    rw [List.all_eq_true]
    intro c member
    rw [Quoted.hex, List.mem_append] at member
    rcases member with zero | digit
    · rw [List.eq_of_mem_replicate zero]
      decide
    · exact Digits.isDigit_of_mem_toDigits (by decide) (by decide) digit
  generalize Quoted.hex 4 unit = text at length number digits
  match text, length with
  | [a, b, c, d], _ =>
      refine ⟨a, b, c, d, rfl, ?_⟩
      rw [Digits.fixed?, List.take_of_length_le (by simp), if_pos ⟨rfl, digits⟩, number]
      rfl

theorem stringRest_unitEscape {unit : Nat} (small : unit < 0x10000) (rest : List Char) :
    stringRest (unitEscape unit ++ rest) =
      (stringRest rest).map fun (units, last) => (unitOf unit :: units, last) := by
  rcases exists_hex_eq small with ⟨a, b, c, d, digits, read⟩
  rw [unitEscape, digits]
  simp only [List.cons_append, List.nil_append, stringRest, read]

theorem stringRest_flatMap_unitEscape {units : List Nat} (small : ∀ unit ∈ units, unit < 0x10000)
    (rest : List Char) :
    stringRest (units.flatMap unitEscape ++ rest) =
      (stringRest rest).map fun (read, last) => (units.map unitOf ++ read, last) := by
  induction units with
  | nil => simp
  | cons unit others ih =>
      rw [List.forall_mem_cons] at small
      rw [List.flatMap_cons, List.append_assoc, stringRest_unitEscape small.1, ih small.2,
        Option.map_map]
      rfl

theorem stringRest_simple {letter c : Char} (escapes : simpleEscape? letter = some c)
    (rest : List Char) :
    stringRest ('\\' :: letter :: rest) =
      (stringRest rest).map fun (read, last) => (.char c :: read, last) := by
  have other : letter ≠ 'u' := by
    rintro rfl
    cases escapes
  rw [stringRest]
  · rw [escapes]
  · exact fun _ _ _ _ _ same _ => other same

theorem stringRest_plain {c : Char} (quote : c ≠ '"') (escape : c ≠ '\\')
    (printable : 0x20 ≤ c.toNat) (rest : List Char) :
    stringRest (c :: rest) =
      (stringRest rest).map fun (read, last) => (.char c :: read, last) := by
  have fine : ¬(c = '\\' ∨ c.toNat < 0x20) := by
    rintro (same | low)
    · exact escape same
    · omega
  rw [stringRest, if_neg fine]
  · exact quote
  · exact fun _ _ _ _ _ same _ => escape same
  · exact fun _ _ same _ => escape same

/-- A character as the units that it is read as before pairs are made. -/
def readUnits (c : Char) : List TextUnit :=
  (units c.toNat).map unitOf

theorem readUnits_of_lt {c : Char} (single : c.toNat < 0x10000) : readUnits c = [.char c] := by
  have valid : c.toNat < 0xD800 ∨ 0xDFFF < c.toNat ∧ c.toNat < 0x110000 := c.valid
  rw [readUnits, units, if_pos single, List.map_cons, List.map_nil, unitOf, if_neg (by omega),
    Char.ofNat_toNat]

theorem lt_of_mem_units {c : Char} {unit : Nat} (member : unit ∈ units c.toNat) :
    unit < 0x10000 := by
  have valid : c.toNat < 0xD800 ∨ 0xDFFF < c.toNat ∧ c.toNat < 0x110000 := c.valid
  unfold units at member
  split at member
  · next single =>
      rw [List.mem_singleton] at member
      omega
  · next =>
      simp only [List.mem_cons, List.not_mem_nil, or_false] at member
      omega

theorem stringRest_escapeChar (c : Char) (rest : List Char) :
    stringRest (escapeChar c ++ rest) =
      (stringRest rest).map fun (read, last) => (readUnits c ++ read, last) := by
  have simple {letter special : Char} (escapes : simpleEscape? letter = some special)
      (same : c = special) (single : special.toNat < 0x10000) :
      stringRest (['\\', letter] ++ rest) =
        (stringRest rest).map fun (read, last) => (readUnits c ++ read, last) := by
    rw [same, readUnits_of_lt single]
    exact stringRest_simple escapes rest
  unfold escapeChar
  split_ifs with quote escape newline carriage tab backspace feed printable
  · exact simple rfl quote (by decide)
  · exact simple rfl escape (by decide)
  · exact simple rfl newline (by decide)
  · exact simple rfl carriage (by decide)
  · exact simple rfl tab (by decide)
  · exact simple rfl backspace (by decide)
  · exact simple rfl feed (by decide)
  · rw [readUnits_of_lt (by omega)]
    exact stringRest_plain quote escape printable.1 rest
  · exact stringRest_flatMap_unitEscape (fun _ => lt_of_mem_units) rest

/-!
# Texts
-/

/-- A character beyond the first plane is read as a pair of surrogates. -/
theorem exists_readUnits_eq {c : Char} (large : 0x10000 ≤ c.toNat) : ∃ high low,
    readUnits c = [.surrogate high, .surrogate low] ∧ paired? high low = some c := by
  have valid : c.toNat < 0xD800 ∨ 0xDFFF < c.toNat ∧ c.toNat < 0x110000 := c.valid
  refine ⟨0xD800 + (c.toNat - 0x10000) / 0x400, 0xDC00 + (c.toNat - 0x10000) % 0x400, ?_, ?_⟩
  · rw [readUnits, units, if_neg (by omega), List.map_cons, List.map_cons, List.map_nil, unitOf,
      unitOf, if_pos (by omega), if_pos (by omega)]
  · have code : 0x10000 + (0xD800 + (c.toNat - 0x10000) / 0x400 - 0xD800) * 0x400 +
        (0xDC00 + (c.toNat - 0x10000) % 0x400 - 0xDC00) = c.toNat := by
      omega
    rw [paired?, if_pos (by omega), code, Char.ofNat_toNat]

theorem pairUp_readUnits (c : Char) (rest : List TextUnit) :
    pairUp (readUnits c ++ rest) = .char c :: pairUp rest := by
  rcases Nat.lt_or_ge c.toNat 0x10000 with single | large
  · rw [readUnits_of_lt single, List.singleton_append, pairUp]
    intro high low others same
    cases same
  · rcases exists_readUnits_eq large with ⟨high, low, read, paired⟩
    rw [read, List.cons_append, List.singleton_append, pairUp, paired]

theorem pairUp_flatMap_readUnits (chars : List Char) :
    pairUp (chars.flatMap readUnits) = chars.map .char := by
  induction chars with
  | nil => rw [List.flatMap_nil, pairUp, List.map_nil]
  | cons c rest ih => rw [List.flatMap_cons, pairUp_readUnits, ih, List.map_cons]

theorem stringRest_escapes (chars : List Char) (rest : List Char) :
    stringRest (chars.flatMap escapeChar ++ '"' :: rest) =
      some (chars.flatMap readUnits, rest) := by
  induction chars with
  | nil => rw [List.flatMap_nil, List.nil_append, stringRest, List.flatMap_nil]
  | cons c others ih =>
      rw [List.flatMap_cons, List.append_assoc, stringRest_escapeChar, ih, List.flatMap_cons]
      rfl

theorem toList_writeText (text : String) :
    (writeText (.whole text)).toList = '"' :: (text.toList.flatMap escapeChar ++ ['"']) := by
  have units : (Text.whole text).units.flatMap escapeUnit = text.toList.flatMap escapeChar := by
    rw [Text.units, List.flatMap_map]
    rfl
  rw [writeText, units]
  simp

/-- A text is read back after its opening mark. -/
theorem string?_escapes (text : String) (rest : List Char) :
    string? (text.toList.flatMap escapeChar ++ '"' :: rest) = some (.whole text, rest) := by
  have whole := Text.ofUnits_units_whole text
  rw [Text.units, ← pairUp_flatMap_readUnits] at whole
  rw [string?, stringRest_escapes, Option.map_some]
  exact congrArg (fun read => some (read, rest)) whole

/-!
# Numbers
-/

theorem exists_toDigits_eq (n : Nat) :
    ∃ d others, Nat.toDigits 10 n = d :: others ∧ Digits.isDigit 10 d = true := by
  cases digits : Nat.toDigits 10 n with
  | nil => exact absurd digits Nat.toDigits_ne_nil
  | cons d others =>
      have listed : d ∈ Nat.toDigits 10 n := by
        rw [digits]
        exact List.mem_cons_self
      exact ⟨d, others, rfl, Digits.isDigit_of_mem_toDigits (by decide) (by decide) listed⟩

theorem ne_of_isDigit {d c : Char} (digit : Digits.isDigit 10 d = true)
    (special : Digits.isDigit 10 c = false) : d ≠ c := by
  rintro rfl
  rw [digit] at special
  cases special

/-- What follows a value in a table that is written on several lines. -/
inductive Ends : List Char → Prop
  | comma (more : List Char) : Ends (',' :: more)
  | newline (more : List Char) : Ends ('\n' :: more)

theorem span_toDigits (n : Nat) {rest : List Char} (ends : Ends rest) :
    Digits.span 10 (Nat.toDigits 10 n ++ rest) = (Nat.toDigits 10 n, rest) := by
  have digits : ∀ c ∈ Nat.toDigits 10 n, Digits.isDigit 10 c = true :=
    fun _ => Digits.isDigit_of_mem_toDigits (by decide) (by decide)
  have stops : rest.takeWhile (Digits.isDigit 10) = [] ∧
      rest.dropWhile (Digits.isDigit 10) = rest := by
    cases ends with
    | comma more => exact ⟨rfl, rfl⟩
    | newline more => exact ⟨rfl, rfl⟩
  rw [Digits.span, List.takeWhile_append_of_pos digits, List.dropWhile_append_of_pos digits,
    stops.1, stops.2, List.append_nil]

theorem toDigits_ne_zero_cons {n : Nat} (positive : 0 < n) (rest : List Char) :
    Nat.toDigits 10 n ≠ '0' :: rest := by
  induction n using Nat.strongRecOn generalizing rest with
  | ind n ih =>
      rw [Nat.toDigits_eq_if (by decide)]
      split
      · next small =>
          intro same
          have zero : ∀ d < 10, d.digitChar = '0' → d = 0 := by decide
          exact absurd (zero n small (List.cons.inj same).1) (by omega)
      · next large =>
          rcases exists_toDigits_eq (n / 10) with ⟨d, others, front, _⟩
          intro same
          rw [front, List.cons_append] at same
          rw [(List.cons.inj same).1] at front
          exact ih (n / 10) (by omega) (by omega) others front

theorem wholePart?_toDigits (n : Nat) {rest : List Char} (ends : Ends rest) :
    Numeral.wholePart? (Digits.span 10) (Nat.toDigits 10 n ++ rest) =
      some (Nat.toDigits 10 n, rest) := by
  rcases Nat.eq_zero_or_pos n with rfl | positive
  · rfl
  · have run := span_toDigits n ends
    rcases exists_toDigits_eq n with ⟨d, others, digits, _⟩
    have other : d ≠ '0' := by
      rintro rfl
      exact toDigits_ne_zero_cons positive others digits
    rw [digits, List.cons_append] at run ⊢
    rw [Numeral.wholePart?, run]
    exact fun _ same => other (List.cons.inj same).1

theorem read?_toDigits {n : Nat} (short : (Nat.toDigits 10 n).length ≤ Digits.limit)
    {rest : List Char} (ends : Ends rest) :
    Numeral.read? (Digits.span 10) false (Nat.toDigits 10 n ++ rest) = some (.whole n, rest) := by
  have fraction : Numeral.fraction (Digits.span 10) rest = ([], rest) := by
    cases ends with
    | comma more => rfl
    | newline more => rfl
  have exponent : Numeral.exponent? (Digits.span 10) rest = none := by
    cases ends with
    | comma more => rfl
    | newline more => rfl
  have number : Digits.number 10 (Nat.toDigits 10 n) = n :=
    Digits.number_toDigits (by decide) (by decide) n
  simp only [Numeral.read?, wholePart?_toDigits n ends, fraction, exponent, List.append_nil, number,
    List.isEmpty_nil, Bool.not_true, Bool.false_eq_true, if_false, if_neg (Nat.not_lt.mpr short)]

/-!
# Single values
-/

/-- The values that settings are shown with: nothing, numbers, and texts. -/
inductive Simple : Value → Prop
  | null : Simple .null
  | int (n : Nat) : Simple (.int n)
  | text (text : String) : Simple (.text text)

/-- The value is no number with too many digits to be read. -/
def IsShort (value : Value) : Prop :=
  ∀ n : Nat, value = .int n → (Nat.toDigits 10 n).length ≤ Digits.limit

variable (depth : Nat)

theorem toList_writeAt_null : (writeAt depth .null).toList = ['n', 'u', 'l', 'l'] := by
  have written : writeAt depth .null = "null" := rfl
  rw [written]
  rfl

theorem toList_writeAt_int (n : Nat) : (writeAt depth (.int n)).toList = Nat.toDigits 10 n := by
  have written : writeAt depth (.int n) = toString n := rfl
  rw [written, Nat.toString_eq_repr, Nat.toList_repr]

theorem toList_writeAt_text (text : String) : (writeAt depth (.text text)).toList =
    '"' :: (text.toList.flatMap escapeChar ++ ['"']) :=
  toList_writeText text

theorem word?_eq_none {word : String} {first c : Char} {letters : List Char}
    (spelled : word.toList = first :: letters) (other : first ≠ c) (rest : List Char) :
    word? word (c :: rest) = none := by
  rw [word?, spelled]
  simp [List.isPrefixOf, other]

theorem namedScalar?_eq_none {d : Char} (digit : Digits.isDigit 10 d = true) (rest : List Char) :
    namedScalar? (d :: rest) = none := by
  have other (letter : Char) (special : Digits.isDigit 10 letter = false) : letter ≠ d :=
    Ne.symm (ne_of_isDigit digit special)
  have noNull : word? "null" (d :: rest) = none := word?_eq_none rfl (other 'n' rfl) rest
  have noTrue : word? "true" (d :: rest) = none := word?_eq_none rfl (other 't' rfl) rest
  have noFalse : word? "false" (d :: rest) = none := word?_eq_none rfl (other 'f' rfl) rest
  have noNaN : word? "NaN" (d :: rest) = none := word?_eq_none rfl (other 'N' rfl) rest
  have noInfinity : word? "Infinity" (d :: rest) = none := word?_eq_none rfl (other 'I' rfl) rest
  simp only [namedScalar?, noNull, noTrue, noFalse, noNaN, noInfinity, Option.map_none]
  rfl

theorem number_toDigits {n : Nat} (short : (Nat.toDigits 10 n).length ≤ Digits.limit)
    {rest : List Char} (ends : Ends rest) :
    number (Nat.toDigits 10 n ++ rest) = .ok (.int n, rest) := by
  have unsigned : unsigned false (Nat.toDigits 10 n ++ rest) = .ok (.int n, rest) := by
    rw [Json.unsigned, read?_toDigits short ends]
    rfl
  rcases exists_toDigits_eq n with ⟨d, others, digits, digit⟩
  rw [digits, List.cons_append] at unsigned ⊢
  rw [number]
  · exact unsigned
  · exact fun _ same => ne_of_isDigit digit rfl (List.cons.inj same).1

/-- A simple value is read back. -/
theorem value_writeAt {found : Value} (simple : Simple found) (short : IsShort found)
    (fuel level : Nat) {rest : List Char} (ends : Ends rest) :
    value (fuel + 1) level ((writeAt depth found).toList ++ rest) = .ok (found, rest) := by
  cases simple with
  | null =>
      rw [toList_writeAt_null]
      rfl
  | int n =>
      rw [toList_writeAt_int]
      have read := number_toDigits (short n rfl) ends
      rcases exists_toDigits_eq n with ⟨d, others, digits, digit⟩
      rw [digits, List.cons_append] at read ⊢
      have scalar : Json.scalar (d :: (others ++ rest)) = .ok (.int n, rest) := by
        rw [Json.scalar, namedScalar?_eq_none digit]
        exact read
      rw [value, scalar]
      · rfl
      · exact fun _ same => ne_of_isDigit digit rfl (List.cons.inj same).1
      · exact fun _ same => ne_of_isDigit digit rfl (List.cons.inj same).1
      · exact fun _ same => ne_of_isDigit digit rfl (List.cons.inj same).1
  | text text =>
      rw [toList_writeAt_text, List.cons_append, List.append_assoc, List.singleton_append, value,
        string?_escapes]
      rfl

/-!
# Fields
-/

/-- What stands before the value of a field. -/
def fieldFront (name : Text) : List Char :=
  (lineBreak depth ++ writeText name ++ ": ").toList

/-- What stands after the value of a field: the other fields, and the end of the table. -/
def afterValue (others : Fields) (rest : List Char) : List Char :=
  match others with
  | [] => '\n' :: rest
  | next :: more => ',' :: ((writeFields depth (next :: more)).toList ++ '\n' :: rest)

theorem ends_afterValue (others : Fields) (rest : List Char) :
    Ends (afterValue depth others rest) := by
  cases others with
  | nil => exact .newline rest
  | cons next more => exact .comma _

theorem toList_writeFields_append (name : Text) (found : Value) (others : Fields)
    (rest : List Char) :
    (writeFields depth ((name, found) :: others)).toList ++ '\n' :: rest =
      fieldFront depth name ++
        ((writeAt depth found).toList ++ afterValue depth others rest) := by
  have comma : ",".toList = [','] := rfl
  cases others with
  | nil =>
      simp only [writeFields, fieldFront, afterValue, String.toList_append, List.append_assoc]
  | cons next more =>
      simp only [writeFields, fieldFront, afterValue, String.toList_append, comma,
        List.append_assoc, List.nil_append, List.cons_append]

theorem length_le_writeFields (fields : Fields) (rest : List Char) :
    fields.length ≤ ((writeFields depth fields).toList ++ '\n' :: rest).length := by
  induction fields with
  | nil => exact Nat.zero_le _
  | cons field others ih =>
      rcases field with ⟨name, found⟩
      have after : others.length < (afterValue depth others rest).length := by
        cases others with
        | nil => exact Nat.zero_lt_succ _
        | cons next more => exact Nat.lt_succ_of_le ih
      rw [toList_writeFields_append, List.length_append, List.length_append, List.length_cons]
      omega

theorem skipBlanks_of_not_blank {c : Char} (solid : isBlank c = false) (rest : List Char) :
    skipBlanks (c :: rest) = c :: rest := by
  rw [skipBlanks, List.dropWhile_cons_of_neg]
  rw [solid]
  exact Bool.false_ne_true

theorem skipBlanks_fieldFront (name : String) (more : List Char) :
    skipBlanks (fieldFront depth (.whole name) ++ more) =
      '"' :: (name.toList.flatMap escapeChar ++ '"' :: ':' :: ' ' :: more) := by
  have blanks : ∀ c ∈ (lineBreak depth).toList, isBlank c = true := by
    intro c member
    have spelled : (lineBreak depth).toList = '\n' :: List.replicate (2 * depth) ' ' := by
      simp [lineBreak]
    rw [spelled, List.mem_cons] at member
    rcases member with rfl | later
    · rfl
    · rw [List.eq_of_mem_replicate later]
      rfl
  have colon : ": ".toList = [':', ' '] := rfl
  rw [fieldFront, String.toList_append, String.toList_append, toList_writeText, colon,
    List.append_assoc, List.append_assoc, skipBlanks, List.dropWhile_append_of_pos blanks,
    ← skipBlanks, List.cons_append, skipBlanks_of_not_blank rfl]
  simp

theorem skipBlanks_writeAt {found : Value} (simple : Simple found) (rest : List Char) :
    skipBlanks (' ' :: ((writeAt depth found).toList ++ rest)) =
      (writeAt depth found).toList ++ rest := by
  have blank (text : List Char) : skipBlanks (' ' :: text) = skipBlanks text := rfl
  rw [blank]
  cases simple with
  | null =>
      rw [toList_writeAt_null]
      exact skipBlanks_of_not_blank rfl _
  | int n =>
      rcases exists_toDigits_eq n with ⟨d, others, digits, digit⟩
      have solid : isBlank d = false := by
        rw [Bool.eq_false_iff]
        intro blank
        simp only [isBlank, Bool.or_eq_true, decide_eq_true_eq] at blank
        rcases blank with ((same | same) | same) | same
        all_goals exact ne_of_isDigit digit rfl same
      rw [toList_writeAt_int, digits, List.cons_append]
      exact skipBlanks_of_not_blank solid _
  | text text =>
      rw [toList_writeAt_text, List.cons_append]
      exact skipBlanks_of_not_blank rfl _

/-- A field that is read back. -/
structure IsReadable (field : Text × Value) : Prop where
  named : ∃ name, field.1 = .whole name
  simple : Simple field.2
  short : IsShort field.2

/-- A field is read with its value, and then what comes after it. -/
theorem fields_fieldFront {name : String} {found : Value} (simple : Simple found)
    {fuel level : Nat} {before : Fields} {after : List Char}
    (read : value fuel level ((writeAt depth found).toList ++ after) = .ok (found, after)) :
    fields (fuel + 1) level before
        (skipBlanks (fieldFront depth (.whole name) ++ ((writeAt depth found).toList ++ after))) =
      match skipBlanks after with
      | '\x7d' :: rest => .ok (.table (Value.insert name found before), rest)
      | ',' :: more => fields fuel level (Value.insert name found before) (skipBlanks more)
      | _ => .error .malformed := by
  have colon : skipBlanks (':' :: ' ' :: ((writeAt depth found).toList ++ after)) =
      ':' :: ' ' :: ((writeAt depth found).toList ++ after) := rfl
  rw [skipBlanks_fieldFront, fields, string?_escapes]
  simp only [Unreadable.required, bind, Except.bind, colon, skipBlanks_writeAt depth simple, read]
  rfl

/-- The fields of a table are read back after those before them. -/
theorem fields_writeFields {written : Fields} (readable : ∀ field ∈ written, IsReadable field)
    {before : Fields} (distinct : ((before ++ written).map Prod.fst).Nodup)
    (nonempty : written ≠ []) {fuel : Nat} (enough : written.length < fuel) (level : Nat)
    (rest : List Char) :
    fields fuel level before
        (skipBlanks ((writeFields depth written).toList ++ '\n' :: '\x7d' :: rest)) =
      .ok (.table (before ++ written), rest) := by
  induction written generalizing before fuel with
  | nil => exact absurd rfl nonempty
  | cons field others ih =>
      rcases field with ⟨_, found⟩
      rw [List.forall_mem_cons] at readable
      rcases readable with ⟨⟨⟨name, named⟩, simple, short⟩, readable⟩
      dsimp only at named simple short
      subst named
      have new : Text.whole name ∉ before.map Prod.fst := by
        rw [List.map_append, List.map_cons, List.nodup_middle, List.nodup_cons] at distinct
        exact fun member => distinct.1 (List.mem_append_left _ member)
      rw [List.length_cons] at enough
      rcases Nat.exists_eq_add_of_lt enough with ⟨spare, total⟩
      have fuelled : fuel = others.length + spare + 1 + 1 := by omega
      have read := value_writeAt depth simple short (others.length + spare) level
        (ends_afterValue depth others ('\x7d' :: rest))
      rw [toList_writeFields_append, fuelled, fields_fieldFront depth simple read,
        Value.insert_of_not_mem new]
      cases others with
      | nil => rfl
      | cons next more =>
          have left : (next :: more).length < (next :: more).length + spare + 1 := by omega
          rw [List.append_cons before] at distinct
          rw [List.append_cons before _ (next :: more)]
          exact ih readable distinct (List.cons_ne_nil _ _) left

/-!
# Tables
-/

theorem toList_write_table (field : Text × Value) (others : Fields) :
    (write (.table (field :: others))).toList =
      '\x7b' :: ((writeFields 1 (field :: others)).toList ++ ['\n', '\x7d']) := by
  simp [write, writeAt, lineBreak]

theorem value_table {field : Text × Value} {others : Fields}
    (readable : ∀ one ∈ field :: others, IsReadable one)
    (distinct : ((field :: others).map Prod.fst).Nodup) {fuel : Nat}
    (enough : (field :: others).length < fuel) (level : Nat) :
    value (fuel + 1) (level + 1)
        ('\x7b' :: ((writeFields depth (field :: others)).toList ++ ['\n', '\x7d'])) =
      .ok (.table (field :: others), []) := by
  have inner : fields fuel level [] (skipBlanks
      ((writeFields depth (field :: others)).toList ++ ['\n', '\x7d'])) =
        .ok (.table (field :: others), []) :=
    fields_writeFields depth readable distinct (List.cons_ne_nil _ _) enough level []
  rcases field with ⟨_, found⟩
  rcases (readable _ List.mem_cons_self).named with ⟨name, rfl⟩
  -- The first character of the fields is the mark of a name, so the table is not empty.
  rw [toList_writeFields_append, skipBlanks_fieldFront] at inner
  rw [toList_writeFields_append, value, skipBlanks_fieldFront]
  exact inner

/-- A table of simple values is read back from its text. -/
theorem read_write_table {field : Text × Value} {others : Fields}
    (readable : ∀ one ∈ field :: others, IsReadable one)
    (distinct : ((field :: others).map Prod.fst).Nodup) :
    read (write (.table (field :: others))).toList = .ok (.table (field :: others)) := by
  have long := length_le_writeFields 1 (field :: others) ['\x7d']
  have enough : (field :: others).length <
      2 * (write (.table (field :: others))).toList.length + 1 := by
    rw [toList_write_table]
    simp only [List.length_cons] at long ⊢
    omega
  have depth : maxDepth = 984 + 1 := rfl
  have found := value_table 1 readable distinct enough 984
  rw [← toList_write_table, ← depth] at found
  have solid : skipBlanks (write (.table (field :: others))).toList =
      (write (.table (field :: others))).toList := by
    rw [toList_write_table]
    exact skipBlanks_of_not_blank rfl _
  rw [read, solid, found]
  rfl

/-!
# Texts of tables

Tables can be told apart by their texts, also where a number has too many digits to be read.
-/

/-- The simple value that a text begins with, however many digits it has. -/
def leading? (text : List Char) : Option (Value × List Char) :=
  match text with
  | '"' :: rest => (string? rest).map fun (t, rest) => (.scalar (.text t), rest)
  | 'n' :: 'u' :: 'l' :: 'l' :: rest => some (.null, rest)
  | text =>
      let (digits, rest) := Digits.span 10 text
      some (.int (Digits.number 10 digits), rest)

theorem leading?_writeAt {found : Value} (simple : Simple found) {rest : List Char}
    (ends : Ends rest) : leading? ((writeAt depth found).toList ++ rest) = some (found, rest) := by
  cases simple with
  | null =>
      rw [toList_writeAt_null]
      rfl
  | int n =>
      have number : Digits.number 10 (Nat.toDigits 10 n) = n :=
        Digits.number_toDigits (by decide) (by decide) n
      have run := span_toDigits n ends
      rcases exists_toDigits_eq n with ⟨d, others, digits, digit⟩
      rw [toList_writeAt_int]
      rw [digits, List.cons_append] at run ⊢
      rw [leading?, run, ← digits]
      · exact congrArg (fun m : Nat => some (Value.int m, rest)) number
      · exact fun _ same => ne_of_isDigit digit rfl (List.cons.inj same).1
      · exact fun _ same => ne_of_isDigit digit rfl (List.cons.inj same).1
  | text text =>
      rw [toList_writeAt_text, List.cons_append, List.append_assoc, List.singleton_append, leading?,
        string?_escapes]
      rfl

theorem eq_of_writeFields_eq {written others : Fields}
    (names : written.map Prod.fst = others.map Prod.fst)
    (simple : ∀ field ∈ written, Simple field.2) (alsoSimple : ∀ field ∈ others, Simple field.2)
    {rest : List Char} (same : (writeFields depth written).toList ++ '\n' :: rest =
      (writeFields depth others).toList ++ '\n' :: rest) : written = others := by
  induction written generalizing others with
  | nil => exact (List.map_eq_nil_iff.mp names.symm).symm
  | cons field more ih =>
      cases others with
      | nil => cases names
      | cons other rivals =>
          rcases field with ⟨name, found⟩
          rcases other with ⟨otherName, rival⟩
          rcases List.cons.inj names with ⟨sameName, sameNames⟩
          have sameName : name = otherName := sameName
          subst sameName
          rw [List.forall_mem_cons] at simple alsoSimple
          rw [toList_writeFields_append, toList_writeFields_append] at same
          have read := congrArg leading? (List.append_cancel_left same)
          rw [leading?_writeAt depth simple.1 (ends_afterValue ..),
            leading?_writeAt depth alsoSimple.1 (ends_afterValue ..), Option.some.injEq] at read
          rcases Prod.mk.inj read with ⟨rfl, after⟩
          cases more with
          | nil =>
              rw [List.map_eq_nil_iff.mp sameNames.symm]
          | cons next more =>
              cases rivals with
              | nil => cases sameNames
              | cons rival rivals =>
                  rw [ih sameNames simple.2 alsoSimple.2 (List.cons.inj after).2]

/-- Tables of simple values with the same names can be told apart by their texts. -/
theorem eq_of_write_table_eq {written others : Fields}
    (names : written.map Prod.fst = others.map Prod.fst)
    (simple : ∀ field ∈ written, Simple field.2) (alsoSimple : ∀ field ∈ others, Simple field.2)
    (same : write (.table written) = write (.table others)) : written = others := by
  cases written with
  | nil => exact (List.map_eq_nil_iff.mp names.symm).symm
  | cons field more =>
      cases others with
      | nil => cases names
      | cons other rivals =>
          have texts := congrArg String.toList same
          rw [toList_write_table, toList_write_table] at texts
          exact eq_of_writeFields_eq 1 names simple alsoSimple (List.cons.inj texts).2

end Json
end SourceReport
