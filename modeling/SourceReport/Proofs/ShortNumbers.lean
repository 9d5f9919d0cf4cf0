import Mathlib
import SourceReport.Json.Reader
import SourceReport.Number.IntegerText
import SourceReport.Proofs.Drafts
import SourceReport.Proofs.Readings

/-!
# Short numbers

Whole numbers are read up to a length, and what is written of them is no longer. So is every number
that a double can be cut off to. A value that is read from a JSON text holds short numbers only.
-/

namespace SourceReport
namespace Digits

/-!
# Runs of digits
-/

theorem value_lt_of_isDigit {base : Nat} {c : Char} (digit : isDigit base c = true) :
    (value? c).getD 0 < base := by
  rw [isDigit, Option.any_eq_true] at digit
  rcases digit with ⟨value, found, small⟩
  rw [found]
  exact of_decide_eq_true small

theorem number_lt {digits : List Char} (run : ∀ c ∈ digits, isDigit 10 c = true) :
    number 10 digits < 10 ^ digits.length := by
  -- Every digit makes the bound ten times what it was.
  have grows : ∀ before, digits.foldl (fun n c => n * 10 + (value? c).getD 0) before + 1 ≤
      (before + 1) * 10 ^ digits.length := by
    induction digits with
    | nil =>
        intro before
        rw [List.foldl_nil, List.length_nil, Nat.pow_zero, Nat.mul_one]
    | cons c rest ih =>
        rw [List.forall_mem_cons] at run
        intro before
        have small := value_lt_of_isDigit run.1
        have next : before * 10 + (value? c).getD 0 + 1 ≤ (before + 1) * 10 := by omega
        rw [List.foldl_cons, List.length_cons, Nat.pow_succ', ← Nat.mul_assoc]
        exact (ih run.2 _).trans (Nat.mul_le_mul_right _ next)
  have whole := grows 0
  rw [Nat.zero_add, Nat.one_mul] at whole
  exact whole

/-- A run of digits that is read writes a number that can be written. -/
theorem isWritable_number {digits : List Char} (run : ∀ c ∈ digits, isDigit 10 c = true)
    (short : digits.length ≤ limit) {number : Int}
    (same : number.natAbs = Digits.number 10 digits) : isWritable number = true := by
  rw [isWritable_iff, same]
  generalize limit = most at short ⊢
  exact (number_lt run).trans_le (Nat.pow_le_pow_right (by decide) short)

theorem isDigit_of_mem_span {text : List Char} :
    ∀ c ∈ (span 10 text).1, isDigit 10 c = true := by
  intro c member
  exact List.mem_takeWhile_imp member

theorem isDigit_of_mem_groupedAfter {base : Nat} {text : List Char} :
    ∀ c ∈ (groupedAfter base text).1, isDigit base c = true := by
  fun_induction groupedAfter base text with
  | case1 => exact List.forall_mem_nil _
  | case2 c rest digit digits after same ih =>
      rw [same] at ih
      exact List.forall_mem_cons.mpr ⟨digit, ih⟩
  | case3 => exact List.forall_mem_nil _
  | case4 c rest _ digit digits after same ih =>
      rw [same] at ih
      exact List.forall_mem_cons.mpr ⟨digit, ih⟩
  | case5 => exact List.forall_mem_nil _

theorem isDigit_of_mem_grouped {base : Nat} {text : List Char} :
    ∀ c ∈ (grouped base text).1, isDigit base c = true := by
  rw [grouped.eq_def]
  split
  · exact List.forall_mem_nil _
  · split
    · rename_i digit
      exact List.forall_mem_cons.mpr ⟨digit, isDigit_of_mem_groupedAfter⟩
    · exact List.forall_mem_nil _

end Digits

/-!
# Doubles
-/

namespace Binary64

theorem roundHalfEven_le (num den : Nat) : roundHalfEven num den ≤ num / den + 1 := by
  simp only [roundHalfEven]
  split
  · exact Nat.le_succ _
  · split
    · exact Nat.le_refl _
    · split
      · exact Nat.le_succ _
      · exact Nat.le_refl _

/-- What a mantissa and an exponent stand for, cut off. -/
def whole (mantissa : Nat) (exponent : Int) : Nat :=
  if exponent < 0 then mantissa / Nat.pow 2 exponent.natAbs
  else mantissa * Nat.pow 2 exponent.natAbs

theorem whole_le {mantissa limit : Nat} {exponent : Int} (bounded : exponent ≤ limit) :
    whole mantissa exponent ≤ mantissa * 2 ^ limit := by
  rw [whole]
  split
  · exact (Nat.div_le_self _ _).trans (Nat.le_mul_of_pos_right _ (Nat.pow_pos (by decide)))
  · exact Nat.mul_le_mul_left _ (Nat.pow_le_pow_right (by decide) (by omega))

/-- Rounding adds no more than a last place. -/
theorem whole_round_le {num den limit : Nat} {exponent : Int} (bounded : exponent ≤ limit) :
    whole (roundHalfEven (scaled num den exponent).1 (scaled num den exponent).2) exponent ≤
      num / den + 2 ^ limit := by
  have rounded := roundHalfEven_le (scaled num den exponent).1 (scaled num den exponent).2
  generalize unit : Nat.pow 2 exponent.natAbs = scale
  have positive : 0 < scale := unit ▸ Nat.pow_pos (by decide)
  rw [whole, scaled, unit]
  rw [scaled, unit] at rounded
  by_cases negative : exponent < 0
  · simp only [if_pos negative] at rounded ⊢
    have cut : num * scale / den / scale = num / den := by
      rw [Nat.div_div_eq_div_mul, Nat.mul_div_mul_right _ _ positive]
    calc roundHalfEven (num * scale) den / scale
        ≤ (num * scale / den + 1) / scale := Nat.div_le_div_right rounded
      _ ≤ (num * scale / den + scale) / scale :=
          Nat.div_le_div_right (Nat.add_le_add_left positive _)
      _ = num / den + 1 := by rw [Nat.add_div_right _ positive, cut]
      _ ≤ num / den + 2 ^ limit := Nat.add_le_add_left Nat.one_le_two_pow _
  · simp only [if_neg negative] at rounded ⊢
    have small : scale ≤ 2 ^ limit := unit ▸ Nat.pow_le_pow_right (by decide) (by omega)
    have cut : num / (den * scale) * scale ≤ num / den := by
      rw [← Nat.div_div_eq_div_mul]
      exact Nat.div_mul_le_self _ _
    calc roundHalfEven num (den * scale) * scale
        ≤ (num / (den * scale) + 1) * scale := Nat.mul_le_mul_right _ rounded
      _ = num / (den * scale) * scale + scale := Nat.succ_mul _ _
      _ ≤ num / den + 2 ^ limit := Nat.add_le_add cut small

theorem natAbs_of_truncated? {negative : Bool} {mantissa : Nat} {exponent n : Int}
    (found : (finite negative mantissa exponent).truncated? = some n) :
    n.natAbs = whole mantissa exponent := by
  have same : (if negative then -(whole mantissa exponent : Int) else whole mantissa exponent) =
      n := Option.some.inj found
  rw [← same]
  split
  · exact Int.natAbs_neg _
  · rfl

/-- The greatest exponent of a double. -/
def maxExponent : Nat := 971

/-- A finite double is at most a double of the greatest exponent above the quotient. -/
theorem natAbs_le_of_ofQuotient {negative : Bool} {num den : Nat} {n : Int}
    (found : (ofQuotient negative num den).truncated? = some n) :
    n.natAbs ≤ num / den + Nat.pow 2 52 * 2 ^ maxExponent := by
  rw [ofQuotient] at found
  split at found
  · rw [natAbs_of_truncated? found, whole, if_pos (by decide), Nat.zero_div]
    exact Nat.zero_le _
  · -- A mantissa that is rounded up to the next power of two is kept with the next exponent.
    by_cases carried : roundHalfEven (scaled num den (exponentFor num den)).1
        (scaled num den (exponentFor num den)).2 = Nat.pow 2 53
    · simp only [if_pos carried] at found
      split at found
      · cases found
      · rename_i bounded
        rw [natAbs_of_truncated? found]
        have within : exponentFor num den + 1 ≤ maxExponent := Int.not_lt.mp bounded
        exact (whole_le within).trans (Nat.le_add_left _ _)
    · simp only [if_neg carried] at found
      split at found
      · cases found
      · rename_i bounded
        rw [natAbs_of_truncated? found]
        have within : exponentFor num den ≤ maxExponent := Int.not_lt.mp bounded
        exact (whole_round_le within).trans
          (Nat.add_le_add_left (Nat.le_mul_of_pos_left _ (by decide)) _)

theorem add_lt_of_le_pow {quotient exponent most rest room : Nat} (few : exponent ≤ most)
    (small : quotient ≤ 10 ^ exponent) (fits : 10 ^ most + rest < room) : quotient + rest < room :=
  calc quotient + rest
    _ ≤ 10 ^ most + rest :=
        Nat.add_le_add_right (small.trans (Nat.pow_le_pow_right (by decide) few)) rest
    _ < room := fits

/-- A double that is read is cut off to a number that can be written. -/
theorem isWritable_of_ofDecimal {negative : Bool} {digits : Nat} {power n : Int}
    (found : (ofDecimal negative digits power).truncated? = some n) :
    Digits.isWritable n = true := by
  have size : digits < 10 ^ digits.repr.length :=
    (Nat.length_repr_le_iff Nat.length_repr_pos).mp Nat.le.refl
  have bound : ∀ {quotient exponent : Nat}, exponent ≤ 400 → quotient ≤ 10 ^ exponent →
      n.natAbs ≤ quotient + Nat.pow 2 52 * 2 ^ maxExponent → Digits.isWritable n = true := by
    intro quotient exponent few small below
    have room : 10 ^ 400 + Nat.pow 2 52 * 2 ^ maxExponent < Nat.pow 10 Digits.limit := by
      decide +kernel
    rw [Digits.isWritable_iff]
    exact below.trans_lt (add_lt_of_le_pow few small room)
  rw [ofDecimal] at found
  split at found
  · rw [Digits.isWritable_iff, natAbs_of_truncated? found, whole, if_pos (by decide), Nat.zero_div]
    exact Digits.lt_pow_limit (by decide)
  · split at found
    · cases found
    · rename_i within
      rw [Nat.toString_eq_repr] at within
      split at found
      · have fits : digits.repr.length - power.natAbs ≤ 400 := by omega
        have enough : digits.repr.length ≤
            power.natAbs + (digits.repr.length - power.natAbs) := by
          omega
        refine bound fits (Nat.div_le_of_le_mul ?_) (natAbs_le_of_ofQuotient found)
        rw [Nat.pow_eq, ← Nat.pow_add]
        exact size.le.trans (Nat.pow_le_pow_right (by decide) enough)
      · have fits : digits.repr.length + power.natAbs ≤ 400 := by omega
        refine bound fits ?_ (natAbs_le_of_ofQuotient found)
        rw [Nat.div_one, Nat.pow_eq, Nat.pow_add]
        exact Nat.mul_le_mul_right _ size.le

end Binary64

/-!
# Values
-/

/-- What the scalar counts as, cut off if it is a fraction, is no number that is too long to be
written. -/
def Scalar.IsShort : Scalar → Prop
  | .int n => Digits.isWritable n = true
  | .real x => ∀ n, x.truncated? = some n → Digits.isWritable n = true
  | .null => True
  | .bool _ => True
  | .text _ => True
  | .moment _ => True

/-- All numbers in the value are short. -/
inductive Value.IsShort : Value → Prop
  | scalar {s : Scalar} : s.IsShort → IsShort (.scalar s)
  | list {items : List Value} : (∀ item ∈ items, IsShort item) → IsShort (.list items)
  | table {fields : Fields} : (∀ field ∈ fields, IsShort field.2) → IsShort (.table fields)

theorem Value.forall_isShort_insert {name : Text} {value : Value} {fields : Fields}
    (short : ∀ field ∈ fields, field.2.IsShort) (given : value.IsShort) :
    ∀ field ∈ insert name value fields, field.2.IsShort := by
  induction fields with
  | nil => exact List.forall_mem_singleton.mpr given
  | cons field rest ih =>
      rw [List.forall_mem_cons] at short
      rw [insert.eq_def]
      simp only
      split
      · exact List.forall_mem_cons.mpr ⟨given, short.2⟩
      · exact List.forall_mem_cons.mpr ⟨short.1, ih short.2⟩

theorem Value.isShort_of_field? {fields : Fields} (short : ∀ field ∈ fields, field.2.IsShort)
    {name : String} {value : Value} (found : field? fields name = some value) :
    value.IsShort := by
  induction fields with
  | nil => cases found
  | cons field rest ih =>
      rw [List.forall_mem_cons] at short
      rw [field?.eq_def] at found
      simp only at found
      split at found
      · cases found
        exact short.1
      · exact ih short.2 found

/-!
# Numbers as they are written
-/

theorem Numeral.isDigit_of_wholePart? {text first rest : List Char}
    (found : wholePart? (Digits.span 10) text = some (first, rest)) :
    ∀ c ∈ first, Digits.isDigit 10 c = true := by
  rw [wholePart?.eq_def] at found
  split at found
  · cases found
    exact List.forall_mem_singleton.mpr rfl
  · split at found
    · cases found
    · cases found
      exact Digits.isDigit_of_mem_span

theorem Numeral.isShort_of_read? {negative : Bool} {text rest : List Char} {numeral : Numeral}
    (found : read? (Digits.span 10) negative text = some (numeral, rest)) {s : Scalar}
    (made : Scalar.ofNumeral numeral = .ok s) : s.IsShort := by
  rw [read?] at found
  cases begun : wholePart? (Digits.span 10) text with
  | none =>
      rw [begun] at found
      cases found
  | some parts =>
      rcases parts with ⟨first, others⟩
      have run := isDigit_of_wholePart? begun
      simp only [begun] at found
      split at found
      · cases found
        cases made
        exact fun _ cut => Binary64.isWritable_of_ofDecimal cut
      · split at found
        · cases found
          cases made
          exact fun _ cut => Binary64.isWritable_of_ofDecimal cut
        · rename_i whole
          split at found
          · cases found
            cases made
          · rename_i short
            cases found
            cases made
            have empty : (fraction (Digits.span 10) others).1 = [] := by
              simpa using whole
            rw [empty, List.append_nil]
            refine Digits.isWritable_number run (Nat.le_of_not_lt short) ?_
            split
            · exact Int.natAbs_neg _
            · rfl

theorem IntegerText.isWritable_of_read {text : List Char} {n : Int} (found : read text = .ok n) :
    Digits.isWritable n = true := by
  have natural : ∀ {text : List Char} {n : Nat}, natural text = .ok n →
      ∀ {number : Int}, number.natAbs = n → Digits.isWritable number = true := by
    intro text n found number same
    rw [IntegerText.natural.eq_def] at found
    have run := @Digits.isDigit_of_mem_grouped 10 text
    split at found
    · cases found
    · cases found
    · rename_i digits _ _ _ parts
      rw [parts] at run
      split at found
      · cases found
      · rename_i short
        split at found
        · cases found
          exact Digits.isWritable_number run (Nat.le_of_not_lt short) same
        · cases found
  rw [read] at found
  split at found
  · rcases map_eq_ok_iff.mp found with ⟨n, lifted, rfl⟩
    rcases bind_eq_ok_iff.mp lifted with ⟨n, whole, done⟩
    cases done
    exact natural whole (Int.natAbs_neg _)
  · rcases map_eq_ok_iff.mp found with ⟨n, whole, rfl⟩
    exact natural whole rfl
  · rcases map_eq_ok_iff.mp found with ⟨n, whole, rfl⟩
    exact natural whole rfl

/-!
# Values that are read
-/

namespace Json

theorem isShort_of_unsigned {negative : Bool} {text rest : List Char} {s : Scalar}
    (found : unsigned negative text = .ok (s, rest)) : s.IsShort := by
  rcases bind_eq_ok_iff.mp found with ⟨⟨numeral, after⟩, required, later⟩
  rcases bind_eq_ok_iff.mp later with ⟨scalar, mapped, done⟩
  cases done
  cases read : Numeral.read? (Digits.span 10) negative text with
  | none =>
      rw [read] at required
      cases required
  | some parts =>
      rw [read] at required
      cases required
      cases made : Scalar.ofNumeral numeral with
      | error fault =>
          rw [made] at mapped
          cases mapped
      | ok scalar =>
          rw [made] at mapped
          cases mapped
          exact Numeral.isShort_of_read? read made

theorem isShort_of_number {text rest : List Char} {s : Scalar}
    (found : number text = .ok (s, rest)) : s.IsShort := by
  rw [number.eq_def] at found
  split at found
  · split at found
    · cases found
      exact nofun
    · exact isShort_of_unsigned found
  · exact isShort_of_unsigned found

theorem isShort_of_namedScalar? {text rest : List Char} {s : Scalar}
    (found : namedScalar? text = some (s, rest)) : s.IsShort := by
  simp only [namedScalar?, Option.orElse_eq_orElse, Option.orElse_eq_or, Option.or_eq_some_iff,
    Option.map_eq_some_iff, Prod.mk.injEq] at found
  rcases found with ⟨_, _, rfl, _⟩ | ⟨_, ⟨_, _, rfl, _⟩ | ⟨_, ⟨_, _, rfl, _⟩ | ⟨_, ⟨_, _, rfl, _⟩ |
    ⟨_, _, _, rfl, _⟩⟩⟩⟩
  · trivial
  · trivial
  · trivial
  · exact nofun
  · exact nofun

theorem isShort_of_scalar {text rest : List Char} {s : Scalar}
    (found : scalar text = .ok (s, rest)) : s.IsShort := by
  rw [scalar] at found
  split at found
  · rename_i named
    cases found
    exact isShort_of_namedScalar? named
  · exact isShort_of_number found

/-- With so much fuel, all numbers in what is read are short. The fields of a table are added to
those that were read before. -/
structure ReadsShort (fuel : Nat) : Prop where
  ofValue : ∀ {depth text found rest}, value fuel depth text = .ok (found, rest) → found.IsShort
  ofItems : ∀ {depth text found rest}, items fuel depth text = .ok (found, rest) →
    ∀ item ∈ found, item.IsShort
  ofFields : ∀ {depth before text found rest}, (∀ field ∈ before, field.2.IsShort) →
    fields fuel depth before text = .ok (found, rest) → found.IsShort

namespace ReadsShort

variable {fuel depth : Nat} {text rest : List Char} (h : ReadsShort fuel)
include h

theorem value_succ {found : Value} (read : value (fuel + 1) depth text = .ok (found, rest)) :
    found.IsShort := by
  rw [value.eq_def] at read
  simp only at read
  split at read
  · rcases bind_eq_ok_iff.mp read with ⟨_, _, done⟩
    cases done
    exact .scalar trivial
  · split at read
    · cases read
    · split at read
      · cases read
        exact .list (List.forall_mem_nil _)
      · rcases bind_eq_ok_iff.mp read with ⟨_, inner, done⟩
        cases done
        exact .list (h.ofItems inner)
  · split at read
    · cases read
    · split at read
      · cases read
        exact .table (List.forall_mem_nil _)
      · exact h.ofFields (List.forall_mem_nil _) read
  · rcases bind_eq_ok_iff.mp read with ⟨_, inner, done⟩
    cases done
    exact .scalar (isShort_of_scalar inner)

theorem items_succ {found : List Value}
    (read : items (fuel + 1) depth text = .ok (found, rest)) : ∀ item ∈ found, item.IsShort := by
  rw [items.eq_def] at read
  rcases bind_eq_ok_iff.mp read with ⟨⟨item, after⟩, inner, more⟩
  simp only at more
  split at more
  · cases more
    exact List.forall_mem_singleton.mpr (h.ofValue inner)
  · rcases bind_eq_ok_iff.mp more with ⟨⟨others, last⟩, later, done⟩
    cases done
    exact List.forall_mem_cons.mpr ⟨h.ofValue inner, h.ofItems later⟩
  · cases more

theorem fields_succ {before : Fields} {found : Value} (short : ∀ field ∈ before, field.2.IsShort)
    (read : fields (fuel + 1) depth before text = .ok (found, rest)) : found.IsShort := by
  rw [fields.eq_def] at read
  simp only at read
  split at read
  · rcases bind_eq_ok_iff.mp read with ⟨⟨name, after⟩, _, more⟩
    simp only at more
    split at more
    · rcases bind_eq_ok_iff.mp more with ⟨⟨given, last⟩, inner, more⟩
      have filled := @Value.forall_isShort_insert name _ _ short (h.ofValue inner)
      simp only at more
      split at more
      · cases more
        exact .table filled
      · exact h.ofFields filled more
      · cases more
    · cases more
  · cases read

end ReadsShort

theorem readsShort (fuel : Nat) : ReadsShort fuel := by
  induction fuel with
  | zero =>
      constructor
      · intro depth text found rest read
        cases read
      · intro depth text found rest read
        cases read
      · intro depth before text found rest _ read
        cases read
  | succ fuel ih => exact ⟨ih.value_succ, ih.items_succ, ih.fields_succ⟩

/-- All numbers in a value that is read are short. -/
theorem isShort_of_read {text : List Char} {found : Value} (parsed : read text = .ok found) :
    found.IsShort := by
  rcases bind_eq_ok_iff.mp parsed with ⟨⟨value, rest⟩, inner, done⟩
  simp only at done
  split at done
  · cases done
    exact (readsShort _).ofValue inner
  · cases done

end Json
end SourceReport
