import Mathlib.Data.Bool.AllAny
import Mathlib.Data.Nat.Digits.Defs
import MiniScheme.Proofs.Number.Accumulation
import MiniScheme.Proofs.Token.Numbers
import MiniScheme.Proofs.Token.Words

/-! Integer literals. A sign and digits are a number in every radix, and denote the value of the
digits at their places as long as that fits in a word. Beyond the words they denote a float, or
infinity. -/
namespace MiniScheme

/-- The letter of a radix mark. -/
def Radix.letter : Radix → Char
  | binary => 'b'
  | octal => 'o'
  | decimal => 'd'
  | hexadecimal => 'x'

/-- What stands in front of a number of a radix. Ten needs no mark. -/
def Radix.marks (r : Radix) : List (List Char) :=
  ['#',r.letter] :: if r = .decimal then [[]] else []

theorem Radix.ofMark?_letter (r : Radix) : ofMark? r.letter = some r := by cases r <;> rfl

namespace Literal

open Lexeme

/-- The digits of all radixes in the order of their values. -/
def numerals : List Char :=
  ['0','1','2','3','4','5','6','7','8','9','a','b','c','d','e','f']

def capitals : List Char :=
  ['0','1','2','3','4','5','6','7','8','9','A','B','C','D','E','F']

/-- The value of a digit in either case. What is no digit counts as sixteen. -/
def numeral (c : Char) : Nat := min (numerals.idxOf c) (capitals.idxOf c)

/-- The value of digits at their places, the last of which counts least. -/
def magnitude (r : Radix) (ds : List Char) : Nat := Nat.ofDigits r.base (ds.reverse.map numeral)

def signed (sgn : List Char) (n : Nat) : Int := if sgn = ['-'] then -n else n

/-! Digits and their values. -/

theorem le_toNat {c d : Char} (le : c ≤ d) : c.toNat ≤ d.toNat := UInt32.le_iff_toNat_le.mp le

/-- Digits are told by their codes, and all of them are among the first 128 characters. -/
theorem digitValue?_eq (c : Char) :
    Radix.digitValue? c = if numeral c < 16 then some (numeral c) else none := by
  by_cases ascii : c.toNat < 128
  · have checked : ∀ n < 128, Radix.digitValue? (.ofNat n) =
        if numeral (.ofNat n) < 16 then some (numeral (.ofNat n)) else none := by decide +kernel
    have value := checked c.toNat ascii
    rwa [Char.ofNat_toNat] at value
  · have absent {cs : List Char} (codes : cs.all (·.toNat < 128) = true) : c ∉ cs :=
      fun member => ascii (of_decide_eq_true (List.all_eq_true.mp codes c member))
    have none : numeral c = 16 := by
      rw [numeral,List.idxOf_eq_length (absent rfl),List.idxOf_eq_length (absent rfl)]
      rfl
    have beyond {d : Char} (code : d.toNat < 128) : ¬c ≤ d :=
      fun le => ascii ((le_toNat le).trans_lt code)
    have decimal : ¬c.isDigit = true := fun digit => by
      have bounds := isDigit_bounds.mp digit
      omega
    have lower : ¬('a' ≤ c ∧ c ≤ 'f') := fun both => beyond (by decide) both.2
    have upper : ¬('A' ≤ c ∧ c ≤ 'F') := fun both => beyond (by decide) both.2
    rw [Radix.digitValue?,if_neg decimal,if_neg lower,if_neg upper,none]
    rfl

theorem digit?_of_numeral {r : Radix} {c : Char} (digit : numeral c < r.base) :
    r.digit? c = some (numeral c) := by
  have small : numeral c < 16 := by
    cases r <;> simp only [Radix.base] at digit <;> omega
  simp [Radix.digit?,digitValue?_eq,small,digit]

theorem digits?_of_numerals {r : Radix} {ds : List Char} (digits : ∀ c ∈ ds, numeral c < r.base) :
    digits? r ds = some (ds.map numeral) := by
  induction ds with
  | nil => rfl
  | cons c ds ih =>
    obtain ⟨first,rest⟩ := List.forall_mem_cons.mp digits
    have tail := ih rest
    rw [digits?] at tail
    simp [digits?,digit?_of_numeral first,tail]

theorem digits_of_numerals {r : Radix} {ds : List Char} (digits : ∀ c ∈ ds, numeral c < r.base) :
    Digits r ds := by
  intro c member
  rw [Radix.isDigit,digit?_of_numeral (digits c member)]
  rfl

/-- Working through the digits from the left gives the value of the digits at their places. -/
theorem positional_eq (base : Nat) (values : List Nat) :
    positional base values = Nat.ofDigits base values.reverse := by
  rw [Nat.ofDigits_eq_foldr,List.foldr_reverse,positional]
  congr 1
  funext n d
  rw [Nat.mul_comm,Nat.add_comm]
  rfl

/-! Signed digits. -/

/-- Nothing, or a sign. -/
def signs : List (List Char) := [[],['+'],['-']]

section

variable {r : Radix} {sgn ds : List Char} (sign : sgn ∈ signs) (digits : ∀ c ∈ ds, numeral c < r.base)

include sign in
theorem signPart_of_mem : SignPart sgn := by
  simp only [signs,List.mem_cons,List.not_mem_nil,or_false] at sign
  obtain rfl | rfl | rfl := sign
  · exact .none
  · exact .one rfl
  · exact .one rfl

include sign digits

theorem sign_split : Literal.sign (sgn ++ ds) = (decide (sgn = ['-']),ds) := by
  have unsigned : ∀ c, ds.head? = some c → isSign c = false :=
    fun _ head => (digits_of_numerals digits).not_sign (List.mem_of_head? head)
  simp only [signs,List.mem_cons,List.not_mem_nil,or_false] at sign
  obtain rfl | rfl | rfl := sign
  · exact sign_unsigned unsigned
  · rfl
  · rfl

theorem integer?_signed (nonempty : ds ≠ []) :
    integer? r (sgn ++ ds) = some (signed sgn (magnitude r ds)) := by
  have value : positional r.base (ds.map numeral) = magnitude r ds := by
    rw [positional_eq,magnitude,List.map_reverse]
  simp [integer?,sign_split sign digits,digits?_of_numerals digits,nonempty,value,signed]

/-- Neither a slash, nor a point, nor an imaginary unit stands among signed digits. -/
theorem absent {c : Char} (mark : isNumberMark c = true) (other : isSign c = false) : c ∉ sgn ++ ds :=
  (signPart_of_mem sign).append_absent (digits_of_numerals digits) mark other

theorem real?_signed (nonempty : ds ≠ []) :
    real? r (sgn ++ ds) = if InWord (signed sgn (magnitude r ds)) then
      some (.integer (signed sgn (magnitude r ds))) else Number.ofFloat <$> wide? r (sgn ++ ds) := by
  have noPoint : '.' ∉ sgn ++ ds := absent sign digits rfl rfl
  rw [real?,splitAt?_of_absent (absent sign digits rfl rfl)]
  simp [noPoint,integer?_signed sign digits nonempty]

/-- Digits that fit in no word are accumulated in floating point. -/
theorem wide?_signed : ∃ x, wide? r (sgn ++ ds) = some x := by
  simp [wide?,sign_split sign digits,digits?_of_numerals digits]

theorem body?_signed : body? r (sgn ++ ds) = real? r (sgn ++ ds) := by
  have noUnit : 'i' ∉ sgn ++ ds := absent sign digits rfl rfl
  exact if_neg fun both => noUnit (List.mem_of_getLast? both.2)

/-! The scanner and the reader of literals agree on what is a mark and what is a number. -/

theorem chars_signed : (sgn ++ ds).all (isNumberChar r) = true := by
  rw [List.all_append,Bool.and_eq_true,List.all_eq_true,List.all_eq_true]
  constructor
  · intro c member
    cases signPart_of_mem sign with
    | none => contradiction
    | one isSign =>
      cases List.mem_singleton.mp member
      simp [isNumberChar,isNumberMark,isSign]
  · intro c member
    simp [isNumberChar,digits_of_numerals digits c member]

theorem isNumberBody_signed (nonempty : ds ≠ []) : isNumberBody r (sgn ++ ds) = true := by
  have noSlash : '/' ∉ sgn ++ ds := absent sign digits rfl rfl
  obtain ⟨c,member⟩ := List.exists_mem_of_ne_nil ds nonempty
  apply isNumberBody_exact
  · exact List.any_eq_true.mpr ⟨c,List.mem_append_right _ member,digits_of_numerals digits c member⟩
  · exact List.count_eq_zero.mpr (absent sign digits rfl rfl)
  · exact List.count_eq_zero.mpr (absent sign digits rfl rfl)
  · rw [List.count_eq_zero.mpr noSlash]
    exact Nat.zero_le 1
  · exact fun head => noSlash (List.mem_of_head? head)
  · exact fun last => noSlash (List.mem_of_getLast? last)
  · rw [List.any_eq_false]
    intro d inside
    have within : d ∈ ds := by
      cases signPart_of_mem sign with
      | none => exact List.mem_of_mem_drop inside
      | one => exact inside
    simp [(digits_of_numerals digits).not_sign within]

theorem startsNumber_signed (nonempty : ds ≠ []) (ten : r = .decimal) :
    startsNumber (sgn ++ ds) = true := by
  subst ten
  cases signPart_of_mem sign with
  | @one c isSign =>
    have noPoint : c ≠ '.' := by rintro rfl; contradiction
    rw [List.singleton_append,startsNumber_cons noPoint,isSign,Bool.true_or]
  | none =>
    obtain ⟨c,cs,rfl⟩ := List.exists_cons_of_ne_nil nonempty
    have digit := (digits_of_numerals digits).isDigit c List.mem_cons_self
    rw [List.nil_append,startsNumber_cons (digit_ne digit rfl),digit,Bool.or_true]

variable {before : List Char} (mark : before ∈ r.marks)

include mark

theorem mark_split : Literal.mark (before ++ (sgn ++ ds)) = (r,sgn ++ ds) := by
  rcases List.mem_cons.mp mark with rfl | none
  · simp [Literal.mark,Radix.ofMark?_letter]
  · split at none
    next ten =>
      subst ten
      cases List.mem_singleton.mp none
      have chars := List.all_eq_true.mp (chars_signed sign digits)
      exact mark_plain fun head => absurd (chars '#' (List.mem_of_head? head)) (by decide)
    next => contradiction

theorem isNumber_signed (nonempty : ds ≠ []) :
    (isPlainNumber (before ++ (sgn ++ ds)) || isMarkedNumber (before ++ (sgn ++ ds))) = true := by
  have chars := chars_signed sign digits
  have shape := isNumberBody_signed sign digits nonempty
  rcases List.mem_cons.mp mark with rfl | none
  · have marked : isMarkedNumber ('#' :: r.letter :: (sgn ++ ds)) = true := by
      rw [isMarkedNumber,Radix.ofMark?_letter,Option.any_some,chars,shape,Bool.and_true]
    rw [List.cons_append,List.singleton_append,marked,Bool.or_true]
  · split at none
    next ten =>
      have start := startsNumber_signed sign digits nonempty ten
      subst ten
      cases List.mem_singleton.mp none
      rw [List.nil_append,isPlainNumber,start,chars,shape]
      rfl
    next => contradiction

/-- A literal denotes the value of its digits as long as that is a word. -/
theorem read?_signed_digits (nonempty : ds ≠ []) :
    let value := signed sgn (magnitude r ds)
    if InWord value then read? (before ++ (sgn ++ ds)) = some (.integer value)
    else (∃ x, read? (before ++ (sgn ++ ds)) = some (.float x)) ∨
      read? (before ++ (sgn ++ ds)) = some .infinite := by
  intro value
  rw [read?,mark_split sign digits mark,body?_signed sign digits,real?_signed sign digits nonempty]
  split
  next fits => rfl
  next wide =>
    obtain ⟨x,found⟩ := wide?_signed sign digits
    rw [found]
    rcases wide?_inexact found with float | infinite
    · exact .inl ⟨x,congrArg some float⟩
    · exact .inr (congrArg some infinite)

end

end Literal

namespace Token

open Literal

/-- Integer literals denote their value. In every radix a sign and digits make one number, which
denotes the value of the digits at their places if that is a word, and is inexact otherwise. -/
theorem integer_literals {r : Radix} {before sgn ds : List Char} (mark : before ∈ r.marks)
    (sign : sgn ∈ signs) (nonempty : ds ≠ []) (digits : ∀ c ∈ ds, numeral c < r.base)
    (name : Option String) :
    let text := String.ofList (before ++ (sgn ++ ds))
    let value := signed sgn (magnitude r ds)
    scan text name = .ok [.atom .number text (.start name)] ∧
    if -2 ^ 63 ≤ value ∧ value ≤ 2 ^ 63 - 1 then Number.parse? text = some (.integer value)
    else (∃ x, Number.parse? text = some (.float x)) ∨ Number.parse? text = some .infinite := by
  intro text value
  have number := isNumber_signed sign digits mark nonempty
  have literal : Number.parse? text = read? (before ++ (sgn ++ ds)) := by
    rw [Number.parse?,String.toList_ofList]
  refine ⟨scan_atom (Lexeme.spelled_number number rfl) name,?_⟩
  rw [literal]
  exact read?_signed_digits sign digits mark nonempty

/-- The least word in hexadecimal digits, and the value next to the greatest. -/
theorem integer_literals_limits :
    (scan "#x-8000000000000000" none = .ok [.atom .number "#x-8000000000000000" ⟨1,1,none⟩] ∧
      Number.parse? "#x-8000000000000000" = some (.integer (-9223372036854775808))) ∧
    scan "+9223372036854775808" none = .ok [.atom .number "+9223372036854775808" ⟨1,1,none⟩] ∧
      ((∃ x, Number.parse? "+9223372036854775808" = some (.float x)) ∨
        Number.parse? "+9223372036854775808" = some .infinite) := by
  constructor
  · exact @integer_literals .hexadecimal ['#','x'] ['-'] "8000000000000000".toList
      (by decide) (by decide) (by decide) (List.all_iff_forall_prop.mp rfl) none
  · exact @integer_literals .decimal [] ['+'] "9223372036854775808".toList
      (by decide) (by decide) (by decide) (List.all_iff_forall_prop.mp rfl) none

end Token
end MiniScheme
