import Mathlib.Data.List.TakeDrop
import MiniScheme.Number.Arith
import MiniScheme.Number.Text
import MiniScheme.Proofs.Token.Spelling

/-! The written form of exact numbers. It has the shape of a number, and the literal denotes the
number it was made from. -/
namespace MiniScheme

namespace Literal

open Lexeme

theorem digit?_of_isDigit {c : Char} (digit : c.isDigit = true) :
    Radix.decimal.digit? c = some (c.toNat - 48) := by
  have bounds := isDigit_bounds.mp digit
  have small : c.toNat - 48 < 10 := by omega
  simp [Radix.digit?,Radix.digitValue?,digit,Radix.base,small]

theorem digits?_of_isDigit {cs : List Char} (digits : ∀ c ∈ cs, c.isDigit = true) :
    digits? .decimal cs = some (cs.map fun c => c.toNat - 48) := by
  induction cs with
  | nil => rfl
  | cons c cs ih =>
    have head := digit?_of_isDigit (digits c List.mem_cons_self)
    have tail := ih fun d member => digits d (List.mem_cons_of_mem _ member)
    rw [digits?] at tail
    simp [digits?,head,tail]

theorem positional_digits (cs : List Char) :
    positional 10 (cs.map fun c => c.toNat - 48) = Nat.ofDigitChars 10 cs 0 := by
  rw [positional,List.foldl_map,Nat.ofDigitChars_eq_foldl]
  simp only [Nat.mul_comm]
  rfl

/-- The digits of a number, and what is known about them. -/
theorem decimal_digits (n : Nat) : ∃ c cs, Nat.toDigits 10 n = c :: cs ∧
    ∀ d ∈ c :: cs, d.isDigit = true := by
  have digits (d : Char) (member : d ∈ Nat.toDigits 10 n) : d.isDigit = true :=
    Nat.isDigit_of_mem_toDigits (by decide) (by decide) member
  cases shape : Nat.toDigits 10 n with
  | nil => exact absurd shape Nat.toDigits_ne_nil
  | cons c cs => exact ⟨c,cs,rfl,fun d member => digits d (shape ▸ member)⟩

def signChars (negative : Bool) : List Char := if negative then ['-'] else []

theorem repr_toList (i : Int) :
    (Int.repr i).toList = signChars (decide (i < 0)) ++ Nat.toDigits 10 i.natAbs := by
  cases i with
  | ofNat n => simp [Int.repr,signChars]
  | negSucc n =>
    simp [Int.repr,signChars]

theorem sign_signChars {c : Char} {cs : List Char} (digit : c.isDigit = true) (negative : Bool) :
    sign (signChars negative ++ c :: cs) = (negative,c :: cs) := by
  cases negative with
  | true => rfl
  | false =>
    have noMinus : c ≠ '-' := by rintro rfl; contradiction
    have noPlus : c ≠ '+' := by rintro rfl; contradiction
    simp [signChars,sign,noMinus,noPlus]

/-- An integer is read back from its digits. -/
theorem integer?_repr (i : Int) : integer? .decimal (Int.repr i).toList = some i := by
  obtain ⟨c,cs,shape,digits⟩ := decimal_digits i.natAbs
  have value : positional 10 ((c :: cs).map fun c => c.toNat - 48) = i.natAbs := by
    rw [positional_digits,← shape,Nat.ofDigitChars_ten_toDigits]
  rw [repr_toList,shape]
  simp only [integer?,sign_signChars (digits c List.mem_cons_self),digits?_of_isDigit digits,
    Radix.base,Option.bind_eq_bind,Option.bind_some,value]
  rw [if_neg (by simp)]
  by_cases negative : i < 0
  · rw [decide_eq_true negative,if_pos rfl]
    congr 1
    omega
  · rw [decide_eq_false negative,if_neg (by decide)]
    congr 1
    omega

theorem wordLiteral?_repr {i : Int} (fits : InWord i) :
    wordLiteral? .decimal (Int.repr i).toList = some i := by
  rw [wordLiteral?,integer?_repr]
  simp [word?,fits]

theorem splitAt?_of_absent {c : Char} {cs : List Char} (absent : c ∉ cs) : splitAt? c cs = none := by
  have whole : cs.takeWhile (· != c) = cs ∧ cs.dropWhile (· != c) = [] := by
    have inside : ∀ d ∈ cs, (d != c) = true := by
      intro d member
      exact bne_iff_ne.mpr fun same => absent (same ▸ member)
    exact ⟨List.takeWhile_eq_self_iff.mpr inside,List.dropWhile_eq_nil_iff.mpr inside⟩
  rw [splitAt?,List.span_eq_takeWhile_dropWhile,whole.2]

theorem splitAt?_append {c : Char} {before rest : List Char} (absent : c ∉ before) :
    splitAt? c (before ++ c :: rest) = some (before,rest) := by
  have inside : ∀ d ∈ before, (d != c) = true := by
    intro d member
    exact bne_iff_ne.mpr fun same => absent (same ▸ member)
  have run : (before ++ c :: rest).takeWhile (· != c) = before :=
    takeWhile_run inside (by simp)
  have left : (before ++ c :: rest).dropWhile (· != c) = c :: rest := by
    rw [List.dropWhile_append_of_pos inside]
    simp
  rw [splitAt?,List.span_eq_takeWhile_dropWhile,run,left]

theorem mem_signChars {c : Char} {negative : Bool} (member : c ∈ signChars negative) : c = '-' := by
  cases negative <;> simp [signChars] at member
  exact member

theorem digit_ne {c d : Char} (digit : c.isDigit = true) (other : d.isDigit = false) : c ≠ d := by
  rintro rfl
  rw [digit] at other
  contradiction

theorem repr_noSlash (i : Int) : '/' ∉ (Int.repr i).toList := by
  rw [repr_toList,List.mem_append]
  rintro (sign | digit)
  · cases mem_signChars sign
  · have slash := Nat.isDigit_of_mem_toDigits (by decide) (by decide) digit
    contradiction

/-- The shape of numbers without points and imaginary parts. -/
theorem isNumberBody_exact {r : Radix} {w : List Char} (digit : w.any r.isDigit = true)
    (points : w.count '.' = 0) (units : w.count 'i' = 0) (slashes : w.count '/' ≤ 1)
    (beginning : w.head? ≠ some '/') (ending : w.getLast? ≠ some '/')
    (signs : (w.drop 1).any isSign = false) : isNumberBody r w = true := by
  have front : (w.head? != some '/') = true := bne_iff_ne.mpr beginning
  have back : (w.getLast? != some '/') = true := bne_iff_ne.mpr ending
  simp only [isNumberBody,digit,points,units,slashes,front,back,signs]
  simp

/-- A digit, and more digits with at most one slash between them. -/
structure Unsigned (c : Char) (cs : List Char) : Prop where
  first : c.isDigit = true
  chars : ∀ d ∈ cs, d.isDigit = true ∨ d = '/'
  slashes : cs.count '/' ≤ 1
  last : (c :: cs).getLast? ≠ some '/'

namespace Unsigned

variable {c : Char} {cs : List Char} (unsigned : Unsigned c cs)

include unsigned

theorem mem {d : Char} (member : d ∈ c :: cs) : d.isDigit = true ∨ d = '/' := by
  rcases List.mem_cons.mp member with rfl | inside
  · exact .inl unsigned.first
  · exact unsigned.chars d inside

theorem not_sign {d : Char} (member : d ∈ c :: cs) : isSign d = false := by
  rcases unsigned.mem member with digit | rfl
  · have plus : d ≠ '+' := digit_ne digit rfl
    have minus : d ≠ '-' := digit_ne digit rfl
    simp [isSign,plus,minus]
  · rfl

/-- Nothing but digits, a slash and a minus stands in a signed number. -/
theorem absent {x : Char} (negative : Bool) (other : x.isDigit = false) (noSlash : x ≠ '/')
    (noSign : x ≠ '-') : x ∉ signChars negative ++ c :: cs := by
  rw [List.mem_append]
  rintro (sign | member)
  · exact noSign (mem_signChars sign)
  · rcases unsigned.mem member with digit | slash
    · exact digit_ne digit other rfl
    · exact noSlash slash

theorem isNumberBody (negative : Bool) :
    Lexeme.isNumberBody .decimal (signChars negative ++ c :: cs) = true := by
  have noSlash : c ≠ '/' := digit_ne unsigned.first rfl
  apply isNumberBody_exact
  · rw [List.any_eq_true]
    exact ⟨c,by simp,by rw [decimal_isDigit,unsigned.first]⟩
  · exact List.count_eq_zero.mpr (unsigned.absent negative rfl (by decide) (by decide))
  · exact List.count_eq_zero.mpr (unsigned.absent negative rfl (by decide) (by decide))
  · rw [List.count_append,List.count_cons_of_ne noSlash]
    cases negative <;> simpa [signChars] using unsigned.slashes
  · cases negative with
    | true => simp [signChars]
    | false => simpa [signChars] using noSlash
  · rw [List.getLast?_append]
    simpa using unsigned.last
  · rw [List.any_eq_false]
    intro d member
    rw [Bool.not_eq_true]
    cases negative with
    | true => exact unsigned.not_sign member
    | false => exact unsigned.not_sign (List.mem_cons_of_mem _ member)

theorem isPlainNumber (negative : Bool) :
    Lexeme.isPlainNumber (signChars negative ++ c :: cs) = true := by
  have starts : startsNumber (signChars negative ++ c :: cs) = true := by
    cases negative with
    | true => rfl
    | false =>
      change startsNumber (c :: cs) = true
      rw [startsNumber_cons (digit_ne unsigned.first rfl),unsigned.first,Bool.or_true]
  have all : (signChars negative ++ c :: cs).all (isNumberChar .decimal) = true := by
    rw [List.all_eq_true]
    intro d member
    rcases List.mem_append.mp member with sign | inside
    · rw [mem_signChars sign]
      rfl
    · rcases unsigned.mem inside with digit | rfl
      · simp [isNumberChar,digit]
      · rfl
  rw [Lexeme.isPlainNumber,starts,all,unsigned.isNumberBody]
  rfl

end Unsigned

/-- Without a radix mark and an imaginary unit a literal is a decimal real. -/
theorem read?_signed {c : Char} {cs : List Char} (unsigned : Unsigned c cs) (negative : Bool) :
    read? (signChars negative ++ c :: cs) = real? .decimal (signChars negative ++ c :: cs) := by
  have noMark : '#' ∉ signChars negative ++ c :: cs :=
    unsigned.absent negative rfl (by decide) (by decide)
  have noUnit : 'i' ∉ signChars negative ++ c :: cs :=
    unsigned.absent negative rfl (by decide) (by decide)
  generalize signChars negative ++ c :: cs = w at noMark noUnit
  have marked : mark w = (.decimal,w) := by
    unfold mark
    split
    next => simp at noMark
    next => rfl
  have last : w.getLast? ≠ some 'i' := fun last => noUnit (List.mem_of_getLast? last)
  rw [read?,marked,body?,if_neg (fun both => last both.2)]

theorem unsigned_digits (n : Nat) : ∃ c cs, Nat.toDigits 10 n = c :: cs ∧ Unsigned c cs := by
  obtain ⟨c,cs,shape,digits⟩ := decimal_digits n
  refine ⟨c,cs,shape,digits c List.mem_cons_self,?_,?_,?_⟩
  · intro d member
    exact .inl (digits d (List.mem_cons_of_mem _ member))
  · have none : cs.count '/' = 0 :=
      List.count_eq_zero.mpr fun member => by simpa using digits _ (List.mem_cons_of_mem _ member)
    omega
  · intro last
    simpa using digits _ (List.mem_of_getLast? last)

theorem unsigned_fraction (num den : Nat) : ∃ c cs,
    Nat.toDigits 10 num ++ '/' :: Nat.toDigits 10 den = c :: cs ∧ Unsigned c cs := by
  obtain ⟨c,cs,above,upper⟩ := decimal_digits num
  obtain ⟨d,ds,below,lower⟩ := decimal_digits den
  refine ⟨c,cs ++ '/' :: d :: ds,by rw [above,below]; rfl,upper c List.mem_cons_self,?_,?_,?_⟩
  · intro x member
    rcases List.mem_append.mp member with left | right
    · exact .inl (upper x (List.mem_cons_of_mem _ left))
    · rcases List.mem_cons.mp right with slash | digit
      · exact .inr slash
      · exact .inl (lower x digit)
  · have left : cs.count '/' = 0 :=
      List.count_eq_zero.mpr fun member => by simpa using upper _ (List.mem_cons_of_mem _ member)
    have right : (d :: ds).count '/' = 0 :=
      List.count_eq_zero.mpr fun member => by simpa using lower _ member
    rw [List.count_append,left,List.count_cons_self,right]
  · intro last
    have inside : (d :: ds).getLast? = some '/' := by
      rwa [← List.cons_append,List.getLast?_append,List.getLast?_cons_cons,
        Option.or_of_isSome (by simp)] at last
    simpa using lower _ (List.mem_of_getLast? inside)

end Literal

namespace Number

open Literal

/-- Exact numbers whose parts are words, in lowest terms. -/
def IsExactWord : Number → Prop
  | integer i => InWord i
  | fraction r => InWord r.num ∧ InWord r.den ∧ (fraction r).Canonical
  | _ => False

theorem same_self {n : Number} (exact : n.IsExactWord) : n.same n = true := by
  cases n with
  | integer i => simp [same,compare,toRatio?,Ratio.compare,Std.ReflCmp.compare_self]
  | fraction r => simp [same,compare,toRatio?,Ratio.compare,Std.ReflCmp.compare_self]
  | float | complex | nan | infinite => contradiction

/-- A ratio in lowest terms is the quotient of its parts. -/
theorem quotient_lowest {r : Ratio} (canonical : (fraction r).Canonical) :
    quotient r.num r.den = fraction r := by
  obtain ⟨large,lowest⟩ := canonical
  have nonzero : (r.den : Int) ≠ 0 := by omega
  have coprime : Int.gcd r.num r.den = 1 := lowest
  have positive : (r.den : Int).sign = 1 := Int.sign_eq_one_of_pos (by omega)
  have made : Ratio.make r.num r.den nonzero = r := by
    obtain ⟨num,den,pos⟩ := r
    simp [Ratio.make,positive,coprime]
  rw [quotient,dif_neg nonzero,made,ofRatio,if_neg (by omega)]

theorem text_shape {n : Number} (exact : n.IsExactWord) :
    ∃ negative c cs, n.text.toList = signChars negative ++ c :: cs ∧ Unsigned c cs := by
  cases n with
  | integer i =>
    obtain ⟨c,cs,shape,unsigned⟩ := unsigned_digits i.natAbs
    exact ⟨decide (i < 0),c,cs,by rw [text,repr_toList,shape],unsigned⟩
  | fraction r =>
    obtain ⟨c,cs,shape,unsigned⟩ := unsigned_fraction r.num.natAbs r.den
    refine ⟨decide (r.num < 0),c,cs,?_,unsigned⟩
    rw [text,String.toList_append,String.toList_append,repr_toList,Nat.toList_repr,← shape]
    simp
  | float | complex | nan | infinite => contradiction

/-- Exact numbers are written as numbers. -/
theorem text_isPlainNumber {n : Number} (exact : n.IsExactWord) :
    Lexeme.isPlainNumber n.text.toList = true := by
  obtain ⟨negative,c,cs,shape,unsigned⟩ := text_shape exact
  rw [shape]
  exact unsigned.isPlainNumber negative

/-- The literal that an exact number is written as denotes the number. -/
theorem parse?_text {n : Number} (exact : n.IsExactWord) : parse? n.text = some n := by
  obtain ⟨negative,c,cs,shape,unsigned⟩ := text_shape exact
  have literal : parse? n.text = real? .decimal n.text.toList := by
    rw [parse?,shape]
    exact read?_signed unsigned negative
  have noPoint : '.' ∉ n.text.toList := by
    rw [shape]
    exact unsigned.absent negative rfl (by decide) (by decide)
  rw [literal]
  cases n with
  | integer i =>
    have fits : InWord i := exact
    rw [text] at noPoint ⊢
    rw [real?,splitAt?_of_absent (repr_noSlash i)]
    simp [noPoint,integer?_repr,fits]
  | fraction r =>
    obtain ⟨numFits,denFits,canonical⟩ := exact
    have split : splitAt? '/' (text (.fraction r)).toList =
        some ((Int.repr r.num).toList,(Int.repr r.den).toList) := by
      rw [text,String.toList_append,String.toList_append,List.append_assoc]
      exact splitAt?_append (repr_noSlash r.num)
    rw [real?,split]
    simp [wordLiteral?_repr numFits,wordLiteral?_repr denFits,quotient_lowest canonical]
  | float | complex | nan | infinite => contradiction

end Number
end MiniScheme
