import MiniScheme.Proofs.Number.Representable
import MiniScheme.Proofs.Token.Numbers

/-! Fractions in source text. A fraction is reduced on words, and only a negative denominator makes
its signs change, which the least word does not admit. In a number that was scanned no sign stands
behind a slash, be the number real or complex. So the fractions that it is converted by have no
negative denominator, and nothing leaves the words. -/
namespace MiniScheme

namespace Ratio

/-- A way to reduce ratios of words, which may fail where signs have to change. -/
def Reduces {ε : Type} (reduce : Int → Int → Except ε Ratio) : Prop :=
  ∀ num den, InWord num → InWord den → (positive : 0 < den) →
    reduce num den = .ok (make num den (Int.ne_of_gt positive))

/-- A word, or the integer that is none as an error. -/
def checkWord (i : Int) : Except Int Int := if InWord i then .ok i else .error i

/-- Lowest terms and a positive denominator, where all that is computed has to be a word. -/
def reduceWords (num den : Int) : Except Int Ratio :=
  if num = 0 then .ok (ofInt 0)
  else if num = den then .ok (ofInt 1)
  else do
    let common ← checkWord (Int.gcd num den)
    let num ← checkWord (num / common)
    let den ← checkWord (den / common)
    if den < 0 then do
      let num ← checkWord (-num)
      let den ← checkWord (-den)
      (ofParts? num den).elim (.error den) .ok
    else (ofParts? num den).elim (.error den) .ok

theorem checkWord_of {i : Int} (word : InWord i) : checkWord i = .ok i := if_pos word

theorem ofParts?_reduced (num : Int) {den : Int} (positive : 0 < den) :
    ofParts? (num / (Int.gcd num den : Int)) (den / (Int.gcd num den : Int)) =
      some (make num den (Int.ne_of_gt positive)) := by
  have divides : (Int.gcd num den : Int) ∣ den := Int.gcd_dvd_right ..
  have reduced : 0 < den / (Int.gcd num den : Int) :=
    Int.ediv_pos_of_pos_of_dvd positive (Int.natCast_nonneg _) divides
  have bottom : (den / (Int.gcd num den : Int)).toNat = den.natAbs / Int.gcd num den := by
    have size := Int.natAbs_ediv_of_dvd divides
    rw [Int.natAbs_natCast] at size
    omega
  rw [ofParts?,dif_pos reduced]
  simp [make,bottom,Int.sign_eq_one_of_pos positive]

/-- A fraction of words with a positive denominator is reduced without leaving the words. -/
theorem reduceWords_reduces : Reduces reduceWords := by
  intro num den above below positive
  have common : 0 < Int.gcd num den := Int.gcd_pos_of_ne_zero_right num positive.ne'
  have divides : (Int.gcd num den : Int) ∣ den := Int.gcd_dvd_right ..
  have commonWord : InWord (Int.gcd num den) := by
    have bound := Int.le_of_dvd positive divides
    unfold InWord at below ⊢
    omega
  have reduced : ¬den / (Int.gcd num den : Int) < 0 :=
    not_lt.mpr (Int.ediv_nonneg positive.le (Int.natCast_nonneg _))
  have made := ofParts?_reduced num positive
  rw [reduceWords]
  split
  next zero =>
    subst zero
    rw [Int.zero_ediv,Int.gcd_zero_left,Int.natAbs_of_nonneg positive.le,
      Int.ediv_self positive.ne'] at made
    exact congrArg Except.ok (Option.some.inj made)
  next =>
  split
  next same =>
    subst same
    rw [Int.gcd_self,Int.natAbs_of_nonneg positive.le,Int.ediv_self positive.ne'] at made
    exact congrArg Except.ok (Option.some.inj made)
  next =>
    simp only [checkWord_of commonWord,checkWord_of (inWord_ediv above common),
      checkWord_of (inWord_ediv below common),bind,Except.bind,if_neg reduced,made]
    rfl

end Ratio

namespace Number

/-- The quotient of two words, by this way to reduce a ratio. -/
def quotientBy {ε : Type} (reduce : Int → Int → Except ε Ratio) (num den : Int) : Except ε Number :=
  if den = 0 then .ok (if num = 0 then nan else infinite) else ofRatio <$> reduce num den

/-- The quotient of two words. The error is a negative denominator. -/
def quotientUnsigned (num den : Int) : Except Int Number :=
  if den < 0 then .error den else .ok (quotient num den)

theorem quotientUnsigned_eq {num den : Int} (nonneg : 0 ≤ den) :
    quotientUnsigned num den = .ok (quotient num den) := if_neg (not_lt.mpr nonneg)

theorem quotientBy_eq {ε : Type} {reduce : Int → Int → Except ε Ratio} (reduces : Ratio.Reduces reduce)
    {num den : Int} (above : InWord num) (below : InWord den) (nonneg : 0 ≤ den) :
    quotientBy reduce num den = .ok (quotient num den) := by
  unfold quotientBy quotient
  split
  next => rfl
  next nonzero =>
    rw [reduces num den above below (by omega)]
    rfl

end Number

namespace Literal

open Lexeme

/-! Reading a literal with any way to make fractions. -/

section

variable {ε : Type} (fraction : Int → Int → Except ε Number)

def realWith (r : Radix) (cs : List Char) : Except ε (Option Number) :=
  match splitAt? '/' cs with
  | some (num,den) =>
    match wordLiteral? r num,wordLiteral? r den with
    | some num,some den => some <$> fraction num den
    | _,_ => .ok none
  | none => .ok (real? r cs)

def floatWith (r : Radix) (cs : List Char) : Except ε (Option Float) :=
  (· >>= Number.toFloat?) <$> realWith fraction r cs

def imaginaryWith (r : Radix) (cs : List Char) : Except ε (Option Float) :=
  match cs with
  | [] | ['+'] => .ok (some 1.0)
  | ['-'] => .ok (some (-1.0))
  | _ => floatWith fraction r cs

def complexWith (r : Radix) (cs : List Char) : Except ε (Option Number) :=
  match splitSign? cs with
  | some (real,imag) => do
    match ← floatWith fraction r real with
    | some re => return .complex re <$> (← imaginaryWith fraction r imag)
    | none => return none
  | none => do return .complex 0.0 <$> (← imaginaryWith fraction r cs)

def bodyWith (r : Radix) (cs : List Char) : Except ε (Option Number) :=
  if r ≠ .hexadecimal ∧ cs.getLast? = some 'i' then complexWith fraction r cs.dropLast
  else realWith fraction r cs

/-- The number a literal denotes, with fractions made in this way. -/
def readWith (cs : List Char) : Except ε (Option Number) := bodyWith fraction (mark cs).1 (mark cs).2

end

/-- The text of a real literal is the fraction of these words. -/
def Fraction (r : Radix) (cs : List Char) (num den : Int) : Prop :=
  ∃ above below, splitAt? '/' cs = some (above,below) ∧ wordLiteral? r above = some num ∧
    wordLiteral? r below = some den

/-- The texts of real literals that the body of a literal falls into. -/
def reals (r : Radix) (cs : List Char) : List (List Char) :=
  if r ≠ .hexadecimal ∧ cs.getLast? = some 'i' then
    match splitSign? cs.dropLast with
    | some (real,imag) => [real,imag]
    | none => [cs.dropLast]
  else [cs]

/-- The fractions that are made for a literal. -/
def Makes (cs : List Char) (num den : Int) : Prop :=
  ∃ part ∈ reals (mark cs).1 (mark cs).2, Fraction (mark cs).1 part num den

section

variable {ε : Type} {fraction : Int → Int → Except ε Number} {r : Radix} {cs : List Char}

theorem realWith_eq (agrees : ∀ num den, Fraction r cs num den →
    fraction num den = .ok (.quotient num den)) : realWith fraction r cs = .ok (real? r cs) := by
  cases split : splitAt? '/' cs with
  | none => rw [realWith,split]
  | some parts =>
    obtain ⟨num,den⟩ := parts
    rw [realWith,real?,split]
    cases above : wordLiteral? r num with
    | none => simp [above]
    | some n =>
      cases below : wordLiteral? r den with
      | none => simp [above,below]
      | some d =>
        simp only [above,below,agrees n d ⟨num,den,split,above,below⟩]
        rfl

theorem floatWith_eq (agrees : ∀ num den, Fraction r cs num den →
    fraction num den = .ok (.quotient num den)) :
    floatWith fraction r cs = .ok (real? r cs >>= Number.toFloat?) := by
  rw [floatWith,realWith_eq agrees]
  rfl

theorem imaginaryWith_eq (agrees : ∀ num den, Fraction r cs num den →
    fraction num den = .ok (.quotient num den)) :
    imaginaryWith fraction r cs = .ok (imaginary? r cs) := by
  unfold imaginaryWith
  split
  · rfl
  · rfl
  · rfl
  next some noPlus noMinus =>
    rw [floatWith_eq agrees,imaginary?]
    · exact some
    · exact noPlus
    · exact noMinus

theorem complexWith_eq
    (agrees : ∀ part ∈ reals r cs, ∀ num den, Fraction r part num den →
      fraction num den = .ok (.quotient num den)) (shape : r ≠ .hexadecimal ∧ cs.getLast? = some 'i') :
    complexWith fraction r cs.dropLast = .ok (complex? r cs.dropLast) := by
  rw [reals,if_pos shape] at agrees
  cases split : splitSign? cs.dropLast with
  | none =>
    rw [split] at agrees
    have imag := imaginaryWith_eq (agrees _ List.mem_cons_self)
    simp only [complexWith,complex?,split,imag]
    cases imaginary? r cs.dropLast <;> rfl
  | some parts =>
    obtain ⟨real,imag⟩ := parts
    rw [split] at agrees
    have first := floatWith_eq (agrees real List.mem_cons_self)
    have second := imaginaryWith_eq (agrees imag (.tail _ List.mem_cons_self))
    simp only [complexWith,complex?,split,first,second]
    cases real? r real >>= Number.toFloat? with
    | none => rfl
    | some re => cases imaginary? r imag <;> rfl

/-- Where the fractions are the quotients, a literal denotes the number it denotes. -/
theorem readWith_eq (agrees : ∀ num den, Makes cs num den → fraction num den = .ok (.quotient num den)) :
    readWith fraction cs = .ok (read? cs) := by
  have parts : ∀ part ∈ reals (mark cs).1 (mark cs).2, ∀ num den, Fraction (mark cs).1 part num den →
      fraction num den = .ok (.quotient num den) :=
    fun part member num den made => agrees num den ⟨part,member,made⟩
  rw [readWith,bodyWith,read?,body?]
  split
  next shape => exact complexWith_eq parts shape
  next shape =>
    rw [reals,if_neg shape] at parts
    exact realWith_eq (parts _ List.mem_cons_self)

/-! The fractions of a number. -/

theorem wordLiteral?_eq_some {i : Int} (found : wordLiteral? r cs = some i) :
    integer? r cs = some i ∧ InWord i := by
  rw [wordLiteral?,Option.bind_eq_bind,Option.bind_eq_some_iff] at found
  obtain ⟨j,value,fits⟩ := found
  rw [word?] at fits
  split at fits
  next word =>
    cases fits
    exact ⟨value,word⟩
  next => contradiction

/-- Digits without a sign denote no negative number. -/
theorem integer?_nonneg {i : Int} (digits : Digits r cs) (found : integer? r cs = some i) : 0 ≤ i := by
  have unsigned := sign_unsigned fun _ head => digits.not_sign (List.mem_of_head? head)
  simp only [integer?,unsigned,Option.bind_eq_bind,Option.bind_eq_some_iff] at found
  obtain ⟨values,-,value⟩ := found
  split at value
  next => contradiction
  next =>
    cases value
    exact Int.natCast_nonneg _

theorem digits_of_digits? {values : List Nat} (found : digits? r cs = some values) : Digits r cs := by
  induction cs generalizing values with
  | nil => exact fun _ member => by contradiction
  | cons c cs ih =>
    simp only [digits?,List.mapM_cons,Option.bind_eq_bind,Option.bind_eq_some_iff] at found
    obtain ⟨value,first,more,rest,-⟩ := found
    exact List.forall_mem_cons.mpr ⟨Option.isSome_of_eq_some first,ih rest⟩

/-- No integer has an imaginary unit in it. -/
theorem integer?_noUnit {i : Int} (found : integer? r cs = some i) : 'i' ∉ cs := by
  simp only [integer?,Option.bind_eq_bind,Option.bind_eq_some_iff] at found
  obtain ⟨values,body,-⟩ := found
  have absent : 'i' ∉ (Literal.sign cs).2 := (digits_of_digits? body).absent rfl
  unfold Literal.sign at absent
  split at absent <;> simpa using absent

theorem splitAt?_eq_some {c : Char} {before rest : List Char}
    (found : splitAt? c cs = some (before,rest)) : cs = before ++ c :: rest := by
  by_cases member : c ∈ cs
  · obtain ⟨first,more,rfl,absent⟩ := List.eq_append_cons_of_mem member
    rw [splitAt?_append absent] at found
    cases found
    rfl
  · rw [splitAt?_of_absent member] at found
    contradiction

variable {num den : Int}

theorem Fraction.words (made : Fraction r cs num den) : InWord num ∧ InWord den := by
  obtain ⟨_,_,-,above,below⟩ := made
  exact ⟨(wordLiteral?_eq_some above).2,(wordLiteral?_eq_some below).2⟩

/-- Behind the slash of a signed part stand digits alone. -/
theorem Fraction.nonneg {sgn part : List Char} (sign : SignPart sgn) (shape : Part r part)
    (made : Fraction r (sgn ++ part) num den) : 0 ≤ den := by
  obtain ⟨above,below,split,-,bottom⟩ := made
  have noSlash {ds : List Char} (digits : Digits r ds) : '/' ∉ ds := digits.absent rfl
  cases shape with
  | digits digits =>
    rw [splitAt?_of_absent (sign.append_absent digits rfl rfl)] at split
    contradiction
  | @point ds es whole part =>
    have absent : '/' ∉ sgn ++ (ds ++ '.' :: es) := by
      simp [noSlash whole,noSlash part,sign.absent (c := '/') rfl]
    rw [splitAt?_of_absent absent] at split
    contradiction
  | slash upper lower =>
    rw [← List.append_assoc,splitAt?_append (sign.append_absent upper rfl rfl)] at split
    cases split
    exact integer?_nonneg lower (wordLiteral?_eq_some bottom).1

/-- In radix sixteen a unit at the end belongs to the denominator, which then is no number. -/
theorem Fraction.noUnit (made : Fraction r (cs ++ ['i']) num den) : False := by
  obtain ⟨above,below,split,-,bottom⟩ := made
  have last : ('/' :: below).getLast? = some 'i' := by
    rw [← List.getLast?_append_cons above,← splitAt?_eq_some split,List.getLast?_concat]
  have unit : 'i' ∈ below := by simpa using List.mem_of_getLast? last
  exact integer?_noUnit (wordLiteral?_eq_some bottom).1 unit

/-- No part of a body with the shape of a number is a fraction with a negative denominator. -/
theorem Shape.nonneg {w : List Char} (shape : Shape r w) :
    ∀ part ∈ reals r w, Fraction r part num den → 0 ≤ den := by
  intro part member made
  cases shape with
  | @real sgn body sign shape =>
    have noUnit : (sgn ++ body).getLast? ≠ some 'i' := by
      intro last
      have inside := List.mem_append.mp (List.mem_of_getLast? last)
      exact inside.elim (sign.absent rfl) shape.noUnit
    rw [reals,if_neg fun both => noUnit both.2,List.mem_singleton] at member
    subst member
    exact made.nonneg sign shape
  | @complex left right s sign leftShape rightShape _ =>
    have imaginary (made : Fraction r (s :: right) num den) : 0 ≤ den :=
      Fraction.nonneg (.one sign) rightShape made
    have last : (left ++ s :: right ++ ['i']).getLast? = some 'i' := List.getLast?_concat
    by_cases sixteen : r = .hexadecimal
    · rw [reals,if_neg fun both => both.1 sixteen,List.mem_singleton] at member
      subst member
      exact made.noUnit.elim
    · rw [reals,if_pos ⟨sixteen,last⟩,List.dropLast_concat] at member
      cases left with
      | nil =>
        rw [List.nil_append,splitSign?_none rightShape.unsigned,List.mem_singleton] at member
        subst member
        exact imaginary made
      | cons c left =>
        rw [splitSign?_some sign rightShape.unsigned] at member
        simp only [List.mem_cons,List.not_mem_nil,or_false] at member
        rcases member with rfl | rfl
        · exact Fraction.nonneg .none leftShape made
        · exact imaginary made

theorem shape_of_number {w : List Char} (number : (isPlainNumber w || isMarkedNumber w) = true) :
    Shape (mark w).1 (mark w).2 := by
  rcases Bool.or_eq_true_iff.mp number with plain | marked
  · simp only [isPlainNumber,Bool.and_eq_true,List.all_eq_true] at plain
    obtain ⟨⟨-,chars⟩,body⟩ := plain
    have noMark : w.head? ≠ some '#' :=
      fun head => absurd (chars '#' (List.mem_of_head? head)) (by decide)
    rw [mark_plain noMark]
    exact (counted_of_body body).shape chars
  · unfold isMarkedNumber at marked
    split at marked
    next c body =>
      cases found : Radix.ofMark? c with
      | none => simp [found] at marked
      | some r =>
        simp only [found,Option.any_some,Bool.and_eq_true,List.all_eq_true] at marked
        have split : mark ('#' :: c :: body) = (r,body) := by simp [mark,found]
        rw [split]
        exact (counted_of_body marked.2).shape marked.1
    next => contradiction

/-- Scanned numbers make fractions of words whose denominator is not negative. -/
theorem makes_of_number {w : List Char} (number : (isPlainNumber w || isMarkedNumber w) = true)
    (made : Makes w num den) : InWord num ∧ InWord den ∧ 0 ≤ den := by
  obtain ⟨part,member,fraction⟩ := made
  obtain ⟨above,below⟩ := fraction.words
  exact ⟨above,below,(shape_of_number number).nonneg part member fraction⟩

end

end Literal

namespace Token

open Literal Number

/-- Reading a program never negates the least word. Every fraction that a scanned number is converted
by has a denominator that is not negative, so any way to reduce ratios that fails at most where signs
have to change will do, and on words nothing overflows. A text that is no number may well overflow. -/
theorem conversion_never_negates {text : String} {source : Option String} {tokens : List Token}
    (scanned : scan text source = .ok tokens) :
    (∀ word pos, (word,pos) ∈ numbersAll tokens →
      readWith quotientUnsigned word.toList = .ok (parse? word) ∧
      (∀ {ε : Type} (reduce : Int → Int → Except ε Ratio), Ratio.Reduces reduce →
        readWith (quotientBy reduce) word.toList = .ok (parse? word)) ∧
      readWith (quotientBy Ratio.reduceWords) word.toList = .ok (parse? word)) ∧
    readWith (quotientBy Ratio.reduceWords) "1/-9223372036854775808".toList =
      .error 9223372036854775808 := by
  refine ⟨?_,by decide +kernel⟩
  intro word pos member
  have number := LawfulAll.numbers tokens (scan_lawful scanned) _ member
  have reduced {ε : Type} (reduce : Int → Int → Except ε Ratio) (reduces : Ratio.Reduces reduce) :
      readWith (quotientBy reduce) word.toList = .ok (parse? word) := by
    refine readWith_eq fun num den made => ?_
    obtain ⟨above,below,nonneg⟩ := makes_of_number number made
    exact quotientBy_eq reduces above below nonneg
  refine ⟨?_,reduced,reduced _ Ratio.reduceWords_reduces⟩
  refine readWith_eq fun num den made => ?_
  obtain ⟨-,-,nonneg⟩ := makes_of_number number made
  exact quotientUnsigned_eq nonneg

/-- The least word as a numerator in hexadecimal digits, and a fraction as an imaginary part. -/
theorem conversion_never_negates_least :
    scan "(#x-8000000000000000/3 1-2/3i)" none = .ok [.list
      [.atom .number "#x-8000000000000000/3" ⟨1,2,none⟩,.atom .number "1-2/3i" ⟨1,24,none⟩] ⟨1,1,none⟩] ∧
    readWith (quotientBy Ratio.reduceWords) "#x-8000000000000000/3".toList =
      .ok (some (.fraction ⟨-9223372036854775808,3,by decide⟩)) ∧
    readWith quotientUnsigned "1-2/3i".toList = .ok (parse? "1-2/3i") := by
  have scanned : scan "(#x-8000000000000000/3 1-2/3i)" none = .ok [.list
      [.atom .number "#x-8000000000000000/3" ⟨1,2,none⟩,.atom .number "1-2/3i" ⟨1,24,none⟩]
        ⟨1,1,none⟩] := rfl
  obtain ⟨converted,-⟩ := conversion_never_negates scanned
  have least := converted "#x-8000000000000000/3" ⟨1,2,none⟩ List.mem_cons_self
  have imaginary := converted "1-2/3i" ⟨1,24,none⟩ (.tail _ List.mem_cons_self)
  refine ⟨scanned,least.2.2.trans ?_,imaginary.1⟩
  decide +kernel

end Token
end MiniScheme
