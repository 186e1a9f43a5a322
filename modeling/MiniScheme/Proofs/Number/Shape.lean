import MiniScheme.Proofs.Number.Written

/-! The shape of numbers. A number is told from a symbol by counting its marks, and its value is
found by splitting it at them. A body of the right shape is a signed part, or a part, a sign and a
part before an imaginary unit, where at most one part has a point or a slash. -/
namespace MiniScheme

namespace Literal

open Lexeme

variable {r : Radix}

def Digits (r : Radix) (cs : List Char) : Prop := ∀ c ∈ cs, r.isDigit c = true

/-- Digits, and at most a point or a slash among them. -/
inductive Part (r : Radix) : List Char → Prop where
  | digits {ds : List Char} : Digits r ds → Part r ds
  | point {ds es : List Char} : Digits r ds → Digits r es → Part r (ds ++ '.' :: es)
  | slash {ds es : List Char} : Digits r ds → Digits r es → Part r (ds ++ '/' :: es)

/-- Nothing, or one sign. -/
inductive SignPart : List Char → Prop where
  | none : SignPart []
  | one {c : Char} : isSign c = true → SignPart [c]

inductive Shape (r : Radix) : List Char → Prop where
  | real {sgn part : List Char} : SignPart sgn → Part r part → Shape r (sgn ++ part)
  | complex {left right : List Char} {s : Char} : isSign s = true → Part r left → Part r right →
      Digits r left ∨ Digits r right → Shape r (left ++ s :: right ++ ['i'])

/-- No mark is a digit in any radix. -/
theorem mark_not_digit {c : Char} (mark : isNumberMark c = true) : r.isDigit c = false := by
  simp only [isNumberMark,isSign,Bool.or_eq_true,beq_iff_eq] at mark
  obtain ((rfl | rfl | rfl) | rfl) | rfl := mark <;> cases r <;> decide

theorem sign_not_digit {c : Char} (sign : isSign c = true) : r.isDigit c = false :=
  mark_not_digit (by simp [isNumberMark,sign])

theorem digit_not_mark {c : Char} (digit : r.isDigit c = true) : isNumberMark c = false := by
  by_contra mark
  rw [Bool.not_eq_false] at mark
  rw [mark_not_digit mark] at digit
  contradiction

theorem Digits.absent {cs : List Char} (digits : Digits r cs) {c : Char}
    (mark : isNumberMark c = true) : c ∉ cs := by
  intro member
  have other := digit_not_mark (digits c member)
  rw [mark] at other
  contradiction

theorem Digits.not_sign {cs : List Char} (digits : Digits r cs) {c : Char} (member : c ∈ cs) :
    isSign c = false := by
  have mark := digit_not_mark (digits c member)
  simp only [isNumberMark,Bool.or_eq_false_iff] at mark
  exact mark.1.1.2

/-- Characters of unsigned parts. -/
def isPartChar (r : Radix) (c : Char) : Bool := r.isDigit c || c == '.' || c == '/'

theorem digits_of_count {cs : List Char} (chars : ∀ c ∈ cs, isPartChar r c = true)
    (points : cs.count '.' = 0) (slashes : cs.count '/' = 0) : Digits r cs := by
  intro c member
  have noPoint : c ≠ '.' := fun same => List.count_eq_zero.mp points (same ▸ member)
  have noSlash : c ≠ '/' := fun same => List.count_eq_zero.mp slashes (same ▸ member)
  simpa [isPartChar,noPoint,noSlash] using chars c member

theorem part_of_count {cs : List Char} (chars : ∀ c ∈ cs, isPartChar r c = true)
    (marks : cs.count '.' + cs.count '/' ≤ 1) : Part r cs := by
  by_cases point : '.' ∈ cs
  · obtain ⟨ds,es,rfl⟩ := List.append_of_mem point
    simp only [List.count_append,List.count_cons,List.mem_append,List.mem_cons] at chars marks
    refine .point (digits_of_count (fun c member => chars c (.inl member)) ?_ ?_)
      (digits_of_count (fun c member => chars c (.inr (.inr member))) ?_ ?_)
    all_goals simp at marks; omega
  by_cases slash : '/' ∈ cs
  · obtain ⟨ds,es,rfl⟩ := List.append_of_mem slash
    simp only [List.count_append,List.count_cons,List.mem_append,List.mem_cons] at chars marks
    refine .slash (digits_of_count (fun c member => chars c (.inl member)) ?_ ?_)
      (digits_of_count (fun c member => chars c (.inr (.inr member))) ?_ ?_)
    all_goals simp at marks; omega
  exact .digits (digits_of_count chars (List.count_eq_zero.mpr point) (List.count_eq_zero.mpr slash))

theorem partChar_of_unmarked {c : Char} (char : isNumberChar r c = true) (noSign : isSign c = false)
    (noUnit : c ≠ 'i') : isPartChar r c = true := by
  simp only [isNumberChar,isNumberMark,noSign,Bool.or_false,Bool.or_eq_true,beq_iff_eq] at char
  simp only [isPartChar,Bool.or_eq_true,beq_iff_eq]
  grind

/-- What the count of marks says about a body. -/
structure Counted (r : Radix) (w : List Char) : Prop where
  digit : w.any r.isDigit = true
  marks : w.count '.' + w.count '/' ≤ 1
  signs : (w.count 'i' = 0 ∧ (w.drop 1).any isSign = false) ∨
    (w.count 'i' = 1 ∧ w.getLast? = some 'i' ∧ w.countP isSign = 1)

theorem counted_of_body {w : List Char} (body : isNumberBody r w = true) : Counted r w := by
  simp only [isNumberBody,Bool.and_eq_true,Bool.or_eq_true,decide_eq_true_eq,Bool.not_eq_true',
    Bool.and_eq_false_iff,decide_eq_false_iff_not,bne_iff_ne,beq_iff_eq] at body
  obtain ⟨⟨⟨⟨⟨⟨⟨digit,points⟩,slashes⟩,apart⟩,-⟩,-⟩,units⟩,signs⟩ := body
  refine ⟨digit,by omega,?_⟩
  rcases units with none | ⟨one,final⟩
  · rw [none] at signs
    exact .inl ⟨none,by simpa using signs⟩
  · rw [one] at signs
    exact .inr ⟨one,final,by simpa using signs⟩

theorem not_sign_of_countP {cs : List Char} (none : cs.countP isSign = 0) {c : Char}
    (member : c ∈ cs) : isSign c = false := by
  simpa using List.countP_eq_zero.mp none c member

/-- Counting the marks is enough to know how they divide a body. -/
theorem Counted.shape {w : List Char} (counted : Counted r w)
    (chars : ∀ c ∈ w, isNumberChar r c = true) : Shape r w := by
  have marks := counted.marks
  rcases counted.signs with ⟨noUnit,noSign⟩ | ⟨oneUnit,last,oneSign⟩
  · have unit : 'i' ∉ w := List.count_eq_zero.mp noUnit
    cases w with
    | nil =>
      have empty : Shape r ([] ++ []) := .real .none (.digits (by simp [Digits]))
      exact empty
    | cons c cs =>
      have tail : ∀ d ∈ cs, isPartChar r d = true := by
        intro d member
        have inside := List.mem_cons_of_mem c member
        exact partChar_of_unmarked (chars d inside) (by simpa using List.any_eq_false.mp noSign d member)
          fun same => unit (same ▸ inside)
      cases sign : isSign c with
      | true =>
        have fewer : cs.count '.' + cs.count '/' ≤ 1 := by
          simp only [List.count_cons] at marks
          omega
        have signed : Shape r ([c] ++ cs) := .real (.one sign) (part_of_count tail fewer)
        exact signed
      | false =>
        have whole : ∀ d ∈ c :: cs, isPartChar r d = true := by
          intro d member
          rcases List.mem_cons.mp member with rfl | inside
          · exact partChar_of_unmarked (chars d member) sign fun same => unit (same ▸ member)
          · exact tail d inside
        have unsigned : Shape r ([] ++ (c :: cs)) := .real .none (part_of_count whole marks)
        exact unsigned
  · obtain ⟨before,rfl⟩ := List.getLast?_eq_some_iff.mp last
    have unit : 'i' ∉ before := by
      rw [List.count_append] at oneUnit
      exact List.count_eq_zero.mp (by simpa using oneUnit)
    rw [List.countP_append] at oneSign
    have signs : before.countP isSign = 1 := by simpa [isSign] using oneSign
    obtain ⟨s,member,sign⟩ := List.countP_pos_iff.mp (by omega : 0 < before.countP isSign)
    obtain ⟨left,right,rfl⟩ := List.append_of_mem member
    rw [List.countP_append,List.countP_cons_of_pos sign] at signs
    simp only [List.count_append,List.count_cons] at marks
    have part (cs : List Char) (inside : ∀ c ∈ cs, c ∈ left ++ s :: right)
        (noSign : cs.countP isSign = 0) : ∀ c ∈ cs, isPartChar r c = true := by
      intro c within
      exact partChar_of_unmarked (chars c (List.mem_append_left _ (inside c within)))
        (not_sign_of_countP noSign within) fun same => unit (same ▸ inside c within)
    have leftChars := part left (by simp +contextual) (by omega)
    have rightChars := part right (by simp +contextual) (by omega)
    refine .complex sign (part_of_count leftChars (by omega)) (part_of_count rightChars (by omega)) ?_
    by_cases whole : left.count '.' + left.count '/' = 0
    · exact .inl (digits_of_count leftChars (by omega) (by omega))
    · exact .inr (digits_of_count rightChars (by omega) (by omega))

/-! What decimal parts denote. -/

theorem Digits.isDigit {ds : List Char} (digits : Digits .decimal ds) :
    ∀ c ∈ ds, c.isDigit = true := by
  intro c member
  rw [← decimal_isDigit]
  exact digits c member

theorem decimal_digits? {ds : List Char} (digits : Digits .decimal ds) :
    ∃ values, digits? .decimal ds = some values ∧ (values = [] ↔ ds = []) :=
  ⟨_,digits?_of_isDigit digits.isDigit,List.map_eq_nil_iff⟩

theorem sign_unsigned {cs : List Char} (unsigned : ∀ c, cs.head? = some c → isSign c = false) :
    Literal.sign cs = (false,cs) := by
  cases cs with
  | nil => rfl
  | cons c cs =>
    have other := unsigned c rfl
    have noMinus : c ≠ '-' := by rintro rfl; contradiction
    have noPlus : c ≠ '+' := by rintro rfl; contradiction
    simp [Literal.sign,noMinus,noPlus]

theorem sign_signPart {sgn rest : List Char} (sign : SignPart sgn)
    (unsigned : ∀ c, rest.head? = some c → isSign c = false) :
    ∃ negative, Literal.sign (sgn ++ rest) = (negative,rest) := by
  cases sign with
  | none => exact ⟨false,sign_unsigned unsigned⟩
  | one isSign =>
    simp only [Literal.isSign,Bool.or_eq_true,beq_iff_eq] at isSign
    rcases isSign with rfl | rfl
    · exact ⟨false,rfl⟩
    · exact ⟨true,rfl⟩

theorem Digits.head_not_sign {ds : List Char} (digits : Digits r ds) (rest : List Char)
    (next : ∀ c, rest.head? = some c → isSign c = false) :
    ∀ c, (ds ++ rest).head? = some c → isSign c = false := by
  intro c head
  cases ds with
  | nil => exact next c head
  | cons d ds =>
    cases head
    exact digits.not_sign List.mem_cons_self

/-- A signed run of digits denotes an integer unless it is empty. -/
theorem integer?_digits {sgn ds : List Char} (sign : SignPart sgn) (digits : Digits .decimal ds) :
    integer? .decimal (sgn ++ ds) = none ↔ ds = [] := by
  have unsigned := digits.head_not_sign [] (by simp)
  rw [List.append_nil] at unsigned
  obtain ⟨negative,split⟩ := sign_signPart sign unsigned
  obtain ⟨values,found,empty⟩ := decimal_digits? digits
  rw [← empty]
  simp only [integer?,split,found,Option.bind_eq_bind,Option.bind_some,List.isEmpty_iff]
  split
  next none => simp [none]
  next some => simp [some]

theorem wordLiteral?_eq_none {cs : List Char} : wordLiteral? r cs = none ↔
    integer? r cs = none ∨ (integer? r cs).any (fun n => !decide (InWord n)) = true := by
  rw [wordLiteral?]
  cases integer? r cs with
  | none => simp
  | some n => simp [word?]

/-- A decimal with a point denotes a float unless it has no digit at all. -/
theorem decimal?_point {sgn ds es : List Char} (sign : SignPart sgn) (whole : Digits .decimal ds)
    (part : Digits .decimal es) :
    decimal? (sgn ++ (ds ++ '.' :: es)) = none ↔ ds = [] ∧ es = [] := by
  have point : '.' ∉ ds := whole.absent (by decide)
  obtain ⟨negative,split⟩ :=
    sign_signPart sign (whole.head_not_sign ('.' :: es) (by simp [isSign]))
  have run : es.takeWhile Char.isDigit = es ∧ es.dropWhile Char.isDigit = [] :=
    ⟨List.takeWhile_eq_self_iff.mpr part.isDigit,List.dropWhile_eq_nil_iff.mpr part.isDigit⟩
  have both : Digits .decimal (ds ++ es) := by
    intro c member
    exact (List.mem_append.mp member).elim (whole c) (part c)
  obtain ⟨values,found,empty⟩ := decimal_digits? both
  rw [← List.append_eq_nil_iff,← empty]
  simp only [decimal?,split,splitAt?_append point,run,found,exponent?,Option.bind_eq_bind,
    Option.bind_some,List.isEmpty_iff]
  split
  next none => simp [none]
  next some => simp [some]

theorem SignPart.absent {sgn : List Char} (sign : SignPart sgn) {c : Char} (other : isSign c = false) :
    c ∉ sgn := by
  cases sign with
  | none => simp
  | one isSign =>
    rw [List.mem_singleton]
    rintro rfl
    rw [isSign] at other
    contradiction

theorem SignPart.append_absent {sgn ds : List Char} (sign : SignPart sgn) (digits : Digits r ds)
    {c : Char} (mark : isNumberMark c = true) (other : isSign c = false) : c ∉ sgn ++ ds := by
  rw [List.mem_append,not_or]
  exact ⟨sign.absent other,digits.absent mark⟩

theorem real?_digits {sgn ds : List Char} (sign : SignPart sgn) (digits : Digits .decimal ds) :
    real? .decimal (sgn ++ ds) = none ↔ ds = [] := by
  have noSlash : '/' ∉ sgn ++ ds := sign.append_absent digits rfl rfl
  have noPoint : '.' ∉ sgn ++ ds := sign.append_absent digits rfl rfl
  obtain ⟨negative,split⟩ := sign_signPart sign (by simpa using digits.head_not_sign [] (by simp))
  obtain ⟨values,found,-⟩ := decimal_digits? digits
  rw [real?,splitAt?_of_absent noSlash,← integer?_digits sign digits]
  simp only [List.contains_eq_mem,noPoint,decide_false,Bool.false_eq_true,if_false,wide?,split,found]
  cases integer? .decimal (sgn ++ ds) with
  | none => simp
  | some n =>
    simp only [Option.bind_eq_bind,Option.bind_some]
    split <;> simp

theorem real?_point {sgn ds es : List Char} (sign : SignPart sgn) (whole : Digits .decimal ds)
    (part : Digits .decimal es) :
    real? .decimal (sgn ++ (ds ++ '.' :: es)) = none ↔ ds = [] ∧ es = [] := by
  have noSlash : '/' ∉ sgn ++ (ds ++ '.' :: es) := by
    have left : '/' ∉ sgn ++ ds := sign.append_absent whole rfl rfl
    have right : '/' ∉ es := part.absent rfl
    simp_all
  have point : (sgn ++ (ds ++ '.' :: es)).contains '.' = true := by simp
  rw [real?,splitAt?_of_absent noSlash,← decimal?_point sign whole part]
  simp only [point,if_true]
  exact Option.map_eq_none_iff

theorem real?_slash {sgn ds es : List Char} (sign : SignPart sgn) (above : Digits .decimal ds) :
    real? .decimal (sgn ++ (ds ++ '/' :: es)) = none ↔
      wordLiteral? .decimal (sgn ++ ds) = none ∨ wordLiteral? .decimal es = none := by
  have noSlash : '/' ∉ sgn ++ ds := sign.append_absent above rfl rfl
  rw [real?,← List.append_assoc,splitAt?_append noSlash]
  dsimp only
  cases wordLiteral? .decimal (sgn ++ ds) <;> cases wordLiteral? .decimal es <;> simp

/-- No real literal denotes a complex number. -/
theorem real?_toFloat? {cs : List Char} {n : Number} (found : real? r cs = some n) :
    (n.toFloat?).isSome := by
  have float (x : Float) : ((Number.ofFloat x).toFloat?).isSome := by
    unfold Number.ofFloat
    split
    · rfl
    · split <;> rfl
  have ratio (num den : Int) : ((Number.quotient num den).toFloat?).isSome := by
    unfold Number.quotient
    split
    · split <;> rfl
    · unfold Number.ofRatio
      split <;> rfl
  rw [real?] at found
  split at found
  next num den _ =>
    cases above : wordLiteral? r num with
    | none => simp [above] at found
    | some a =>
      cases below : wordLiteral? r den with
      | none => simp [above,below] at found
      | some b =>
        simp only [above,below,Option.bind_eq_bind,Option.bind_some,Option.pure_def,
          Option.some.injEq] at found
        exact found ▸ ratio a b
  next =>
    split at found
    · obtain ⟨x,-,rfl⟩ := Option.map_eq_some_iff.mp found
      exact float x
    · cases value : integer? r cs with
      | none => simp [value] at found
      | some i =>
        simp only [value,Option.bind_eq_bind,Option.bind_some] at found
        split at found
        · cases found
          rfl
        · obtain ⟨x,-,rfl⟩ := Option.map_eq_some_iff.mp found
          exact float x

theorem splitSign?_none {c : Char} {cs : List Char} (unsigned : ∀ d ∈ cs, isSign d = false) :
    splitSign? (c :: cs) = none := by
  have inside : ∀ d ∈ cs.reverse, (!isSign d) = true := by
    intro d member
    rw [unsigned d (List.mem_reverse.mp member)]
    rfl
  rw [splitSign?,List.span_eq_takeWhile_dropWhile,List.dropWhile_eq_nil_iff.mpr inside]

/-- The sign that divides a literal is the last one that is not its first character. -/
theorem splitSign?_some {c s : Char} {left right : List Char} (sign : isSign s = true)
    (unsigned : ∀ d ∈ right, isSign d = false) :
    splitSign? (c :: left ++ s :: right) = some (c :: left,s :: right) := by
  have inside : ∀ d ∈ right.reverse, (!isSign d) = true := by
    intro d member
    rw [unsigned d (List.mem_reverse.mp member)]
    rfl
  have whole : (left ++ s :: right).reverse = right.reverse ++ s :: left.reverse := by simp
  have run : (right.reverse ++ s :: left.reverse).takeWhile (fun d => !isSign d) = right.reverse :=
    takeWhile_run inside (by simp [sign])
  have rest : (right.reverse ++ s :: left.reverse).dropWhile (fun d => !isSign d) =
      s :: left.reverse := by
    rw [List.dropWhile_append_of_pos inside]
    simp [sign]
  rw [List.cons_append,splitSign?,List.span_eq_takeWhile_dropWhile,whole,run,rest]
  simp

theorem imaginary?_eq_none {s : Char} {cs : List Char} (sign : isSign s = true) :
    imaginary? r (s :: cs) = none ↔ cs ≠ [] ∧ real? r (s :: cs) = none := by
  have bind : (real? r (s :: cs) >>= Number.toFloat?) = none ↔ real? r (s :: cs) = none := by
    cases found : real? r (s :: cs) with
    | none => simp
    | some n => simpa [found] using Option.isSome_iff_ne_none.mp (real?_toFloat? found)
  cases cs with
  | nil =>
    simp only [isSign,Bool.or_eq_true,beq_iff_eq] at sign
    rcases sign with rfl | rfl <;> simp [imaginary?]
  | cons c cs => simpa [imaginary?] using bind

/-- A complex literal has a value unless one of its parts is there and has none. -/
theorem complex?_eq_none {s : Char} {left right : List Char} (sign : isSign s = true)
    (unsigned : ∀ d ∈ right, isSign d = false) :
    complex? r (left ++ s :: right) = none ↔
      (left ≠ [] ∧ real? r left = none) ∨ (right ≠ [] ∧ real? r (s :: right) = none) := by
  rw [← imaginary?_eq_none sign]
  cases left with
  | nil =>
    rw [List.nil_append,complex?,splitSign?_none unsigned]
    cases imaginary? r (s :: right) <;> simp
  | cons c left =>
    rw [complex?,splitSign?_some sign unsigned]
    cases found : real? r (c :: left) with
    | none => simp [found]
    | some n =>
      obtain ⟨x,value⟩ := Option.isSome_iff_exists.mp (real?_toFloat? found)
      cases imaginary : imaginary? r (s :: right) <;> simp [found,value,imaginary]

end Literal
end MiniScheme
