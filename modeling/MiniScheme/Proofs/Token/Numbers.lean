import MiniScheme.Node.Build
import MiniScheme.Proofs.Number.Shape
import MiniScheme.Proofs.Token.Lawful

/-! Scanned numbers and their values. The shape that makes a word a number does not quite make it a
literal: a slash may have no digits next to it, and an imaginary part may be a point alone. Apart
from these, only a component of a fraction that fits in no word is without a value. -/
namespace MiniScheme

namespace Literal

open Lexeme

/-- The component that a text ends with: its last digits, and the sign in front of them. -/
def lastComponent (cs : List Char) : List Char :=
  let digits := (cs.reverse.takeWhile Char.isDigit).reverse
  match cs.reverse.dropWhile Char.isDigit with
  | [] => digits
  | c :: _ => if isSign c then c :: digits else digits

/-- The components on either side of a slash. -/
def besideSlash (w : List Char) : List (List Char) :=
  match w.span (· != '/') with
  | (_,[]) => []
  | (before,_ :: after) => [lastComponent before,after.takeWhile Char.isDigit]

/-- A component next to a slash has no digit. -/
def lacksDigits (w : List Char) : Bool := (besideSlash w).any fun c => !c.any Char.isDigit

/-- A component next to a slash fits in no word. -/
def overflows (w : List Char) : Bool :=
  (besideSlash w).any fun c => (integer? .decimal c).any fun n => !decide (InWord n)

/-- The imaginary part is a point without digits. -/
def isBarePoint (w : List Char) : Bool :=
  match w.reverse with
  | 'i' :: '.' :: c :: _ => isSign c
  | _ => false

/-- A number by its shape of which some part is no number. -/
def isMalformed (w : List Char) : Bool := lacksDigits w || isBarePoint w

theorem sign_isDigit {c : Char} (sign : isSign c = true) : c.isDigit = false := by
  rw [← decimal_isDigit]
  exact sign_not_digit sign

theorem SignPart.noDigit {sgn : List Char} (sign : SignPart sgn) : sgn.any Char.isDigit = false := by
  cases sign with
  | none => rfl
  | one sign => simp [sign_isDigit sign]

theorem besideSlash_absent {w : List Char} (absent : '/' ∉ w) : besideSlash w = [] := by
  have inside : ∀ c ∈ w, (c != '/') = true := by
    intro c member
    exact bne_iff_ne.mpr fun same => absent (same ▸ member)
  rw [besideSlash,List.span_eq_takeWhile_dropWhile,List.dropWhile_eq_nil_iff.mpr inside]

theorem lastComponent_eq {before sgn ds : List Char} (sign : SignPart sgn)
    (digits : Digits .decimal ds) (start : sgn = [] → before = []) :
    lastComponent (before ++ (sgn ++ ds)) = sgn ++ ds := by
  have inside : ∀ c ∈ ds.reverse, c.isDigit = true := by
    intro c member
    exact digits.isDigit c (List.mem_reverse.mp member)
  cases sign with
  | none =>
    rw [start rfl]
    simp [lastComponent,List.takeWhile_eq_self_iff.mpr inside,List.dropWhile_eq_nil_iff.mpr inside]
  | @one c sign =>
    have border := sign_isDigit sign
    have whole : (before ++ ([c] ++ ds)).reverse = ds.reverse ++ c :: before.reverse := by simp
    have run : (ds.reverse ++ c :: before.reverse).takeWhile Char.isDigit = ds.reverse :=
      takeWhile_run inside (by simp [border])
    have rest : (ds.reverse ++ c :: before.reverse).dropWhile Char.isDigit = c :: before.reverse := by
      rw [List.dropWhile_append_of_pos inside]
      simp [border]
    rw [lastComponent,whole,run,rest]
    simp [sign]

/-- The components next to a slash are what is read as numerator and denominator. -/
theorem besideSlash_eq {before sgn ds es after : List Char} (sign : SignPart sgn)
    (above : Digits .decimal ds) (below : Digits .decimal es) (start : sgn = [] → before = [])
    (noSlash : '/' ∉ before) (border : ∀ c, after.head? = some c → c.isDigit = false) :
    besideSlash (before ++ (sgn ++ ds) ++ '/' :: (es ++ after)) = [sgn ++ ds,es] := by
  have absent : '/' ∉ before ++ (sgn ++ ds) := by
    rw [List.mem_append,not_or]
    exact ⟨noSlash,sign.append_absent above rfl rfl⟩
  have inside : ∀ c ∈ before ++ (sgn ++ ds), (c != '/') = true := by
    intro c member
    exact bne_iff_ne.mpr fun same => absent (same ▸ member)
  have run : (before ++ (sgn ++ ds) ++ '/' :: (es ++ after)).takeWhile (· != '/') =
      before ++ (sgn ++ ds) := takeWhile_run inside (by simp)
  have rest : (before ++ (sgn ++ ds) ++ '/' :: (es ++ after)).dropWhile (· != '/') =
      '/' :: (es ++ after) := by
    rw [List.dropWhile_append_of_pos inside]
    simp
  rw [besideSlash,List.span_eq_takeWhile_dropWhile,run,rest]
  simp only [lastComponent_eq sign above start,takeWhile_run below.isDigit border]

/-- A component has no value that fits exactly if it has no digit or is too large. -/
theorem wordLiteral?_component {sgn ds : List Char} (sign : SignPart sgn)
    (digits : Digits .decimal ds) :
    wordLiteral? .decimal (sgn ++ ds) = none ↔ ((sgn ++ ds).any Char.isDigit = false ∨
      (integer? .decimal (sgn ++ ds)).any (fun n => !decide (InWord n)) = true) := by
  have empty : (sgn ++ ds).any Char.isDigit = false ↔ ds = [] := by
    rw [List.any_append,sign.noDigit,Bool.false_or]
    cases ds with
    | nil => simp
    | cons d ds => simp [digits.isDigit d List.mem_cons_self]
  rw [wordLiteral?_eq_none,integer?_digits sign digits,empty]

/-- What is wrong with a fraction is wrong with one of its two components. -/
theorem fraction_none {w sgn ds es : List Char} (sign : SignPart sgn) (above : Digits .decimal ds)
    (below : Digits .decimal es) (beside : besideSlash w = [sgn ++ ds,es])
    (noPoint : isBarePoint w = false) :
    (wordLiteral? .decimal (sgn ++ ds) = none ∨ wordLiteral? .decimal es = none) ↔
      (isMalformed w || overflows w) = true := by
  have lower := wordLiteral?_component .none below
  rw [List.nil_append] at lower
  rw [wordLiteral?_component sign above,lower,isMalformed,lacksDigits,overflows,beside,noPoint]
  simp only [List.any_cons,List.any_nil,Bool.or_false,Bool.or_eq_true,Bool.not_eq_true']
  tauto

theorem isBarePoint_of_last {w : List Char} (last : w.getLast? ≠ some 'i') :
    isBarePoint w = false := by
  rw [isBarePoint]
  split
  next shape =>
    rw [← List.head?_reverse,shape] at last
    contradiction
  next => rfl

theorem isBarePoint_complex {left right : List Char} {s : Char} (sign : isSign s = true)
    (unsigned : ∀ c ∈ right, isSign c = false) :
    isBarePoint (left ++ s :: right ++ ['i']) = true ↔ right = ['.'] := by
  have whole : (left ++ s :: right ++ ['i']).reverse = 'i' :: (right.reverse ++ s :: left.reverse) := by
    simp
  have turned : right = ['.'] ↔ right.reverse = ['.'] := by
    rw [List.reverse_eq_iff]
    rfl
  have inside : ∀ c ∈ right.reverse, isSign c = false := by simpa using unsigned
  rw [isBarePoint,whole,turned]
  generalize right.reverse = rest at inside
  cases rest with
  | nil =>
    have noPoint : s ≠ '.' := by
      rintro rfl
      exact absurd sign (by decide)
    simp [noPoint]
  | cons c rest =>
    by_cases point : c = '.'
    · subst point
      cases rest with
      | nil => simp [sign]
      | cons d rest =>
        have other := inside d (by simp)
        simp [other]
    · simp [point]

theorem Part.unsigned {r : Radix} {part : List Char} (shape : Part r part) :
    ∀ c ∈ part, isSign c = false := by
  intro c member
  cases shape with
  | digits digits => exact digits.not_sign member
  | point whole part | slash whole part =>
    rcases List.mem_append.mp member with left | right
    · exact whole.not_sign left
    · rcases List.mem_cons.mp right with rfl | right
      · rfl
      · exact part.not_sign right

theorem Digits.noSlash {ds : List Char} (digits : Digits .decimal ds) : '/' ∉ ds :=
  digits.absent rfl

theorem noSlash_complex {left right : List Char} {s : Char} (sign : isSign s = true)
    (before : '/' ∉ left) (after : '/' ∉ right) : '/' ∉ left ++ s :: right ++ ['i'] := by
  have apart : '/' ≠ s := by
    rintro rfl
    exact absurd sign (by decide)
  simp [before,after,apart]

/-- Without a slash only a bare point can be wrong. -/
theorem defects_noSlash {w : List Char} (noSlash : '/' ∉ w) :
    (isMalformed w || overflows w) = isBarePoint w := by
  simp [isMalformed,overflows,lacksDigits,besideSlash_absent noSlash]

/-- A literal without an imaginary unit. -/
theorem real?_none_iff {sgn part : List Char} (sign : SignPart sgn) (shape : Part .decimal part)
    (digit : (sgn ++ part).any Char.isDigit = true) (last : (sgn ++ part).getLast? ≠ some 'i') :
    real? .decimal (sgn ++ part) = none ↔
      (isMalformed (sgn ++ part) || overflows (sgn ++ part)) = true := by
  have noPoint := isBarePoint_of_last last
  rw [List.any_append,sign.noDigit,Bool.false_or] at digit
  have some : part ≠ [] := by rintro rfl; contradiction
  cases shape with
  | digits digits =>
    rw [real?_digits sign digits,defects_noSlash (sign.append_absent digits rfl rfl),noPoint]
    simp [some]
  | @point ds es whole part =>
    have noSlash : '/' ∉ sgn ++ (ds ++ '.' :: es) := by
      have left := sign.absent (c := '/') rfl
      simp [left,whole.noSlash,part.noSlash]
    have value : ¬(ds = [] ∧ es = []) := by
      rintro ⟨rfl,rfl⟩
      contradiction
    rw [real?_point sign whole part,defects_noSlash noSlash,noPoint]
    simp [value]
  | @slash ds es above below =>
    have beside : besideSlash ([] ++ (sgn ++ ds) ++ '/' :: (es ++ [])) = [sgn ++ ds,es] :=
      besideSlash_eq sign above below (fun _ => rfl) (by simp) (by simp)
    rw [List.nil_append,List.append_nil,List.append_assoc] at beside
    rw [real?_slash sign above,fraction_none sign above below beside noPoint]

/-- An imaginary part behind digits or nothing. -/
theorem complex?_none_right {left right : List Char} {s : Char} (sign : isSign s = true)
    (real : Digits .decimal left) (shape : Part .decimal right) :
    complex? .decimal (left ++ s :: right) = none ↔
      (isMalformed (left ++ s :: right ++ ['i']) || overflows (left ++ s :: right ++ ['i'])) = true := by
  have bare : isBarePoint (left ++ s :: right ++ ['i']) = true ↔ right = ['.'] :=
    isBarePoint_complex sign shape.unsigned
  have noLeft : ¬(left ≠ [] ∧ real? .decimal left = none) := by
    have none := real?_digits .none real
    rw [List.nil_append] at none
    rw [none]
    exact fun both => both.1 both.2
  rw [complex?_eq_none sign shape.unsigned,or_iff_right noLeft]
  cases shape with
  | digits digits =>
    have value : real? .decimal (s :: right) = none ↔ right = [] := real?_digits (.one sign) digits
    have noPoint : right ≠ ['.'] := by
      rintro rfl
      exact digits.absent (c := '.') rfl List.mem_cons_self
    rw [defects_noSlash (noSlash_complex sign real.noSlash digits.noSlash),bare,value]
    simp [noPoint]
  | @point ds es whole part =>
    have value : real? .decimal (s :: (ds ++ '.' :: es)) = none ↔ ds = [] ∧ es = [] :=
      real?_point (.one sign) whole part
    have noSlash : '/' ∉ ds ++ '.' :: es := by simp [whole.noSlash,part.noSlash]
    have alone : ds ++ '.' :: es = ['.'] ↔ ds = [] ∧ es = [] := by
      cases ds <;> simp
    rw [defects_noSlash (noSlash_complex sign real.noSlash noSlash),bare,value,alone]
    simp
  | @slash ds es above below =>
    have value : real? .decimal (s :: (ds ++ '/' :: es)) = none ↔
        wordLiteral? .decimal ([s] ++ ds) = none ∨ wordLiteral? .decimal es = none :=
      real?_slash (.one sign) above
    have split : besideSlash (left ++ ([s] ++ ds) ++ '/' :: (es ++ ['i'])) = [[s] ++ ds,es] :=
      besideSlash_eq (.one sign) above below (by simp) real.noSlash (by simp)
    have beside : besideSlash (left ++ s :: (ds ++ '/' :: es) ++ ['i']) = [[s] ++ ds,es] := by
      simpa using split
    have noPoint : isBarePoint (left ++ s :: (ds ++ '/' :: es) ++ ['i']) = false := by
      rw [Bool.eq_false_iff]
      intro found
      have alone := bare.mp found
      cases ds <;> simp at alone
    rw [value,← fraction_none (.one sign) above below beside noPoint]
    simp

/-- A real part with a mark, before an imaginary part of digits or nothing. -/
theorem complex?_none_left {left right : List Char} {s : Char} (sign : isSign s = true)
    (shape : Part .decimal left) (imaginary : Digits .decimal right)
    (digit : left.any Char.isDigit = true) :
    complex? .decimal (left ++ s :: right) = none ↔
      (isMalformed (left ++ s :: right ++ ['i']) || overflows (left ++ s :: right ++ ['i'])) = true := by
  have noPoint : isBarePoint (left ++ s :: right ++ ['i']) = false := by
    rw [Bool.eq_false_iff,ne_eq,isBarePoint_complex sign fun _ => imaginary.not_sign]
    rintro rfl
    exact imaginary.absent (c := '.') rfl List.mem_cons_self
  have noRight : ¬(right ≠ [] ∧ real? .decimal (s :: right) = none) := by
    have value : real? .decimal (s :: right) = none ↔ right = [] := real?_digits (.one sign) imaginary
    rw [value]
    exact fun both => both.1 both.2
  have some : left ≠ [] := by rintro rfl; contradiction
  rw [complex?_eq_none sign fun _ => imaginary.not_sign,or_iff_left noRight,and_iff_right some]
  cases shape with
  | digits digits =>
    have value := real?_digits .none digits
    rw [List.nil_append] at value
    rw [value,defects_noSlash (noSlash_complex sign digits.noSlash imaginary.noSlash),noPoint]
    simp [some]
  | @point ds es whole part =>
    have value : real? .decimal (ds ++ '.' :: es) = none ↔ ds = [] ∧ es = [] :=
      real?_point .none whole part
    have noSlash : '/' ∉ ds ++ '.' :: es := by simp [whole.noSlash,part.noSlash]
    have notEmpty : ¬(ds = [] ∧ es = []) := by
      rintro ⟨rfl,rfl⟩
      contradiction
    rw [value,defects_noSlash (noSlash_complex sign noSlash imaginary.noSlash),noPoint]
    simp [notEmpty]
  | @slash ds es above below =>
    have value : real? .decimal (ds ++ '/' :: es) = none ↔
        wordLiteral? .decimal ([] ++ ds) = none ∨ wordLiteral? .decimal es = none :=
      real?_slash .none above
    have border : ∀ c, (s :: right ++ ['i']).head? = Option.some c → c.isDigit = false := by
      rintro c ⟨⟩
      exact sign_isDigit sign
    have split : besideSlash ([] ++ ([] ++ ds) ++ '/' :: (es ++ (s :: right ++ ['i']))) =
        [[] ++ ds,es] := besideSlash_eq .none above below (fun _ => rfl) (by simp) border
    have beside : besideSlash (ds ++ '/' :: es ++ s :: right ++ ['i']) = [[] ++ ds,es] := by
      simpa using split
    rw [value,← fraction_none .none above below beside noPoint]

theorem mark_plain {w : List Char} (noMark : w.head? ≠ some '#') : mark w = (.decimal,w) := by
  unfold mark
  split
  next => simp at noMark
  next => rfl

/-- A real part starts with a digit, or with a point and a digit. -/
theorem startsNumber_left {left rest : List Char} {s : Char} (sign : isSign s = true)
    (shape : Part .decimal left) (some : left ≠ []) (start : startsNumber (left ++ s :: rest) = true) :
    left.any Char.isDigit = true := by
  cases left with
  | nil => contradiction
  | cons c left =>
    have noSign := shape.unsigned c List.mem_cons_self
    by_cases point : c = '.'
    · subst point
      cases left with
      | nil =>
        simp [startsNumber,sign_isDigit sign] at start
      | cons d left =>
        have digit : d.isDigit = true := start
        simp [digit]
    · rw [List.cons_append,startsNumber_cons point,noSign,Bool.false_or] at start
      simp [start]

theorem Part.noUnit {r : Radix} {part : List Char} (shape : Part r part) : 'i' ∉ part := by
  have noUnit {ds : List Char} (digits : Digits r ds) : 'i' ∉ ds := digits.absent rfl
  cases shape with
  | digits digits => exact noUnit digits
  | point whole part | slash whole part => simp [noUnit whole,noUnit part]

/-- A word of the shape of a number denotes none exactly if a component next to its slash has no
digit or fits in no word, or its imaginary part is a bare point. -/
theorem read?_eq_none_iff {w : List Char} (plain : isPlainNumber w = true) :
    read? w = none ↔ (isMalformed w || overflows w) = true := by
  simp only [isPlainNumber,Bool.and_eq_true,List.all_eq_true] at plain
  obtain ⟨⟨start,chars⟩,body⟩ := plain
  have counted := counted_of_body body
  have noMark : w.head? ≠ some '#' := by
    intro head
    have hash := chars '#' (List.mem_of_head? head)
    contradiction
  have digit : w.any Char.isDigit = true := by
    simpa using counted.digit
  rw [read?,mark_plain noMark,body?]
  cases counted.shape chars with
  | @real sgn part sign shape =>
    have last : (sgn ++ part).getLast? ≠ some 'i' := by
      intro unit
      have inside := List.mem_append.mp (List.mem_of_getLast? unit)
      exact inside.elim (sign.absent rfl) shape.noUnit
    rw [if_neg (fun both => last both.2),real?_none_iff sign shape digit last]
  | @complex left right s sign leftShape rightShape plainSide =>
    have last : (left ++ s :: right ++ ['i']).getLast? = some 'i' := List.getLast?_concat
    have unit : Radix.decimal ≠ .hexadecimal ∧ (left ++ s :: right ++ ['i']).getLast? = some 'i' :=
      ⟨Radix.noConfusion,last⟩
    rw [if_pos unit,List.dropLast_concat]
    rw [List.append_assoc,List.cons_append] at start
    rcases plainSide with leftDigits | rightDigits
    · exact complex?_none_right sign leftDigits rightShape
    · cases left with
      | nil => exact complex?_none_right sign (by simp [Digits]) rightShape
      | cons c left =>
        have first := startsNumber_left sign leftShape (List.cons_ne_nil c left) start
        exact complex?_none_left sign leftShape rightDigits first

/-- Words of the shape of a number that are none. -/
example : (["+/2","1/+2i","1+/2i","+1/i","1+.i"].all fun w =>
    isPlainNumber w.toList && isMalformed w.toList && !overflows w.toList) = true := by decide

end Literal

namespace Token

open Lexeme

mutual

/-- The numbers of a tree at any depth, each with its place. -/
def numbers : Token → List (String × Position)
  | atom .number text pos => [(text,pos)]
  | atom _ _ _ => []
  | list items _ => numbersAll items
  | quote _ inner _ => inner.numbers

def numbersAll : List Token → List (String × Position)
  | [] => []
  | token :: tokens => token.numbers ++ numbersAll tokens

end

mutual

theorem Lawful.numbers : (token : Token) → token.Lawful →
    ∀ entry ∈ token.numbers, AtomKind.number.admits entry.1 = true
  | atom kind text pos,lawful => by
    cases kind with
    | number =>
      intro entry member
      cases List.mem_singleton.mp member
      exact lawful
    | string | char | boolean | symbol | dot | sharp => simp [Token.numbers]
  | list items _,lawful => LawfulAll.numbers items lawful
  | quote .list inner _,lawful | quote .vector inner _,lawful => Lawful.numbers inner lawful.2

theorem LawfulAll.numbers : (tokens : List Token) → LawfulAll tokens →
    ∀ entry ∈ numbersAll tokens, AtomKind.number.admits entry.1 = true
  | [],_ => by simp [numbersAll]
  | token :: tokens,lawful => by
    intro entry member
    rcases List.mem_append.mp member with first | rest
    · exact Lawful.numbers token lawful.1 entry first
    · exact LawfulAll.numbers tokens lawful.2.2 entry rest

end

/-- The error that a number without a value gives. -/
def Rejected (entries : List (String × Position)) (e : SyntaxError) : Prop :=
  ∃ text pos, (text,pos) ∈ entries ∧ Number.parse? text = none ∧ e = ⟨.invalidNumber text,pos⟩

theorem Rejected.mono {few many : List (String × Position)} {e : SyntaxError}
    (rejected : Rejected few e) (subset : few ⊆ many) : Rejected many e := by
  obtain ⟨text,pos,member,rest⟩ := rejected
  exact ⟨text,pos,subset member,rest⟩

theorem ofAtom_error {kind : AtomKind} {text : String} {pos : Position} {e : SyntaxError}
    (admitted : kind.admits text = true) (failed : Node.ofAtom kind text pos = .error e) :
    Rejected (atom kind text pos).numbers e := by
  cases kind with
  | string | boolean | symbol | dot | sharp => contradiction
  | char =>
    rw [Node.ofAtom] at failed
    split at failed
    next => contradiction
    next empty => simp [AtomKind.admits,empty] at admitted
  | number =>
    rw [Node.ofAtom] at failed
    split at failed
    next => contradiction
    next none => exact ⟨text,pos,List.mem_singleton.mpr rfl,none,(Except.error.inj failed).symm⟩

mutual

/-- A tree of tokens fails to be a tree of nodes only at a number. -/
theorem ofToken_error {e : SyntaxError} : (token : Token) → token.Lawful →
    Node.ofToken token = .error e → Rejected token.numbers e
  | atom _ _ _,lawful,failed => ofAtom_error lawful failed
  | list items pos,lawful,failed => by
    rw [Node.ofToken] at failed
    cases inside : Node.ofTokens items with
    | ok nodes => simp [inside] at failed
    | error err =>
      rw [inside] at failed
      cases failed
      exact ofTokens_error items lawful inside
  | quote kind inner pos,lawful,failed => by
    rw [Node.ofToken] at failed
    have good : inner.Lawful := by cases kind <;> exact lawful.2
    cases inside : Node.ofToken inner with
    | ok node => simp [inside] at failed
    | error err =>
      rw [inside] at failed
      cases failed
      exact ofToken_error inner good inside

theorem ofTokens_error {e : SyntaxError} : (tokens : List Token) → LawfulAll tokens →
    Node.ofTokens tokens = .error e → Rejected (numbersAll tokens) e
  | [],_,failed => by contradiction
  | token :: tokens,lawful,failed => by
    rw [Node.ofTokens] at failed
    cases first : Node.ofToken token with
    | error err =>
      rw [first] at failed
      cases failed
      exact (ofToken_error token lawful.1 first).mono (List.subset_append_left ..)
    | ok node =>
      rw [first] at failed
      cases rest : Node.ofTokens tokens with
      | ok nodes =>
        rw [rest] at failed
        contradiction
      | error err =>
        rw [rest] at failed
        cases failed
        exact (ofTokens_error tokens lawful.2.2 rest).mono (List.subset_append_right ..)

end

/-- A run of digits and number marks without the shape of a number is a symbol. -/
theorem scan_unshaped {w : List Char} (start : startsNumber w = true)
    (chars : w.all (isNumberChar .decimal) = true) (shape : isNumberBody .decimal w = false)
    (source : Option String) :
    scan (.ofList w) source = .ok [.atom .symbol (.ofList w) (.start source)] := by
  have inside : ∀ c ∈ w, isSymbolChar c = true := fun c member =>
    numberChar_symbolChar (List.all_eq_true.mp chars c member)
  have symbol : isNumeric w = false := by simp [isNumeric,shape]
  have border : atEnd [] = true := rfl
  have spelled := spelled_word start inside border
  simp only [symbol] at spelled
  exact scan_atom spelled source

/-- Numbers of a scanned text and their values. One without a radix mark has a value unless a
component next to its slash has no digit or fits in no word, or its imaginary part is a bare point;
nothing else can be wrong with the tokens. -/
theorem scanned_numbers {text : String} {source : Option String} {tokens : List Token}
    (scanned : scan text source = .ok tokens) :
    (∀ word pos, (word,pos) ∈ numbersAll tokens → word.toList.head? ≠ some '#' →
      (Number.parse? word = none ↔
        (Literal.isMalformed word.toList || Literal.overflows word.toList) = true)) ∧
    (∀ e, Node.ofTokens tokens = .error e →
      ∃ word pos, (word,pos) ∈ numbersAll tokens ∧ e = ⟨.invalidNumber word,pos⟩ ∧
        (word.toList.head? = some '#' ∨ Literal.isMalformed word.toList = true ∨
          Literal.overflows word.toList = true)) ∧
    ∀ w, startsNumber w = true → w.all (isNumberChar .decimal) = true →
      isNumberBody .decimal w = false →
      scan (.ofList w) source = .ok [.atom .symbol (.ofList w) (.start source)] := by
  have lawful := scan_lawful scanned
  have values : ∀ word pos, (word,pos) ∈ numbersAll tokens → word.toList.head? ≠ some '#' →
      (Number.parse? word = none ↔
        (Literal.isMalformed word.toList || Literal.overflows word.toList) = true) := by
    intro word pos member noMark
    have admitted := LawfulAll.numbers tokens lawful _ member
    refine Literal.read?_eq_none_iff ?_
    rcases Bool.or_eq_true_iff.mp admitted with plain | marked
    · exact plain
    · unfold isMarkedNumber at marked
      split at marked
      next shape => simp [shape] at noMark
      next => contradiction
  refine ⟨values,?_,fun w start chars shape => scan_unshaped start chars shape source⟩
  intro e failed
  obtain ⟨word,pos,member,none,rfl⟩ := ofTokens_error tokens lawful failed
  refine ⟨word,pos,member,rfl,?_⟩
  by_cases mark : word.toList.head? = some '#'
  · exact .inl mark
  · exact .inr (Bool.or_eq_true_iff.mp ((values word pos member mark).mp none))

/-- Of two quotients in a quoted list, one fits and one does not. -/
theorem scanned_numbers_quotients :
    scan "'(1/2 9223372036854775808/3)" none = .ok [.quote .list (.list
      [.atom .number "1/2" ⟨1,3,none⟩,.atom .number "9223372036854775808/3" ⟨1,7,none⟩] ⟨1,2,none⟩)
        ⟨1,1,none⟩] ∧
    Number.parse? "1/2" ≠ none ∧ Number.parse? "9223372036854775808/3" = none ∧
    scan "1/2/3" none = .ok [.atom .symbol "1/2/3" ⟨1,1,none⟩] := by
  have scanned : scan "'(1/2 9223372036854775808/3)" none = .ok [.quote .list (.list
      [.atom .number "1/2" ⟨1,3,none⟩,.atom .number "9223372036854775808/3" ⟨1,7,none⟩] ⟨1,2,none⟩)
        ⟨1,1,none⟩] := rfl
  obtain ⟨values,-,symbols⟩ := scanned_numbers scanned
  refine ⟨scanned,?_,?_,symbols ['1','/','2','/','3'] rfl rfl rfl⟩
  · rw [ne_eq,values "1/2" ⟨1,3,none⟩ List.mem_cons_self (by decide)]
    decide
  · rw [values "9223372036854775808/3" ⟨1,7,none⟩ (by simp [numbersAll,numbers]) (by decide)]
    decide

/-- A sign alone stands before the slash, and still the word is no symbol. -/
theorem scan_bare_sign :
    scan "+/2" none = .ok [.atom .number "+/2" ⟨1,1,none⟩] ∧
    Literal.overflows "+/2".toList = false ∧
    Program.parse "+/2" none = .error ⟨.invalidNumber "+/2",⟨1,1,none⟩⟩ := by
  exact ⟨rfl,by decide,rfl⟩

end Token
end MiniScheme
