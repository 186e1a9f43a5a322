import Mathlib.Data.List.TakeWhile
import MiniScheme.Token.Lexeme

/-! The lexical grammar. `Spelled` says which characters spell which lexeme and what may follow
them, without reference to how lexemes are read; `read_eq_ok_iff` says that reading accepts
exactly these spellings. -/
namespace MiniScheme

namespace Lexeme

def splitters : List Char := [' ','\n','\t','\r','\x0c','(','[',')',']']

theorem isSplitter_iff {c : Char} : isSplitter c = true ↔ c ∈ splitters := by
  simp [isSplitter,isBlank,isOpener,isCloser,splitters,or_assoc]

/-- Digits of a radix and the marks of numbers. -/
def isNumberChar (r : Radix) (c : Char) : Bool := r.isDigit c || isNumberMark c

theorem splitter_not_symbolChar {c : Char} (split : isSplitter c = true) : isSymbolChar c = false := by
  have checked : splitters.all (fun d => !isSymbolChar d) = true := by decide
  simpa using List.all_eq_true.mp checked c (isSplitter_iff.mp split)

theorem splitter_not_numberChar (r : Radix) {c : Char} (split : isSplitter c = true) :
    isNumberChar r c = false := by
  have checked : splitters.all (fun d => !isNumberChar r d) = true := by cases r <;> decide
  simpa using List.all_eq_true.mp checked c (isSplitter_iff.mp split)

theorem isDigit_bounds {c : Char} : c.isDigit = true ↔ 48 ≤ c.toNat ∧ c.toNat ≤ 57 := by
  simp only [Char.isDigit,Char.toNat,ge_iff_le,Bool.and_eq_true,decide_eq_true_eq,
    UInt32.le_iff_toNat_le]
  rfl

/-- Letters count from ten, so none of them is a decimal digit. -/
@[simp] theorem decimal_isDigit (c : Char) : Radix.decimal.isDigit c = c.isDigit := by
  unfold Radix.isDigit Radix.digit? Radix.digitValue?
  have letters (n : Nat) : ¬n + 10 < 10 := by omega
  cases digit : c.isDigit with
  | true =>
    have bounds := isDigit_bounds.mp digit
    have small : c.toNat - 48 < 10 := by omega
    simp [Radix.base,small]
  | false =>
    simp only [Bool.false_eq_true,if_false,Radix.base]
    split
    · simp [letters]
    · split <;> simp [letters]

theorem digit_symbolChar {c : Char} (digit : c.isDigit = true) : isSymbolChar c = true := by
  simp [isSymbolChar,Char.isAlphanum,digit]

theorem numberMark_symbolChar {c : Char} (mark : isNumberMark c = true) : isSymbolChar c = true := by
  simp only [isNumberMark,Literal.isSign,Bool.or_eq_true,beq_iff_eq] at mark
  obtain ((rfl | rfl | rfl) | rfl) | rfl := mark <;> decide

theorem numberChar_symbolChar {c : Char} (number : isNumberChar .decimal c = true) :
    isSymbolChar c = true := by
  simp only [isNumberChar,decimal_isDigit,Bool.or_eq_true] at number
  rcases number with digit | mark
  · exact digit_symbolChar digit
  · exact numberMark_symbolChar mark

/-- The longest run of a class is all of `body`, if what follows starts outside the class. -/
theorem takeWhile_run {p : Char → Bool} {body rest : List Char} (inside : ∀ c ∈ body, p c = true)
    (stop : ∀ c, rest.head? = some c → p c = false) : (body ++ rest).takeWhile p = body := by
  rw [List.takeWhile_append_of_pos inside]
  cases rest with
  | nil => simp
  | cons c cs => simp [stop c rfl]

/-- Nothing but a splitter ends a run of a class without splitters. -/
theorem stop_of_atEnd {p : Char → Bool} {rest : List Char}
    (outside : ∀ c, isSplitter c = true → p c = false) (border : atEnd rest = true) :
    ∀ c, rest.head? = some c → p c = false := by
  intro c head
  cases rest with
  | nil => contradiction
  | cons d ds =>
    cases head
    exact outside c border

theorem run_split (p : Char → Bool) (cs : List Char) :
    cs = cs.takeWhile p ++ cs.drop (cs.takeWhile p).length ∧ ∀ c ∈ cs.takeWhile p, p c = true :=
  ⟨(List.prefix_iff_eq_append.mp (List.takeWhile_prefix p)).symm,
    fun _ member => List.mem_takeWhile_imp member⟩

/-- A word that is taken for a number if its shape allows: it starts with a digit, a sign, or a
point and a digit. -/
def startsNumber : List Char → Bool
  | '.' :: c :: _ => c.isDigit
  | c :: _ => Literal.isSign c || c.isDigit
  | [] => false

def isPlainNumber (w : List Char) : Bool :=
  startsNumber w && w.all (isNumberChar .decimal) && isNumberBody .decimal w

def isMarkedNumber : List Char → Bool
  | '#' :: c :: body =>
    (Radix.ofMark? c).any fun r => body.all (isNumberChar r) && isNumberBody r body
  | _ => false

/-- Symbol characters that start neither a quotation nor a number, and are no lone point. -/
def isSymbolWord (w : List Char) : Bool :=
  w.all isSymbolChar && !w.isEmpty && w != ['.'] && !w.head?.any isQuoteMark && !isPlainNumber w

/-- A character as it stands inside a string. -/
def escaped (c : Char) : List Char := if c == '\\' || c == '"' then ['\\',c] else [c]

end Lexeme

namespace AtomKind

open Lexeme

/-- The texts that atoms of a kind can have. -/
def admits (kind : AtomKind) (text : String) : Bool :=
  match kind with
  | number => isPlainNumber text.toList || isMarkedNumber text.toList
  | string => true
  | char => text.toList.length == 1
  | boolean => text.toList == ['#','t'] || text.toList == ['#','f']
  | symbol => isSymbolWord text.toList
  | dot => text.toList == ['.']
  | sharp => text.toList == ['#']

/-- How an atom is written. -/
def spelling (kind : AtomKind) (text : String) : List Char :=
  match kind with
  | char => '#' :: '\\' :: text.toList
  | string => '"' :: text.toList.flatMap escaped ++ ['"']
  | _ => text.toList

/-- What may follow an atom. -/
def border (kind : AtomKind) (rest : List Char) : Bool :=
  match kind with
  | dot => rest.head?.any isSplitter
  | sharp => rest.head?.any isOpener
  | _ => atEnd rest

end AtomKind

namespace Bracket

def openingChar : Bracket → Char
  | round => '('
  | square => '['

def closingChar : Bracket → Char
  | round => ')'
  | square => ']'

end Bracket

namespace Lexeme

/-- `Spelled word lexeme rest`: the characters `word` spell `lexeme` when `rest` follows. -/
inductive Spelled : List Char → Lexeme → List Char → Prop where
  | blank {c : Char} {rest : List Char} : isBlank c = true → Spelled [c] .gap rest
  | comment {text rest : List Char} : (∀ c ∈ text, c ≠ '\n') →
      (∀ c, rest.head? = some c → c = '\n') → Spelled (';' :: text) .gap rest
  | opener (b : Bracket) {rest : List Char} : Spelled [b.openingChar] (.opener b) rest
  | closer (b : Bracket) {rest : List Char} : Spelled [b.closingChar] (.closer b) rest
  | quoteMark {c : Char} {rest : List Char} : isQuoteMark c = true → Spelled [c] .quoteMark rest
  | atom {kind : AtomKind} {text : String} {rest : List Char} : kind.admits text = true →
      kind.border rest = true → Spelled (kind.spelling text) (.atom kind text) rest

variable {cs : List Char} {r : Reading}

theorem readSymbol_eq_ok_iff : readSymbol cs = .ok r ↔
    ∃ w rest, cs = w ++ rest ∧ (∀ c ∈ w, isSymbolChar c = true) ∧ atEnd rest = true ∧
      r = ⟨.atom .symbol (.ofList w),w.length⟩ := by
  constructor
  · intro result
    obtain ⟨split,inside⟩ := run_split isSymbolChar cs
    simp only [readSymbol] at result
    split at result
    next border => exact ⟨_,_,split,inside,border,(Except.ok.inj result).symm⟩
    next => contradiction
  · rintro ⟨w,rest,rfl,inside,border,rfl⟩
    have run := takeWhile_run inside (stop_of_atEnd (fun _ => splitter_not_symbolChar) border)
    simp [readSymbol,run,border]

/-- Whether a word is a number by its characters and its shape. -/
def isNumeric (w : List Char) : Bool :=
  w.all (isNumberChar .decimal) && isNumberBody .decimal w

theorem numberBody_append {w rest : List Char} (border : atEnd rest = true) :
    numberBody .decimal (w ++ rest) = w.takeWhile (isNumberChar .decimal) := by
  have stop : ([] ++ rest).takeWhile (isNumberChar .decimal) = [] :=
    takeWhile_run (by simp) (stop_of_atEnd (fun _ => splitter_not_numberChar _) border)
  change (w ++ rest).takeWhile (isNumberChar .decimal) = _
  rw [List.nil_append] at stop
  rw [List.takeWhile_append,stop,List.append_nil]
  split
  next whole => exact ((List.takeWhile_prefix _).eq_of_length whole).symm
  next => rfl

theorem numberBody_numeric {w rest : List Char} (border : atEnd rest = true)
    (numeric : isNumeric w = true) : numberBody .decimal (w ++ rest) = w := by
  rw [numberBody_append border,List.takeWhile_eq_self_iff]
  simp only [isNumeric,Bool.and_eq_true,List.all_eq_true] at numeric
  exact numeric.1

theorem atEnd_not_symbol {rest : List Char} (border : atEnd rest = true) :
    rest.head?.any isSymbolChar = false := by
  cases rest with
  | nil => rfl
  | cons c cs => exact splitter_not_symbolChar border

/-- A word that looks like a number is read whole, as a number if it is one and as a symbol
otherwise: the second reading covers the same characters as the first. -/
theorem readNumber_eq_ok_iff : readNumber cs = .ok r ↔
    ∃ w rest, cs = w ++ rest ∧ (∀ c ∈ w, isSymbolChar c = true) ∧ atEnd rest = true ∧
      r = ⟨.atom (if isNumeric w then .number else .symbol) (.ofList w),w.length⟩ := by
  constructor
  · intro result
    simp only [readNumber] at result
    split at result
    next fallback =>
      obtain ⟨w,rest,rfl,inside,border,rfl⟩ := readSymbol_eq_ok_iff.mp result
      have other : isNumeric w = false := by
        by_contra numeric
        rw [Bool.not_eq_false] at numeric
        have shape := numeric
        simp only [isNumeric,Bool.and_eq_true] at shape
        rw [numberBody_numeric border numeric,List.drop_left,shape.2,atEnd_not_symbol border] at fallback
        contradiction
      exact ⟨w,rest,rfl,inside,border,by rw [other]; rfl⟩
    next number =>
      split at result
      next border =>
        obtain ⟨split,inside⟩ := run_split (isNumberChar .decimal) cs
        refine ⟨_,_,split,fun c member => numberChar_symbolChar (inside c member),border,?_⟩
        simp only [Bool.or_eq_true,Bool.not_eq_true',not_or,Bool.not_eq_false] at number
        have numeric : isNumeric (cs.takeWhile (isNumberChar .decimal)) = true := by
          rw [isNumeric,List.all_takeWhile,Bool.true_and]
          exact number.1
        rw [numeric]
        exact (Except.ok.inj result).symm
      next => contradiction
  · rintro ⟨w,rest,rfl,inside,border,rfl⟩
    cases numeric : isNumeric w with
    | true =>
      have shape := numeric
      simp only [isNumeric,Bool.and_eq_true] at shape
      simp only [readNumber,numberBody_numeric border numeric,List.drop_left,shape.2,
        atEnd_not_symbol border,border]
      rfl
    | false =>
      -- either the run of number characters stops inside the word, or its shape is wrong
      have fallback : (!isNumberBody .decimal (numberBody .decimal (w ++ rest)) ||
          ((w ++ rest).drop (numberBody .decimal (w ++ rest)).length).head?.any isSymbolChar) = true := by
        rw [numberBody_append border]
        obtain ⟨split,-⟩ := run_split (isNumberChar .decimal) w
        cases left : w.drop (w.takeWhile (isNumberChar .decimal)).length with
        | nil =>
          rw [left,List.append_nil] at split
          rw [isNumeric,split,List.all_takeWhile,Bool.true_and,← split] at numeric
          rw [← split,numeric]
          rfl
        | cons c cs =>
          have member : c ∈ w := List.mem_of_mem_drop (left ▸ List.mem_cons_self)
          have short : (w.takeWhile (isNumberChar .decimal)).length ≤ w.length :=
            (List.takeWhile_prefix _).length_le
          rw [List.drop_append_of_le_length short,left]
          simp [inside c member]
      simp only [readNumber,fallback]
      exact readSymbol_eq_ok_iff.mpr ⟨w,rest,rfl,inside,border,rfl⟩

theorem readMarkedNumber_eq_ok_iff {radix : Radix} {mark : List Char} :
    readMarkedNumber radix mark cs = .ok r ↔
      ∃ body rest, cs = body ++ rest ∧ body.all (isNumberChar radix) = true ∧
        isNumberBody radix body = true ∧ atEnd rest = true ∧
        r = ⟨.atom .number (.ofList (mark ++ body)),mark.length + body.length⟩ := by
  constructor
  · intro result
    obtain ⟨split,inside⟩ := run_split (isNumberChar radix) cs
    simp only [readMarkedNumber] at result
    split at result
    next whole =>
      rw [Bool.and_eq_true] at whole
      exact ⟨_,_,split,List.all_takeWhile,whole.1,whole.2,(Except.ok.inj result).symm⟩
    next => contradiction
  · rintro ⟨body,rest,rfl,inside,shape,border,rfl⟩
    have run : numberBody radix (body ++ rest) = body :=
      takeWhile_run (List.all_eq_true.mp inside)
        (stop_of_atEnd (fun _ => splitter_not_numberChar radix) border)
    simp [readMarkedNumber,run,shape,border]

theorem extend_eq_ok {c : Char} {width size : Nat} {text : List Char}
    {inner : Except (List Char) (List Char × Nat)} (extended : extend c width inner = .ok (text,size)) :
    ∃ tail n, inner = .ok (tail,n) ∧ text = c :: tail ∧ size = n + width := by
  cases inner with
  | error found => contradiction
  | ok found =>
    cases extended
    exact ⟨_,_,rfl,rfl,rfl⟩

theorem stringBody_escaped (c : Char) (cs : List Char) :
    stringBody (escaped c ++ cs) = extend c (escaped c).length (stringBody cs) := by
  by_cases special : (c == '\\' || c == '"') = true
  · simp [escaped,special,stringBody]
  · have plain : c ≠ '\\' ∧ c ≠ '"' := by simpa using special
    simp only [escaped,special]
    change stringBody (c :: cs) = _
    rw [stringBody]
    · rfl
    · exact plain.2
    · intro backslash
      exact absurd backslash plain.1
    · intro _ _ backslash
      exact absurd backslash plain.1

/-- A string ends at the first quote that no backslash escapes. -/
theorem stringBody_eq_ok_iff {text : List Char} {size : Nat} :
    stringBody cs = .ok (text,size) ↔
      ∃ rest, cs = text.flatMap escaped ++ '"' :: rest ∧ size = (text.flatMap escaped).length + 1 := by
  constructor
  · intro result
    induction cs using stringBody.induct generalizing text size with
    | case1 => contradiction
    | case2 rest => cases result; exact ⟨rest,rfl,rfl⟩
    | case3 => contradiction
    | case4 c cs special ih =>
      rw [stringBody,if_pos special] at result
      obtain ⟨tail,n,body,rfl,rfl⟩ := extend_eq_ok result
      obtain ⟨rest,rfl,rfl⟩ := ih body
      exact ⟨rest,by simp [escaped,special],by simp [escaped,special]⟩
    | case5 c cs plain =>
      rw [stringBody,if_neg plain] at result
      contradiction
    | case6 c cs noQuote atLast before ih =>
      have noBackslash : c ≠ '\\' := by
        rintro rfl
        cases cs with
        | nil => exact atLast rfl rfl
        | cons d ds => exact before d ds rfl rfl
      have noQuote : c ≠ '"' := noQuote
      have plain : escaped c = [c] := by simp [escaped,noBackslash,noQuote]
      rw [← List.singleton_append,← plain,stringBody_escaped] at result
      obtain ⟨tail,n,body,rfl,rfl⟩ := extend_eq_ok result
      obtain ⟨rest,rfl,rfl⟩ := ih body
      exact ⟨rest,by simp [plain],by simp [plain]⟩
  · rintro ⟨rest,rfl,rfl⟩
    induction text with
    | nil => rfl
    | cons c text ih =>
      rw [List.flatMap_cons,List.append_assoc,stringBody_escaped,ih,List.length_append]
      simp only [extend]
      congr 2
      omega

theorem closed_eq_ok_iff {lexeme : Lexeme} {size : Nat} {rest : List Char} :
    closed lexeme size rest = .ok r ↔ atEnd rest = true ∧ r = ⟨lexeme,size⟩ := by
  cases rest with
  | nil => simp [closed,atEnd,eq_comm]
  | cons c cs =>
    simp only [closed,atEnd]
    split
    next split => simp [split,eq_comm]
    next inside => simp [inside]

theorem drop_past (before rest : List Char) (c : Char) :
    (before ++ c :: rest).drop (before.length + 1) = rest := by
  simp

theorem readString_eq_ok_iff : readString cs = .ok r ↔
    ∃ text rest, cs = text.flatMap escaped ++ '"' :: rest ∧ atEnd rest = true ∧
      r = ⟨.atom .string (.ofList text),(text.flatMap escaped).length + 2⟩ := by
  unfold readString
  constructor
  · intro result
    split at result
    · contradiction
    next text size body =>
      obtain ⟨rest,rfl,rfl⟩ := stringBody_eq_ok_iff.mp body
      obtain ⟨border,rfl⟩ := closed_eq_ok_iff.mp result
      rw [drop_past] at border
      exact ⟨text,rest,rfl,border,rfl⟩
  · rintro ⟨text,rest,rfl,border,rfl⟩
    rw [stringBody_eq_ok_iff.mpr ⟨rest,rfl,rfl⟩]
    exact closed_eq_ok_iff.mpr ⟨by rwa [drop_past],rfl⟩

theorem readBoolean_eq_ok_iff {c : Char} : readBoolean c cs = .ok r ↔
    atEnd cs = true ∧ r = ⟨.atom .boolean (.ofList ['#',c]),2⟩ := by
  unfold readBoolean
  split
  next border => simp [border,eq_comm]
  next inside => simp [inside,here]

theorem readChar_eq_ok_iff : readChar cs = .ok r ↔
    ∃ c rest, cs = c :: rest ∧ atEnd rest = true ∧ r = ⟨.atom .char c.toString,3⟩ := by
  cases cs with
  | nil => simp [readChar,here]
  | cons c rest =>
    rw [readChar,closed_eq_ok_iff]
    constructor
    · rintro ⟨border,rfl⟩
      exact ⟨c,rest,rfl,border,rfl⟩
    · rintro ⟨d,more,same,border,rfl⟩
      cases same
      exact ⟨border,rfl⟩

/-- What a successful reading amounts to. -/
def Accepts (cs : List Char) (r : Reading) : Prop :=
  ∃ word rest, cs = word ++ rest ∧ r.size = word.length ∧ Spelled word r.lexeme rest

theorem accepts_atom {kind : AtomKind} {text : String} {rest : List Char} {size : Nat}
    (admitted : kind.admits text = true) (border : kind.border rest = true)
    (whole : cs = kind.spelling text ++ rest) (width : size = (kind.spelling text).length) :
    Accepts cs ⟨.atom kind text,size⟩ :=
  ⟨kind.spelling text,rest,whole,width,.atom admitted border⟩

theorem startsNumber_cases {w : List Char} (start : startsNumber w = true) :
    w ≠ [] ∧ w ≠ ['.'] ∧ w.head?.any isQuoteMark = false := by
  unfold startsNumber at start
  split at start
  next => simp [isQuoteMark]
  next c cs _ =>
    refine ⟨by simp,?_,?_⟩
    · rintro ⟨⟩
      contradiction
    · by_contra quote
      rw [Bool.not_eq_false] at quote
      simp only [List.head?_cons,Option.any_some,isQuoteMark,Bool.or_eq_true,beq_iff_eq] at quote
      obtain rfl | rfl := quote <;> contradiction
  next => contradiction

theorem isPlainNumber_eq {w : List Char} : isPlainNumber w = (startsNumber w && isNumeric w) := by
  rw [isPlainNumber,isNumeric,Bool.and_assoc]

/-- A word that starts like a number is an atom whatever its shape. -/
theorem accepts_word {w rest : List Char} (start : startsNumber w = true)
    (inside : ∀ c ∈ w, isSymbolChar c = true) (border : atEnd rest = true) :
    Accepts (w ++ rest) ⟨.atom (if isNumeric w then .number else .symbol) (.ofList w),w.length⟩ := by
  cases numeric : isNumeric w with
  | true =>
    refine accepts_atom ?_ border ?_ ?_
    · simp [AtomKind.admits,isPlainNumber_eq,start,numeric]
    · simp [AtomKind.spelling]
    · simp [AtomKind.spelling]
  | false =>
    obtain ⟨nonempty,noPoint,noQuote⟩ := startsNumber_cases start
    have symbols : w.all isSymbolChar = true := List.all_eq_true.mpr inside
    refine accepts_atom ?_ border ?_ ?_
    · simp [AtomKind.admits,isSymbolWord,isPlainNumber_eq,symbols,numeric,nonempty,noPoint,noQuote]
    · simp [AtomKind.spelling]
    · simp [AtomKind.spelling]

/-- A word that starts like a number spells that atom before anything that ends words. -/
theorem spelled_word {w rest : List Char} (start : startsNumber w = true)
    (inside : ∀ c ∈ w, isSymbolChar c = true) (border : atEnd rest = true) :
    Spelled w (.atom (if isNumeric w then .number else .symbol) (.ofList w)) rest := by
  obtain ⟨word,more,whole,size,spelled⟩ := accepts_word start inside border
  obtain ⟨rfl,rfl⟩ := List.append_inj whole size
  exact spelled

theorem readSharp_accepts (result : readSharp cs = .ok r) : Accepts ('#' :: cs) r := by
  cases cs with
  | nil => contradiction
  | cons c rest =>
    simp only [readSharp] at result
    split at result
    next letter =>
      obtain ⟨border,rfl⟩ := readBoolean_eq_ok_iff.mp result
      simp only [Bool.or_eq_true,beq_iff_eq] at letter
      refine accepts_atom ?_ border ?_ ?_
      · obtain rfl | rfl := letter <;> decide
      · simp [AtomKind.spelling]
      · simp [AtomKind.spelling]
    next =>
    split at result
    next backslash =>
      obtain ⟨d,more,rfl,border,rfl⟩ := readChar_eq_ok_iff.mp result
      rw [beq_iff_eq] at backslash
      refine accepts_atom ?_ border ?_ ?_
      · simp [AtomKind.admits]
      · simp [AtomKind.spelling,backslash]
      · simp [AtomKind.spelling]
    next =>
    split at result
    next bracket =>
      cases result
      have border : AtomKind.sharp.border (c :: rest) = true := bracket
      exact accepts_atom rfl border rfl rfl
    next =>
    split at result
    next radix mark =>
      obtain ⟨body,more,rfl,inside,shape,border,rfl⟩ := readMarkedNumber_eq_ok_iff.mp result
      refine accepts_atom ?_ border ?_ ?_
      · simp [AtomKind.admits,isMarkedNumber,mark,inside,shape]
      · simp [AtomKind.spelling]
      · simp [AtomKind.spelling]
        omega
    next => contradiction

theorem symbolChar_not_splitter {c : Char} (inside : isSymbolChar c = true) : isSplitter c = false := by
  by_contra split
  rw [Bool.not_eq_false] at split
  rw [splitter_not_symbolChar split] at inside
  contradiction

/-- A word that ends at a splitter covers every character before it. -/
theorem word_covers {c : Char} {w rest : List Char} (whole : c :: cs = w ++ rest)
    (border : atEnd rest = true) (inside : isSymbolChar c = true) :
    ∃ tail, w = c :: tail ∧ cs = tail ++ rest := by
  cases w with
  | nil =>
    rw [List.nil_append] at whole
    rw [← whole,atEnd,symbolChar_not_splitter inside] at border
    contradiction
  | cons d tail =>
    cases whole
    exact ⟨tail,rfl,rfl⟩

theorem readDot_accepts (result : readDot cs = .ok r) : Accepts ('.' :: cs) r := by
  cases cs with
  | nil => contradiction
  | cons c cs =>
    have point : isSymbolChar '.' = true := by decide
    simp only [readDot] at result
    split at result
    next digit =>
      obtain ⟨w,rest,whole,inside,border,rfl⟩ := readNumber_eq_ok_iff.mp result
      obtain ⟨tail,rfl,more⟩ := word_covers whole border point
      obtain ⟨tail,rfl,-⟩ := word_covers more border (digit_symbolChar digit)
      rw [whole]
      exact accepts_word digit inside border
    next noDigit =>
    split at result
    next split =>
      cases result
      have border : AtomKind.dot.border (c :: cs) = true := split
      exact accepts_atom rfl border rfl rfl
    next =>
    split at result
    next symbol =>
      obtain ⟨w,rest,whole,inside,border,rfl⟩ := readSymbol_eq_ok_iff.mp result
      obtain ⟨tail,rfl,more⟩ := word_covers whole border point
      obtain ⟨tail,rfl,-⟩ := word_covers more border symbol
      have symbols : ('.' :: c :: tail).all isSymbolChar = true := List.all_eq_true.mpr inside
      have noNumber : startsNumber ('.' :: c :: tail) = false := by simpa [startsNumber] using noDigit
      rw [whole]
      refine accepts_atom ?_ border ?_ ?_
      · simp only [AtomKind.admits,isSymbolWord,String.toList_ofList,symbols,isPlainNumber_eq,noNumber]
        rfl
      · simp [AtomKind.spelling]
      · simp [AtomKind.spelling]
    next => contradiction

theorem startsNumber_cons {c : Char} (noPoint : c ≠ '.') :
    startsNumber (c :: cs) = (Literal.isSign c || c.isDigit) := by
  unfold startsNumber
  split
  next same => cases same; contradiction
  next same => cases same; rfl
  next same => contradiction

theorem comment_accepts (result : comment cs = .ok r) : Accepts (';' :: cs) r := by
  cases result
  refine ⟨';' :: cs.takeWhile (· != '\n'),cs.dropWhile (· != '\n'),?_,?_,.comment ?_ ?_⟩
  · rw [List.cons_append,List.takeWhile_append_dropWhile]
  · simp [Nat.add_comm]
  · intro c member
    simpa using List.mem_takeWhile_imp member
  · intro c head
    have stop := List.head?_dropWhile_not (· != '\n') cs
    rw [head] at stop
    simpa using stop

theorem numberStart_symbolChar {c : Char} (start : (Literal.isSign c || c.isDigit) = true) :
    isSymbolChar c = true := by
  rw [Bool.or_eq_true] at start
  rcases start with sign | digit
  · exact numberMark_symbolChar (by simp [isNumberMark,sign])
  · exact digit_symbolChar digit

/-- One case for each branch of the reader. -/
theorem read_accepts {c : Char} (result : read c cs = .ok r) : Accepts (c :: cs) r := by
  rw [read] at result
  by_cases blank : isBlank c = true
  · rw [if_pos blank] at result
    cases result
    exact ⟨[c],cs,rfl,rfl,.blank blank⟩
  rw [if_neg blank] at result
  by_cases semicolon : c = ';'
  · subst semicolon
    exact comment_accepts result
  rw [if_neg (by simpa using semicolon)] at result
  by_cases roundOpener : c = '('
  · subst roundOpener
    cases result
    exact ⟨_,cs,rfl,rfl,.opener .round⟩
  rw [if_neg (by simpa using roundOpener)] at result
  by_cases squareOpener : c = '['
  · subst squareOpener
    cases result
    exact ⟨_,cs,rfl,rfl,.opener .square⟩
  rw [if_neg (by simpa using squareOpener)] at result
  by_cases roundCloser : c = ')'
  · subst roundCloser
    cases result
    exact ⟨_,cs,rfl,rfl,.closer .round⟩
  rw [if_neg (by simpa using roundCloser)] at result
  by_cases squareCloser : c = ']'
  · subst squareCloser
    cases result
    exact ⟨_,cs,rfl,rfl,.closer .square⟩
  rw [if_neg (by simpa using squareCloser)] at result
  by_cases point : c = '.'
  · subst point
    exact readDot_accepts result
  rw [if_neg (by simpa using point)] at result
  by_cases numeric : (Literal.isSign c || c.isDigit) = true
  · rw [if_pos numeric] at result
    obtain ⟨w,rest,whole,inside,border,rfl⟩ := readNumber_eq_ok_iff.mp result
    obtain ⟨tail,rfl,-⟩ := word_covers whole border (numberStart_symbolChar numeric)
    rw [whole]
    exact accepts_word (by rwa [startsNumber_cons point]) inside border
  rw [if_neg numeric] at result
  by_cases quote : c = '"'
  · subst quote
    obtain ⟨text,rest,rfl,border,rfl⟩ := readString_eq_ok_iff.mp result
    refine accepts_atom rfl border ?_ ?_
    · simp [AtomKind.spelling]
    · simp [AtomKind.spelling]
  rw [if_neg (by simpa using quote)] at result
  by_cases sharp : c = '#'
  · subst sharp
    exact readSharp_accepts result
  rw [if_neg (by simpa using sharp)] at result
  by_cases mark : isQuoteMark c = true
  · rw [if_pos mark] at result
    cases result
    exact ⟨[c],cs,rfl,rfl,.quoteMark mark⟩
  rw [if_neg mark] at result
  by_cases symbol : isSymbolChar c = true
  · rw [if_pos symbol] at result
    obtain ⟨w,rest,whole,inside,border,rfl⟩ := readSymbol_eq_ok_iff.mp result
    obtain ⟨tail,rfl,-⟩ := word_covers whole border symbol
    have symbols : (c :: tail).all isSymbolChar = true := List.all_eq_true.mpr inside
    rw [whole]
    refine accepts_atom ?_ border ?_ ?_
    · simp [AtomKind.admits,isSymbolWord,symbols,isPlainNumber_eq,startsNumber_cons point,numeric,point,mark]
    · simp [AtomKind.spelling]
    · simp [AtomKind.spelling]
  rw [if_neg symbol] at result
  contradiction

/-- Symbol characters leave four branches of the reader. -/
theorem read_symbolChar {c : Char} (symbol : isSymbolChar c = true) :
    read c cs = if c = '.' then readDot cs
      else if Literal.isSign c || c.isDigit then readNumber (c :: cs)
      else if isQuoteMark c then .ok ⟨.quoteMark,1⟩
      else readSymbol (c :: cs) := by
  have apart (d : Char) (other : isSymbolChar d = false) : ¬(c == d) = true := by
    rw [beq_iff_eq]
    rintro rfl
    rw [other] at symbol
    contradiction
  have noBlank : ¬isBlank c = true := by
    have inside := symbolChar_not_splitter symbol
    simp only [isSplitter,Bool.or_eq_false_iff] at inside
    simp [inside.1.1]
  rw [read,if_neg noBlank,if_neg (apart ';' (by decide)),if_neg (apart '(' (by decide)),
    if_neg (apart '[' (by decide)),if_neg (apart ')' (by decide)),if_neg (apart ']' (by decide)),
    if_neg (apart '"' (by decide)),if_neg (apart '#' (by decide)),if_pos symbol]
  simp only [beq_iff_eq]

theorem read_plainNumber {c : Char} {w rest : List Char} (plain : isPlainNumber (c :: w) = true)
    (border : atEnd rest = true) :
    read c (w ++ rest) = .ok ⟨.atom .number (.ofList (c :: w)),w.length + 1⟩ := by
  rw [isPlainNumber_eq,Bool.and_eq_true] at plain
  obtain ⟨start,numeric⟩ := plain
  have inside : ∀ d ∈ c :: w, isSymbolChar d = true := by
    simp only [isNumeric,Bool.and_eq_true,List.all_eq_true] at numeric
    exact fun d member => numberChar_symbolChar (numeric.1 d member)
  have result : readNumber (c :: (w ++ rest)) = .ok ⟨.atom .number (.ofList (c :: w)),w.length + 1⟩ :=
    readNumber_eq_ok_iff.mpr ⟨c :: w,rest,rfl,inside,border,by rw [numeric]; rfl⟩
  rw [read_symbolChar (inside c List.mem_cons_self)]
  by_cases point : c = '.'
  · subst point
    cases w with
    | nil => contradiction
    | cons d w =>
      rw [if_pos rfl,List.cons_append,readDot]
      rw [startsNumber] at start
      rw [if_pos start]
      exact result
  · rw [startsNumber_cons point] at start
    rw [if_neg point,if_pos start,result]

theorem read_symbolWord {c : Char} {w rest : List Char} (word : isSymbolWord (c :: w) = true)
    (border : atEnd rest = true) :
    read c (w ++ rest) = .ok ⟨.atom .symbol (.ofList (c :: w)),w.length + 1⟩ := by
  simp only [isSymbolWord,Bool.and_eq_true,Bool.not_eq_true',bne_iff_ne,List.all_eq_true,
    List.head?_cons,Option.any_some,isPlainNumber_eq] at word
  obtain ⟨⟨⟨⟨inside,-⟩,noPoint⟩,noQuote⟩,noNumber⟩ := word
  have asSymbol : readSymbol (c :: (w ++ rest)) = .ok ⟨.atom .symbol (.ofList (c :: w)),w.length + 1⟩ :=
    readSymbol_eq_ok_iff.mpr ⟨c :: w,rest,rfl,inside,border,rfl⟩
  have fallback (start : startsNumber (c :: w) = true) :
      readNumber (c :: (w ++ rest)) = .ok ⟨.atom .symbol (.ofList (c :: w)),w.length + 1⟩ := by
    rw [start,Bool.true_and] at noNumber
    exact readNumber_eq_ok_iff.mpr ⟨c :: w,rest,rfl,inside,border,by rw [noNumber]; rfl⟩
  rw [read_symbolChar (inside c List.mem_cons_self)]
  by_cases point : c = '.'
  · subst point
    cases w with
    | nil => contradiction
    | cons d w =>
      have symbol := inside d (List.mem_cons_of_mem _ List.mem_cons_self)
      rw [if_pos rfl,List.cons_append,readDot]
      by_cases digit : d.isDigit = true
      · rw [if_pos digit]
        exact fallback digit
      · rw [if_neg digit,symbolChar_not_splitter symbol,if_neg Bool.false_ne_true,if_pos symbol]
        exact asSymbol
  · rw [if_neg point]
    by_cases start : (Literal.isSign c || c.isDigit) = true
    · rw [if_pos start]
      exact fallback (by rwa [startsNumber_cons point])
    · rw [if_neg start,noQuote,if_neg Bool.false_ne_true]
      exact asSymbol

theorem read_sharp : read '#' cs = readSharp cs := by
  rw [read]
  rfl

theorem readSharp_mark {c : Char} {radix : Radix} (mark : Radix.ofMark? c = some radix) :
    readSharp (c :: cs) = readMarkedNumber radix ['#',c] cs := by
  have marks : c = 'b' ∨ c = 'o' ∨ c = 'd' ∨ c = 'x' := by
    unfold Radix.ofMark? at mark
    split at mark <;> simp_all
  obtain rfl | rfl | rfl | rfl := marks <;> cases mark <;> rfl

theorem read_markedNumber {c : Char} {w rest : List Char} (marked : isMarkedNumber (c :: w) = true)
    (border : atEnd rest = true) :
    read c (w ++ rest) = .ok ⟨.atom .number (.ofList (c :: w)),w.length + 1⟩ := by
  unfold isMarkedNumber at marked
  split at marked
  next letter body shape =>
    cases shape
    cases mark : Radix.ofMark? letter with
    | none => simp [mark] at marked
    | some radix =>
      rw [mark,Option.any_some,Bool.and_eq_true] at marked
      rw [read_sharp,List.cons_append,readSharp_mark mark]
      refine readMarkedNumber_eq_ok_iff.mpr ⟨body,rest,rfl,marked.1,marked.2,border,?_⟩
      simp
      omega
  next => contradiction

/-- Every admitted atom is read back from its spelling. -/
theorem read_atom {kind : AtomKind} {text : String} {c : Char} {rest : List Char}
    (admitted : kind.admits text = true) (border : kind.border rest = true)
    (whole : c :: cs = kind.spelling text ++ rest) :
    read c cs = .ok ⟨.atom kind text,(kind.spelling text).length⟩ := by
  obtain ⟨w,rfl⟩ : ∃ w, text = .ofList w := ⟨text.toList,String.ofList_toList.symm⟩
  cases kind with
  | number =>
    simp only [AtomKind.admits,AtomKind.spelling,String.toList_ofList,Bool.or_eq_true] at *
    cases w with
    | nil => simp [isPlainNumber,startsNumber,isMarkedNumber] at admitted
    | cons d w =>
      cases whole
      rcases admitted with plain | marked
      · exact read_plainNumber plain border
      · exact read_markedNumber marked border
  | symbol =>
    simp only [AtomKind.admits,AtomKind.spelling,String.toList_ofList] at *
    cases w with
    | nil => contradiction
    | cons d w =>
      cases whole
      exact read_symbolWord admitted border
  | string =>
    simp only [AtomKind.spelling,String.toList_ofList] at *
    cases whole
    rw [show read '"' _ = readString _ from rfl]
    exact readString_eq_ok_iff.mpr ⟨w,rest,by simp,border,by simp⟩
  | char =>
    simp only [AtomKind.admits,AtomKind.spelling,String.toList_ofList,beq_iff_eq,
      List.length_eq_one_iff] at *
    obtain ⟨d,rfl⟩ := admitted
    cases whole
    rw [read_sharp]
    exact readChar_eq_ok_iff.mpr ⟨d,rest,rfl,border,rfl⟩
  | boolean =>
    simp only [AtomKind.admits,AtomKind.spelling,String.toList_ofList,Bool.or_eq_true,beq_iff_eq] at *
    obtain rfl | rfl := admitted
    · cases whole
      rw [read_sharp]
      exact readBoolean_eq_ok_iff.mpr ⟨border,rfl⟩
    · cases whole
      rw [read_sharp]
      exact readBoolean_eq_ok_iff.mpr ⟨border,rfl⟩
  | dot =>
    simp only [AtomKind.admits,AtomKind.spelling,String.toList_ofList,beq_iff_eq] at *
    subst admitted
    cases whole
    cases rest with
    | nil => contradiction
    | cons e rest =>
      have split : isSplitter e = true := border
      have noDigit : e.isDigit = false := by
        by_contra digit
        rw [Bool.not_eq_false] at digit
        rw [symbolChar_not_splitter (digit_symbolChar digit)] at split
        contradiction
      rw [read_symbolChar (by decide),if_pos rfl]
      simp [readDot,noDigit,split]
  | sharp =>
    simp only [AtomKind.admits,AtomKind.spelling,String.toList_ofList,beq_iff_eq] at *
    subst admitted
    cases whole
    cases rest with
    | nil => contradiction
    | cons e rest =>
      have bracket : isOpener e = true := border
      simp only [isOpener,Bool.or_eq_true,beq_iff_eq] at bracket
      rw [read_sharp]
      obtain rfl | rfl := bracket <;> rfl

/-- Reading is the grammar: a text starts with a lexeme of some size exactly if that many
characters spell it before the rest of the text. -/
theorem read_eq_ok_iff {c : Char} : read c cs = .ok r ↔ Accepts (c :: cs) r := by
  constructor
  · exact read_accepts
  · rintro ⟨word,rest,whole,width,spelled⟩
    obtain ⟨lexeme,size⟩ := r
    cases width
    cases spelled with
    | blank blank =>
      cases whole
      rw [read,if_pos blank]
      rfl
    | @comment text _ inside stop =>
      cases whole
      have run : (text ++ rest).takeWhile (· != '\n') = text :=
        takeWhile_run (by simpa using inside) (by simpa using stop)
      change comment (text ++ rest) = _
      rw [comment,run,List.length_cons,Nat.add_comm]
    | opener b => cases whole; cases b <;> rfl
    | closer b => cases whole; cases b <;> rfl
    | quoteMark mark =>
      cases whole
      simp only [isQuoteMark,Bool.or_eq_true,beq_iff_eq] at mark
      obtain rfl | rfl := mark <;> rfl
    | atom admitted border => exact read_atom admitted border whole

end Lexeme
end MiniScheme
