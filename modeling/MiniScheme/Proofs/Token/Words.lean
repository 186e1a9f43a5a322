import MiniScheme.Proofs.Token.Brackets

/-! Words that start like numbers. Such a word is one atom whatever it turns out to be: a number if
its characters and its shape allow, a symbol otherwise, and the scanner stops nowhere inside it. What
stands behind a radix mark is a number or an error, never a symbol. -/
namespace MiniScheme

namespace Lexeme

variable {body rest : List Char}

theorem word_append (inside : ∀ c ∈ body, isSplitter c = false) (border : atEnd rest = true) :
    word (body ++ rest) = body := by
  have outside (c : Char) (split : isSplitter c = true) : (!isSplitter c) = false := by simp [split]
  exact takeWhile_run (by simpa using inside) (stop_of_atEnd outside border)

theorem numberChars_not_splitter {r : Radix} (chars : body.all (isNumberChar r) = true) :
    ∀ c ∈ body, isSplitter c = false := by
  intro c member
  by_contra split
  rw [Bool.not_eq_false] at split
  have number := List.all_eq_true.mp chars c member
  rw [splitter_not_numberChar r split] at number
  contradiction

/-- A reading behind a radix mark that gives no number gives an error, whose text goes on to the next
splitter. -/
theorem readMarkedNumber_eq_error {r : Radix} {mark cs : List Char}
    (unread : ∀ reading, readMarkedNumber r mark cs ≠ .ok reading) :
    readMarkedNumber r mark cs = here (.invalidNumber (.ofList (mark ++ word cs))) := by
  unfold readMarkedNumber at unread ⊢
  dsimp only at unread ⊢
  split
  next shape =>
    rw [if_pos shape] at unread
    exact absurd rfl (unread _)
  next => rfl

theorem readMarkedNumber_word (r : Radix) (mark : List Char)
    (inside : ∀ c ∈ body, isSplitter c = false) (border : atEnd rest = true) :
    readMarkedNumber r mark (body ++ rest) =
      if body.all (isNumberChar r) && isNumberBody r body then
        .ok ⟨.atom .number (.ofList (mark ++ body)),mark.length + body.length⟩
      else here (.invalidNumber (.ofList (mark ++ body))) := by
  split
  next numeric =>
    rw [Bool.and_eq_true] at numeric
    exact readMarkedNumber_eq_ok_iff.mpr ⟨body,rest,rfl,numeric.1,numeric.2,border,rfl⟩
  next other =>
    rw [readMarkedNumber_eq_error,word_append inside border]
    intro reading result
    obtain ⟨found,more,whole,chars,shape,ends,rfl⟩ := readMarkedNumber_eq_ok_iff.mp result
    -- both words go on to the next splitter, so they are the same
    have same : body = found := by
      rw [← word_append inside border,whole]
      exact word_append (numberChars_not_splitter chars) ends
    subst same
    exact other (by rw [chars,shape]; rfl)

theorem spelled_number {w : List Char} (number : (isPlainNumber w || isMarkedNumber w) = true)
    (border : atEnd rest = true) : Spelled w (.atom .number (.ofList w)) rest := by
  have admitted : AtomKind.number.admits (.ofList w) = true := by
    rwa [AtomKind.admits,String.toList_ofList]
  have spelled : Spelled (AtomKind.number.spelling (.ofList w)) _ rest := .atom admitted border
  simpa [AtomKind.spelling] using spelled

/-- A text starts with one lexeme only. -/
theorem Spelled.unique {first second more : List Char} {lexeme other : Lexeme}
    (one : Spelled first lexeme rest) (two : Spelled second other more)
    (whole : first ++ rest = second ++ more) : first = second ∧ lexeme = other ∧ rest = more := by
  obtain ⟨c,tail,rfl⟩ := Scanner.spelled_cons one
  obtain ⟨d,tail',rfl⟩ := Scanner.spelled_cons two
  rw [List.cons_append,List.cons_append] at whole
  obtain ⟨rfl,texts⟩ := List.cons.inj whole
  have reading := Scanner.read_spelled one
  rw [texts,Scanner.read_spelled two] at reading
  obtain ⟨rfl,sizes⟩ := Reading.mk.inj (Except.ok.inj reading)
  obtain ⟨rfl,rfl⟩ := List.append_inj texts (by omega)
  exact ⟨rfl,rfl,rfl⟩

end Lexeme

namespace Scanner

open Lexeme

variable {name : Option String} {text word rest : List Char} {taken : List Lexeme} {s : Scanner}

theorem run_misfit {c : Char} {cs : List Char} {misfit : Misfit} (unread : read c cs = .error misfit) :
    run (c :: cs) 0 s = .error ⟨misfit.fault,s.pos.after ((c :: cs).take misfit.offset)⟩ := by
  rw [run,unread]

namespace Passes

/-- On its way to a place the scanner has passed a place after each of the lexemes before. -/
theorem earlier {k : Nat} (passes : Passes name text taken s rest) (bound : k ≤ taken.length) :
    ∃ s' rest', Passes name text (taken.take k) s' rest' ∧ rest.length ≤ rest'.length := by
  induction passes with
  | start => exact ⟨_,_,by rw [List.take_nil]; exact .start,le_rfl⟩
  | @word taken s next word rest lexeme passes spelled step ih =>
    by_cases before : k ≤ taken.length
    · obtain ⟨s',rest',place,longer⟩ := ih before
      rw [List.length_append] at longer
      exact ⟨s',rest',by rwa [List.take_append_of_le_length before],by omega⟩
    · have all : (taken ++ [lexeme]).length ≤ k := by
        rw [List.length_append,List.length_singleton]
        omega
      rw [List.take_of_length_le all]
      exact ⟨_,_,.word passes spelled step,le_rfl⟩

/-- As many lexemes lead to one place only. -/
theorem unique {taken' : List Lexeme} {s' : Scanner} {rest' : List Char}
    (one : Passes name text taken s rest) (two : Passes name text taken' s' rest')
    (same : taken.length = taken'.length) : s = s' ∧ rest = rest' := by
  induction one generalizing taken' s' rest' with
  | start =>
    cases two with
    | start => exact ⟨rfl,rfl⟩
    | word => simp at same
  | word _ spelled step ih =>
    generalize found : taken' = lexemes at two
    cases two with
    | start => simp [found] at same
    | word passes spelled' step' =>
      subst found
      obtain ⟨rfl,whole⟩ := ih passes (by simpa using same)
      obtain ⟨rfl,rfl,rfl⟩ := spelled.unique spelled' whole
      cases step.symm.trans step'
      exact ⟨rfl,rfl⟩

/-- The scanner passes no place inside a lexeme. -/
theorem unsplit {taken' : List Lexeme} {s' next : Scanner} {rest' : List Char} {lexeme : Lexeme}
    (passes : Passes name text taken s (word ++ rest)) (spelled : Spelled word lexeme rest)
    (step : s.take lexeme = .ok next) (other : Passes name text taken' s' rest') :
    rest'.length ≤ rest.length ∨ (word ++ rest).length ≤ rest'.length := by
  have behind : Passes name text (taken ++ [lexeme]) (next.skip word) rest := .word passes spelled step
  rcases Nat.lt_or_ge taken.length taken'.length with later | before
  · have bound : (taken ++ [lexeme]).length ≤ taken'.length := by
      rw [List.length_append,List.length_singleton]
      exact later
    obtain ⟨_,_,place,longer⟩ := other.earlier bound
    obtain ⟨-,rfl⟩ := behind.unique place (by rw [List.length_take,Nat.min_eq_left bound])
    exact .inl longer
  · obtain ⟨_,_,place,longer⟩ := passes.earlier before
    obtain ⟨-,rfl⟩ := other.unique place (by rw [List.length_take,Nat.min_eq_left before])
    exact .inr longer

end Passes

/-- The word is scanned as one atom of this kind: the scanner takes all of it at once and passes no
place inside. -/
structure Whole (name : Option String) (text : List Char) (taken : List Lexeme) (s : Scanner)
    (word rest : List Char) (kind : AtomKind) : Prop where
  passes : Passes name text (taken ++ [.atom kind (.ofList word)])
    ((s.add (.atom kind (.ofList word) s.pos)).skip word) rest
  unsplit : ∀ taken' s' rest', Passes name text taken' s' rest' →
    rest'.length ≤ rest.length ∨ (word ++ rest).length ≤ rest'.length

theorem Passes.whole {kind : AtomKind} (passes : Passes name text taken s (word ++ rest))
    (spelled : Spelled word (.atom kind (.ofList word)) rest) :
    Whole name text taken s word rest kind :=
  ⟨.word passes spelled rfl,fun _ _ _ other => passes.unsplit spelled rfl other⟩

/-- Behind a radix mark stands a number, or the scanner stops. -/
theorem Passes.marked {letter : Char} {r : Radix} {body : List Char}
    (passes : Passes name text taken s ('#' :: letter :: body ++ rest)) (border : atEnd rest = true)
    (mark : Radix.ofMark? letter = some r) (inside : ∀ c ∈ body, isSplitter c = false) :
    if body.all (isNumberChar r) && isNumberBody r body then
      Whole name text taken s ('#' :: letter :: body) rest .number
    else run text 0 (.start name) = .error ⟨.invalidNumber (.ofList ('#' :: letter :: body)),s.pos⟩ := by
  split
  next numeric =>
    have marked : isMarkedNumber ('#' :: letter :: body) = true := by
      rw [isMarkedNumber,mark,Option.any_some,numeric]
    exact passes.whole (spelled_number (by rw [marked,Bool.or_true]) border)
  next other =>
    have unread : read '#' (letter :: body ++ rest) =
        here (.invalidNumber (.ofList (['#',letter] ++ body))) := by
      rw [read_sharp,List.cons_append,readSharp_mark mark,
        readMarkedNumber_word r ['#',letter] inside border,if_neg other]
    exact passes.run_eq.trans (run_misfit unread)

end Scanner

namespace Token

open Lexeme Scanner

/-- Words are classified whole. A word of symbol characters that starts with a digit, a sign, or a
point and a digit is scanned as one atom, wherever it stands: a number if it is made of digits and
number marks in the shape of a number, and a symbol otherwise. Behind a radix mark everything up to
the next splitter is a number in the same sense, with the digits of the radix, or an error. -/
theorem words_classified_whole {text : String} {name : Option String} {taken : List Lexeme} {s : Scanner}
    {word rest : List Char} (passes : Passes name text.toList taken s (word ++ rest))
    (border : atEnd rest = true) :
    (startsNumber word = true → (∀ c ∈ word, isSymbolChar c = true) →
      Whole name text.toList taken s word rest
        (if word.all (isNumberChar .decimal) && isNumberBody .decimal word then .number else .symbol)) ∧
    ∀ letter r body, word = '#' :: letter :: body → Radix.ofMark? letter = some r →
      (∀ c ∈ body, isSplitter c = false) →
      if body.all (isNumberChar r) && isNumberBody r body then
        Whole name text.toList taken s word rest .number
      else scan text name = .error ⟨.invalidNumber (.ofList word),s.pos⟩ := by
  constructor
  · intro start inside
    exact passes.whole (spelled_word start inside border)
  · rintro letter r body rfl mark inside
    exact passes.marked border mark inside

/-- A symbol of digits and slashes, and a digit that its radix does not have. -/
theorem words_classified_whole_slashes :
    Whole none "1/2/3 #b12".toList [] (.start none) "1/2/3".toList " #b12".toList .symbol ∧
    scan "1/2/3 #b12" none = .error ⟨.invalidNumber "#b12",⟨1,7,none⟩⟩ := by
  have first : Passes none "1/2/3 #b12".toList [] (.start none)
      ("1/2/3".toList ++ " #b12".toList) := .start
  have symbol := (words_classified_whole first rfl).1 rfl (List.all_eq_true.mp rfl)
  refine ⟨symbol,?_⟩
  have blank : Spelled [' '] .gap ("#b12".toList ++ []) := .blank rfl
  have second : Passes none "1/2/3 #b12".toList _ _ ("#b12".toList ++ []) :=
    .word symbol.passes blank rfl
  exact (words_classified_whole second rfl).2 'b' .binary ['1','2'] rfl rfl
    (List.forall_mem_cons.mpr ⟨rfl,List.forall_mem_singleton.mpr rfl⟩)

end Token
end MiniScheme
