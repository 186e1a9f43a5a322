import MiniScheme.Proofs.Token.Words

/-! Lexemes read in place. The text stays as it is, an index moves along it, and a word is a slice
between two indices, which is there only if it lies within the text. A word that turns out to be no
number is read again from its first character. All slices that are asked for are there, and the
lexemes are those that are read off the front of a text. -/
namespace MiniScheme

namespace Lexeme

/-- A lexeme and the index behind it, or a misfit. There is no answer where a slice is not there. -/
abbrev Placed := Option (Except Misfit (Lexeme × Nat))

def spanned (lexeme : Lexeme) (stop : Nat) : Placed := some (.ok (lexeme,stop))

def faulty (fault : SyntaxFault) (offset : Nat) : Placed := some (.error ⟨fault,offset⟩)

/-- A reading of the text from an index on. -/
def placed (start : Nat) (result : Result) : Placed :=
  some (result.map fun reading => (reading.lexeme,start + reading.size))

section

variable (text : List Char)

/-- Steps over as many characters, but not over the end of the text. -/
def forward (index : Nat) : Nat → Nat
  | 0 => index
  | count + 1 => if index < text.length then forward (index + 1) count else index

/-- Steps over the characters that have the property. -/
def advance (property : Char → Bool) (index : Nat) : Nat :=
  match _ : text[index]? with
  | some c => if property c then advance property (index + 1) else index
  | none => index
termination_by text.length - index
decreasing_by
  have inside : index < text.length := by grind
  omega

def slice? (start stop : Nat) : Option (List Char) :=
  let stop := min stop text.length
  if start ≤ stop then some ((text.drop start).take (stop - start)) else none

/-- The slice up to the first splitter behind an index. -/
def sliceToSplitter? (start index : Nat) : Option (List Char) :=
  slice? text start (advance text (fun c => !isSplitter c) index)

def symbolAt (start : Nat) : Placed := do
  let stop := advance text isSymbolChar start
  if text[stop]?.all isSplitter then
    let name ← slice? text start stop
    spanned (.atom .symbol (.ofList name)) stop
  else
    let word ← sliceToSplitter? text start stop
    faulty (.invalidSymbol (.ofList word)) 0

/-- A number, behind a mark of two characters or without one. Without a mark the index goes back to
the start of what is no number. -/
def numberAt (r : Radix) (marked : Bool) (start : Nat) : Placed := do
  let first := if marked then forward text start 2 else start
  if marked && text[first]?.all isSplitter then
    let mark ← slice? text start first
    faulty (.invalidNumber (.ofList mark)) 0
  else
    let stop := advance text (isNumberChar r) first
    let body ← slice? text first stop
    let valid := isNumberBody r body
    if !marked && (text[stop]?.any isSymbolChar || !valid) then symbolAt text start
    else if !valid || text[stop]?.any (fun c => !isSplitter c) then
      let word ← sliceToSplitter? text start stop
      faulty (.invalidNumber (.ofList word)) 0
    else
      let number ← slice? text start stop
      spanned (.atom .number (.ofList number)) stop

def dotAt (start : Nat) : Placed :=
  match text[start + 1]? with
  | none => faulty (.illegalCharacter '.') 0
  | some c =>
    if c.isDigit then numberAt text .decimal false start
    else if isSplitter c then spanned (.atom .dot ".") (forward text start 1)
    else if isSymbolChar c then symbolAt text start
    else do
      let word ← sliceToSplitter? text start start
      faulty (.invalidSymbol (.ofList word)) 0

/-- Reads a string on behind what has been read of it. -/
def stringFrom (read : List Char) (escaping : Bool) (index : Nat) :
    Except (List Char) (List Char × Nat) :=
  match _ : text[index]? with
  | none => .error read
  | some c =>
    if escaping then
      if c == '\\' || c == '"' then stringFrom (read ++ [c]) false (index + 1)
      else .error (read ++ ['\\',c])
    else if c == '"' then .ok (read,index + 1)
    else if c == '\\' then stringFrom read true (index + 1)
    else stringFrom (read ++ [c]) false (index + 1)
termination_by text.length - index
decreasing_by
  all_goals
    have inside : index < text.length := by grind
    omega

/-- A literal that has to end where it does. -/
def closedAt (lexeme : Lexeme) (start stop : Nat) : Placed :=
  match text[stop]? with
  | none => spanned lexeme stop
  | some c => if isSplitter c then spanned lexeme stop else faulty (.illegalCharacter c) (stop - start)

def stringAt (start : Nat) : Placed :=
  match stringFrom text [] false (forward text start 1) with
  | .error read => faulty (.illegalString (.ofList read)) 0
  | .ok (read,stop) => closedAt text (.atom .string (.ofList read)) start stop

def booleanAt (start : Nat) : Placed := do
  let stop := forward text start 2
  if text[stop]?.all isSplitter then
    let value ← slice? text start (start + 2)
    spanned (.atom .boolean (.ofList value)) stop
  else
    let word ← sliceToSplitter? text start stop
    faulty (.invalidSymbol (.ofList word)) 0

def charAt (start : Nat) : Placed :=
  match text[start + 2]? with
  | none => faulty (.invalidSymbol "#\\") 0
  | some c => closedAt text (.atom .char c.toString) start (forward text start 3)

def sharpAt (start : Nat) : Placed :=
  match text[start + 1]? with
  | none => faulty (.illegalCharacter '#') 0
  | some c =>
    if c == 't' || c == 'f' then booleanAt text start
    else if c == '\\' then charAt text start
    else if isOpener c then spanned (.atom .sharp "#") (forward text start 1)
    else match Radix.ofMark? c with
      | some r => numberAt text r true start
      | none => faulty (.invalidSharp c) 0

/-- The lexeme that starts with `c` at the index. -/
def readAt (c : Char) (start : Nat) : Placed :=
  if isBlank c then spanned .gap (forward text start 1)
  else if c == ';' then spanned .gap (advance text (· != '\n') start)
  else if c == '(' then spanned (.opener .round) (forward text start 1)
  else if c == '[' then spanned (.opener .square) (forward text start 1)
  else if c == ')' then spanned (.closer .round) (forward text start 1)
  else if c == ']' then spanned (.closer .square) (forward text start 1)
  else if c == '.' then dotAt text start
  else if Literal.isSign c || c.isDigit then numberAt text .decimal false start
  else if c == '"' then stringAt text start
  else if c == '#' then sharpAt text start
  else if isQuoteMark c then spanned .quoteMark (forward text start 1)
  else if isSymbolChar c then symbolAt text start
  else faulty (.illegalCharacter c) 0

end

variable {text : List Char} {start : Nat}

theorem getElem?_of_drop {cs : List Char} (shape : text.drop start = cs) : text[start]? = cs.head? := by
  rw [← shape,List.head?_drop]

theorem forward_eq {count : Nat} (inside : start + count ≤ text.length) :
    forward text start count = start + count := by
  induction count generalizing start with
  | zero => rfl
  | succ count ih =>
    rw [forward,if_pos (by omega),ih (by omega)]
    omega

theorem advance_eq (property : Char → Bool) (start : Nat) :
    advance text property start = start + ((text.drop start).takeWhile property).length := by
  fun_induction advance text property start with
  | case1 index c found holds ih =>
    obtain ⟨inside,rfl⟩ := List.getElem?_eq_some_iff.mp found
    rw [ih,List.drop_eq_getElem_cons inside,List.takeWhile_cons_of_pos holds,List.length_cons]
    omega
  | case2 index c found fails =>
    obtain ⟨inside,rfl⟩ := List.getElem?_eq_some_iff.mp found
    rw [List.drop_eq_getElem_cons inside,List.takeWhile_cons_of_neg fails]
    rfl
  | case3 index ended =>
    rw [List.drop_eq_nil_of_le (List.getElem?_eq_none_iff.mp ended)]
    rfl

theorem slice?_eq (inside : start ≤ text.length) (size : Nat) :
    slice? text start (start + size) = some ((text.drop start).take size) := by
  rw [slice?,if_pos (by omega),Option.some.injEq,List.take_eq_take_iff,List.length_drop]
  omega

/-- A run of characters of words, and what follows it, make up the word. -/
theorem run_word_eq {p : Char → Bool} (outside : ∀ c, isSplitter c = true → p c = false)
    (cs : List Char) : cs.takeWhile p ++ word (cs.drop (cs.takeWhile p).length) = word cs := by
  induction cs with
  | nil => rfl
  | cons c cs ih =>
    cases holds : p c with
    | false => rw [List.takeWhile_cons_of_neg (by simp [holds])]; rfl
    | true =>
      have inside : isSplitter c = false := by
        by_contra split
        simp [outside c (by simpa using split)] at holds
      rw [List.takeWhile_cons_of_pos holds,List.length_cons,List.drop_succ_cons,List.cons_append,ih,
        word,word,List.takeWhile_cons_of_pos (by simp [inside])]

theorem atEnd_drop (cs : List Char) (size : Nat) : atEnd (cs.drop size) = cs[size]?.all isSplitter := by
  rw [← List.head?_drop]
  cases cs.drop size <;> rfl

theorem take_run (p : Char → Bool) (cs : List Char) :
    cs.take (cs.takeWhile p).length = cs.takeWhile p :=
  (List.prefix_iff_eq_take.mp (List.takeWhile_prefix p)).symm

/-- What starts at an index does not end behind the text. -/
theorem inside_of_drop {c : Char} {w rest : List Char} (shape : text.drop start = c :: w ++ rest) :
    start + (c :: w).length ≤ text.length := by
  have length := congrArg List.length shape
  rw [List.length_drop,List.length_append,List.length_cons] at length
  rw [List.length_cons]
  omega

section

variable {p : Char → Bool} (inside : start ≤ text.length) (lead : Nat)

include inside

/-- Some characters and the run behind them are a slice. -/
theorem slice?_run (p : Char → Bool) :
    slice? text start (start + lead + ((text.drop (start + lead)).takeWhile p).length) =
      some ((text.drop start).take lead ++ (text.drop (start + lead)).takeWhile p) := by
  rw [Nat.add_assoc,slice?_eq inside,List.take_add,List.drop_drop,take_run]

theorem sliceToSplitter?_eq : sliceToSplitter? text start (start + lead) =
    some ((text.drop start).take lead ++ word (text.drop (start + lead))) := by
  rw [sliceToSplitter?,advance_eq]
  exact slice?_run inside lead _

/-- From inside a word the slice goes on to the end of the word. -/
theorem sliceToSplitter?_run (outside : ∀ c, isSplitter c = true → p c = false) :
    sliceToSplitter? text start (start + lead + ((text.drop (start + lead)).takeWhile p).length) =
      some ((text.drop start).take lead ++ word (text.drop (start + lead))) := by
  rw [Nat.add_assoc,sliceToSplitter?_eq inside,List.take_add,List.drop_drop,take_run,List.append_assoc,
    ← Nat.add_assoc,← run_word_eq outside (text.drop (start + lead)),List.drop_drop]

end

theorem placed_ite {condition : Prop} [Decidable condition] {a b : Placed} {x y : Result}
    (yes : condition → a = placed start x) (no : ¬condition → b = placed start y) :
    (if condition then a else b) = placed start (if condition then x else y) := by
  split
  next holds => exact yes holds
  next fails => exact no fails

theorem symbolAt_eq (inside : start ≤ text.length) :
    symbolAt text start = placed start (readSymbol (text.drop start)) := by
  have name := slice?_run inside 0 isSymbolChar
  have word := sliceToSplitter?_run inside 0 (fun _ => splitter_not_symbolChar)
  simp only [Nat.add_zero,List.take_zero,List.nil_append] at name word
  simp only [symbolAt,readSymbol,advance_eq,atEnd_drop,List.getElem?_drop,name,word]
  split <;> rfl

theorem plainNumberAt_eq (inside : start ≤ text.length) :
    numberAt text .decimal false start = placed start (readNumber (text.drop start)) := by
  have body := slice?_run inside 0 (isNumberChar .decimal)
  have word := sliceToSplitter?_run inside 0 (fun _ => splitter_not_numberChar .decimal)
  have run : (text.drop start).takeWhile (isNumberChar .decimal) =
      numberBody .decimal (text.drop start) := rfl
  simp only [Nat.add_zero,List.take_zero,List.nil_append] at body word
  simp only [numberAt,Bool.false_eq_true,if_false,Bool.false_and,Bool.not_false,Bool.true_and,advance_eq,
    body,word,symbolAt_eq inside,Option.bind_eq_bind,Option.bind_some]
  simp only [run,readNumber,atEnd_drop,List.head?_drop,List.getElem?_drop]
  generalize text[start + _]? = next
  cases isNumberBody .decimal _ with
  | false => simp
  | true =>
    cases next with
    | none => rfl
    | some c =>
      cases symbol : isSymbolChar c <;> cases split : isSplitter c <;>
        simp [placed,spanned,faulty,here,Except.map,symbol,split]

/-- Nothing is read in front of a splitter. -/
theorem run_of_atEnd {p : Char → Bool} {cs : List Char}
    (outside : ∀ c, isSplitter c = true → p c = false) (border : atEnd cs = true) :
    cs.takeWhile p = [] := by
  have stop := stop_of_atEnd outside border
  exact takeWhile_run (List.forall_mem_nil _) stop

theorem markedNumberAt_eq {r : Radix} {c : Char} {cs : List Char}
    (shape : text.drop start = ['#',c] ++ cs) :
    numberAt text r true start = placed start (readMarkedNumber r ['#',c] cs) := by
  have within : start + 2 ≤ text.length := inside_of_drop shape
  have inside : start ≤ text.length := by omega
  have behind : text.drop (start + 2) = cs := by rw [← List.drop_drop,shape]; rfl
  have mark := slice?_eq inside 2
  have body := slice?_run within 0 (isNumberChar r)
  have number := slice?_run inside 2 (isNumberChar r)
  have word := sliceToSplitter?_run inside 2 (fun _ => splitter_not_numberChar r)
  have next (size : Nat) : text[start + 2 + size]? = cs[size]? := by rw [← behind,List.getElem?_drop]
  have first : text[start + 2]?.all isSplitter = atEnd cs := by
    rw [next 0,← atEnd_drop]
    rfl
  have run : cs.takeWhile (isNumberChar r) = numberBody r cs := rfl
  have two : (['#',c] ++ cs).take 2 = ['#',c] := rfl
  simp only [Nat.add_zero,List.take_zero,List.nil_append,behind,shape,run,two] at mark body number word
  simp only [numberAt,if_true,forward_eq within,Bool.true_and,Bool.not_true,Bool.false_and,
    Bool.false_eq_true,if_false,advance_eq,mark,behind,run,body,number,word,next,first,
    Option.bind_eq_bind,Option.bind_some]
  split
  next border =>
    have noBody : numberBody r cs = [] := run_of_atEnd (fun _ => splitter_not_numberChar r) border
    have noWord : Lexeme.word cs = [] := run_of_atEnd (by simp) border
    simp [readMarkedNumber,noBody,noWord,isNumberBody,placed,here,faulty,Except.map]
  next =>
    simp only [readMarkedNumber,atEnd_drop]
    generalize cs[(numberBody r cs).length]? = next
    cases isNumberBody r (numberBody r cs) with
    | false => rfl
    | true =>
      cases next with
      | none => simp [placed,spanned,Except.map,Nat.add_assoc]
      | some d =>
        cases split : isSplitter d <;>
          simp [placed,spanned,faulty,here,Except.map,split,Nat.add_assoc]

theorem dotAt_eq {cs : List Char} (shape : text.drop start = ['.'] ++ cs) :
    dotAt text start = placed start (readDot cs) := by
  have within : start + 1 ≤ text.length := inside_of_drop shape
  have inside : start ≤ text.length := by omega
  have next : text[start + 1]? = cs[0]? := by rw [← List.getElem?_drop,shape]; rfl
  have word : sliceToSplitter? text start start = some (word (text.drop start)) :=
    sliceToSplitter?_eq inside 0
  simp only [dotAt,next,plainNumberAt_eq inside,symbolAt_eq inside,word,shape,forward_eq within]
  cases cs with
  | nil => rfl
  | cons c cs =>
    rw [List.getElem?_cons_zero,readDot]
    exact placed_ite (fun _ => rfl) fun _ => placed_ite (fun _ => rfl) fun _ =>
      placed_ite (fun _ => rfl) fun _ => rfl

theorem closedAt_eq {w cs : List Char} {lexeme : Lexeme} (shape : text.drop start = w ++ cs) :
    closedAt text lexeme start (start + w.length) = placed start (closed lexeme w.length cs) := by
  have next : text[start + w.length]? = cs[0]? := by
    rw [← List.getElem?_drop,shape,List.getElem?_append_right le_rfl,Nat.sub_self]
  rw [closedAt,next,Nat.add_sub_cancel_left]
  cases cs with
  | nil => rfl
  | cons c cs =>
    rw [List.getElem?_cons_zero,closed]
    exact placed_ite (fun _ => rfl) fun _ => rfl

/-- Puts what has been read of a string in front of what is read behind it. -/
def joined (read : List Char) (index : Nat) :
    Except (List Char) (List Char × Nat) → Except (List Char) (List Char × Nat)
  | .ok (more,size) => .ok (read ++ more,index + size)
  | .error more => .error (read ++ more)

theorem joined_extend (read : List Char) (c : Char) (index width : Nat)
    (result : Except (List Char) (List Char × Nat)) :
    joined (read ++ [c]) (index + width) result = joined read index (extend c width result) := by
  cases result with
  | error more => simp [joined,extend]
  | ok result => simp [joined,extend,Nat.add_assoc,Nat.add_comm width]

/-- What the next character of a string does. -/
theorem stringFrom_cons {index : Nat} {c : Char} {cs : List Char} (shape : text.drop index = c :: cs)
    (read : List Char) (escaping : Bool) : stringFrom text read escaping index =
    if escaping then
      if c == '\\' || c == '"' then stringFrom text (read ++ [c]) false (index + 1)
      else .error (read ++ ['\\',c])
    else if c == '"' then .ok (read,index + 1)
    else if c == '\\' then stringFrom text read true (index + 1)
    else stringFrom text (read ++ [c]) false (index + 1) := by
  have next : text[index]? = some c := getElem?_of_drop shape
  rw [stringFrom]
  split
  next ended => simp [next] at ended
  next d found =>
    cases next.symm.trans found
    rfl

/-- A string is read in place as it is read off the front of a text. -/
theorem stringFrom_eq {index : Nat} {cs : List Char} (shape : text.drop index = cs) (read : List Char) :
    stringFrom text read false index = joined read index (stringBody cs) := by
  have ended {read : List Char} {escaping : Bool} {index : Nat} (shape : text.drop index = []) :
      stringFrom text read escaping index = .error read := by
    have next : text[index]? = none := getElem?_of_drop shape
    rw [stringFrom]
    split
    next => rfl
    next c found => simp [next] at found
  have behind {index : Nat} {c : Char} {cs : List Char} (shape : text.drop index = c :: cs) :
      text.drop (index + 1) = cs := by rw [← List.drop_drop,shape]; rfl
  induction cs using stringBody.induct generalizing index read with
  | case1 => simp [ended shape,stringBody,joined]
  | case2 rest => simp [stringFrom_cons shape,stringBody,joined]
  | case3 => simp [stringFrom_cons shape,ended (behind shape),stringBody,joined]
  | case4 c cs special ih =>
    have rest := behind shape
    have escape := stringFrom_cons rest read true
    rw [if_pos rfl,if_pos special,ih (behind rest)] at escape
    simp only [stringFrom_cons shape,stringBody,special,escape,beq_self_eq_true,if_true]
    exact joined_extend read c index 2 _
  | case5 c cs other =>
    have escape := stringFrom_cons (behind shape) read true
    rw [if_pos rfl,if_neg other] at escape
    simp [stringFrom_cons shape,stringBody,other,escape,joined]
  | case6 c cs noQuote noEnd noEscape ih =>
    have noSlash : c ≠ '\\' := by
      intro slash
      cases cs with
      | nil => exact noEnd slash rfl
      | cons d ds => exact noEscape d ds slash rfl
    have plain : stringBody (c :: cs) = extend c 1 (stringBody cs) := by
      rw [stringBody]
      · exact noQuote
      · exact noEnd
      · exact noEscape
    rw [plain,← joined_extend,← ih (behind shape)]
    have noQuote : c ≠ '"' := noQuote
    simp [stringFrom_cons shape,noSlash,noQuote]

theorem booleanAt_eq {c : Char} {cs : List Char} (shape : text.drop start = ['#',c] ++ cs) :
    booleanAt text start = placed start (readBoolean c cs) := by
  have within : start + 2 ≤ text.length := inside_of_drop shape
  have inside : start ≤ text.length := by omega
  have behind : text.drop (start + 2) = cs := by rw [← List.drop_drop,shape]; rfl
  have next : text[start + 2]?.all isSplitter = atEnd cs := by rw [← atEnd_drop,behind]
  have value := slice?_eq inside 2
  have word := sliceToSplitter?_eq inside 2
  have two : (['#',c] ++ cs).take 2 = ['#',c] := rfl
  simp only [behind,shape,two] at value word
  simp only [booleanAt,readBoolean,forward_eq within,next,value,word]
  split <;> rfl

theorem charAt_eq {c : Char} {cs : List Char} (shape : text.drop start = ['#',c] ++ cs) :
    charAt text start = placed start (readChar cs) := by
  cases cs with
  | nil =>
    have next : text[start + 2]? = none := by rw [← List.getElem?_drop,shape]; rfl
    rw [charAt,next]
    rfl
  | cons d cs =>
    have whole : text.drop start = ['#',c,d] ++ cs := shape
    have within : start + 3 ≤ text.length := inside_of_drop whole
    have next : text[start + 2]? = some d := by rw [← List.getElem?_drop,shape]; rfl
    rw [charAt,next,forward_eq within]
    exact closedAt_eq whole

theorem sharpAt_eq {cs : List Char} (shape : text.drop start = ['#'] ++ cs) :
    sharpAt text start = placed start (readSharp cs) := by
  have within : start + 1 ≤ text.length := inside_of_drop shape
  have next : text[start + 1]? = cs[0]? := by rw [← List.getElem?_drop,shape]; rfl
  rw [sharpAt,next,forward_eq within]
  cases cs with
  | nil => rfl
  | cons c cs =>
    have both : text.drop start = ['#',c] ++ cs := shape
    simp only [List.getElem?_cons_zero,readSharp,booleanAt_eq both,charAt_eq both,markedNumberAt_eq both]
    refine placed_ite (fun _ => rfl) fun _ => placed_ite (fun _ => rfl) fun _ =>
      placed_ite (fun _ => rfl) fun _ => ?_
    cases Radix.ofMark? c <;> rfl

theorem stringAt_eq {cs : List Char} (shape : text.drop start = ['"'] ++ cs) :
    stringAt text start = placed start (readString cs) := by
  have within : start + 1 ≤ text.length := inside_of_drop shape
  have behind : text.drop (start + 1) = cs := by rw [← List.drop_drop,shape]; rfl
  rw [stringAt,forward_eq within,stringFrom_eq behind,readString]
  cases body : stringBody cs with
  | error read => rfl
  | ok result =>
    obtain ⟨read,size⟩ := result
    obtain ⟨rest,rfl,rfl⟩ := stringBody_eq_ok_iff.mp body
    have whole : text.drop start = '"' :: (read.flatMap escaped ++ ['"']) ++ rest := by
      rw [shape]
      simp
    have length : ('"' :: (read.flatMap escaped ++ ['"'])).length =
        (read.flatMap escaped).length + 1 + 1 := by simp
    have border :
        (read.flatMap escaped ++ '"' :: rest).drop ((read.flatMap escaped).length + 1) = rest := by
      rw [← List.drop_drop,List.drop_left]
      rfl
    have literal := @closedAt_eq _ _ _ _ (.atom .string (.ofList read)) whole
    rw [length] at literal
    simp only [joined,List.nil_append,border]
    rw [← literal,Nat.add_assoc,Nat.add_comm 1]

/-- Reading in place is reading what is left of the text. No slice is missing. -/
theorem readAt_eq {c : Char} {cs : List Char} (shape : text.drop start = c :: cs) :
    readAt text c start = placed start (read c cs) := by
  have one : text.drop start = [c] ++ cs := shape
  have within : start + 1 ≤ text.length := inside_of_drop one
  have inside : start ≤ text.length := by omega
  rw [readAt,read,forward_eq within,symbolAt_eq inside,plainNumberAt_eq inside,shape]
  refine placed_ite (fun _ => rfl) fun _ => placed_ite (fun semicolon => ?comment) fun _ => ?_
  case comment =>
    cases beq_iff_eq.mp semicolon
    rw [advance_eq,shape,List.takeWhile_cons_of_pos rfl,List.length_cons,Nat.add_comm _ 1]
    rfl
  refine placed_ite (fun _ => rfl) fun _ => placed_ite (fun _ => rfl) fun _ => ?_
  refine placed_ite (fun _ => rfl) fun _ => placed_ite (fun _ => rfl) fun _ => ?_
  refine placed_ite (fun point => ?point) fun _ => placed_ite (fun _ => rfl) fun _ => ?_
  case point =>
    cases beq_iff_eq.mp point
    exact dotAt_eq one
  refine placed_ite (fun quote => ?string) fun _ => placed_ite (fun sharp => ?sharp) fun _ => ?_
  case string =>
    cases beq_iff_eq.mp quote
    exact stringAt_eq one
  case sharp =>
    cases beq_iff_eq.mp sharp
    exact sharpAt_eq one
  exact placed_ite (fun _ => rfl) fun _ => placed_ite (fun _ => rfl) fun _ => rfl

/-! Words that are read twice. -/

/-- The word at an index is no number: its body has not the shape, or goes on as a symbol. -/
def fallsBack (text : List Char) (start : Nat) : Bool :=
  let stop := advance text (isNumberChar .decimal) start
  text[stop]?.any isSymbolChar || !(slice? text start stop).any (isNumberBody .decimal)

theorem startsNumber_symbolChar {c : Char} {cs : List Char} (begins : startsNumber (c :: cs) = true) :
    isSymbolChar c = true := by
  by_cases point : c = '.'
  · subst point
    rfl
  · rw [startsNumber_cons point] at begins
    exact numberStart_symbolChar begins

theorem startsNumber_inside (begins : startsNumber (text.drop start) = true) : start < text.length := by
  by_contra beyond
  rw [List.drop_eq_nil_of_le (by omega)] at begins
  contradiction

theorem numberAt_fallsBack (inside : start ≤ text.length) (falls : fallsBack text start = true) :
    numberAt text .decimal false start = symbolAt text start := by
  have body := slice?_run inside 0 (isNumberChar .decimal)
  simp only [Nat.add_zero,List.take_zero,List.nil_append] at body
  simp only [fallsBack,advance_eq,body,Option.any_some] at falls
  simp only [numberAt,Bool.false_eq_true,if_false,Bool.false_and,Bool.not_false,Bool.true_and,advance_eq,
    body,Option.bind_eq_bind,Option.bind_some]
  rw [if_pos falls]

theorem advance_le (property : Char → Bool) (inside : start ≤ text.length) :
    advance text property start ≤ text.length := by
  have run := (List.takeWhile_prefix (l := text.drop start) property).length_le
  rw [List.length_drop] at run
  rw [advance_eq]
  omega

/-- A symbol that is read in place of a number is not empty. -/
theorem lt_advance_symbol (begins : startsNumber (text.drop start) = true) :
    start < advance text isSymbolChar start := by
  have inside := startsNumber_inside begins
  rw [List.drop_eq_getElem_cons inside] at begins
  rw [advance_eq,List.drop_eq_getElem_cons inside,
    List.takeWhile_cons_of_pos (startsNumber_symbolChar begins),List.length_cons]
  omega

end Lexeme
end MiniScheme
