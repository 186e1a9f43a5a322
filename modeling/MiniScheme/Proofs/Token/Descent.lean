import MiniScheme.Proofs.Token.InPlace

/-! Scanning by descent. Nodes, quotes and lists are read by functions that call one another and
move one cursor along the text. A call that does not end has no answer, and neither has one that asks
for a slice outside the text. Every call has an answer: where text is left it moves the cursor on,
and never behind the end of the text. What is read in this way are the tokens that the scanner
finds with its stack of open lists and quotes. -/
namespace MiniScheme

structure Cursor where
  index : Nat
  pos : Position
  round : Nat
  square : Nat

namespace Cursor

def start (name : Option String) : Cursor := ⟨0,.start name,0,0⟩

def count (c : Cursor) : Bracket → Nat
  | .round => c.round
  | .square => c.square

def setCount (c : Cursor) (n : Nat) : Bracket → Cursor
  | .round => { c with round := n }
  | .square => { c with square := n }

def moveTo (text : List Char) (c : Cursor) (index : Nat) : Cursor :=
  { c with index, pos := c.pos.after ((text.drop c.index).take (index - c.index)) }

/-- Moves on over a word. -/
def past (c : Cursor) (word : List Char) : Cursor :=
  { c with index := c.index + word.length, pos := c.pos.after word }

def level (c : Cursor) : Nat := c.round + c.square

end Cursor

/-- A call that may be without an answer. -/
abbrev Descent := ExceptT SyntaxError Option

section

variable (text : List Char)

namespace Cursor

/-- The lexeme at a cursor and the index behind it. -/
def lexeme (char : Char) (c : Cursor) : Descent (Lexeme × Nat) :=
  (Lexeme.readAt text char c.index).map fun answer =>
    answer.mapError fun misfit => ⟨misfit.fault,c.pos.after ((text.drop c.index).take misfit.offset)⟩

mutual

/-- The next token. There is none where a closer is read instead, or where the text ends. -/
def node (c : Cursor) : Descent (Option Token × Cursor) :=
  match text[c.index]? with
  | none => pure (none,c)
  | some char => do
    let (lexeme,stop) ← c.lexeme text char
    c |>.take lexeme (c.moveTo text stop)
partial_fixpoint

/-- Goes on from a lexeme that begins at one cursor and ends at the next. -/
def take (c : Cursor) (lexeme : Lexeme) (next : Cursor) : Descent (Option Token × Cursor) :=
  match lexeme with
  | .gap => next |>.node
  | .opener bracket => do
    let (tokens,after) ← next.setCount (c.count bracket + 1) bracket |>.items
    pure (some (.list tokens c.pos),after)
  | .closer bracket =>
    if c.count bracket = 0 then throw ⟨.unmatchedCloser,c.pos⟩
    else pure (none,next.setCount (c.count bracket - 1) bracket)
  | .quoteMark => do
    let (inner,after) ← next |>.datum c.pos
    if inner.isSharp then do
      let (vector,after) ← after |>.datum c.pos
      pure (some (.quote .vector vector c.pos),after)
    else pure (some (.quote .list inner c.pos),after)
  | .atom kind word => pure (some (.atom kind word c.pos),next)
partial_fixpoint

/-- What stands behind a quote mark. -/
def datum (c : Cursor) (mark : Position) : Descent (Token × Cursor) := do
  let (token,after) ← c |>.node
  match token with
  | some token => pure (token,after)
  | none => throw ⟨.incompleteQuote,mark⟩
partial_fixpoint

/-- The items of a list up to where a node is missing. -/
def items (c : Cursor) : Descent (List Token × Cursor) :=
  if c.index < text.length then do
    let (token,after) ← c |>.node
    match token with
    | none => pure ([],after)
    | some token => do
      let (tokens,last) ← after |>.items
      pure (token :: tokens,last)
  else pure ([],c)
partial_fixpoint

end

/-- The nodes of the whole text. -/
def nodes (c : Cursor) : Descent (List Token × Cursor) :=
  if c.index < text.length then do
    let (token,after) ← c.node text
    let (tokens,last) ← after |>.nodes
    pure (token.toList ++ tokens,last)
  else pure ([],c)
partial_fixpoint

end Cursor

def Descent.scan (name : Option String) : Descent (List Token) := do
  let (tokens,last) ← (Cursor.start name).nodes text
  if 0 < last.round || 0 < last.square then throw ⟨.unclosedList,last.pos⟩ else pure tokens

end

namespace Descent

open Lexeme

variable {text : List Char} {c : Cursor}

/-! What a node reads first. -/

theorem node_end (ended : text.drop c.index = []) : c.node text = pure (none,c) := by
  have next : text[c.index]? = none := getElem?_of_drop ended
  rw [Cursor.node,next]

theorem lexeme_eq {char : Char} {cs : List Char} (shape : text.drop c.index = char :: cs) :
    c.lexeme text char = match read char cs with
      | .ok reading => pure (reading.lexeme,c.index + reading.size)
      | .error misfit => throw ⟨misfit.fault,c.pos.after ((char :: cs).take misfit.offset)⟩ := by
  rw [Cursor.lexeme,readAt_eq shape,shape]
  cases read char cs <;> rfl

theorem node_misfit {char : Char} {cs : List Char} {misfit : Misfit}
    (shape : text.drop c.index = char :: cs) (unread : read char cs = .error misfit) :
    c.node text = throw ⟨misfit.fault,c.pos.after ((char :: cs).take misfit.offset)⟩ := by
  have next : text[c.index]? = some char := getElem?_of_drop shape
  rw [Cursor.node,next]
  simp only [lexeme_eq shape,unread]
  rfl

theorem node_spelled {word rest : List Char} {lexeme : Lexeme} (shape : text.drop c.index = word ++ rest)
    (spelled : Lexeme.Spelled word lexeme rest) : c.node text = c.take text lexeme (c.past word) := by
  obtain ⟨char,tail,rfl⟩ := Scanner.spelled_cons spelled
  have next : text[c.index]? = some char := getElem?_of_drop shape
  have reading : read char (tail ++ rest) = .ok ⟨lexeme,(char :: tail).length⟩ :=
    Scanner.read_spelled spelled
  have moved : c.moveTo text (c.index + (char :: tail).length) = c.past (char :: tail) := by
    rw [Cursor.moveTo,Nat.add_sub_cancel_left,shape,List.take_left]
    rfl
  have whole : text.drop c.index = char :: (tail ++ rest) := shape
  rw [← moved,Cursor.node,next]
  simp only [lexeme_eq whole,reading,pure_bind]

/-! Every call has an answer. -/

/-- The call has an answer, and an answer that is no error has the property. -/
def Returns {α : Type} (call : Descent α) (property : α → Prop) : Prop :=
  ∃ answer, call.run = some answer ∧ ∀ result, answer = .ok result → property result

namespace Returns

variable {α β : Type} {property final : α → Prop} {other : β → Prop}

theorem pure {result : α} (holds : property result) : Returns (pure result) property := by
  refine ⟨.ok result,rfl,?_⟩
  rintro _ ⟨⟩
  exact holds

theorem throw {e : SyntaxError} : Returns (throw e) property :=
  ⟨.error e,rfl,fun _ impossible => by contradiction⟩

theorem bind {call : Descent α} {next : α → Descent β} (first : Returns call property)
    (rest : ∀ result, property result → Returns (next result) other) :
    Returns (call >>= next) other := by
  obtain ⟨answer,found,holds⟩ := first
  rw [Returns,ExceptT.run_bind,found]
  cases answer with
  | error e => exact throw
  | ok result => exact rest result (holds result rfl)

theorem mono {call : Descent α} (returns : Returns call property)
    (weaker : ∀ result, property result → final result) : Returns call final := by
  obtain ⟨answer,found,holds⟩ := returns
  exact ⟨answer,found,fun result good => weaker result (holds result good)⟩

theorem holds {call : Descent α} {result : α} (returns : Returns call property)
    (found : call.run = some (.ok result)) : property result := by
  obtain ⟨answer,same,holds⟩ := returns
  cases found.symm.trans same
  exact holds result rfl

end Returns

end Descent

namespace Cursor

/-- What a call does to the cursor: it moves on if it can, stays within the text, and closes so many
lists more than it opens, unless it comes to the end of the text. -/
structure Moves (text : List Char) (c after : Cursor) (closed : Nat) : Prop where
  forward : c.index ≤ after.index
  inside : after.index ≤ text.length
  onward : c.index < text.length → c.index < after.index
  level_le : c.level ≤ after.level + closed
  level_eq : after.index < text.length → c.level = after.level + closed

variable {text : List Char} {c next after last : Cursor} {closed : Nat}

/-- What holds at a cursor as soon as it holds further on in the text holds everywhere. -/
@[elab_as_elim] theorem onward_induction {motive : Cursor → Prop} (c : Cursor)
    (inside : c.index ≤ text.length)
    (step : ∀ c : Cursor, c.index ≤ text.length →
      (∀ next : Cursor, c.index < next.index → next.index ≤ text.length → motive next) → motive c) :
    motive c := by
  induction left : text.length - c.index using Nat.strong_induction_on generalizing c with
  | _ n ih =>
    refine step c inside fun next beyond within => ?_
    exact ih (text.length - next.index) (by omega) next within rfl

theorem Moves.ended (inside : c.index = text.length) : Moves text c c closed :=
  ⟨le_rfl,by omega,by omega,by omega,by omega⟩

theorem Moves.step (beyond : c.index < next.index) (within : next.index ≤ text.length)
    (level : c.level = next.level + closed) : Moves text c next closed :=
  ⟨beyond.le,within,fun _ => beyond,level.le,fun _ => level⟩

theorem Moves.trans (first : Moves text c after 0) (second : Moves text after last closed) :
    Moves text c last closed := by
  obtain ⟨forward,inside,onward,level_le,level_eq⟩ := first
  obtain ⟨forward',inside',onward',level_le',level_eq'⟩ := second
  exact ⟨by omega,by omega,by omega,by omega,by omega⟩

/-- A step over a word that opens some lists, and then a call. -/
theorem Moves.word (opened : Nat) (beyond : c.index < next.index)
    (level : next.level = c.level + opened) (moves : Moves text next after (closed + opened)) :
    Moves text c after closed := by
  obtain ⟨forward,inside,onward,level_le,level_eq⟩ := moves
  exact ⟨by omega,by omega,by omega,by omega,by omega⟩

theorem moves_past {word rest : List Char} {lexeme : Lexeme} (shape : text.drop c.index = word ++ rest)
    (spelled : Lexeme.Spelled word lexeme rest) :
    c.index < (c.past word).index ∧ (c.past word).index ≤ text.length := by
  obtain ⟨char,tail,rfl⟩ := Scanner.spelled_cons spelled
  exact ⟨Nat.lt_add_of_pos_right (Nat.succ_pos _),Lexeme.inside_of_drop shape⟩

theorem level_opened (c : Cursor) (word : List Char) (bracket : Bracket) :
    ((c.past word).setCount (c.count bracket + 1) bracket).level = c.level + 1 := by
  cases bracket <;> simp only [level,setCount,count,past] <;> omega

theorem level_closed {bracket : Bracket} (counted : 0 < c.count bracket) (word : List Char) :
    c.level = ((c.past word).setCount (c.count bracket - 1) bracket).level + 1 := by
  cases bracket <;> simp only [level,setCount,count,past] at counted ⊢ <;> omega

@[simp] theorem setCount_index (c : Cursor) (n : Nat) (bracket : Bracket) :
    (c.setCount n bracket).index = c.index := by cases bracket <;> rfl

end Cursor

namespace Descent

open Lexeme Cursor

variable {text : List Char} {c : Cursor}

/-- A node closes a list where it is none. -/
def NodeMoves (text : List Char) (c : Cursor) (result : Option Token × Cursor) : Prop :=
  Moves text c result.2 (if result.1.isNone then 1 else 0)

theorem datum_returns {mark : Position} (first : Returns (c.node text) (NodeMoves text c)) :
    Returns (c.datum text mark) fun result => Moves text c result.2 0 := by
  rw [Cursor.datum]
  refine first.bind ?_
  rintro ⟨token,after⟩ moves
  cases token with
  | none => exact .throw
  | some token => exact .pure moves

theorem items_returns (inside : c.index ≤ text.length) (first : Returns (c.node text) (NodeMoves text c))
    (further : ∀ after, c.index < after.index → after.index ≤ text.length →
      Returns (after.items text) fun result => Moves text after result.2 1) :
    Returns (c.items text) fun result => Moves text c result.2 1 := by
  rw [Cursor.items]
  split
  next left =>
    refine first.bind ?_
    rintro ⟨token,after⟩ moves
    cases token with
    | none => exact .pure moves
    | some token =>
      refine (further after (moves.onward left) moves.inside).bind ?_
      intro result rest
      exact .pure (Moves.trans moves rest)
  next ended => exact .pure (.ended (by omega))

theorem node_returns (inside : c.index ≤ text.length)
    (nodes : ∀ next, c.index < next.index → next.index ≤ text.length →
      Returns (next.node text) (NodeMoves text next))
    (lists : ∀ next, c.index < next.index → next.index ≤ text.length →
      Returns (next.items text) fun result => Moves text next result.2 1) :
    Returns (c.node text) (NodeMoves text c) := by
  cases shape : text.drop c.index with
  | nil =>
    rw [node_end shape]
    have ended : text.length ≤ c.index := List.drop_eq_nil_iff.mp shape
    exact .pure (.ended (by omega))
  | cons char cs =>
    cases found : read char cs with
    | error misfit =>
      rw [node_misfit shape found]
      exact .throw
    | ok reading =>
      obtain ⟨word,rest,whole,-,spelled⟩ := read_eq_ok_iff.mp found
      rw [whole] at shape
      obtain ⟨beyond,within⟩ := moves_past shape spelled
      rw [node_spelled shape spelled,take.eq_def]
      cases reading.lexeme with
      | gap => exact (nodes _ beyond within).mono fun _ moves => .word 0 beyond rfl moves
      | opener bracket =>
        refine (lists _ (by simpa using beyond) (by simpa using within)).bind ?_
        intro result moves
        exact .pure (.word 1 (by simpa using beyond) (level_opened ..) moves)
      | closer bracket =>
        dsimp only
        split
        next => exact .throw
        next counted =>
          have level := level_closed (Nat.pos_of_ne_zero counted) word
          exact .pure (.step (by simpa using beyond) (by simpa using within) level)
      | quoteMark =>
        refine (datum_returns (nodes _ beyond within)).bind ?_
        rintro ⟨inner,after⟩ moves
        dsimp only
        split
        next =>
          have further := nodes after (beyond.trans_le moves.forward) moves.inside
          refine (datum_returns further).bind ?_
          intro result rest
          exact .pure (.word 0 beyond rfl (moves.trans rest))
        next => exact .pure (.word 0 beyond rfl moves)
      | atom kind text => exact .pure (.step beyond within rfl)

/-- Every call of a node ends, and so does every call of a list. -/
theorem returns (inside : c.index ≤ text.length) : Returns (c.node text) (NodeMoves text c) ∧
    Returns (c.items text) fun result => Moves text c result.2 1 := by
  refine onward_induction c inside fun c inside further => ?_
  have lists := fun next beyond within => (further next beyond within).2
  have first := node_returns inside (fun next beyond within => (further next beyond within).1) lists
  exact ⟨first,items_returns inside first lists⟩

end Descent

/-! The scanner does the same with a stack. -/

namespace Scanner

/-- No quote waits where a token is handed over that is no vector mark. -/
theorem deliver_top {token : Token} (whole : token.isSharp = false) (stack : List Opening)
    (done : List Token) :
    ∀ opening, (deliver token stack done).1.head? = some opening → opening.isList = true := by
  induction stack generalizing token with
  | nil => simp [deliver]
  | cons opening stack ih =>
    cases opening with
    | list items pos =>
      rintro _ ⟨⟩
      rfl
    | quote pos =>
      rw [deliver,whole]
      exact ih rfl
    | vectorQuote pos => exact ih rfl

/-- A text that ends inside a list is refused. -/
theorem finish_unclosed {s : Scanner}
    (top : ∀ opening, s.stack.head? = some opening → opening.isList = true)
    (counted : 0 < s.round + s.square) : s.finish = .error ⟨.unclosedList,s.pos⟩ := by
  rw [finish]
  split
  next shape => simp [shape,Opening.isList] at top
  next shape => simp [shape,Opening.isList] at top
  next => rw [if_pos (by simp; omega)]

end Scanner

namespace Cursor

variable {text : List Char} {c after : Cursor} {stack below : List Opening} {closed : Nat}

/-- The scanner at a cursor, where this is open and this is done. -/
def scanner (c : Cursor) (stack : List Opening) (done : List Token) : Scanner :=
  ⟨c.pos,c.round,c.square,stack,done⟩

/-- The open lists are counted. Only at the end of the text more may be counted, where lists were
left open. -/
structure Counts (text : List Char) (c : Cursor) (stack : List Opening) : Prop where
  le : stack.countP Opening.isList ≤ c.level
  eq : c.index < text.length → c.level = stack.countP Opening.isList

theorem Counts.of_eq (same : c.level = stack.countP Opening.isList) : Counts text c stack :=
  ⟨same.ge,fun _ => same⟩

theorem Counts.moves (counts : Counts text c stack) (moves : Moves text c after closed)
    (fewer : stack.countP Opening.isList = below.countP Opening.isList + closed) :
    Counts text after below := by
  obtain ⟨le,eq⟩ := counts
  obtain ⟨forward,inside,onward,level_le,level_eq⟩ := moves
  exact ⟨by omega,by omega⟩

end Cursor

namespace Descent

open Lexeme Cursor Scanner

/-- The call gives this result if its own result is taken on in this way. -/
def Yields {α : Type} (call : Descent α) (result : Except SyntaxError (List Token))
    (onward : α → Except SyntaxError (List Token)) : Prop :=
  ∃ answer, call.run = some answer ∧ result = answer >>= onward

namespace Yields

variable {α β : Type} {result : Except SyntaxError (List Token)}
  {middle : α → Except SyntaxError (List Token)} {onward : β → Except SyntaxError (List Token)}

theorem pure {a : α} (same : result = middle a) : Yields (pure a) result middle := ⟨.ok a,rfl,same⟩

theorem throw {e : SyntaxError} (same : result = .error e) : Yields (throw e) result middle :=
  ⟨.error e,rfl,same⟩

theorem bind {call : Descent α} {next : α → Descent β} (first : Yields call result middle)
    (rest : ∀ a, call.run = some (.ok a) → Yields (next a) (middle a) onward) :
    Yields (call >>= next) result onward := by
  obtain ⟨answer,found,rfl⟩ := first
  rw [Yields,ExceptT.run_bind,found]
  cases answer with
  | error e => exact throw rfl
  | ok a => exact rest a found

end Yields

variable {text : List Char} {c : Cursor} {stack : List Opening} {done : List Token}

/-- Scanning on at a cursor. -/
def scanFrom (text : List Char) (c : Cursor) (stack : List Opening) (done : List Token) :
    Except SyntaxError (List Token) := run (text.drop c.index) 0 (c.scanner stack done)

/-- Scanning on with a token that has just ended. -/
def addFrom (text : List Char) (token : Token) (c : Cursor) (stack : List Opening) (done : List Token) :
    Except SyntaxError (List Token) := run (text.drop c.index) 0 ((c.scanner stack done).add token)

/-- Scanning on behind a node. Where it is none, an open list ends. -/
def resume (text : List Char) (stack : List Opening) (done : List Token) :
    Option Token × Cursor → Except SyntaxError (List Token)
  | (some token,after) => addFrom text token after stack done
  | (none,after) =>
    match stack with
    | [] => scanFrom text after [] done
    | .list items place :: below => addFrom text (.list items.reverse place) after below done
    | .quote place :: _ | .vectorQuote place :: _ => .error ⟨.incompleteQuote,place⟩

/-- At the end of the text a list that is open ends in the same error as one that has just ended. -/
theorem addFrom_end {token : Token} (ended : text.drop c.index = []) (whole : token.isSharp = false)
    (counted : 0 < c.level) : addFrom text token c stack done = .error ⟨.unclosedList,c.pos⟩ := by
  rw [addFrom,ended]
  exact finish_unclosed (deliver_top whole stack done) counted

theorem scanFrom_end {items : List Token} {place : Position} (ended : text.drop c.index = [])
    (counts : Counts text c (.list items place :: stack)) :
    scanFrom text c (.list items place :: stack) done =
      addFrom text (.list items.reverse place) c stack done := by
  have counted : 0 < c.level := by
    have le := counts.le
    rw [List.countP_cons_of_pos rfl] at le
    omega
  rw [addFrom_end ended rfl counted,scanFrom,ended]
  refine finish_unclosed ?_ counted
  rintro _ ⟨⟩
  rfl

theorem drop_past_word {word rest : List Char} (shape : text.drop c.index = word ++ rest) :
    text.drop (c.past word).index = rest := by
  change text.drop (c.index + word.length) = rest
  rw [← List.drop_drop,shape,List.drop_left]

theorem datum_yields {mark : Position} {quote : Opening} (waits : quote.isList = false)
    (place : quote.pos = mark) (first : Yields (c.node text) (scanFrom text c (quote :: stack) done)
      (resume text (quote :: stack) done)) :
    Yields (c.datum text mark) (scanFrom text c (quote :: stack) done)
      fun result => addFrom text result.1 result.2 (quote :: stack) done := by
  rw [Cursor.datum]
  refine first.bind ?_
  rintro ⟨token,after⟩ -
  cases token with
  | some token => exact .pure rfl
  | none =>
    subst place
    refine .throw ?_
    cases quote with
    | list => contradiction
    | quote | vectorQuote => rfl

/-- Nodes are read as the scanner goes on, whatever is open. -/
def NodeYields (text : List Char) (done : List Token) (c : Cursor) : Prop :=
  ∀ stack, Counts text c stack →
    Yields (c.node text) (scanFrom text c stack done) (resume text stack done)

/-- Items are read behind those that an open list has, and then the list has ended. -/
def ItemsYield (text : List Char) (done : List Token) (c : Cursor) : Prop :=
  ∀ before place stack, Counts text c (.list before place :: stack) →
    Yields (c.items text) (scanFrom text c (.list before place :: stack) done)
      fun result => addFrom text (.list (before.reverse ++ result.1) place) result.2 stack done

theorem items_yield (inside : c.index ≤ text.length) (first : NodeYields text done c)
    (further : ∀ after, c.index < after.index → after.index ≤ text.length → ItemsYield text done after) :
    ItemsYield text done c := by
  intro before place stack counts
  rw [Cursor.items]
  split
  next left =>
    refine (first _ counts).bind ?_
    rintro ⟨token,after⟩ found
    have moves : NodeMoves text c (token,after) := (returns inside).1.holds found
    cases token with
    | none =>
      refine .pure ?_
      rw [List.append_nil]
      rfl
    | some token =>
      have rest := further after (moves.onward left) moves.inside (token :: before) place stack
        (counts.moves moves rfl)
      refine rest.bind ?_
      intro result _
      refine .pure ?_
      rw [List.reverse_cons,List.append_assoc]
      rfl
  next ended =>
    refine .pure ?_
    rw [List.append_nil,scanFrom_end (List.drop_eq_nil_of_le (by omega)) counts]

section

variable {word rest : List Char} (shape : text.drop c.index = word ++ rest)
  (level : c.level = stack.countP Opening.isList)

include shape level

/-- A closer ends the innermost list, and is refused where the scanner refuses it. -/
theorem take_closer_yields {bracket : Bracket} (spelled : Spelled word (.closer bracket) rest) :
    Yields (c.take text (.closer bracket) (c.past word)) (scanFrom text c stack done)
      (resume text stack done) := by
  have same : (c.scanner stack done).count bracket = c.count bracket := by cases bracket <;> rfl
  rw [Cursor.take,scanFrom,shape]
  split
  next uncounted =>
    exact .throw (run_refused spelled (take_closer_uncounted (same.trans uncounted)))
  next counted =>
    have positive : 0 < (c.scanner stack done).count bracket := by
      rw [same]
      exact Nat.pos_of_ne_zero counted
    refine .pure ?_
    cases stack with
    | nil =>
      have lower := level_closed (Nat.pos_of_ne_zero counted) word
      rw [level] at lower
      contradiction
    | cons opening below =>
      cases opening with
      | list items place =>
        rw [run_word spelled (take_closer_of_top positive rfl),← drop_past_word shape]
        cases bracket <;> rfl
      | quote | vectorQuote => exact run_refused spelled (take_closer_quoted positive rfl rfl)

/-- A quote waits for a datum, and for one more if the first is a vector mark. -/
theorem take_quote_yields (spelled : Spelled word .quoteMark rest)
    (nodes : ∀ next, c.index < next.index → next.index ≤ text.length → NodeYields text done next) :
    Yields (c.take text .quoteMark (c.past word)) (scanFrom text c stack done)
      (resume text stack done) := by
  obtain ⟨beyond,within⟩ := moves_past shape spelled
  have waits : Counts text (c.past word) (.quote c.pos :: stack) := by
    refine .of_eq ?_
    rw [List.countP_cons_of_neg (by simp [Opening.isList])]
    exact level
  rw [Cursor.take,scanFrom,shape,run_word spelled rfl,← drop_past_word shape]
  refine (datum_yields rfl rfl (nodes _ beyond within _ waits)).bind ?_
  rintro ⟨inner,behind⟩ found
  have moves : Moves text (c.past word) behind 0 := (datum_returns (returns within).1).holds found
  dsimp only
  split
  next sharp =>
    have vector : addFrom text inner behind (.quote c.pos :: stack) done =
        scanFrom text behind (.vectorQuote c.pos :: stack) done := by
      rw [addFrom,add,scanner,deliver,if_pos sharp]
      rfl
    have still : Counts text behind (.vectorQuote c.pos :: stack) := waits.moves moves rfl
    have second := nodes behind (beyond.trans_le moves.forward) moves.inside _ still
    rw [vector]
    exact (datum_yields rfl rfl second).bind fun result _ => .pure rfl
  next plain =>
    refine .pure ?_
    rw [addFrom,add,scanner,deliver,if_neg plain]
    rfl

/-- An opener opens a list without items. -/
theorem take_opener_yields {bracket : Bracket} (spelled : Spelled word (.opener bracket) rest)
    (lists : ∀ next, c.index < next.index → next.index ≤ text.length → ItemsYield text done next) :
    Yields (c.take text (.opener bracket) (c.past word)) (scanFrom text c stack done)
      (resume text stack done) := by
  obtain ⟨beyond,within⟩ := moves_past shape spelled
  have deeper : Counts text ((c.past word).setCount (c.count bracket + 1) bracket)
      (.list [] c.pos :: stack) := by
    refine .of_eq ?_
    rw [level_opened,level,List.countP_cons_of_pos rfl]
  have list := lists _ (by simpa using beyond) (by simpa using within) [] c.pos stack deeper
  rw [Cursor.take,scanFrom,shape,run_word spelled rfl,← drop_past_word shape]
  refine Yields.bind ?_ fun result _ => .pure rfl
  cases bracket <;> exact list

end

theorem node_yields
    (nodes : ∀ next, c.index < next.index → next.index ≤ text.length → NodeYields text done next)
    (lists : ∀ next, c.index < next.index → next.index ≤ text.length → ItemsYield text done next) :
    NodeYields text done c := by
  intro stack counts
  cases shape : text.drop c.index with
  | nil =>
    rw [node_end shape]
    refine .pure ?_
    cases stack with
    | nil => rfl
    | cons opening stack =>
      cases opening with
      | list => exact scanFrom_end shape counts
      | quote | vectorQuote =>
        rw [scanFrom,shape]
        rfl
  | cons char cs =>
    cases found : Lexeme.read char cs with
    | error misfit =>
      rw [node_misfit shape found]
      refine .throw ?_
      rw [scanFrom,shape,run_misfit found]
      rfl
    | ok reading =>
      obtain ⟨word,rest,whole,-,spelled⟩ := read_eq_ok_iff.mp found
      rw [whole] at shape
      obtain ⟨beyond,within⟩ := moves_past shape spelled
      have level : c.level = stack.countP Opening.isList := counts.eq (beyond.trans_le within)
      rw [node_spelled shape spelled]
      generalize reading.lexeme = lexeme at spelled
      cases lexeme with
      | gap =>
        rw [Cursor.take,scanFrom,shape,run_word spelled rfl,← drop_past_word shape]
        exact nodes _ beyond within stack (.of_eq level)
      | opener bracket => exact take_opener_yields shape level spelled lists
      | closer bracket => exact take_closer_yields shape level spelled
      | quoteMark => exact take_quote_yields shape level spelled nodes
      | atom kind text =>
        rw [Cursor.take,scanFrom,shape,run_word spelled rfl,← drop_past_word shape]
        exact .pure rfl

/-- From every cursor the calls do what the scanner does. -/
theorem yields (inside : c.index ≤ text.length) : NodeYields text done c ∧ ItemsYield text done c := by
  refine onward_induction c inside fun c inside further => ?_
  have lists := fun next beyond within => (further next beyond within).2
  have first := node_yields (fun next beyond within => (further next beyond within).1) lists
  exact ⟨first,items_yield inside first lists⟩

theorem nodes_yield (inside : c.index ≤ text.length) : ∀ done, Counts text c [] →
    Yields (c.nodes text) (scanFrom text c [] done)
      fun result => (result.2.scanner [] (result.1.reverse ++ done)).finish := by
  refine onward_induction c inside fun c inside further done counts => ?_
  rw [Cursor.nodes]
  split
  next more =>
    refine ((yields inside).1 [] counts).bind ?_
    rintro ⟨token,after⟩ found
    have moves : NodeMoves text c (token,after) := (returns inside).1.holds found
    have rest := further after (moves.onward more) moves.inside
    cases token with
    | none =>
      -- no list is open, so what has been missed is the end of the text
      have ended : Counts text after [] := by
        refine ⟨Nat.zero_le _,fun left => ?_⟩
        have lower : c.level = after.level + 1 := moves.level_eq left
        have none : c.level = 0 := counts.eq more
        omega
      exact (rest done ended).bind fun result _ => .pure rfl
    | some token =>
      refine (rest (token :: done) (counts.moves moves rfl)).bind fun result _ => .pure ?_
      simp
  next ended =>
    refine .pure ?_
    rw [scanFrom,List.drop_eq_nil_of_le (by omega)]
    rfl

/-- Descent ends on every text, with the answer of the scanner. -/
theorem scan_eq (text : List Char) (name : Option String) :
    (scan text name).run = some (run text 0 (.start name)) := by
  have answers : Yields (scan text name) (run text 0 (.start name)) .ok := by
    have counts : Counts text (.start name) [] := .of_eq rfl
    refine (nodes_yield (Nat.zero_le _) [] counts).bind ?_
    rintro ⟨tokens,last⟩ -
    simp only [finish,scanner,List.append_nil,List.reverse_reverse]
    split
    next => exact .throw rfl
    next => exact .pure rfl
  obtain ⟨answer,found,same⟩ := answers
  rw [found,same]
  cases answer <;> rfl

end Descent

namespace Token

open Lexeme Descent

/-- Scanning always makes progress. Wherever a node is read, the call has an answer, and an answer
that is no error leaves the cursor within the text, and further on if text was left. Where a word
that starts like a number is none, it is read again as a symbol from its first character, and this
takes at least one character. So scanning by descent ends on every text, asks for no slice outside
the text, and gives the answer of the scanner. -/
theorem scanning_progresses (text : String) (name : Option String) :
    (∀ c : Cursor, c.index ≤ text.toList.length → ∃ answer, (c.node text.toList).run = some answer ∧
      ∀ token after, answer = .ok (token,after) → after.index ≤ text.toList.length ∧
        (c.index < text.toList.length → c.index < after.index)) ∧
    (∀ start, startsNumber (text.toList.drop start) = true → fallsBack text.toList start = true →
      numberAt text.toList .decimal false start = symbolAt text.toList start ∧
      start < advance text.toList isSymbolChar start ∧
      advance text.toList isSymbolChar start ≤ text.toList.length) ∧
    (Descent.scan text.toList name).run = some (scan text name) := by
  refine ⟨?_,?_,scan_eq text.toList name⟩
  · intro c inside
    obtain ⟨answer,found,moves⟩ := (returns inside).1
    exact ⟨answer,found,fun token after same => ⟨(moves _ same).inside,(moves _ same).onward⟩⟩
  · intro start begins falls
    have inside := (startsNumber_inside begins).le
    exact ⟨numberAt_fallsBack inside falls,lt_advance_symbol begins,advance_le isSymbolChar inside⟩

/-- An open list with a word that is read twice, and a quote mark with nothing behind it. -/
theorem scanning_progresses_malformed :
    fallsBack "(1+x '".toList 1 = true ∧
    numberAt "(1+x '".toList .decimal false 1 = symbolAt "(1+x '".toList 1 ∧
    1 < advance "(1+x '".toList isSymbolChar 1 ∧
    (∃ answer, (Cursor.node "(1+x '".toList (.start none)).run = some answer) ∧
    (Descent.scan "(1+x '".toList none).run = some (.error ⟨.incompleteQuote,⟨1,6,none⟩⟩) := by
  obtain ⟨calls,words,answer⟩ := scanning_progresses "(1+x '" none
  have falls : fallsBack "(1+x '".toList 1 = true := by
    rw [fallsBack,advance_eq]
    decide
  obtain ⟨again,onward,-⟩ := words 1 (by decide) falls
  obtain ⟨first,found,-⟩ := calls (.start none) (Nat.zero_le _)
  exact ⟨falls,again,onward,⟨first,found⟩,answer⟩

end Token
end MiniScheme
