import MiniScheme.Proofs.Token.Lawful

/-! Writing token trees. `render` writes out the trees that scanning can give, and scanning what was
written gives the same tree at other places. Between the two stand lexemes: a rendered text falls
into the lexemes of its tree, and these build the tree. -/
namespace MiniScheme

namespace Lexeme

/-- `Lexes text lexemes rest`: before `rest`, the text falls into these lexemes and gaps. -/
inductive Lexes : List Char → List Lexeme → List Char → Prop where
  | nil {rest : List Char} : Lexes [] [] rest
  | gap {word text rest : List Char} {lexemes : List Lexeme} :
      Spelled word .gap (text ++ rest) → Lexes text lexemes rest → Lexes (word ++ text) lexemes rest
  | word {word text rest : List Char} {lexeme : Lexeme} {lexemes : List Lexeme} :
      Spelled word lexeme (text ++ rest) → Lexes text lexemes rest →
      Lexes (word ++ text) (lexeme :: lexemes) rest

theorem Lexes.append {first second rest : List Char} {before after : List Lexeme}
    (left : Lexes first before (second ++ rest)) (right : Lexes second after rest) :
    Lexes (first ++ second) (before ++ after) rest := by
  generalize follow : second ++ rest = following at left
  induction left with
  | nil => exact right
  | gap spelled _ ih =>
    subst follow
    rw [List.append_assoc]
    exact .gap (by rwa [List.append_assoc]) (ih rfl)
  | word spelled _ ih =>
    subst follow
    rw [List.append_assoc]
    exact .word (by rwa [List.append_assoc]) (ih rfl)

theorem Lexes.one {word rest : List Char} {lexeme : Lexeme} (spelled : Spelled word lexeme rest) :
    Lexes word [lexeme] rest := by
  have lexes : Lexes (word ++ []) [lexeme] rest := .word spelled .nil
  rwa [List.append_nil] at lexes

theorem Lexes.blank (rest : List Char) : Lexes [' '] [] rest := .gap (.blank rfl) .nil

theorem Lexes.enclose {text rest : List Char} {lexemes : List Lexeme}
    (inside : Lexes text lexemes (')' :: rest)) :
    Lexes ('(' :: text ++ [')']) (.opener .round :: lexemes ++ [.closer .round]) rest := by
  have opening : Lexes ['('] [.opener .round] (text ++ [')'] ++ rest) := .one (.opener .round)
  have closing : Lexes [')'] [.closer .round] rest := .one (.closer .round)
  have tail : Lexes (text ++ [')']) (lexemes ++ [.closer .round]) rest := inside.append closing
  exact opening.append tail

end Lexeme

namespace Token

open Lexeme

mutual

/-- Atoms as they are spelled, round brackets around lists, and a blank behind every token except
the vector mark, which stands right before its list. -/
def render : Token → List Char
  | atom .sharp _ _ => ['#']
  | atom kind text _ => kind.spelling text ++ [' ']
  | list items _ => '(' :: renderAll items ++ [')',' ']
  | quote .list inner _ => '\x27' :: inner.render
  | quote .vector inner _ => '\x27' :: '#' :: inner.render

def renderAll : List Token → List Char
  | [] => []
  | token :: tokens => token.render ++ renderAll tokens

end

mutual

def lexemes : Token → List Lexeme
  | atom kind text _ => [.atom kind text]
  | list items _ => .opener .round :: lexemesAll items ++ [.closer .round]
  | quote .list inner _ => .quoteMark :: inner.lexemes
  | quote .vector inner _ => .quoteMark :: .atom .sharp "#" :: inner.lexemes

def lexemesAll : List Token → List Lexeme
  | [] => []
  | token :: tokens => token.lexemes ++ lexemesAll tokens

end

theorem lexemesAll_append (first second : List Token) :
    lexemesAll (first ++ second) = lexemesAll first ++ lexemesAll second := by
  induction first with
  | nil => rfl
  | cons token tokens ih => rw [List.cons_append,lexemesAll,ih,lexemesAll,List.append_assoc]

/-- A list is written with its bracket first. -/
theorem render_list {token : Token} (list : token.isList = true) (rest : List Char) :
    (token.render ++ rest).head?.any isOpener = true := by
  cases token with
  | list items pos => rfl
  | atom | quote => contradiction

theorem lexes_atom {kind : AtomKind} {text : String} (admitted : kind.admits text = true)
    (noSharp : kind ≠ .sharp) (rest : List Char) :
    Lexes (kind.spelling text ++ [' ']) [.atom kind text] rest := by
  have border : kind.border (' ' :: rest) = true := by
    cases kind <;> first | rfl | contradiction
  exact (Lexes.one (.atom admitted border)).append (.blank rest)

theorem lexes_sharp {text : String} (admitted : AtomKind.sharp.admits text = true) {rest : List Char}
    (border : rest.head?.any isOpener = true) : Lexes ['#'] [.atom .sharp text] rest := by
  have spelled : Spelled (AtomKind.sharp.spelling text) (.atom .sharp text) rest := .atom admitted border
  have shape : AtomKind.sharp.spelling text = ['#'] := by
    simpa [AtomKind.admits,AtomKind.spelling] using admitted
  rw [shape] at spelled
  exact .one spelled

theorem lexes_dot {rest : List Char} (border : rest.head?.any isSplitter = true) :
    Lexes ['.'] [.atom .dot "."] rest := by
  have spelled : Spelled (AtomKind.dot.spelling ".") (.atom .dot ".") rest := .atom rfl border
  exact .one spelled

theorem lexes_quoteMark (rest : List Char) : Lexes ['\x27'] [.quoteMark] rest := .one (.quoteMark rfl)

mutual

/-- A rendered token falls into its lexemes, whatever follows: only the vector mark needs its list
behind it. -/
theorem render_lexes : (token : Token) → token.Lawful → (rest : List Char) →
    (token.isSharp = true → rest.head?.any isOpener = true) →
    Lexes token.render token.lexemes rest
  | atom kind text pos, lawful, rest, border => by
    cases kind with
    | sharp => exact lexes_sharp lawful (border rfl)
    | number | string | char | boolean | symbol | dot =>
      exact lexes_atom lawful (by simp) rest
  | list items pos, lawful, rest, _ => by
    have inside := renderAll_lexes items lawful (')' :: ' ' :: rest)
    have whole := inside.enclose.append (.blank rest)
    rw [List.append_nil,List.append_assoc] at whole
    exact whole
  | quote .list inner pos, lawful, rest, _ => by
    exact (lexes_quoteMark _).append (render_lexes inner lawful.2 rest (no_mark lawful.1))
  | quote .vector inner pos, lawful, rest, _ => by
    have mark : Lexes ['#'] [.atom .sharp "#"] (inner.render ++ rest) :=
      lexes_sharp rfl (render_list lawful.1 rest)
    have list := render_lexes inner lawful.2 rest (no_mark (isList_not_sharp lawful.1))
    exact (lexes_quoteMark _).append (mark.append list)

theorem renderAll_lexes : (tokens : List Token) → LawfulAll tokens → (rest : List Char) →
    Lexes (renderAll tokens) (lexemesAll tokens) rest
  | [], _, rest => .nil
  | token :: tokens, lawful, rest => by
    obtain ⟨head,mark,tail⟩ := lawful
    have border (sharp : token.isSharp = true) :
        (renderAll tokens ++ rest).head?.any isOpener = true := by
      cases tokens with
      | nil => exact absurd (mark sharp) (by decide)
      | cons next tokens =>
        rw [renderAll,List.append_assoc]
        exact render_list (by simpa using mark sharp) _
    exact (render_lexes token head _ border).append (renderAll_lexes tokens tail rest)

end

end Token

namespace Scanner

open Lexeme

/-- Takes in lexemes one after the other, all at one place. -/
def takeAll (s : Scanner) (lexemes : List Lexeme) : Except SyntaxError Scanner :=
  lexemes.foldlM take s

def addAll (s : Scanner) (tokens : List Token) : Scanner := tokens.foldl add s

theorem takeAll_append {s next : Scanner} {first second : List Lexeme}
    (taken : s.takeAll first = .ok next) : s.takeAll (first ++ second) = next.takeAll second := by
  rw [takeAll] at taken
  rw [takeAll,List.foldlM_append,taken]
  rfl

theorem takeAll_cons {s next : Scanner} {lexeme : Lexeme} {lexemes : List Lexeme}
    (taken : s.take lexeme = .ok next) : s.takeAll (lexeme :: lexemes) = next.takeAll lexemes := by
  rw [takeAll,List.foldlM_cons,taken]
  rfl

theorem takeAll_cons_ok {s final : Scanner} {lexeme : Lexeme} {lexemes : List Lexeme}
    (taken : s.takeAll (lexeme :: lexemes) = .ok final) :
    ∃ next, s.take lexeme = .ok next ∧ next.takeAll lexemes = .ok final := by
  rw [takeAll,List.foldlM_cons] at taken
  cases first : s.take lexeme with
  | error e => rw [first] at taken; contradiction
  | ok next =>
    rw [first] at taken
    exact ⟨next,rfl,taken⟩

/-- Tokens behind an open list become its items. -/
theorem addAll_list (s : Scanner) (tokens items : List Token) (pos : Position)
    (stack : List Opening) :
    { s with stack := .list items pos :: stack }.addAll tokens =
      { s with stack := .list (tokens.reverse ++ items) pos :: stack } := by
  induction tokens generalizing items with
  | nil => rfl
  | cons token tokens ih =>
    have added : { s with stack := .list items pos :: stack }.add token =
        { s with stack := .list (token :: items) pos :: stack } := rfl
    have rest := ih (token :: items)
    rw [addAll] at rest
    rw [addAll,List.foldl_cons,added,rest,List.reverse_cons,List.append_assoc]
    rfl

mutual

/-- The lexemes of a token build the token, at the scanner's place. -/
theorem takeAll_lexemes : (token : Token) → token.Lawful → (s : Scanner) →
    s.takeAll token.lexemes = .ok (s.add (token.mapPos fun _ => s.pos))
  | .atom kind text pos, _, s => rfl
  | .list items pos, lawful, s => by
    have opening : s.take (.opener .round) =
        .ok { s with round := s.round + 1, stack := .list [] s.pos :: s.stack } := rfl
    have inside := takeAll_lexemesAll items lawful
      { s with round := s.round + 1, stack := .list [] s.pos :: s.stack }
    rw [addAll_list { s with round := s.round + 1 },List.append_nil] at inside
    rw [Token.lexemes,List.cons_append,takeAll_cons opening,takeAll_append inside]
    have closing : { s with
          round := s.round + 1
          stack := .list (items.map (Token.mapPos fun _ => s.pos)).reverse s.pos :: s.stack }.take
            (.closer .round) = .ok (s.add (.list (items.map (Token.mapPos fun _ => s.pos)) s.pos)) := by
      simp [take,count,setCount,close]
    rw [takeAll_cons closing,Token.mapPos,Token.mapPosAll_eq_map]
    rfl
  | .quote .list inner pos, lawful, s => by
    have mark : s.take .quoteMark = .ok { s with stack := .quote s.pos :: s.stack } := rfl
    rw [Token.lexemes,takeAll_cons mark,takeAll_lexemes inner lawful.2]
    have plain : (inner.mapPos fun _ => s.pos).isSharp = false := by
      rw [Token.isSharp_mapPos,lawful.1]
    simp [add,deliver,plain,Token.mapPos]
  | .quote .vector inner pos, lawful, s => by
    have mark : s.take .quoteMark = .ok { s with stack := .quote s.pos :: s.stack } := rfl
    have sharp : { s with stack := .quote s.pos :: s.stack }.take (.atom .sharp "#") =
        .ok { s with stack := .vectorQuote s.pos :: s.stack } := rfl
    rw [Token.lexemes,takeAll_cons mark,takeAll_cons sharp,takeAll_lexemes inner lawful.2]
    rfl

theorem takeAll_lexemesAll : (tokens : List Token) → Token.LawfulAll tokens → (s : Scanner) →
    s.takeAll (Token.lexemesAll tokens) = .ok (s.addAll (tokens.map (Token.mapPos fun _ => s.pos)))
  | [], _, s => rfl
  | token :: tokens, lawful, s => by
    rw [Token.lexemesAll,takeAll_append (takeAll_lexemes token lawful.1 s),
      takeAll_lexemesAll tokens lawful.2.2]
    rfl

end

/-- Tokens at the top level are finished. -/
theorem addAll_top {s : Scanner} (top : s.stack = []) (tokens : List Token) :
    s.addAll tokens = { s with done := tokens.reverse ++ s.done } := by
  induction tokens generalizing s with
  | nil => rfl
  | cons token tokens ih =>
    have added : s.add token = { s with done := token :: s.done } := by simp [add,deliver,top]
    have rest := ih (s := { s with done := token :: s.done }) top
    rw [addAll] at rest
    rw [addAll,List.foldl_cons,added,rest,List.reverse_cons,List.append_assoc]
    rfl

theorem addAll_finish (source : Option String) (tokens : List Token) :
    ((start source).addAll tokens).finish = .ok tokens := by
  rw [addAll_top rfl]
  simp [finish,start]

/-- A scanner without places. -/
def bare (s : Scanner) : Scanner := s.placed (fun _ => .nowhere) []

/-- Scanners that differ in places only take the same lexemes, and differ in places only. -/
theorem take_bare {s t next : Scanner} {lexeme : Lexeme} (same : t.bare = s.bare)
    (taken : s.take lexeme = .ok next) : ∃ after, t.take lexeme = .ok after ∧ after.bare = next.bare := by
  have left : s.bare.take lexeme = _ := take_placed (fun _ => .nowhere) [] s lexeme
  have right : t.bare.take lexeme = _ := take_placed (fun _ => .nowhere) [] t lexeme
  rw [same,left,taken] at right
  exact SyntaxError.ok_of_moved right.symm

theorem finish_bare {s t : Scanner} {tokens : List Token} (same : t.bare = s.bare)
    (finished : s.finish = .ok tokens) :
    ∃ others, t.finish = .ok others ∧ others.map Token.bare = tokens.map Token.bare := by
  have left : s.bare.finish = _ := finish_placed (fun _ => .nowhere) [] s
  have right : t.bare.finish = _ := finish_placed (fun _ => .nowhere) [] t
  rw [same,left,finished] at right
  exact SyntaxError.ok_of_moved right.symm

/-- A text whose lexemes can be taken is scanned along the same states, up to places. -/
theorem scans_of_lexes {text : List Char} {lexemes : List Lexeme} (lexes : Lexes text lexemes [])
    {s t final : Scanner} (same : t.bare = s.bare) (taken : s.takeAll lexemes = .ok final) :
    ∃ other, Scans t text other ∧ other.bare = final.bare := by
  generalize follow : ([] : List Char) = rest at lexes
  induction lexes generalizing s t with
  | nil =>
    cases taken
    exact ⟨t,.nil,same⟩
  | gap spelled _ ih =>
    subst follow
    rw [List.append_nil] at spelled
    obtain ⟨other,scans,final⟩ := ih (t := t.skip _) same taken rfl
    exact ⟨other,.word spelled rfl scans,final⟩
  | word spelled _ ih =>
    subst follow
    rw [List.append_nil] at spelled
    obtain ⟨next,first,rest⟩ := takeAll_cons_ok taken
    obtain ⟨after,taken,next⟩ := take_bare same first
    obtain ⟨other,scans,final⟩ := ih (t := after.skip _) next rest rfl
    exact ⟨other,.word spelled taken scans,final⟩

end Scanner

namespace Token

/-- A text that falls into the lexemes of lawful tokens is scanned to these tokens. -/
theorem scan_of_lexes {text : String} {tokens : List Token} (lawful : LawfulAll tokens)
    (lexes : Lexeme.Lexes text.toList (lexemesAll tokens) []) (source : Option String) :
    ∃ found, scan text source = .ok found ∧ found.map bare = tokens.map bare := by
  have taken := Scanner.takeAll_lexemesAll tokens lawful (.start source)
  have finished := Scanner.addAll_finish source (tokens.map (mapPos fun _ => .start source))
  obtain ⟨final,scans,same⟩ := Scanner.scans_of_lexes lexes rfl taken
  obtain ⟨found,accepted,places⟩ := Scanner.finish_bare same finished
  refine ⟨found,scans.run_eq.trans accepted,?_⟩
  rw [places,List.map_map]
  exact List.map_congr_left fun token _ => bare_mapPos _ token

/-- Writing out the tokens of a text and scanning them again gives the same tokens, up to places. -/
theorem scan_render {text : String} {source : Option String} {tokens : List Token}
    (accepted : scan text source = .ok tokens) (name : Option String) :
    ∃ again, scan (String.ofList (renderAll tokens)) name = .ok again ∧
      again.map bare = tokens.map bare := by
  have lawful := scan_lawful accepted
  have lexes := renderAll_lexes tokens lawful []
  rw [← String.toList_ofList (l := renderAll tokens)] at lexes
  exact scan_of_lexes lawful lexes name

/-- A quoted vector in a list of square brackets, and a vector that holds `1+`. -/
theorem scan_render_vectors :
    scan "['#(\"q\\\"\" #\\))] #(1+)" none = .ok [.list [.quote .vector (.list
        [.atom .string "q\"" ⟨1,5,none⟩,.atom .char ")" ⟨1,11,none⟩] ⟨1,4,none⟩) ⟨1,2,none⟩] ⟨1,1,none⟩,
      .atom .sharp "#" ⟨1,17,none⟩,.list [.atom .symbol "1+" ⟨1,19,none⟩] ⟨1,18,none⟩] ∧
    ∃ again, scan "('#(\"q\\\"\" #\\) ) ) #(1+ ) " none = .ok again ∧
      again.map bare = [.list [.quote .vector (.list
          [.atom .string "q\"" .nowhere,.atom .char ")" .nowhere] .nowhere) .nowhere] .nowhere,
        .atom .sharp "#" .nowhere,.list [.atom .symbol "1+" .nowhere] .nowhere] := by
  have accepted : scan "['#(\"q\\\"\" #\\))] #(1+)" none = .ok [.list [.quote .vector (.list
        [.atom .string "q\"" ⟨1,5,none⟩,.atom .char ")" ⟨1,11,none⟩] ⟨1,4,none⟩) ⟨1,2,none⟩] ⟨1,1,none⟩,
      .atom .sharp "#" ⟨1,17,none⟩,.list [.atom .symbol "1+" ⟨1,19,none⟩] ⟨1,18,none⟩] := rfl
  exact ⟨accepted,scan_render accepted none⟩

end Token
end MiniScheme
