import MiniScheme.Proofs.Store.Data
import MiniScheme.Proofs.Token.Render

/-! The tokens of written data. The plain printer's text of a readable datum falls into the lexemes
of its tokens, whatever follows, as long as words end there. -/
namespace MiniScheme

namespace Text

theorem escape_of_printable {c : Char} (printable : isPrintable c = true) :
    escape c = Lexeme.escaped c := by
  have bounds : 0x20 ≤ c.toNat ∧ c.toNat ≤ 0x7E := by simpa [isPrintable] using printable
  have shown : isHidden c = false := by
    have below : c.toNat < 127 := by omega
    simp only [isHidden,below,if_true]
    simpa using bounds.1
  unfold escape
  split
  · contradiction
  · contradiction
  · contradiction
  · contradiction
  · rfl
  · rfl
  next noQuote noBackslash =>
    have plain : (c == '\\' || c == '"') = false := by
      simpa using And.intro noBackslash noQuote
    simp [shown,Lexeme.escaped,plain]

theorem quoted_of_printable {text : String} (printable : ∀ c ∈ text.toList, isPrintable c = true) :
    (quoted text).toList = AtomKind.string.spelling text := by
  have inside : text.toList.flatMap escape = text.toList.flatMap Lexeme.escaped :=
    List.flatMap_congr fun c member => escape_of_printable (printable c member)
  rw [quoted,String.toList_ofList,inside]
  rfl

end Text

namespace Token

/-- A vector mark before the token of a vector. -/
def marked (isVector : Bool) (token : Token) : List Token :=
  if isVector then [.atom .sharp "#" .nowhere,token] else [token]

end Token

namespace Datum

/-- Kind and text of the atom that a datum is written as. -/
def atom? : Datum → Option (AtomKind × String)
  | boolean b => some (.boolean,if b then "#t" else "#f")
  | char c => some (.char,c.toString)
  | string text _ => some (.string,text)
  | symbol name => some (.symbol,name)
  | number n => some (.number,n.text)
  | unspecified | nil | pair _ _ | vector _ => none

def atomToken (d : Datum) : Token :=
  match d.atom? with
  | some (kind,text) => .atom kind text .nowhere
  | none => .list [] .nowhere

mutual

/-- The token of a datum, without the mark of a vector. -/
def token : Datum → Token
  | pair head tail => .list (Token.marked head.isVector head.token ++ tail.tailTokens) .nowhere
  | vector items => .list (tokensAll items) .nowhere
  | other => other.atomToken

/-- The tokens of a datum behind the items of a list. -/
def tailTokens : Datum → List Token
  | nil => []
  | pair head tail => Token.marked head.isVector head.token ++ tail.tailTokens
  | other => [.atom .dot "." .nowhere,other.atomToken]

def tokensAll : List Datum → List Token
  | [] => []
  | d :: ds => Token.marked d.isVector d.token ++ tokensAll ds

end

def tokens (d : Datum) : List Token := Token.marked d.isVector d.token

open Lexeme

/-- A readable atom is written as an atom of its kind can be. -/
theorem atom_admitted {d : Datum} {kind : AtomKind} {text : String} (readable : d.Readable)
    (atom : d.atom? = some (kind,text)) :
    kind.admits text = true ∧ ∀ rest, kind.border rest = atEnd rest := by
  cases d with
  | unspecified | nil | pair | vector => contradiction
  | boolean b => cases atom; cases b <;> exact ⟨rfl,fun _ => rfl⟩
  | char c => cases atom; exact ⟨by simp [AtomKind.admits],fun _ => rfl⟩
  | string text label => cases atom; exact ⟨rfl,fun _ => rfl⟩
  | symbol name =>
    cases atom
    obtain ⟨source,pos,scanned⟩ := readable
    exact ⟨(Token.scan_lawful scanned).1,fun _ => rfl⟩
  | number n =>
    cases atom
    exact ⟨by simp [AtomKind.admits,Number.text_isPlainNumber readable],fun _ => rfl⟩

theorem write_atom {d : Datum} {kind : AtomKind} {text : String} (readable : d.Readable)
    (atom : d.atom? = some (kind,text)) (place : Place) :
    d.tree.write place = place.dotted (.ofList (kind.spelling text)) := by
  cases d with
  | unspecified | nil | pair | vector => contradiction
  | boolean b => cases atom; cases b <;> rfl
  | char c =>
    cases atom
    have spelled : "#\\" ++ c.toString = .ofList (AtomKind.char.spelling c.toString) := by
      rw [← String.toList_inj]
      simp [AtomKind.spelling]
    exact congrArg place.dotted spelled
  | string text label =>
    cases atom
    have spelled : Text.quoted text = .ofList (AtomKind.string.spelling text) := by
      rw [← Text.quoted_of_printable readable,String.ofList_toList]
    exact congrArg place.dotted spelled
  | symbol name =>
    cases atom
    exact congrArg place.dotted String.ofList_toList.symm
  | number n =>
    cases atom
    exact congrArg place.dotted String.ofList_toList.symm

theorem lexes_atom {d : Datum} {kind : AtomKind} {text : String} (readable : d.Readable)
    (atom : d.atom? = some (kind,text)) {rest : List Char} (border : atEnd rest = true) :
    Lexes (kind.spelling text) [.atom kind text] rest := by
  obtain ⟨admitted,follows⟩ := atom_admitted readable atom
  exact .one (.atom admitted ((follows rest).trans border))

/-- Whatever ends a list, the word before it ends there. -/
theorem atEnd_tail (d : Datum) {rest : List Char} (border : atEnd rest = true) :
    atEnd ((d.tree.write .tail).toList ++ rest) = true := by
  have blank (text : String) : atEnd ((" " ++ text).toList ++ rest) = true := by
    rw [String.toList_append]
    rfl
  have dotted (text : String) : atEnd ((Place.tail.dotted text).toList ++ rest) = true := by
    rw [Place.dotted,String.toList_append]
    rfl
  cases d with
  | nil => exact border
  | pair head tail =>
    rw [tree,Tree.write,Place.enclosed,Place.separator,String.append_assoc]
    exact blank _
  | unspecified | boolean | char | string | symbol | number | vector => exact dotted _

theorem write_pair (head tail : Datum) (place : Place) : ((pair head tail).tree.write place).toList =
    match place with
    | .alone => '(' :: ((head.tree.write .alone).toList ++ (tail.tree.write .tail).toList) ++ [')']
    | .tail => ' ' :: ((head.tree.write .alone).toList ++ (tail.tree.write .tail).toList) := by
  cases place <;> simp [tree,Tree.write,Place.enclosed,Place.separator]

/-- The lexemes of a list's items come before those of what ends it. -/
theorem lexes_pair {head tail : Datum} {rest : List Char} (border : atEnd rest = true)
    (left : ∀ {rest : List Char}, atEnd rest = true →
      Lexes (head.tree.write .alone).toList (Token.lexemesAll head.tokens) rest)
    (right : Lexes (tail.tree.write .tail).toList (Token.lexemesAll tail.tailTokens) rest) :
    Lexes ((head.tree.write .alone).toList ++ (tail.tree.write .tail).toList)
      (Token.lexemesAll (pair head tail).tailTokens) rest := by
  rw [tailTokens,Token.lexemesAll_append]
  exact (left (atEnd_tail tail border)).append right

theorem lexes_dotted {d : Datum} {kind : AtomKind} {text : String} (readable : d.Readable)
    (atom : d.atom? = some (kind,text)) {rest : List Char} (border : atEnd rest = true) :
    Lexes (d.tree.write .tail).toList
      (Token.lexemesAll [.atom .dot "." .nowhere,.atom kind text .nowhere]) rest := by
  have spelled : (d.tree.write .tail).toList = [' '] ++ (['.'] ++ ([' '] ++ kind.spelling text)) := by
    rw [write_atom readable atom]
    simp [Place.dotted]
  have dot : Lexes ['.'] [.atom .dot "."] ([' '] ++ kind.spelling text ++ rest) := Token.lexes_dot rfl
  rw [spelled]
  exact (Lexes.blank _).append (dot.append ((Lexes.blank _).append (lexes_atom readable atom border)))

mutual

/-- The text of a datum falls into the lexemes of its tokens. -/
theorem lexes_write (d : Datum) (readable : d.Readable) {rest : List Char}
    (border : atEnd rest = true) :
    Lexes (d.tree.write .alone).toList (Token.lexemesAll d.tokens) rest := by
  cases d with
  | unspecified => contradiction
  | nil => exact Lexes.enclose .nil
  | pair head tail =>
    have closing : atEnd (')' :: rest) = true := rfl
    have inside := lexes_pair closing (lexes_write head readable.1)
      (lexes_tail tail readable.2.1 readable.2.2 closing)
    rw [write_pair]
    simpa [tokens,Token.marked,isVector,token,Token.lexemesAll,Token.lexemes,tailTokens] using
      inside.enclose
  | vector items =>
    have closing : atEnd (')' :: rest) = true := rfl
    have inside := (lexes_writeAll items readable closing).enclose
    have mark : Lexes ['#'] [.atom .sharp "#"] ('(' :: (" ".intercalate
        (Tree.writeAll (treeAll items))).toList ++ [')'] ++ rest) := Token.lexes_sharp rfl rfl
    have whole := mark.append inside
    simpa [tree,Tree.write,Place.dotted,tokens,Token.marked,isVector,token,Token.lexemesAll,
      Token.lexemes] using whole
  | boolean | char | string | symbol | number =>
    rw [write_atom readable rfl,Place.dotted,String.toList_ofList]
    exact lexes_atom readable rfl border

theorem lexes_tail (d : Datum) (readable : d.Readable) (noVector : d.isVector = false)
    {rest : List Char} (border : atEnd rest = true) :
    Lexes (d.tree.write .tail).toList (Token.lexemesAll d.tailTokens) rest := by
  cases d with
  | unspecified | vector => contradiction
  | nil => exact .nil
  | pair head tail =>
    have inside := lexes_pair border (lexes_write head readable.1)
      (lexes_tail tail readable.2.1 readable.2.2 border)
    rw [write_pair]
    exact (Lexes.blank _).append inside
  | boolean | char | string | symbol | number => exact lexes_dotted readable rfl border

theorem lexes_writeAll (ds : List Datum) (readable : ReadableAll ds) {rest : List Char}
    (border : atEnd rest = true) :
    Lexes (" ".intercalate (Tree.writeAll (treeAll ds))).toList
      (Token.lexemesAll (tokensAll ds)) rest := by
  cases ds with
  | nil => exact .nil
  | cons d ds =>
    cases ds with
    | nil =>
      have only := lexes_write d readable.1 border
      rw [tokensAll,tokensAll,List.append_nil,treeAll,treeAll,Tree.writeAll,Tree.writeAll,
        String.intercalate_singleton]
      exact only
    | cons next ds =>
      have tail := (Lexes.blank _).append (lexes_writeAll (next :: ds) readable.2 border)
      have head : Lexes (d.tree.write .alone).toList (Token.lexemesAll d.tokens)
          ([' '] ++ (" ".intercalate (Tree.writeAll (treeAll (next :: ds)))).toList ++ rest) :=
        lexes_write d readable.1 rfl
      have whole := head.append tail
      rw [tokensAll,Token.lexemesAll_append,treeAll,treeAll,Tree.writeAll,Tree.writeAll,
        String.intercalate_cons_cons,String.toList_append,String.toList_append,List.append_assoc]
      exact whole

end

theorem lawful_tokens {d : Datum} (lawful : d.token.Lawful) : Token.LawfulAll d.tokens := by
  cases d with
  | vector items => exact ⟨rfl,fun _ => rfl,lawful,Token.no_mark rfl,trivial⟩
  | unspecified | nil | pair | boolean | char | string | symbol | number =>
    exact ⟨lawful,Token.no_mark rfl,trivial⟩

theorem lawful_atom {d : Datum} {kind : AtomKind} {text : String} (readable : d.Readable)
    (atom : d.atom? = some (kind,text)) : d.atomToken.Lawful := by
  rw [atomToken,atom]
  exact (atom_admitted readable atom).1

theorem lawful_dotted {d : Datum} {kind : AtomKind} {text : String} (readable : d.Readable)
    (atom : d.atom? = some (kind,text)) :
    Token.LawfulAll [.atom .dot "." .nowhere,d.atomToken] := by
  refine ⟨rfl,Token.no_mark rfl,lawful_atom readable atom,?_,trivial⟩
  rw [atomToken,atom]
  cases d with
  | unspecified | nil | pair | vector => contradiction
  | boolean | char | string | symbol | number => cases atom; exact Token.no_mark rfl

mutual

/-- The tokens of readable data can be those of a text. -/
theorem token_lawful (d : Datum) (readable : d.Readable) : d.token.Lawful := by
  cases d with
  | unspecified => contradiction
  | nil => exact trivial
  | pair head tail =>
    have items := lawful_tokens (token_lawful head readable.1)
    exact items.append (tailTokens_lawful tail readable.2.1 readable.2.2)
  | vector items => exact tokensAll_lawful items readable
  | boolean | char | string | symbol | number => exact lawful_atom readable rfl

theorem tailTokens_lawful (d : Datum) (readable : d.Readable) (noVector : d.isVector = false) :
    Token.LawfulAll d.tailTokens := by
  cases d with
  | unspecified | vector => contradiction
  | nil => exact trivial
  | pair head tail =>
    have items := lawful_tokens (token_lawful head readable.1)
    exact items.append (tailTokens_lawful tail readable.2.1 readable.2.2)
  | boolean | char | string | symbol | number => exact lawful_dotted readable rfl

theorem tokensAll_lawful (ds : List Datum) (readable : ReadableAll ds) :
    Token.LawfulAll (tokensAll ds) := by
  cases ds with
  | nil => exact trivial
  | cons d ds =>
    have head := lawful_tokens (token_lawful d readable.1)
    exact head.append (tokensAll_lawful ds readable.2)

end

/-- The kind of quote that a datum stands behind. -/
def quoteKind (d : Datum) : QuoteKind := if d.isVector then .vector else .list

/-- The token of a datum behind a quote mark. -/
def quoted (d : Datum) : Token := .quote d.quoteKind d.token .nowhere

theorem quoted_lawful {d : Datum} (readable : d.Readable) : Token.LawfulAll [d.quoted] := by
  have lawful := token_lawful d readable
  refine ⟨?_,Token.no_mark rfl,trivial⟩
  cases d with
  | vector items => exact ⟨rfl,lawful⟩
  | unspecified | nil | pair | boolean | char | string | symbol | number => exact ⟨rfl,lawful⟩

theorem quoted_lexemes (d : Datum) :
    Token.lexemesAll [d.quoted] = .quoteMark :: Token.lexemesAll d.tokens := by
  cases d <;> rfl

/-- A quote mark and the text of a datum are scanned to the quoted token of the datum. -/
theorem scan_quoted {d : Datum} (readable : d.Readable) (source : Option String) :
    ∃ token, Token.scan ("'" ++ d.tree.write .alone) source = .ok [token] ∧
      token.bare = d.quoted.bare := by
  have lexes : Lexes ("'" ++ d.tree.write .alone).toList (Token.lexemesAll [d.quoted]) [] := by
    rw [quoted_lexemes,String.toList_append]
    exact (Token.lexes_quoteMark _).append (lexes_write d readable rfl)
  obtain ⟨found,scanned,places⟩ := Token.scan_of_lexes (quoted_lawful readable) lexes source
  obtain ⟨token,rfl,same⟩ := List.map_eq_singleton_iff.mp places
  exact ⟨token,scanned,same⟩

end Datum
end MiniScheme
