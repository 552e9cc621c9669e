import Calculator.Double.Literal
import Calculator.Text.Blank
import Calculator.Text.Letter
import Calculator.Token

/-!
# Scanning

The token at the front of a text is the longest number or word there, or one character. Blanks before
it are passed over.
-/

namespace Calculator

open Text

def isDecimalMark (c : Char) : Bool := c == '.' || c == ','

def Lexeme.ofWord (word : String) : Lexeme :=
  match word with
  | "pi" => .constant (Float.ofBits 0x400921FB54442D18)
  | "e" => .constant (Float.ofBits 0x4005BF0A8B145769)
  | "t" => .var
  | _ =>
    match UnaryFn.ofWord? word with
    | some fn => .function fn
    | none => .unknown

def Lexeme.ofSymbol (c : Char) : Lexeme :=
  match c with
  | '(' => .leftParen
  | ')' => .rightParen
  | '|' => .bar
  | '+' => .operator .add
  | '-' => .operator .sub
  | '*' => .operator .mul
  | '/' => .operator .div
  | '^' => .operator .pow
  | _ => .unknown

structure Piece where
  lexeme : Lexeme
  chars : List Char
  rest : List Char

namespace Piece

/-- Digits, and after one decimal mark any digits that follow. A second mark is not part of it. -/
def number (text : List Char) : Piece :=
  let whole := text.takeWhile Char.isDigit
  match text.dropWhile Char.isDigit with
  | [] => ⟨.constant (Double.literal whole []), whole, []⟩
  | c :: more =>
    if isDecimalMark c then
      let fraction := more.takeWhile Char.isDigit
      ⟨.constant (Double.literal whole fraction), whole ++ c :: fraction, more.dropWhile Char.isDigit⟩
    else ⟨.constant (Double.literal whole []), whole, c :: more⟩

def word (text : List Char) : Piece :=
  let chars := text.takeWhile isLetter
  ⟨.ofWord (String.ofList chars), chars, text.dropWhile isLetter⟩

def first (text : List Char) : Piece :=
  match text with
  | [] => ⟨.finish, [], []⟩
  | c :: more =>
    if c.isDigit then number text
    else if isLetter c then word text
    else ⟨.ofSymbol c, [c], more⟩

theorem number_append (text : List Char) : (number text).chars ++ (number text).rest = text := by
  have h := List.takeWhile_append_dropWhile (p := Char.isDigit) (l := text)
  unfold number
  cases hd : text.dropWhile Char.isDigit with
  | nil => simpa [hd] using h
  | cons c more =>
    rw [hd] at h
    by_cases hc : isDecimalMark c
    · simpa [hc, List.takeWhile_append_dropWhile] using h
    · simpa [hc] using h

theorem first_append (text : List Char) : (first text).chars ++ (first text).rest = text := by
  unfold first
  split
  · rfl
  · split
    · exact number_append _
    · split
      · exact List.takeWhile_append_dropWhile
      · rfl

theorem first_nil : first [] = ⟨.finish, [], []⟩ := rfl

theorem chars_first_ne_nil {text : List Char} (h : text ≠ []) : (first text).chars ≠ [] := by
  cases text with
  | nil => exact absurd rfl h
  | cons c more =>
    unfold first
    by_cases hd : c.isDigit
    · simp only [hd, if_true, number, List.takeWhile_cons]
      split
      · simp
      · split <;> simp
    · by_cases hl : isLetter c
      · simp [hd, hl, word]
      · simp [hd, hl]

theorem length_rest_first_lt {text : List Char} (h : text ≠ []) :
    (first text).rest.length < text.length := by
  have hlen := congrArg List.length (first_append text)
  have hpos := List.length_pos_iff.2 (chars_first_ne_nil h)
  rw [List.length_append] at hlen
  omega

end Piece

structure Cursor where
  rest : List Char
  offset : Nat

namespace Cursor

def ofString (text : String) : Cursor := ⟨text.toList, 0⟩

def skipBlanks (c : Cursor) : Cursor where
  rest := c.rest.dropWhile isBlank
  offset := c.offset + (String.ofList (c.rest.takeWhile isBlank)).utf8ByteSize

/-- The next token and the cursor after it. At the end of the text the token is empty. -/
def next (c : Cursor) : Token × Cursor :=
  let start := c.skipBlanks
  let piece := Piece.first start.rest
  let token : Token := ⟨piece.lexeme, String.ofList piece.chars, start.offset⟩
  (token, ⟨piece.rest, token.stop⟩)

theorem length_skipBlanks_le (c : Cursor) : c.skipBlanks.rest.length ≤ c.rest.length :=
  (List.dropWhile_sublist _).length_le

theorem length_rest_next_lt {c : Cursor} (h : c.next.1.isFinish = false) :
    c.next.2.rest.length < c.rest.length := by
  by_cases hnil : c.skipBlanks.rest = []
  · simp [next, hnil, Piece.first_nil, Token.isFinish, Token.kind, Lexeme.kind] at h
  · exact Nat.lt_of_lt_of_le (Piece.length_rest_first_lt hnil) (length_skipBlanks_le c)

def upTo : Nat → Cursor → List Token
  | 0, _ => []
  | count + 1, c =>
    let (token, c) := c.next
    if token.isFinish then [token] else token :: upTo count c

def tokens (c : Cursor) : List Token := upTo (c.rest.length + 1) c

theorem upTo_succ (count : Nat) (c : Cursor) :
    upTo (count + 1) c =
      if c.next.1.isFinish then [c.next.1] else c.next.1 :: upTo count c.next.2 := rfl

theorem upTo_eq_of_lt {m n : Nat} {c : Cursor} (hm : c.rest.length < m) (hn : c.rest.length < n) :
    upTo m c = upTo n c := by
  induction m generalizing n c with
  | zero => omega
  | succ m ih =>
    cases n with
    | zero => omega
    | succ n =>
      rw [upTo_succ, upTo_succ]
      split
      · rfl
      · next h =>
        have := length_rest_next_lt (Bool.not_eq_true _ ▸ h)
        exact congrArg (c.next.1 :: ·) (ih (by omega) (by omega))

theorem tokens_eq (c : Cursor) :
    c.tokens = if c.next.1.isFinish then [c.next.1] else c.next.1 :: c.next.2.tokens := by
  rw [tokens, upTo_succ]
  split
  · rfl
  · next h =>
    have := length_rest_next_lt (Bool.not_eq_true _ ▸ h)
    exact congrArg (c.next.1 :: ·) (upTo_eq_of_lt this (Nat.lt_succ_self _))

end Cursor

def tokenize (text : String) : List Token := (Cursor.ofString text).tokens.dropLast

end Calculator
