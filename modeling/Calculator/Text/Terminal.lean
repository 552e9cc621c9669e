/-!
# Texts on a terminal

A sequence that starts with the escape character steers a terminal and is not shown, no more than
the other control characters. `visible` is what is left of a text without them.
-/

namespace Calculator.Text

/-- The kind of sequence that the text is in, by what ends it. A device string has a header of
parameters, then marks, then one character that opens its body, and ends only in its body. -/
inductive Sequence where
  | none
  /-- After the escape character. -/
  | escape
  /-- Further on, before the one character that ends it. -/
  | designation
  /-- After `ESC [`, up to a letter or a mark like one. -/
  | control
  /-- After `ESC ]`, up to a bell. -/
  | command
  /-- After `ESC P`, at the start of a device string. -/
  | device
  /-- In a device string, among its parameters. -/
  | deviceParameters
  /-- In a device string, among the marks after its parameters. -/
  | deviceMarks
  /-- In the body of a device string, or after `ESC X` and the like, up to the byte 0x9C. -/
  | string
  deriving DecidableEq, Repr

def isBetween (c : Char) (first last : Nat) : Bool := first ≤ c.toNat && c.toNat ≤ last

/-- The sequence after a character. Escape starts a new one wherever it stands; cancel and
substitute end any. A device string with a misplaced parameter is as good as one in its body. -/
def Sequence.next (s : Sequence) (c : Char) : Sequence :=
  if c = '\x1b' then .escape
  else if c = '\x18' ∨ c = '\x1a' then .none
  else match s with
    | .none => .none
    | .escape =>
      if c = '[' then .control
      else if c = ']' then .command
      else if c = 'P' then .device
      else if c ∈ ['X', '^', '_'] then .string
      else if isBetween c 0x20 0x2F then .designation
      else if isBetween c 0x30 0x7E then .none
      else .escape
    | .designation => if isBetween c 0x30 0x7E then .none else .designation
    | .control => if isBetween c 0x40 0x7E then .none else .control
    | .command => if c = '\x07' then .none else .command
    | .device =>
      if isBetween c 0x20 0x2F then .deviceMarks
      else if isBetween c 0x30 0x3F then .deviceParameters
      else if isBetween c 0x40 0x7E then .string
      else .device
    | .deviceParameters =>
      if isBetween c 0x20 0x2F then .deviceMarks
      else if isBetween c 0x3C 0x7E then .string
      else .deviceParameters
    | .deviceMarks => if isBetween c 0x30 0x7E then .string else .deviceMarks
    | .string => if 0x9C ∈ (String.utf8EncodeChar c).map UInt8.toNat then .none else .string

def isSpacing (c : Char) : Bool := c ∈ ['\t', '\n', '\x0c', '\r']

def Sequence.shows (s : Sequence) (c : Char) : Bool :=
  match s with
  | .none => isSpacing c || (0x20 ≤ c.toNat && c.toNat ≠ 0x7F)
  | .escape | .designation | .control => isSpacing c
  | .command | .device | .deviceParameters | .deviceMarks | .string => false

/-- What is shown of a text. A character that is shown inside a sequence suspends it: all is shown
up to the next control character, and there the sequence goes on, unless a character beyond ASCII has
ended it. -/
def visibleFrom (s : Sequence) (suspended : Bool) : List Char → List Char
  | [] => []
  | c :: more =>
    if suspended then
      if Sequence.none.shows c then
        c :: visibleFrom (if c.toNat < 0x80 then s else .none) true more
      else visibleFrom (s.next c) false more
    else if s.shows c then c :: visibleFrom (s.next c) true more
    else visibleFrom (s.next c) false more

def visible (text : List Char) : List Char := visibleFrom .none false text

def coloured (text : String) : String := "\x1b[33m" ++ text ++ "\x1b[0m"

def firstLine (text : List Char) : List Char :=
  match text with
  | [] => []
  | '\n' :: _ => []
  | '\r' :: '\n' :: _ => []
  | c :: more => c :: firstLine more

end Calculator.Text
