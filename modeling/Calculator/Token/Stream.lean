import Calculator.Token.Scan

/-!
# Token streams

A stream scans a token only when someone looks at it, and keeps it, so any token ahead can be looked
at without being taken. The end of the text is never passed.
-/

namespace Calculator

/-- `scanned` holds all tokens so far from the first on, `current` of them are taken, and `cursor`
stands after them. -/
structure TokenStream where
  cursor : Cursor
  scanned : Array Token := #[]
  current : Nat := 0

namespace TokenStream

def ofString (text : String) : TokenStream := { cursor := .ofString text }

def isComplete (s : TokenStream) : Bool := s.scanned.back?.any Token.isFinish

def scan (s : TokenStream) : TokenStream :=
  let (token, cursor) := s.cursor.next
  { s with cursor, scanned := s.scanned.push token }

def scanMore : Nat → TokenStream → TokenStream
  | 0, s => s
  | count + 1, s => if s.isComplete then s else scanMore count s.scan

def scanTo (s : TokenStream) (index : Nat) : TokenStream := s.scanMore (index + 1 - s.scanned.size)

theorem size_scan (s : TokenStream) : s.scan.scanned.size = s.scanned.size + 1 := by
  simp [scan]

theorem size_scanMore_le (count : Nat) (s : TokenStream) :
    s.scanned.size ≤ (scanMore count s).scanned.size := by
  induction count generalizing s with
  | zero => exact Nat.le_refl _
  | succ count ih =>
    rw [scanMore]
    split
    · exact Nat.le_refl _
    · have := ih s.scan
      rw [size_scan] at this
      omega

theorem size_scanTo_pos (s : TokenStream) (index : Nat) : 0 < (s.scanTo index).scanned.size := by
  rw [scanTo]
  by_cases h : s.scanned.size = 0
  · rw [h, Nat.sub_zero, scanMore]
    have : s.isComplete = false := by simp [isComplete, Array.eq_empty_of_size_eq_zero h]
    have hle := size_scanMore_le index s.scan
    rw [size_scan] at hle
    simp only [this, Bool.false_eq_true, if_false]
    omega
  · have := size_scanMore_le (index + 1 - s.scanned.size) s
    omega

def peekNth (s : TokenStream) (ahead : Nat) : Token × TokenStream :=
  let index := s.current + ahead
  let after := s.scanTo index
  have h : min index (after.scanned.size - 1) < after.scanned.size :=
    Nat.lt_of_le_of_lt (Nat.min_le_right _ _) (Nat.sub_lt (size_scanTo_pos s index) Nat.one_pos)
  (after.scanned[min index (after.scanned.size - 1)], after)

def peek (s : TokenStream) : Token × TokenStream := s.peekNth 0

/-- Takes the next token; the end is given and not taken. -/
def pop (s : TokenStream) : Token × TokenStream :=
  let (token, s) := s.peek
  (token, if token.isFinish then s else { s with current := s.current + 1 })

def next? (s : TokenStream) : Option Token × TokenStream :=
  let (token, s) := s.pop
  (if token.isFinish then none else some token, s)

def remaining (s : TokenStream) : Nat := s.scanned.size - s.current + s.cursor.rest.length

def takeUpTo : Nat → TokenStream → List Token × TokenStream
  | 0, s => ([], s)
  | count + 1, s =>
    match s.next? with
    | (none, s) => ([], s)
    | (some token, s) =>
      let (more, s) := takeUpTo count s
      (token :: more, s)

def takeAll (s : TokenStream) : List Token × TokenStream := takeUpTo (s.remaining + 1) s

end TokenStream

end Calculator
