namespace PromptAudit

/-- Text is a list of code points, so a length counts code points. -/
abbrev Text := List Char

/-- Source bytes, which need not be well-formed text. -/
abbrev Bytes := List UInt8

namespace Text

/-- Is a code point in one of the runs? -/
def within (runs : List (Nat × Nat)) (c : Char) : Bool :=
  runs.any fun run => run.1 ≤ c.toNat && c.toNat ≤ run.2

/-- The white space of the Unicode standard and the four ASCII information separators. -/
def blankRuns : List (Nat × Nat) := [
  (0x09, 0x0D), (0x1C, 0x20), (0x85, 0x85), (0xA0, 0xA0), (0x1680, 0x1680), (0x2000, 0x200A),
  (0x2028, 0x2029), (0x202F, 0x202F), (0x205F, 0x205F), (0x3000, 0x3000)]

def isBlank (c : Char) : Bool := within blankRuns c

/-- A text is blank when trimming leaves nothing of it. -/
def blank (t : Text) : Bool := t.all isBlank

def trimLeft (t : Text) : Text := t.dropWhile isBlank

def trimRight (t : Text) : Text := (trimLeft t.reverse).reverse

def trim (t : Text) : Text := trimRight (trimLeft t)

theorem trimLeft_eq_nil_iff (t : Text) : trimLeft t = [] ↔ blank t = true := by
  induction t with
  | nil => simp [trimLeft, blank]
  | cons c r ih =>
    by_cases h : isBlank c = true
    · have ht : trimLeft (c :: r) = trimLeft r := by simp [trimLeft, h]
      have hb : blank (c :: r) = blank r := by simp [blank, h]
      rw [ht, hb, ih]
    · simp [trimLeft, blank, h]

/-- The first piece before a separator, and the pieces after it. -/
def cut (sep : Char → Bool) : Text → Text × List Text
  | [] => ([], [])
  | c :: r =>
      let rest := cut sep r
      if sep c then ([], rest.1 :: rest.2) else (c :: rest.1, rest.2)

/-- Every separator ends a piece, so there is one piece more than there are separators. -/
def pieces (sep : Char → Bool) (t : Text) : List Text := (cut sep t).1 :: (cut sep t).2

/-- Maximal runs free of white space. -/
def words (t : Text) : List Text := (pieces isBlank t).filter fun w => !w.isEmpty

def join (sep : Text) : List Text → Text
  | [] => []
  | [t] => t
  | t :: rest => t ++ sep ++ join sep rest

/-- The order by code points, in which a text stands before what it begins. -/
def notAfter : Text → Text → Bool
  | [], _ => true
  | _ :: _, [] => false
  | a :: s, b :: t => a.toNat < b.toNat || (a.toNat = b.toNat && notAfter s t)

/-- Does `needle` stand somewhere in the text? -/
def occurs (needle : Text) : Text → Bool
  | [] => needle.isEmpty
  | c :: r => needle.isPrefixOf (c :: r) || occurs needle r

/-- Items between commas, trimmed, without the empty ones. -/
def commaItems (t : Text) : List Text :=
  ((pieces (· == ',') t).map trim).filter fun item => !item.isEmpty

def ofNat (n : Nat) : Text := Nat.toDigits 10 n

def ofInt (n : Int) : Text := (if n < 0 then ['-'] else []) ++ ofNat n.natAbs

end Text

end PromptAudit
