import PromptAudit.Text.Basic

namespace PromptAudit.Text

/-- The characters that end a line. Each is white space, so trimming never joins two lines. -/
def isLineEnd (c : Char) : Bool :=
  within [(0x0A, 0x0D), (0x1C, 0x1E), (0x85, 0x85), (0x2028, 0x2029)] c

/-- Lines without their ends. A carriage return and the line feed after it end one line, and an
end at the end of the text opens no further line. -/
def lines : Text → List Text
  | [] => []
  | '\r' :: '\n' :: r => [] :: lines r
  | c :: r =>
      if isLineEnd c then [] :: lines r
      else match lines r with
        | [] => [[c]]
        | line :: rest => (c :: line) :: rest

/-- Lines with the line feed that ends them; only the last may lack one, and none is empty. -/
def feedLines : Text → List Text
  | [] => []
  | c :: r =>
      if c = '\n' then [c] :: feedLines r
      else match feedLines r with
        | [] => [[c]]
        | line :: rest => (c :: line) :: rest

/-- The lines of a text file, whichever of the three usual ends they have. -/
def fileLines : Text → List Text
  | [] => []
  | '\r' :: '\n' :: r => [] :: fileLines r
  | c :: r =>
      if c = '\n' || c = '\r' then [] :: fileLines r
      else match fileLines r with
        | [] => [[c]]
        | line :: rest => (c :: line) :: rest

/-- A backslash and the letter `n` stand for a line feed. -/
def readLineFeeds : Text → Text
  | [] => []
  | '\\' :: 'n' :: r => '\n' :: readLineFeeds r
  | c :: r => c :: readLineFeeds r

end PromptAudit.Text
