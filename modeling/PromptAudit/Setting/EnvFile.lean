import PromptAudit.Text.Lines

namespace PromptAudit.EnvFile

def isEnd (c : Char) : Bool := c = '\n' || c = '\r'

/-- White space within a line. -/
def isGap (c : Char) : Bool := Text.isBlank c && !isEnd c

/-- The character behind a backslash between double quotes. -/
def escaped : Char → Option Char
  | '\\' => some '\\'
  | '\x27' => some '\x27'
  | '\x22' => some '\x22'
  | 'a' => some '\x07'
  | 'b' => some '\x08'
  | 'f' => some '\x0c'
  | 'n' => some '\n'
  | 'r' => some '\r'
  | 't' => some '\t'
  | 'v' => some '\x0b'
  | _ => none

/-- Replaces backslashes and what follows them where `reads` knows it. -/
def unescape (reads : Char → Option Char) : Text → Text
  | '\\' :: c :: r => match reads c with
    | some v => v :: unescape reads r
    | none => '\\' :: unescape reads (c :: r)
  | c :: r => c :: unescape reads r
  | [] => []

def singleEscape (c : Char) : Option Char := if c = '\\' || c = '\x27' then some c else none

/-- What stands before the closing quote, and what follows it. A quote behind a backslash closes
nothing. -/
def untilQuote (quote : Char) : Text → Option (Text × Text)
  | [] => none
  | '\\' :: c :: r =>
      if c = quote then (untilQuote quote r).map fun (inner, rest) => ('\\' :: c :: inner, rest)
      else (untilQuote quote (c :: r)).map fun (inner, rest) => ('\\' :: inner, rest)
  | c :: r =>
    if c = quote then some ([], r)
    else (untilQuote quote r).map fun (inner, rest) => (c :: inner, rest)

/-- A comment starts at a hash after white space. -/
def withoutComment : Text → Text
  | [] => []
  | c :: r =>
      if Text.isBlank c && (r.dropWhile Text.isBlank).head? = some '#' then []
      else c :: withoutComment r

def restOfLine (t : Text) : Text := (t.dropWhile (!isEnd ·)).dropWhile isEnd

/-- A value and what follows it. -/
def value (t : Text) : Option (Text × Text) :=
  match t with
  | '\x27' :: r => (untilQuote '\x27' r).map fun (inner, rest) => (unescape singleEscape inner, rest)
  | '\x22' :: r => (untilQuote '\x22' r).map fun (inner, rest) => (unescape escaped inner, rest)
  | t => some (Text.trimRight (withoutComment (t.takeWhile (!isEnd ·))), t.dropWhile (!isEnd ·))

def withoutExport (t : Text) : Text :=
  let r := t.drop 6
  if "export".toList.isPrefixOf t && r.head?.any isGap then r.dropWhile isGap else t

/-- One assignment at the start of a text, and what follows it. A line that is none is skipped. -/
def assignment (t : Text) : Option (Text × Text) × Text :=
  let t := withoutExport (t.dropWhile Text.isBlank)
  let name := t.takeWhile fun c => c ≠ '=' && c ≠ '#' && !Text.isBlank c
  match (t.drop name.length).dropWhile isGap with
  | '=' :: r =>
      if name.isEmpty then (none, restOfLine t)
      else match value (r.dropWhile isGap) with
        | none => (none, restOfLine r)
        | some (v, rest) =>
            let after := rest.dropWhile isGap
            if after.isEmpty || after.head?.any fun c => isEnd c || c = '#' then
              (some (name, v), restOfLine after)
            else (none, restOfLine after)
  | _ => (none, restOfLine t)

/-- The assignments of a file; `lines` bounds their number. -/
def assignmentsIn : Nat → Text → List (Text × Text)
  | 0, _ => []
  | lines + 1, t =>
      if t.isEmpty then []
      else
        let (found, rest) := assignment t
        found.toList ++ assignmentsIn lines rest

/-- A reference to a value by its name in braces, what stands for it when there is none, and the
text after it. -/
def reference : Text → Option (Text × Text × Text)
  | '$' :: '\x7b' :: r =>
      let name := r.takeWhile fun c => c ≠ '\x7d' && c ≠ ':'
      match r.drop name.length with
      | '\x7d' :: rest => some (name, [], rest)
      | ':' :: '-' :: d => match d.dropWhile (· ≠ '\x7d') with
        | _ :: rest => some (name, d.takeWhile (· ≠ '\x7d'), rest)
        | [] => none
      | _ => none
  | _ => none

theorem length_reference {t name default rest : Text}
    (h : reference t = some (name, default, rest)) :
    rest.length < t.length := by
  unfold reference at h
  split at h
  · rename_i r
    dsimp only at h
    have drop := (List.drop_suffix (r.takeWhile fun c => c ≠ '\x7d' && c ≠ ':').length r).length_le
    split at h
    · next e =>
      simp only [Option.some.injEq, Prod.mk.injEq] at h
      rw [e] at drop
      simp only [List.length_cons, ← h.2.2] at *
      omega
    · next d e =>
      split at h
      · next e' =>
        simp only [Option.some.injEq, Prod.mk.injEq] at h
        have after := (List.dropWhile_suffix (p := (· ≠ '\x7d')) (l := d)).length_le
        rw [e'] at after
        rw [e] at drop
        simp only [List.length_cons, ← h.2.2] at *
        omega
      · simp at h
    · simp at h
  · simp at h

/-- Puts known values in the place of references to them. -/
def expand (known : List (Text × Text)) (t : Text) : Text :=
  match _h : reference t with
  | some (name, default, rest) => (known.lookup name).getD default ++ expand known rest
  | none => match t with
    | [] => []
    | c :: r => c :: expand known r
termination_by t.length
decreasing_by
  · exact length_reference (by assumption)
  · simp

/-- References lead to what is assigned above them, or else to the environment. -/
def expandAll (known : List (Text × Text)) : List (Text × Text) → List (Text × Text)
  | [] => []
  | (name, v) :: rest =>
      let v := expand known v
      (name, v) :: expandAll ((name, v) :: known) rest

def assignments (environment : List (Text × Text)) (t : Text) : List (Text × Text) :=
  let t := Text.join ['\n'] (Text.fileLines t)
  expandAll environment (assignmentsIn (t.length + 1) t)

end PromptAudit.EnvFile
