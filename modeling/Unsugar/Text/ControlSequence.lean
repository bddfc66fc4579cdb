/-!
# Control sequences

A terminal takes some characters for orders: the controls, and the sequences that an escape opens.
`withoutControls` leaves of a text what a terminal would show of it. Sequences are read as terminals
of the VT500 family read them. White space in the middle of a sequence is shown, and so is the text
after it; the next control takes the sequence up again where it stood.
-/

namespace Unsugar.Text

/-- How far a sequence has got. -/
inductive ControlSequence where
  /-- An escape came. -/
  | escape
  /-- An escape and intermediate characters came. -/
  | intermediate
  /-- A control sequence proper, opened by `[`. -/
  | control
  /-- A command to the operating system, opened by `]`. -/
  | command
  /-- A device control string, opened by `P`. -/
  | device
  /-- A device control string with parameters. -/
  | deviceParameter
  /-- A device control string with intermediate characters. -/
  | deviceIntermediate
  /-- A string that runs up to its terminator. -/
  | string
deriving DecidableEq, Repr

/-- White space among the controls. -/
def isBlankControl (c : Char) : Bool :=
  c = '\t' || c = '\n' || c = '\x0c' || c = '\r'

/-- Whether a terminal shows a character that stands outside of all sequences. -/
def isShown (c : Char) : Bool :=
  (0x20 ≤ c.toNat && c.toNat ≠ 0x7f) || isBlankControl c

namespace ControlSequence

/-- Whether white space in the middle of a sequence is shown. Strings swallow it. -/
def showsBlank : ControlSequence → Bool
  | .escape | .intermediate | .control => true
  | _ => false

/-- The sequence after an escape and a character, if that does not complete it. -/
def opened (c : Char) : Option ControlSequence :=
  match c with
  | '[' => some .control
  | ']' => some .command
  | 'P' => some .device
  | 'X' | '^' | '_' => some .string
  | _ => none

/-- The sequence after one more character, or `none` if the character completes it. A string ends
where the byte of the string terminator stands, even inside the encoding of a character. -/
def next (s : ControlSequence) (c : Char) : Option ControlSequence :=
  let n := c.toNat
  let isIntermediate := 0x20 ≤ n && n < 0x30
  let isParameter := 0x30 ≤ n && n < 0x40
  let isFinal := 0x40 ≤ n && n < 0x7f
  match s with
  | .escape =>
    if isIntermediate then some .intermediate
    else if isParameter || isFinal then opened c
    else some s
  | .intermediate => if isParameter || isFinal then none else some s
  | .control => if isFinal then none else some s
  | .command => if n = 0x07 then none else some s
  | .device =>
    if isIntermediate then some .deviceIntermediate
    else if isParameter then some .deviceParameter
    else if isFinal then some .string
    else some s
  | .deviceParameter =>
    if isIntermediate then some .deviceIntermediate
    -- A private marker is only allowed in front of the parameters.
    else if (isParameter && 0x3c ≤ n) || isFinal then some .string
    else some s
  | .deviceIntermediate => if isParameter || isFinal then some .string else some s
  | .string => if (String.utf8EncodeChar c).contains 0x9c then none else some s

end ControlSequence

/-- Where a reader of terminal text stands. -/
inductive ControlState where
  /-- Outside of all sequences. -/
  | text
  /-- In a sequence. -/
  | inside (s : ControlSequence)
  /-- In text that started with white space in the middle of a sequence. -/
  | suspended (s : ControlSequence)
deriving DecidableEq, Repr

namespace ControlState

/-- Whether a character is shown. -/
def shows (s : ControlState) (c : Char) : Bool :=
  match s with
  | .text | .suspended _ => isShown c
  | .inside q => q.showsBlank && isBlankControl c

/-- Where the reader stands after a character. An escape opens a sequence wherever it stands, and a
cancel or a substitute ends one. -/
def next (s : ControlState) (c : Char) : ControlState :=
  if c = '\x1b' then .inside .escape
  else if c = '\x18' || c = '\x1a' then .text
  else match s with
    | .text => .text
    | .suspended q =>
      -- Outside of ASCII the text is on its own, and the sequence is given up.
      if 0x80 ≤ c.toNat then .text
      else if isShown c then .suspended q
      else .inside q
    | .inside q =>
      if q.showsBlank && isBlankControl c then .suspended q
      else match q.next c with
        | none => .text
        | some q => .inside q

/-- What is shown of the characters that follow a state. -/
def shown (s : ControlState) : List Char → List Char
  | [] => []
  | c :: rest => if s.shows c then c :: (s.next c).shown rest else (s.next c).shown rest

end ControlState

/-- A text without its controls and control sequences. -/
def withoutControls (s : String) : String :=
  String.ofList (ControlState.text.shown s.toList)

end Unsugar.Text
