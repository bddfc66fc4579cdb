import Unsugar.Decimal.Digits
import Unsugar.Json.Basic

/-!
# JSON tokens

A JSON text is a sequence of tokens with blanks between them. `Token.scan` splits a text into its
tokens; `Token.text` spells one token, and `Json.tokens` lists those of a value.
-/

namespace Unsugar.Json

/-- A token of a JSON text. -/
inductive Token where
  | openArr
  | closeArr
  | openObj
  | closeObj
  | comma
  | colon
  | null
  | bool (value : Bool)
  | nat (value : Nat)
  | numeral (spelling : String)
  | str (text? : Option String)
deriving DecidableEq, Repr

/-! ## Spelling -/

/-- The digit of a number below sixteen. -/
def hexDigit (n : Nat) : Char :=
  if n < 10 then Char.ofNat ('0'.toNat + n) else Char.ofNat ('a'.toNat + (n - 10))

/-- One character of a string: quotes, backslashes and control characters are escaped. -/
def escapeChar (c : Char) : List Char :=
  match c with
  | '"' => ['\\', '"']
  | '\\' => ['\\', '\\']
  | '\n' => ['\\', 'n']
  | '\r' => ['\\', 'r']
  | '\t' => ['\\', 't']
  | '\x08' => ['\\', 'b']
  | '\x0c' => ['\\', 'f']
  | c =>
    if c.toNat < 0x20 then
      ['\\', 'u', '0', '0', hexDigit (c.toNat / 16), hexDigit (c.toNat % 16)]
    else
      [c]

/-- A string in quotes. One that denotes no text is spelt as a surrogate on its own. -/
def quote : Option String → String
  | some s => String.ofList ('"' :: s.toList.flatMap escapeChar ++ ['"'])
  | none => "\"\\ud800\""

/-- The spelling of a token. -/
def Token.text : Token → String
  | .openArr => "["
  | .closeArr => "]"
  | .openObj => "\x7b"
  | .closeObj => "\x7d"
  | .comma => ","
  | .colon => ":"
  | .null => "null"
  | .bool true => "true"
  | .bool false => "false"
  | .nat n => n.repr
  | .numeral spelling => spelling
  | .str s => quote s

/-! ## The tokens of a value -/

mutual

/-- The tokens of a value, followed by others. -/
def tokensTo : Json → List Token → List Token
  | .null, rest => .null :: rest
  | .bool b, rest => .bool b :: rest
  | .nat n, rest => .nat n :: rest
  | .numeral s, rest => .numeral s :: rest
  | .str s, rest => .str s :: rest
  | .arr items, rest => .openArr :: itemTokensTo items (.closeArr :: rest)
  | .obj members, rest => .openObj :: memberTokensTo members (.closeObj :: rest)

/-- The tokens of array items, followed by others. -/
def itemTokensTo : List Json → List Token → List Token
  | [], rest => rest
  | [item], rest => item.tokensTo rest
  | item :: items, rest => item.tokensTo (.comma :: itemTokensTo items rest)

/-- The tokens of object members, followed by others. -/
def memberTokensTo : List (Option String × Json) → List Token → List Token
  | [], rest => rest
  | [(key, value)], rest => .str key :: .colon :: value.tokensTo rest
  | (key, value) :: members, rest =>
    .str key :: .colon :: value.tokensTo (.comma :: memberTokensTo members rest)

end

/-- The tokens of a value. -/
def tokens (j : Json) : List Token := j.tokensTo []

/-! ## Scanning -/

/-- The four blanks of JSON. -/
def isBlank (c : Char) : Bool :=
  c = ' ' || c = '\t' || c = '\n' || c = '\r'

/-- The value of a hexadecimal digit of either case. -/
def hexValue? (c : Char) : Option Nat :=
  if c.isDigit then some (c.toNat - '0'.toNat)
  else if 'a' ≤ c && c ≤ 'f' then some (c.toNat - 'a'.toNat + 10)
  else if 'A' ≤ c && c ≤ 'F' then some (c.toNat - 'A'.toNat + 10)
  else none

/-- The number of four hexadecimal digits. -/
def hex4? (a b c d : Char) : Option Nat := do
  return (((← hexValue? a) * 16 + (← hexValue? b)) * 16 + (← hexValue? c)) * 16 + (← hexValue? d)

/-- Scans the rest of a string up to its closing quote. Gives its code points, where an escaped
surrogate counts as one, and what follows the quote. -/
def scanString : List Char → Option (List Nat × List Char)
  | [] => none
  | '"' :: rest => some ([], rest)
  | '\\' :: 'u' :: a :: b :: c :: d :: rest => do
    -- Half of a surrogate pair is accepted here; `textOfUnits?` looks for the other half.
    let unit ← hex4? a b c d
    let (units, rest) ← scanString rest
    return (unit :: units, rest)
  | '\\' :: e :: rest => do
    let unit ← escaped? e
    let (units, rest) ← scanString rest
    return (unit :: units, rest)
  | c :: rest =>
    if c.toNat < 0x20 || c = '\\' then none
    else do
      let (units, rest) ← scanString rest
      return (c.toNat :: units, rest)
where
  /-- What a letter stands for after a backslash. -/
  escaped? : Char → Option Nat
    | '"' => some 0x22
    | '\\' => some 0x5c
    | '/' => some 0x2f
    | 'b' => some 0x08
    | 'f' => some 0x0c
    | 'n' => some 0x0a
    | 'r' => some 0x0d
    | 't' => some 0x09
    | _ => none

/-- The text of code points in which surrogates come in pairs, high before low. -/
def textOfUnits? : List Nat → Option (List Char)
  | [] => some []
  | high :: rest =>
    if 0xd800 ≤ high && high < 0xdc00 then
      -- A high surrogate needs a low one right behind it.
      match rest with
      | low :: rest =>
        if 0xdc00 ≤ low && low < 0xe000 then
          (textOfUnits? rest).map
            (Char.ofNat (0x10000 + (high - 0xd800) * 0x400 + (low - 0xdc00)) :: ·)
        else none
      | [] => none
    -- A low surrogate here has no high one before it.
    else if 0xdc00 ≤ high && high < 0xe000 then none
    else (textOfUnits? rest).map (Char.ofNat high :: ·)

/-- The characters that numerals are made of. -/
def isNumeralChar (c : Char) : Bool :=
  c.isDigit || c = '-' || c = '+' || c = '.' || c = 'e' || c = 'E'

/-- Whether an exponent is a sign, or none, and at least one digit. -/
def isExponent : List Char → Bool
  | '+' :: ds | '-' :: ds => !ds.isEmpty && ds.all Char.isDigit
  | ds => !ds.isEmpty && ds.all Char.isDigit

/-- Whether nothing, or an exponent with its mark. -/
def isExponentPart : List Char → Bool
  | [] => true
  | e :: ds => (e = 'e' || e = 'E') && isExponent ds

/-- Whether what follows the integer part is a fraction, an exponent, both or nothing. -/
def isNumeralTail : List Char → Bool
  | '.' :: cs => !(cs.takeWhile Char.isDigit).isEmpty && isExponentPart (cs.dropWhile Char.isDigit)
  | cs => isExponentPart cs

/-- Whether an unsigned numeral is well formed: no zero leads other digits. -/
def isUnsigned (cs : List Char) : Bool :=
  match cs.takeWhile Char.isDigit with
  | [] => false
  | d :: ds => (d ≠ '0' || ds.isEmpty) && isNumeralTail (cs.dropWhile Char.isDigit)

/-- The token of a numeral. -/
def numeral? (cs : List Char) : Option Token :=
  match cs with
  -- A negative number is never a natural one, not even `-0`.
  | '-' :: unsigned => if isUnsigned unsigned then some (.numeral (String.ofList cs)) else none
  | _ =>
    if isUnsigned cs then
      if cs.all Char.isDigit then some (.nat (Decimal.ofDigits cs))
      else some (.numeral (String.ofList cs))
    else none

/-- Scans the token that starts a text without leading blanks. -/
def Token.next? : List Char → Option (Token × List Char)
  | '[' :: rest => some (.openArr, rest)
  | ']' :: rest => some (.closeArr, rest)
  | '\x7b' :: rest => some (.openObj, rest)
  | '\x7d' :: rest => some (.closeObj, rest)
  | ',' :: rest => some (.comma, rest)
  | ':' :: rest => some (.colon, rest)
  | 'n' :: 'u' :: 'l' :: 'l' :: rest => some (.null, rest)
  | 't' :: 'r' :: 'u' :: 'e' :: rest => some (.bool true, rest)
  | 'f' :: 'a' :: 'l' :: 's' :: 'e' :: rest => some (.bool false, rest)
  | '"' :: rest => do
    let (units, rest) ← scanString rest
    return (.str ((textOfUnits? units).map String.ofList), rest)
  | cs => do
    -- A numeral is as long as it can be, and then well formed or not.
    let token ← numeral? (cs.takeWhile isNumeralChar)
    return (token, cs.dropWhile isNumeralChar)

/-- `scanString` leaves a shorter text. -/
theorem scanString_length {cs : List Char} {units : List Nat} {rest : List Char}
    (h : scanString cs = some (units, rest)) : rest.length < cs.length := by
  fun_induction scanString cs generalizing units rest with
  | case1 => simp at h
  | case2 r =>
    simp only [Option.some.injEq, Prod.mk.injEq] at h
    simp [h.2]
  | case3 a b c d r ih =>
    simp only [bind, Option.bind_eq_some_iff] at h
    obtain ⟨_, _, ⟨us, r'⟩, hr, h⟩ := h
    have := ih hr
    simp_all only [pure, Option.some.injEq, Prod.mk.injEq, List.length_cons]
    omega
  | case4 e r _ ih =>
    simp only [bind, Option.bind_eq_some_iff] at h
    obtain ⟨_, _, ⟨us, r'⟩, hr, h⟩ := h
    have := ih hr
    simp_all only [pure, Option.some.injEq, Prod.mk.injEq, List.length_cons]
    omega
  | case5 => simp at h
  | case6 c r _ _ _ _ ih =>
    simp only [bind, Option.bind_eq_some_iff] at h
    obtain ⟨⟨us, r'⟩, hr, h⟩ := h
    have := ih hr
    simp_all only [pure, Option.some.injEq, Prod.mk.injEq, List.length_cons]
    omega

/-- `numeral?` needs at least one character. -/
theorem numeral?_nil : numeral? [] = none := rfl

/-- `dropWhile` leaves a shorter text if there is a character of numerals in front. -/
theorem length_dropWhile_lt {cs : List Char} (h : cs.takeWhile isNumeralChar ≠ []) :
    (cs.dropWhile isNumeralChar).length < cs.length := by
  have := congrArg List.length (List.takeWhile_append_dropWhile (p := isNumeralChar) (l := cs))
  have := List.length_pos_iff.2 h
  simp only [List.length_append] at *
  omega

/-- `next?` leaves a shorter text. -/
theorem Token.next?_length {cs : List Char} {t : Token} {rest : List Char}
    (h : Token.next? cs = some (t, rest)) : rest.length < cs.length := by
  unfold Token.next? at h
  split at h
  case h_10 =>
    simp only [bind, Option.bind_eq_some_iff] at h
    obtain ⟨⟨us, r'⟩, hr, h⟩ := h
    have := scanString_length hr
    simp_all only [pure, Option.some.injEq, Prod.mk.injEq, List.length_cons]
    omega
  case h_11 =>
    simp only [bind, Option.bind_eq_some_iff] at h
    obtain ⟨t', hn, h⟩ := h
    simp only [pure, Option.some.injEq, Prod.mk.injEq] at h
    rw [← h.2]
    apply length_dropWhile_lt
    intro h0
    rw [h0, numeral?_nil] at hn
    cases hn
  all_goals
    simp only [Option.some.injEq, Prod.mk.injEq] at h
    simp only [← h.2, List.length_cons]
    omega

/-- Splits a text into its tokens. -/
def Token.scan (cs : List Char) : Option (List Token) :=
  match _blanks : cs.dropWhile isBlank with
  | [] => some []
  | c :: rest =>
    match _scanned : Token.next? (c :: rest) with
    | none => none
    | some (t, rest') => (Token.scan rest').map (t :: ·)
termination_by cs.length
decreasing_by
  have := Token.next?_length _scanned
  have := (List.dropWhile_suffix isBlank (l := cs)).length_le
  rw [_blanks] at this
  omega

end Unsugar.Json
