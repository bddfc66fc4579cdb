import Mathlib.Data.List.TakeWhile
import Unsugar.Json.Printer

/-!
# Spelling and scanning JSON

`Token.Spells cs ts` says that a text is the spellings of tokens in order, with blanks around them. Both
printed forms of a value spell its tokens: they differ in the blanks alone. Scanning takes such a text
apart again, provided that no two numbers touch, which they never do in a value.

## Key results

- `scanString_flatMap_escapeChar`: the escapes of a string are undone
- `numeral?_toDigits`: the digits of a number are read as the number
- `Token.next?_text`: one token is scanned from the front of a text
- `Token.Spells.scan`: a text that spells tokens is scanned as these tokens
- `Token.spells_text`, `Token.spells_indentedParts`: what the two printed forms spell
-/

namespace Unsugar.Json

/-! ## Strings -/

/-- `hexValue?` reads the digit that `hexDigit` writes. -/
theorem hexValue?_hexDigit : ∀ n < 16, hexValue? (hexDigit n) = some n := by
  decide

/-- `hex4?` reads the four digits that a control character is escaped with. -/
theorem hex4?_control {n : Nat} (hn : n < 0x20) :
    hex4? '0' '0' (hexDigit (n / 16)) (hexDigit (n % 16)) = some n := by
  have hzero : hexValue? '0' = some 0 := by decide
  have hhigh := hexValue?_hexDigit (n / 16) (by omega)
  have hlow := hexValue?_hexDigit (n % 16) (by omega)
  simp only [hex4?, hzero, hhigh, hlow, bind, Option.bind_some, pure, Option.some.injEq]
  omega

/-- `scanString` of a character that needs no escape: it stands for itself. -/
theorem scanString_cons {c : Char} (hquote : c ≠ '"') (hslash : c ≠ '\\') (hc : ¬ c.toNat < 0x20)
    (cs : List Char) :
    scanString (c :: cs) = (scanString cs).map fun r => (c.toNat :: r.1, r.2) := by
  rw [scanString]
  · simp only [hc, hslash, decide_false, Bool.or_self, Bool.false_eq_true, if_false]
    cases scanString cs <;> rfl
  all_goals simp [hquote, hslash]

/-- `scanString` of a letter after a backslash, which stands for a character. -/
theorem scanString_backslash {e : Char} (he : e ≠ 'u') (cs : List Char) :
    scanString ('\\' :: e :: cs) = (scanString.escaped? e).bind fun unit =>
      (scanString cs).map fun r => (unit :: r.1, r.2) := by
  rw [scanString]
  · cases scanString cs <;> rfl
  · simp [he]

/-- `scanString` reads back what `escapeChar` writes for a character. -/
theorem scanString_escapeChar (c : Char) (cs : List Char) :
    scanString (escapeChar c ++ cs) = (scanString cs).map fun r => (c.toNat :: r.1, r.2) := by
  unfold escapeChar
  split
  case h_8 c hquote hslash _ _ _ _ _ =>
    -- No letter stands for the character: it is a control character, or written as it is.
    split
    · rename_i hc
      simp only [List.cons_append, List.nil_append, scanString, hex4?_control hc]
      cases scanString cs <;> rfl
    · rename_i hc
      exact scanString_cons hquote hslash hc cs
  -- The seven characters with a letter of their own.
  all_goals exact scanString_backslash (by decide) cs

/-- `scanString` reads a written string up to its closing quote, by induction on its characters. -/
theorem scanString_flatMap_escapeChar (s rest : List Char) :
    scanString (s.flatMap escapeChar ++ '"' :: rest) = some (s.map Char.toNat, rest) := by
  induction s with
  | nil => rw [List.flatMap_nil, List.nil_append, scanString, List.map_nil]
  | cons c s ih =>
    rw [List.flatMap_cons, List.append_assoc, scanString_escapeChar, ih]
    rfl

/-- `textOfUnits?` of code points: characters are no surrogates, so their code points give them back.
    -/
theorem textOfUnits?_map_toNat (s : List Char) : textOfUnits? (s.map Char.toNat) = some s := by
  induction s with
  | nil => rfl
  | cons c s ih =>
    have hvalid : c.toNat < 0xd800 ∨ 0xdfff < c.toNat ∧ c.toNat < 0x110000 := c.valid
    -- Neither of the tests for surrogates holds.
    have hhigh : (decide (0xd800 ≤ c.toNat) && decide (c.toNat < 0xdc00)) = false := by
      simp only [Bool.and_eq_false_iff, decide_eq_false_iff_not]
      omega
    have hlow : (decide (0xdc00 ≤ c.toNat) && decide (c.toNat < 0xe000)) = false := by
      simp only [Bool.and_eq_false_iff, decide_eq_false_iff_not]
      omega
    rw [List.map_cons, textOfUnits?.eq_def]
    simp [hhigh, hlow, ih]

/-! ## Numbers -/

/-- `Decimal.ofDigits` of the digits of a number. -/
theorem ofDigits_toDigits (n : Nat) : Decimal.ofDigits (Nat.toDigits 10 n) = n := by
  have hfold : (fun (m : Nat) (d : Char) => m * 10 + (d.toNat - '0'.toNat)) =
      fun m d => 10 * m + (d.toNat - '0'.toNat) := by
    funext m d
    rw [Nat.mul_comm]
  rw [Decimal.ofDigits, hfold, ← Nat.ofDigitChars_eq_foldl, Nat.ofDigitChars_ten_toDigits]

/-- `toDigits` starts with a zero only if there are no other digits. -/
theorem toDigits_eq_zero_cons {n : Nat} {ds : List Char} (h : Nat.toDigits 10 n = '0' :: ds) :
    ds = [] := by
  induction n using Nat.strongRecOn generalizing ds with
  | ind n ih =>
    by_cases hn : n < 10
    · rw [Nat.toDigits_of_lt_base hn] at h
      exact (List.cons.inj h).2.symm
    · rw [Nat.toDigits_of_base_le (by omega) (by omega)] at h
      -- The digits before the last are those of a smaller number, and hence a zero alone.
      cases hd : Nat.toDigits 10 (n / 10) with
      | nil => exact absurd hd Nat.toDigits_ne_nil
      | cons d ds' =>
        rw [hd, List.cons_append, List.cons.injEq] at h
        obtain ⟨rfl, h⟩ := h
        have hnil := ih (n / 10) (by omega) hd
        have hzero := ofDigits_toDigits (n / 10)
        rw [hd, hnil] at hzero
        have : Decimal.ofDigits ['0'] = 0 := by decide
        omega

theorem isDigit_of_mem_toDigits {n : Nat} {c : Char} (hc : c ∈ Nat.toDigits 10 n) :
    c.isDigit = true :=
  Nat.isDigit_of_mem_toDigits (by decide) (by decide) hc

/-- `numeral?` of the digits of a number is the number. -/
theorem numeral?_toDigits (n : Nat) : numeral? (Nat.toDigits 10 n) = some (.nat n) := by
  have hdigits : ∀ c ∈ Nat.toDigits 10 n, c.isDigit = true := fun c hc => isDigit_of_mem_toDigits hc
  have htake := List.takeWhile_eq_self_iff.2 hdigits
  have hdrop := List.dropWhile_eq_nil_iff.2 hdigits
  -- A leading zero has to stand alone; any other first digit may have more behind it.
  have hunsigned : isUnsigned (Nat.toDigits 10 n) = true := by
    rw [isUnsigned, htake, hdrop]
    cases hd : Nat.toDigits 10 n with
    | nil => exact absurd hd Nat.toDigits_ne_nil
    | cons d ds =>
      by_cases hzero : d = '0'
      · have := toDigits_eq_zero_cons (hzero ▸ hd)
        simp [this, isNumeralTail, isExponentPart]
      · simp [hzero, isNumeralTail, isExponentPart]
  unfold numeral?
  split
  · -- A minus is no digit.
    rename_i hminus
    have := hdigits '-' (by rw [hminus]; exact List.mem_cons_self)
    exact absurd this (by decide)
  · rw [if_pos hunsigned, if_pos (List.all_eq_true.2 hdigits), ofDigits_toDigits]

/-! ## Single tokens -/

namespace Token

/-- Whether a token is a number, whose spelling ends only where something else starts. -/
def isNumber : Token → Bool
  | .nat _ | .numeral _ => true
  | _ => false

/-- A token whose spelling is one of a token of its sort. Only a numeral can be badly spelt, since it
    is kept as any text. -/
def WellSpelt : Token → Prop
  | .numeral s => (∀ c ∈ s.toList, isNumeralChar c = true) ∧ numeral? s.toList = some (.numeral s)
  | _ => True

/-- `next?` of characters of numerals with another behind them is a number. -/
theorem next?_numeral {cs rest : List Char} {t : Token} (hcs : ∀ c ∈ cs, isNumeralChar c = true)
    (ht : numeral? cs = some t) (hrest : ∀ c ∈ rest.head?, isNumeralChar c = false) :
    next? (cs ++ rest) = some (t, rest) := by
  have htake : (cs ++ rest).takeWhile isNumeralChar = cs := by
    rw [List.takeWhile_append_of_pos hcs]
    cases rest <;> simp_all
  have hdrop : (cs ++ rest).dropWhile isNumeralChar = rest := by
    rw [List.dropWhile_append_of_pos hcs]
    cases rest <;> simp_all
  cases cs with
  | nil => simp [numeral?_nil] at ht
  | cons c cs =>
    -- None of the other tokens starts with a character of numerals.
    have hc := hcs c List.mem_cons_self
    unfold next?
    split
    case h_11 => rw [htake, hdrop, ht]; rfl
    all_goals
      rename_i heq
      rw [List.cons_append, List.cons.injEq] at heq
      rw [heq.1] at hc
      exact absurd hc (by decide)

/-- `numeral?` of the spelling of a number is the number. -/
theorem WellSpelt.numeral {t : Token} (ht : t.WellSpelt) (hnumber : t.isNumber = true) :
    (∀ c ∈ t.text.toList, isNumeralChar c = true) ∧ numeral? t.text.toList = some t := by
  cases t with
  | nat n =>
    rw [text, Nat.toList_repr]
    refine ⟨?_, numeral?_toDigits n⟩
    intro c hc
    simp [isNumeralChar, isDigit_of_mem_toDigits hc]
  | numeral s => exact ht
  | _ => cases hnumber

/-- `next?` of the spelling of a token is the token, unless it is a number that runs on. -/
theorem next?_text {t : Token} {rest : List Char} (ht : t.WellSpelt)
    (hrest : t.isNumber = true → ∀ c ∈ rest.head?, isNumeralChar c = false) :
    next? (t.text.toList ++ rest) = some (t, rest) := by
  by_cases hnumber : t.isNumber = true
  · obtain ⟨hchars, hnumeral⟩ := ht.numeral hnumber
    exact next?_numeral hchars hnumeral (hrest hnumber)
  · cases t with
    | str s =>
      cases s with
      | none =>
        -- A string without a text is spelt as half a pair, which denotes none.
        have hunit : hex4? 'd' '8' '0' '0' = some 0xd800 := by decide
        simp [text, quote, next?, scanString, hunit, textOfUnits?]
      | some s =>
        have hscan := scanString_flatMap_escapeChar s.toList rest
        simp [text, quote, next?, hscan, textOfUnits?_map_toNat]
    | bool b => cases b <;> rfl
    | nat | numeral => exact absurd rfl hnumber
    | _ => rfl

/-- `isBlank` is false of characters of numerals. -/
theorem isBlank_eq_false {c : Char} (hc : isNumeralChar c = true) : isBlank c = false := by
  by_contra h
  rw [Bool.not_eq_false, isBlank] at h
  simp only [Bool.or_eq_true, decide_eq_true_eq] at h
  rcases h with ((rfl | rfl) | rfl) | rfl <;> exact absurd hc (by decide)

/-- `text` starts with no blank, and with a character of numerals only if the token is a number. -/
theorem WellSpelt.exists_text_eq_cons {t : Token} (ht : t.WellSpelt) :
    ∃ c cs, t.text.toList = c :: cs ∧ isBlank c = false ∧
      (t.isNumber = false → isNumeralChar c = false) := by
  by_cases hnumber : t.isNumber = true
  · obtain ⟨hchars, hnumeral⟩ := ht.numeral hnumber
    cases htext : t.text.toList with
    -- A numeral has at least one character.
    | nil => simp [htext, numeral?_nil] at hnumeral
    | cons c cs =>
      have hc := hchars c (by rw [htext]; exact List.mem_cons_self)
      exact ⟨c, cs, rfl, isBlank_eq_false hc, fun h => by simp [h] at hnumber⟩
  · cases t with
    | str s =>
      -- The others start with a fixed character.
      cases s with
      | none => exact ⟨'"', _, rfl, by decide, fun _ => by decide⟩
      | some s => exact ⟨'"', _, String.toList_ofList, by decide, fun _ => by decide⟩
    | bool b => cases b <;> exact ⟨_, _, rfl, by decide, fun _ => by decide⟩
    | nat | numeral => exact absurd rfl hnumber
    | _ => exact ⟨_, _, rfl, by decide, fun _ => by decide⟩

/-! ## Texts -/

/-- A text that consists of the spellings of tokens in order, with blanks before them and at the
    end. -/
inductive Spells : List Char → List Token → Prop where
  | nil {blanks : List Char} (hb : ∀ c ∈ blanks, isBlank c = true) : Spells blanks []
  | cons {blanks cs : List Char} {t : Token} {ts : List Token}
      (hb : ∀ c ∈ blanks, isBlank c = true) (h : Spells cs ts) :
      Spells (blanks ++ (t.text.toList ++ cs)) (t :: ts)

/-- Well spelt tokens of which no two numbers stand next to each other. -/
inductive Scannable : List Token → Prop where
  | nil : Scannable []
  | cons {t : Token} {ts : List Token} (ht : t.WellSpelt)
      (hnext : t.isNumber = true → ∀ u ∈ ts.head?, u.isNumber = false) (h : Scannable ts) :
      Scannable (t :: ts)

/-- `Spells` of tokens that start with no number: the text starts with no character of a numeral. -/
theorem Spells.head_eq {cs : List Char} {ts : List Token} (h : Spells cs ts) (hts : Scannable ts)
    (hhead : ∀ t ∈ ts.head?, t.isNumber = false) : ∀ c ∈ cs.head?, isNumeralChar c = false := by
  have hblank {c : Char} (hc : isBlank c = true) : isNumeralChar c = false := by
    by_contra hn
    rw [isBlank_eq_false (Bool.not_eq_false _ ▸ hn)] at hc
    cases hc
  -- The text starts with a blank, or with the spelling of its first token.
  intro c hc
  cases h with
  | nil hb => exact hblank (hb c (List.mem_of_mem_head? hc))
  | @cons blanks cs t ts hb h =>
    cases blanks with
    | cons b blanks => exact hblank (hb c (List.mem_of_mem_head? (by simpa using hc)))
    | nil =>
      cases hts with
      | cons ht _ _ =>
        obtain ⟨c', cs', htext, -, hc'⟩ := ht.exists_text_eq_cons
        have heq : c' = c := by simpa [htext] using hc
        exact heq ▸ hc' (hhead t rfl)

/-- `scan` passes over blanks, takes a token and goes on. -/
theorem scan_eq {cs cs' rest : List Char} {t : Token} (hcs : cs.dropWhile isBlank = cs')
    (hne : cs' ≠ []) (hnext : next? cs' = some (t, rest)) : scan cs = (scan rest).map (t :: ·) := by
  subst hcs
  rw [scan]
  split
  · contradiction
  · rename_i c cs' hcs
    split
    · simp_all
    · simp_all

/-- `scan` of a text gives the tokens it spells, if no two numbers touch. By induction on `Spells`. -/
theorem Spells.scan {cs : List Char} {ts : List Token} (h : Spells cs ts) (hts : Scannable ts) :
    scan cs = some ts := by
  induction h with
  | @nil blanks hb =>
    have hdrop := List.dropWhile_eq_nil_iff.2 hb
    rw [Token.scan]
    split
    · rfl
    · simp_all
  | @cons blanks cs t ts hb h ih =>
    cases hts with
    | cons ht hnumber hts =>
      obtain ⟨c, cs', htext, hc, -⟩ := ht.exists_text_eq_cons
      have hdrop : (blanks ++ (t.text.toList ++ cs)).dropWhile isBlank = t.text.toList ++ cs := by
        rw [List.dropWhile_append_of_pos hb, htext, List.cons_append, List.dropWhile_cons_of_neg]
        simp [hc]
      -- If the token is a number, the text behind it starts with something else.
      have hnext : next? (t.text.toList ++ cs) = some (t, cs) :=
        next?_text ht fun hn => h.head_eq hts (hnumber hn)
      rw [scan_eq hdrop (by simp [htext]) hnext, ih hts]
      rfl

/-! ## The printed forms -/

theorem Spells.blank_append {blanks cs : List Char} {ts : List Token}
    (hb : ∀ c ∈ blanks, isBlank c = true) (h : Spells cs ts) : Spells (blanks ++ cs) ts := by
  cases h with
  | nil hb' => exact .nil (List.forall_mem_append.2 ⟨hb, hb'⟩)
  | cons hb' h =>
    rw [← List.append_assoc]
    exact .cons (List.forall_mem_append.2 ⟨hb, hb'⟩) h

theorem Spells.text_append {cs : List Char} {ts : List Token} (t : Token) (h : Spells cs ts) :
    Spells (t.text.toList ++ cs) (t :: ts) :=
  @Spells.cons [] cs t ts (fun _ hc => absurd hc List.not_mem_nil) h

/-- `Spells` of spellings one after the other, as in `compact`. -/
theorem spells_text (ts : List Token) : Spells (String.join (ts.map text)).toList ts := by
  induction ts with
  | nil => exact .nil (by simp)
  | cons t ts ih =>
    rw [List.map_cons, String.join_cons, String.toList_append]
    exact ih.text_append t

theorem isBlank_of_mem_newline {depth : Nat} {c : Char} (hc : c ∈ (newline depth).toList) :
    isBlank c = true := by
  rw [newline, String.toList_ofList, List.mem_cons, List.mem_replicate] at hc
  rcases hc with rfl | ⟨-, rfl⟩ <;> decide

theorem isBlank_of_mem_gap {depth : Nat} {first second : Token} {c : Char}
    (hc : c ∈ (gap depth first second).toList) : isBlank c = true := by
  -- A gap is empty, a new line or a single space.
  unfold gap at hc
  split at hc
  · split at hc
    · simp at hc
    · exact isBlank_of_mem_newline hc
  · split at hc
    · exact isBlank_of_mem_newline hc
    · split at hc
      · exact isBlank_of_mem_newline hc
      · split at hc
        · rw [List.mem_singleton.1 hc]
          decide
        · simp at hc

/-- `Spells` of spellings on lines of their own, as in `indented`, with blanks at the end. -/
theorem spells_indentedParts (depth : Nat) (ts : List Token) {blanks : List Char}
    (hb : ∀ c ∈ blanks, isBlank c = true) :
    Spells ((String.join (indentedParts depth ts)).toList ++ blanks) ts := by
  have hend : Spells blanks [] := .nil hb
  fun_induction indentedParts depth ts with
  | case1 => exact hend
  | case2 depth t =>
    rw [String.join_cons, String.toList_append, List.append_assoc]
    exact hend.text_append t
  | case3 depth t next rest depth' ih =>
    rw [String.join_cons, String.join_cons, String.toList_append, String.toList_append,
      List.append_assoc, List.append_assoc]
    exact (ih.blank_append fun _ hc => isBlank_of_mem_gap hc).text_append t

end Token

end Unsugar.Json
