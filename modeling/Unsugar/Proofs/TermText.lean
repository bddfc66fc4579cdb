import Mathlib
import Unsugar.Proofs.Blanks
import Unsugar.Proofs.Json.Spelling
import Unsugar.Term.Display

/-!
# Reading terms back

A term that is written without a literal table can be read back from its text, whatever the width of
the page. The text is split into tokens, and the tokens are read one at a time: the state of reading is
a stack of the forms that are still open. The body of an abstraction is not enclosed in anything, so a
complete term completes the abstractions around it as well, up to the form that they stand in.

Effects are written like literals and are read as such. All else is read as it was.

## Key results

- `Term.Token.scan_collapse`: scanning does not see how long a run of blanks is
- `Term.Token.Spells.scan`: a text that spells tokens is scanned as these tokens
- `Term.reads`: the tokens of a term are read as the term
- `read?_layout_spec`: texts of terms
-/

namespace Unsugar.Term

open Layout Text

/-! ## Tokens -/

/-- A form that is written as a name with operands. -/
inductive Form where
  | typeOf
  | unpack
  | handle
  | compare
deriving DecidableEq, Repr

namespace Form

/-- The name that a form is written with. -/
def name : Form → String
  | .typeOf => "type"
  | .unpack => "unpack"
  | .handle => "handle"
  | .compare => "compare"

/-- The term of a form with operands, if they are as many as it takes. -/
def build? : Form → List Term → Option Term
  | .typeOf, [v] => some (.typeOf v)
  | .unpack, [v, c, o] => some (.unpack v c o)
  | .handle, [b, h] => some (.handle b h)
  | .compare, [l, r, e, o] => some (.compare l r e o)
  | _, _ => none

end Form

/-- A token of the text of a term. -/
inductive Token where
  /-- The mark of an abstraction. -/
  | abs
  /-- The mark of a self-referential abstraction. -/
  | fix
  | var (index : Nat)
  | lit (index : Nat)
  | form (f : Form)
  | openParen
  | closeParen
  | comma
deriving DecidableEq, Repr

namespace Token

/-- The spelling of a token. -/
def text : Token → String
  | .abs => "λ."
  | .fix => "μ."
  | .var i => s!"#{i}"
  | .lit i => s!"%{i}"
  | .form f => f.name
  | .openParen => "("
  | .closeParen => ")"
  | .comma => ","

/-- The number of one or more digits. -/
def index? (ds : List Char) : Option Nat :=
  if !ds.isEmpty && ds.all Char.isDigit then some (Decimal.ofDigits ds) else none

/-- The token that is spelt by characters. -/
def ofChars? : List Char → Option Token
  | ['λ', '.'] => some .abs
  | ['μ', '.'] => some .fix
  | ['('] => some .openParen
  | [')'] => some .closeParen
  | [','] => some .comma
  | '#' :: ds => (index? ds).map .var
  | '%' :: ds => (index? ds).map .lit
  | ['t', 'y', 'p', 'e'] => some (.form .typeOf)
  | ['u', 'n', 'p', 'a', 'c', 'k'] => some (.form .unpack)
  | ['h', 'a', 'n', 'd', 'l', 'e'] => some (.form .handle)
  | ['c', 'o', 'm', 'p', 'a', 'r', 'e'] => some (.form .compare)
  | _ => none

/-- Scans a character in front of a text of which `word` is the start of an unfinished token. A blank
    stands between tokens only, and a digit is never the first character of one. -/
def scanChar (c : Char) (scanned : List Char × List Token) : Option (List Char × List Token) :=
  let (word, ts) := scanned
  if isBlank c then
    if word.isEmpty then some ([], ts) else none
  else if c.isDigit then some (c :: word, ts)
  else
    match ofChars? (c :: word) with
    | some t => some ([], t :: ts)
    | none => some (c :: word, ts)

/-- Scans a text from its end. No spelling ends in another one, so a token is complete as soon as the
    characters up to there spell one. -/
def scanFrom (cs : List Char) : Option (List Char × List Token) :=
  cs.foldr (fun c scanned => scanned.bind (scanChar c)) (some ([], []))

/-- The tokens of a text. -/
def scan (cs : List Char) : Option (List Token) :=
  match scanFrom cs with
  | some ([], ts) => some ts
  | _ => none

/-! ## Scanning -/

theorem scanFrom_cons (c : Char) (cs : List Char) :
    scanFrom (c :: cs) = (scanFrom cs).bind (scanChar c) := rfl

/-- `scanChar` of a blank, which stands between tokens only. -/
theorem scanChar_of_isBlank {c : Char} (hc : isBlank c) (scanned : List Char × List Token) :
    scanChar c scanned = if scanned.1.isEmpty then some ([], scanned.2) else none := by
  simp [scanChar, hc]

/-- `scanChar` of a blank after a blank passes over it. -/
theorem scanChar_bind_of_isBlank {c c' : Char} (hc : isBlank c) (hc' : isBlank c')
    (scanned : List Char × List Token) :
    (scanChar c' scanned).bind (scanChar c) = scanChar c' scanned := by
  rw [scanChar_of_isBlank hc']
  split
  · rw [Option.bind_some, scanChar_of_isBlank hc]
    rfl
  · rfl

/-- `scanFrom` of `squeeze`: blanks in front may be squeezed. -/
theorem scanFrom_squeeze (c : Char) (cs : List Char) :
    scanFrom (squeeze c cs) = scanFrom (c :: cs) := by
  cases hc : isBlank c with
  | false => rw [squeeze_of_not_isBlank hc]
  | true =>
    have hspace : isBlank ' ' := by decide
    simp only [squeeze, hc, if_true]
    split
    · -- A space follows, so the blank is left out.
      next hhead =>
      obtain ⟨cs', rfl⟩ := List.head?_eq_some_iff.1 hhead
      simp only [scanFrom_cons, Option.bind_assoc, scanChar_bind_of_isBlank hc hspace]
    · -- A blank of any kind is scanned like a space.
      rw [scanFrom_cons, scanFrom_cons]
      congr 1
      funext scanned
      rw [scanChar_of_isBlank hc, scanChar_of_isBlank hspace]

/-- `scan` does not see how long a run of blanks is, and of which blanks it is. -/
theorem scan_collapse (cs : List Char) : scan (collapse cs) = scan cs := by
  have hfrom : scanFrom (collapse cs) = scanFrom cs := by
    induction cs with
    | nil => rfl
    | cons c cs ih =>
      have hcollapse : collapse (c :: cs) = squeeze c (collapse cs) := rfl
      rw [hcollapse, scanFrom_squeeze, scanFrom_cons, ih, scanFrom_cons]
  rw [scan, hfrom, scan]

/-- `scanFrom` of digits: they wait for what comes before them. -/
theorem scanFrom_digits {ds cs : List Char} {ts : List Token} (hds : ∀ d ∈ ds, d.isDigit = true)
    (h : scanFrom cs = some ([], ts)) : scanFrom (ds ++ cs) = some (ds, ts) := by
  induction ds with
  | nil => exact h
  | cons d ds ih =>
    obtain ⟨hd, hds⟩ := List.forall_mem_cons.1 hds
    -- No digit is a blank.
    have hblank : isBlank d = false := by
      by_contra hblank
      rw [Bool.not_eq_false, isBlank, Bool.or_eq_true, decide_eq_true_eq, decide_eq_true_eq] at hblank
      rcases hblank with rfl | rfl <;> exact absurd hd (by decide)
    rw [List.cons_append, scanFrom_cons, ih hds]
    simp [scanChar, hblank, hd]

/-- `index?` reads the digits of a number. -/
theorem index?_toDigits (i : Nat) : index? (Nat.toDigits 10 i) = some i := by
  have hdigits : (Nat.toDigits 10 i).all Char.isDigit = true :=
    List.all_eq_true.2 fun _ hd => Json.isDigit_of_mem_toDigits hd
  simp [index?, hdigits, Nat.toDigits_ne_nil, Json.ofDigits_toDigits]

/-- `scanFrom` of a mark with the digits of an index behind it makes a token. -/
theorem scanFrom_mark {mark : Char} {i : Nat} {t : Token} {cs : List Char} {ts : List Token}
    (hmark : isBlank mark = false ∧ mark.isDigit = false)
    (ht : ofChars? (mark :: Nat.toDigits 10 i) = some t) (h : scanFrom cs = some ([], ts)) :
    scanFrom (mark :: Nat.toDigits 10 i ++ cs) = some ([], t :: ts) := by
  have hdigits : ∀ d ∈ Nat.toDigits 10 i, d.isDigit = true := fun _ => Json.isDigit_of_mem_toDigits
  rw [List.cons_append, scanFrom_cons, scanFrom_digits hdigits h, Option.bind_some]
  simp [scanChar, hmark, ht]

/-- `scanFrom` of the spelling of a token in front of a text gives the token. -/
theorem scanFrom_text (t : Token) {cs : List Char} {ts : List Token}
    (h : scanFrom cs = some ([], ts)) :
    scanFrom (t.text.toList ++ cs) = some ([], t :: ts) := by
  cases t with
  | var i =>
    -- An index is spelt by its mark and its digits.
    have htext : (var i).text.toList = '#' :: Nat.toDigits 10 i := by
      simp [text]
      rfl
    have ht : ofChars? ('#' :: Nat.toDigits 10 i) = some (var i) := by
      show (index? (Nat.toDigits 10 i)).map var = _
      rw [index?_toDigits, Option.map_some]
    rw [htext]
    exact scanFrom_mark (by decide) ht h
  | lit i =>
    have htext : (lit i).text.toList = '%' :: Nat.toDigits 10 i := by
      simp [text]
      rfl
    have ht : ofChars? ('%' :: Nat.toDigits 10 i) = some (lit i) := by
      show (index? (Nat.toDigits 10 i)).map lit = _
      rw [index?_toDigits, Option.map_some]
    rw [htext]
    exact scanFrom_mark (by decide) ht h
  | form f =>
    -- The other tokens have fixed spellings.
    cases f
    all_goals
      rw [scanFrom, List.foldr_append, ← scanFrom, h]
      rfl
  | _ =>
    rw [scanFrom, List.foldr_append, ← scanFrom, h]
    rfl

/-! ## Texts that spell tokens -/

/-- A text that consists of the spellings of tokens in order, with any blanks or none before them and
    at the end. -/
inductive Spells : List Char → List Token → Prop where
  | nil : Spells [] []
  | blank {c : Char} {cs : List Char} {ts : List Token} (hc : isBlank c) (h : Spells cs ts) :
      Spells (c :: cs) ts
  | token {cs : List Char} {ts : List Token} (t : Token) (h : Spells cs ts) :
      Spells (t.text.toList ++ cs) (t :: ts)

/-- `Spells` of spellings one after the other, without blanks. -/
theorem spells_texts (ts : List Token) : Spells (ts.flatMap fun t => t.text.toList) ts := by
  induction ts with
  | nil => exact .nil
  | cons t ts ih => exact .token t ih

/-- `scan` of a text gives the tokens that it spells. By induction on `Spells`. -/
theorem Spells.scan {cs : List Char} {ts : List Token} (h : Spells cs ts) : scan cs = some ts := by
  have hfrom : scanFrom cs = some ([], ts) := by
    induction h with
    | nil => rfl
    | blank hc _ ih =>
      rw [scanFrom_cons, ih, Option.bind_some, scanChar_of_isBlank hc]
      rfl
    | token t _ ih => exact scanFrom_text t ih
  rw [Token.scan, hfrom]

end Token

/-! ## The tokens of a term -/

/-- The tokens of operands, followed by others. -/
def operandTokensTo : List (List Token → List Token) → List Token → List Token
  | [], rest => rest
  | [operand], rest => operand rest
  | operand :: next :: operands, rest =>
    operand (.comma :: operandTokensTo (next :: operands) rest)

/-- The tokens of a named form, followed by others. -/
def formTokensTo (f : Form) (operands : List (List Token → List Token)) (rest : List Token) :
    List Token :=
  .form f :: .openParen :: operandTokensTo operands (.closeParen :: rest)

/-- The tokens of a term, followed by others. -/
def tokensTo : Term → List Token → List Token
  | .var i, rest => .var i :: rest
  | .lit i, rest | .effect i, rest => .lit i :: rest
  | .abs b, rest => .abs :: b.tokensTo rest
  | .fix b, rest => .fix :: b.tokensTo rest
  | .app f x, rest => .openParen :: f.tokensTo (x.tokensTo (.closeParen :: rest))
  | .typeOf v, rest => formTokensTo .typeOf [v.tokensTo] rest
  | .unpack v c o, rest => formTokensTo .unpack [v.tokensTo, c.tokensTo, o.tokensTo] rest
  | .handle b h, rest => formTokensTo .handle [b.tokensTo, h.tokensTo] rest
  | .compare l r e o, rest =>
    formTokensTo .compare [l.tokensTo, r.tokensTo, e.tokensTo, o.tokensTo] rest

/-- A term with each effect replaced by the literal at the same place. -/
def effectsAsLiterals : Term → Term
  | .var i => .var i
  | .lit i | .effect i => .lit i
  | .abs b => .abs b.effectsAsLiterals
  | .fix b => .fix b.effectsAsLiterals
  | .app f x => .app f.effectsAsLiterals x.effectsAsLiterals
  | .typeOf v => .typeOf v.effectsAsLiterals
  | .unpack v c o => .unpack v.effectsAsLiterals c.effectsAsLiterals o.effectsAsLiterals
  | .handle b h => .handle b.effectsAsLiterals h.effectsAsLiterals
  | .compare l r e o =>
    .compare l.effectsAsLiterals r.effectsAsLiterals e.effectsAsLiterals o.effectsAsLiterals

/-! ## Reading -/

/-- A form that is still open. -/
inductive Unfinished where
  /-- An abstraction, of which the body is being read. -/
  | abs
  /-- A self-referential abstraction, of which the body is being read. -/
  | fix
  /-- An application, of which the function is being read. -/
  | fn
  /-- An application of a function, of which the argument is being read. -/
  | arg (fn : Term)
  /-- A named form, of which an operand after these is being read, newest first. -/
  | form (f : Form) (operands : List Term)
deriving Repr

/-- What may come next. -/
inductive Expect where
  /-- A term. -/
  | term
  /-- The parenthesis that opens a named form. -/
  | openForm (f : Form)
  /-- The parenthesis that closes an application. -/
  | closeApp (fn arg : Term)
  /-- A comma or the parenthesis that closes a named form, after these operands, newest first. -/
  | afterOperand (f : Form) (operands : List Term)
  /-- Nothing more. -/
  | done (t : Term)
deriving Repr

/-- A state of reading. -/
structure ReadState where
  stack : List Unfinished
  expect : Expect
deriving Repr

namespace ReadState

/-- Nothing was read yet. -/
def start : ReadState := ⟨[], .term⟩

/-- What comes after a complete term. It completes the abstractions that it is the body of. -/
def complete : Term → List Unfinished → ReadState
  | t, [] => ⟨[], .done t⟩
  | t, .abs :: stack => complete (.abs t) stack
  | t, .fix :: stack => complete (.fix t) stack
  | t, .fn :: stack => ⟨.arg t :: stack, .term⟩
  | t, .arg fn :: stack => ⟨stack, .closeApp fn t⟩
  | t, .form f operands :: stack => ⟨stack, .afterOperand f (t :: operands)⟩

/-- Reads one token. -/
def step (s : ReadState) (t : Token) : Option ReadState :=
  match s.expect, t with
  | .term, .var i => some (complete (.var i) s.stack)
  | .term, .lit i => some (complete (.lit i) s.stack)
  | .term, .abs => some ⟨.abs :: s.stack, .term⟩
  | .term, .fix => some ⟨.fix :: s.stack, .term⟩
  | .term, .openParen => some ⟨.fn :: s.stack, .term⟩
  | .term, .form f => some ⟨s.stack, .openForm f⟩
  | .openForm f, .openParen => some ⟨.form f [] :: s.stack, .term⟩
  | .closeApp fn arg, .closeParen => some (complete (.app fn arg) s.stack)
  | .afterOperand f operands, .comma => some ⟨.form f operands :: s.stack, .term⟩
  | .afterOperand f operands, .closeParen =>
    (f.build? operands.reverse).map fun t => complete t s.stack
  | _, _ => none

/-- The term that was read, when nothing is left open. -/
def result? (s : ReadState) : Option Term :=
  match s.expect with
  | .done t => some t
  | _ => none

end ReadState

/-- The term of a sequence of tokens. -/
def ofTokens? (ts : List Token) : Option Term := do
  (← ts.foldlM ReadState.step ReadState.start).result?

/-- The term of a text. -/
def read? (text : String) : Option Term := do
  ofTokens? (← Token.scan text.toList)

/-! ## Terms are read back -/

/-- Tokens that are read as a term, whatever is open around it and whatever follows. -/
def Reads (tokens : List Token → List Token) (t : Term) : Prop :=
  ∀ stack rest, (tokens rest).foldlM ReadState.step ⟨stack, .term⟩ =
    rest.foldlM ReadState.step (ReadState.complete t stack)

/-- `step` over `operandTokensTo`: operands are read one after the other up to the parenthesis that
    closes their form. By induction on the operands. -/
theorem foldlM_operandTokensTo {f : Form} {operands : List (List Token → List Token)}
    {ts : List Term} (h : List.Forall₂ Reads operands ts) (hne : operands ≠ [])
    (before : List Term) (stack : List Unfinished) (rest : List Token) :
    (operandTokensTo operands (.closeParen :: rest)).foldlM ReadState.step
        ⟨.form f before :: stack, .term⟩ =
      (f.build? (before.reverse ++ ts)).bind fun t =>
        rest.foldlM ReadState.step (ReadState.complete t stack) := by
  induction h generalizing before with
  | nil => exact absurd rfl hne
  | @cons operand t operands ts hfirst hrest ih =>
    cases operands with
    | nil =>
      -- The last operand: the parenthesis builds the form.
      cases hrest
      rw [operandTokensTo, hfirst, ← List.reverse_cons]
      show ((f.build? (t :: before).reverse).map _).bind _ = _
      rw [Option.bind_map]
      rfl
    | cons next operands =>
      -- A comma: the operand joins those that were read before.
      rw [operandTokensTo, hfirst]
      show (operandTokensTo (next :: operands) (.closeParen :: rest)).foldlM ReadState.step
        ⟨.form f (t :: before) :: stack, .term⟩ = _
      rw [ih (List.cons_ne_nil _ _), List.reverse_cons, List.append_assoc, List.singleton_append]

/-- `Reads` of a named form whose operands are read. -/
theorem reads_form {f : Form} {operands : List (List Token → List Token)} {ts : List Term} {t : Term}
    (h : List.Forall₂ Reads operands ts) (hne : operands ≠ []) (ht : f.build? ts = some t) :
    Reads (formTokensTo f operands) t := by
  intro stack rest
  show (operandTokensTo operands (.closeParen :: rest)).foldlM ReadState.step
    ⟨.form f [] :: stack, .term⟩ = _
  rw [foldlM_operandTokensTo h hne, List.reverse_nil, List.nil_append, ht, Option.bind_some]

/-- `Reads` of the tokens of a term: they are read as the term, with effects as literals. By induction
    on the term, whatever is open around it. -/
theorem reads (t : Term) : Reads t.tokensTo t.effectsAsLiterals := by
  induction t with
  | var i | lit i | effect i =>
    intro stack rest
    rfl
  | abs b ih =>
    intro stack rest
    exact ih (.abs :: stack) rest
  | fix b ih =>
    intro stack rest
    exact ih (.fix :: stack) rest
  | app f x ihf ihx =>
    intro stack rest
    show (f.tokensTo (x.tokensTo (.closeParen :: rest))).foldlM ReadState.step
      ⟨.fn :: stack, .term⟩ = _
    rw [ihf]
    -- The function is complete, and its argument is read next.
    show (x.tokensTo (.closeParen :: rest)).foldlM ReadState.step
      ⟨.arg f.effectsAsLiterals :: stack, .term⟩ = _
    rw [ihx]
    rfl
  | typeOf v ih => exact reads_form (.cons ih .nil) (List.cons_ne_nil _ _) rfl
  | unpack v c o ihv ihc iho =>
    exact reads_form (.cons ihv (.cons ihc (.cons iho .nil))) (List.cons_ne_nil _ _) rfl
  | handle b h ihb ihh =>
    exact reads_form (.cons ihb (.cons ihh .nil)) (List.cons_ne_nil _ _) rfl
  | compare l r e o ihl ihr ihe iho =>
    exact reads_form (.cons ihl (.cons ihr (.cons ihe (.cons iho .nil)))) (List.cons_ne_nil _ _) rfl

/-- `ofTokens?` of the tokens of a term. -/
theorem ofTokens?_tokensTo (t : Term) : ofTokens? (t.tokensTo []) = some t.effectsAsLiterals := by
  have hread : (t.tokensTo []).foldlM ReadState.step ReadState.start =
      some ⟨[], .done t.effectsAsLiterals⟩ := t.reads [] []
  rw [ofTokens?, hread]
  rfl

/-! ## What a document spells -/

/-- A document that, on one line, spells tokens in front of whatever follows. -/
def Spelt (d : Doc) (tokens : List Token → List Token) : Prop :=
  ∀ ⦃cs rest⦄, Token.Spells cs rest → Token.Spells (d.flat ++ cs) (tokens rest)

theorem spelt_token (t : Token) : Spelt (.ofString t.text) (t :: ·) :=
  fun _ _ h => .token t h

theorem Spelt.append {d d' : Doc} {tokens tokens' : List Token → List Token} (h : Spelt d tokens)
    (h' : Spelt d' tokens') : Spelt (d ++ d') fun rest => tokens (tokens' rest) := by
  intro cs rest hcs
  show Token.Spells (d.flat ++ d'.flat ++ cs) _
  rw [List.append_assoc]
  exact h (h' hcs)

/-- `Spelt` of a place where a line may be broken, which stands for no token. -/
theorem spelt_line : Spelt .line id :=
  fun _ _ h => .blank (by decide) h

/-- `Spelt` of operands with commas between them. -/
theorem spelt_operands {ds : List Doc} {operands : List (List Token → List Token)}
    (h : List.Forall₂ Spelt ds operands) :
    Spelt (.separated (.ofString "," ++ .line) ds) (operandTokensTo operands) := by
  induction h with
  | nil => exact fun _ _ h => h
  | @cons d operand ds operands hfirst hrest ih =>
    cases hrest with
    | nil => exact hfirst
    | cons _ _ => exact (hfirst.append ((spelt_token .comma).append spelt_line)).append ih

theorem spelt_form {ds : List Doc} {operands : List (List Token → List Token)} (f : Form)
    (h : List.Forall₂ Spelt ds operands) : Spelt (formDoc f.name ds) (formTokensTo f operands) :=
  (((spelt_token (.form f)).append (spelt_token .openParen)).append (spelt_operands h)).append
    (spelt_token .closeParen)

/-- `Spelt` of the document of a term without a literal table: it spells the tokens of the term. By
    induction on the term. -/
theorem spelt_doc (t : Term) : Spelt (t.doc []) t.tokensTo := by
  induction t with
  | var i => exact spelt_token (.var i)
  | lit i | effect i => exact spelt_token (.lit i)
  | abs b ih => exact (spelt_token .abs).append (spelt_line.append ih)
  | fix b ih => exact (spelt_token .fix).append (spelt_line.append ih)
  | app f x ihf ihx =>
    exact (((spelt_token .openParen).append ihf).append (spelt_line.append ihx)).append
      (spelt_token .closeParen)
  | typeOf v ih => exact spelt_form .typeOf (.cons ih .nil)
  | unpack v c o ihv ihc iho => exact spelt_form .unpack (.cons ihv (.cons ihc (.cons iho .nil)))
  | handle b h ihb ihh => exact spelt_form .handle (.cons ihb (.cons ihh .nil))
  | compare l r e o ihl ihr ihe iho =>
    exact spelt_form .compare (.cons ihl (.cons ihr (.cons ihe (.cons iho .nil))))

/-- `scan` of the text of a term on a page of any width gives the tokens of the term. -/
theorem scan_layout (t : Term) (width : Nat) :
    Token.scan (t.layout [] width).toList = some (t.tokensTo []) := by
  have hspells : Token.Spells ((t.doc []).flat ++ [' ']) (t.tokensTo []) :=
    t.spelt_doc (.blank (by decide) .nil)
  rw [← Token.scan_collapse, layout, Doc.collapse_render, Token.scan_collapse, hspells.scan]

theorem read?_layout (t : Term) (width : Nat) :
    read? (t.layout [] width) = some t.effectsAsLiterals := by
  rw [read?, scan_layout]
  exact t.ofTokens?_tokensTo

/-- `doc` writes effects like literals. -/
theorem doc_effectsAsLiterals (literals : List Literal) (t : Term) :
    t.effectsAsLiterals.doc literals = t.doc literals := by
  induction t with
  | var i | lit i | effect i => rfl
  | abs b ih | fix b ih | typeOf b ih => rw [effectsAsLiterals, doc, ih, doc]
  | app f x ihf ihx => rw [effectsAsLiterals, doc, ihf, ihx, doc]
  | unpack v c o ihv ihc iho => rw [effectsAsLiterals, doc, ihv, ihc, iho, doc]
  | handle b h ihb ihh => rw [effectsAsLiterals, doc, ihb, ihh, doc]
  | compare l r e o ihl ihr ihe iho => rw [effectsAsLiterals, doc, ihl, ihr, ihe, iho, doc]

end Unsugar.Term

namespace Unsugar

open Text

/-- `read?` reads texts of terms back. It does not depend on how long the runs of blanks in a text are
    and of which blanks they are (`collapseBlanks`); and of a text that spells tokens it reads the
    tokens, with any blanks between them or none. On a page of any width, `layout` of a term without a
    literal table is read as the term, with each effect as the literal at the same place
    (`effectsAsLiterals`). So the texts at two widths are the same up to their runs of blanks, and two
    terms have the same text at some widths exactly if they differ at most in which of their literals
    are effects. -/
theorem read?_layout_spec :
    (∀ s s' : String, collapseBlanks s = collapseBlanks s' → Term.read? s = Term.read? s') ∧
    (∀ (s : String) (ts : List Term.Token), Term.Token.Spells s.toList ts →
      Term.read? s = Term.ofTokens? ts) ∧
    (∀ (t : Term) (width : Nat), Term.read? (t.layout [] width) = some t.effectsAsLiterals) ∧
    (∀ (t : Term) (width width' : Nat),
      collapseBlanks (t.layout [] width) = collapseBlanks (t.layout [] width')) ∧
    ∀ t u : Term, (∃ width width', t.layout [] width = u.layout [] width') ↔
      t.effectsAsLiterals = u.effectsAsLiterals := by
  refine ⟨?_, ?_, Term.read?_layout, ?_, ?_⟩
  · -- blanks
    intro s s' h
    have hcollapse : collapse s.toList = collapse s'.toList := String.ofList_injective h
    rw [Term.read?, Term.read?, ← Term.Token.scan_collapse, hcollapse, Term.Token.scan_collapse]
  · -- spelt tokens
    intro s ts h
    rw [Term.read?, h.scan]
    rfl
  · -- two widths
    intro t width width'
    rw [collapseBlanks, collapseBlanks, Term.layout, Term.layout, Layout.Doc.collapse_render,
      Layout.Doc.collapse_render]
  · -- two terms
    intro t u
    constructor
    · rintro ⟨width, width', h⟩
      have hread := t.read?_layout width
      rw [h, u.read?_layout width'] at hread
      exact (Option.some.inj hread).symm
    · intro h
      refine ⟨0, 0, ?_⟩
      rw [Term.layout, Term.layout, ← t.doc_effectsAsLiterals, ← u.doc_effectsAsLiterals, h]

/-- A term on a narrow page, with other blanks, and with none at all. -/
theorem read?_layout_spec_narrow :
    let t := Term.app (.abs (.effect 10)) (.handle (.var 0) (.lit 2))
    let narrow := "(λ.\n  %10\n  handle(#0,\n         %2))\n"
    let loose := "(λ. %10\n\n handle(#0,   %2)) "
    let dense := "(λ.%10handle(#0,%2))"
    t.layout [] 5 = narrow ∧ Term.read? narrow = some t.effectsAsLiterals ∧
      Term.read? loose = some t.effectsAsLiterals ∧ Term.read? dense = some t.effectsAsLiterals := by
  intro t narrow loose dense
  obtain ⟨hblanks, hspells, hread, -, -⟩ := read?_layout_spec
  have hnarrow : t.layout [] 5 = narrow := by decide +kernel
  have hloose : collapseBlanks loose = collapseBlanks narrow := by decide +kernel
  -- Without any blank the text still spells the tokens.
  have hdense : Term.Token.Spells dense.toList (t.tokensTo []) := by
    have htexts : dense.toList = (t.tokensTo []).flatMap fun t => t.text.toList := by decide +kernel
    rw [htexts]
    exact Term.Token.spells_texts _
  have hterm : Term.read? narrow = some t.effectsAsLiterals := hnarrow ▸ hread t 5
  exact ⟨hnarrow, hterm, (hblanks _ _ hloose).trans hterm,
    (hspells _ _ hdense).trans t.ofTokens?_tokensTo⟩

end Unsugar
