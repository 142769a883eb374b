import LiveQuery.Proofs.Lexemes
import LiveQuery.Proofs.UniqueText

/-!
# Comments in texts

Before the engine looks at the structure of a statement, it cuts the text into atoms: names, texts,
blobs, numbers, words and signs, each as far as its characters go.  So pieces that are harmless by
themselves can run together.  Two minus signs begin a comment that hides the rest of the line, a
slash and a star begin one that hides what follows up to a star and a slash, two words make another
word, and a number goes on with the letters behind it.

Nearly everywhere the renderer puts blanks or brackets between its pieces.  The one exception is the
minus of a negation, which stands right in front of its operand.  Most operands begin with something
that a minus does not run together with, but the literal of a negative number begins with a minus of
its own, and then the two of them begin a comment.  The prepared text has a placeholder there and is
read as it is meant; it is the canonical text that has lost its structure.

What a text is read as depends on what follows it, so the lemmas are about a text in front of a rest
that fits behind it (`Atom.Reads`).  They are stated once for both texts of an expression, which
differ in how they write values (`Spelling`).

## Main definitions

* `Atom`, `Atom.next`, `Atom.read`: reading a text.
* `Atom.fill`: the atoms of a text with values put to its placeholders.
* `Spelling`: a way to write values.
* `Expr.doublesSign`: whether a minus is written right in front of a literal with one of its own.

## Main results

* `Expr.readsAs_tokens`: an expression is read token by token, unless two minus signs meet.
* `Expr.text_structure_iff`: the canonical text has the structure of the prepared one with its
  placeholders filled in exactly if no two minus signs meet, that is, if there is no comment in it.
-/

namespace LiveQuery

/-! ### Reading -/

/-- What the engine tells apart in the text of a statement. -/
inductive Atom where
  /-- A name between double quotes. -/
  | name (n : String)
  /-- A text between single quotes. -/
  | text (s : String)
  /-- A blob. -/
  | blob (bytes : List UInt8)
  /-- A number without a sign, as it is written. -/
  | number (n : List Char)
  /-- A word without quotes: a name, or a word of the language. -/
  | word (w : List Char)
  /-- An operator, a bracket or another sign. -/
  | sign (s : List Char)
  /-- A question mark that stands for a value. -/
  | placeholder
  /-- A comment. -/
  | comment
  /-- A quote without an end, or a number or blob that goes on with what does not belong to it. -/
  | broken
deriving DecidableEq, Repr

namespace Atom

/-- Whether a character is a blank between atoms. -/
def isBlank (c : Char) : Bool := [' ', '\t', '\n', '\x0c', '\r'].contains c

/-- Whether a character can be part of a word. -/
def isWordChar (c : Char) : Bool := c.isAlphanum || c == '_' || c == '$' || decide (128 ≤ c.toNat)

/-- The point and the digits behind it that a text begins with, if it begins with a point. -/
def fractionChars : List Char → List Char
  | '.' :: rest => '.' :: rest.takeWhile Char.isDigit
  | _ => []

/-- The exponent that a text begins with, if there is one with digits. -/
def exponentChars : List Char → List Char
  | [] => []
  | c :: rest =>
    let sign := (rest.take 1).filter fun d => d == '-' || d == '+'
    let digits := (rest.drop sign.length).takeWhile Char.isDigit
    if (c = 'e' ∨ c = 'E') ∧ digits ≠ [] then c :: (sign ++ digits) else []

/-- The number that a text begins with. -/
def numberChars (text : List Char) : List Char :=
  let whole := text.takeWhile Char.isDigit
  let fraction := fractionChars (text.drop whole.length)
  whole ++ (fraction ++ exponentChars (text.drop (whole.length + fraction.length)))

/-- The signs of more than one character. -/
def longSigns : List (List Char) :=
  ["->>", "->", "||", "<=", "<>", "<<", ">=", ">>", "==", "!="].map String.toList

/-- The further characters of a sign that begins with `c`. -/
def signTail (c : Char) (rest : List Char) : List Char :=
  ((longSigns.find? fun s => s.isPrefixOf (c :: rest)).getD [c]).tail

/-- What follows the end of a comment between slashes and stars. -/
def afterBlock : List Char → List Char
  | '*' :: '/' :: rest => rest
  | _ :: rest => afterBlock rest
  | [] => []

/-- Reads what stands behind a quote, up to the quote that ends it. -/
def nextQuoted (q : Char) (rest : List Char) : List Atom × List Char :=
  match Quoted.readInside q rest with
  | some (inside, rest) =>
    ([if q = '"' then name (.ofList inside) else text (.ofList inside)], rest)
  | none => ([broken], [])

/-- Reads the digits of a blob, up to the quote that ends it. -/
def nextBlob (inside : List Char) : List Atom × List Char :=
  match inside.dropWhile (· != '\x27') with
  | _ :: rest => ([((Hex.decode (inside.takeWhile (· != '\x27'))).map blob).getD broken], rest)
  | [] => ([broken], [])

/-- Reads a number that begins with the character `c`.  No word may follow it without a blank. -/
def nextNumber (c : Char) (rest : List Char) : List Atom × List Char :=
  let n := numberChars (c :: rest)
  let rest := rest.drop (n.length - 1)
  if rest.head?.any isWordChar then ([broken], rest.dropWhile isWordChar) else ([number n], rest)

/-- Reads what begins with the character `c`: an atom, unless it is a blank, and what follows. -/
def next (c : Char) (rest : List Char) : List Atom × List Char :=
  if isBlank c then ([], rest)
  else if c = '"' ∨ c = '\x27' then nextQuoted c rest
  else if c = '-' ∧ rest.head? = some '-' then ([comment], rest.dropWhile (· != '\n'))
  else if c = '/' ∧ rest.head? = some '*' then ([comment], afterBlock rest.tail)
  else if (c = 'x' ∨ c = 'X') ∧ rest.head? = some '\x27' then nextBlob rest.tail
  else if c.isDigit ∨ c = '.' ∧ rest.head?.any Char.isDigit then nextNumber c rest
  else if isWordChar c then
    ([word (c :: rest.takeWhile isWordChar)], rest.dropWhile isWordChar)
  else if c = '?' then ([placeholder], rest)
  else ([sign (c :: signTail c rest)], rest.drop (signTail c rest).length)

theorem length_dropWhile_le (p : Char → Bool) (text : List Char) :
    (text.dropWhile p).length ≤ text.length := (List.dropWhile_sublist p).length_le

theorem length_afterBlock_le (text : List Char) : (afterBlock text).length ≤ text.length := by
  induction text using afterBlock.induct with
  | case1 rest => exact Nat.le_add_right _ 2
  | case2 c rest hend ih =>
    rw [afterBlock]
    · exact Nat.le_add_right_of_le ih
    · exact hend
  | case3 => exact Nat.le_refl 0

theorem length_nextQuoted_le (q : Char) (rest : List Char) :
    (nextQuoted q rest).2.length ≤ rest.length := by
  rw [nextQuoted]
  split
  next inside rest' h => exact Quoted.length_readInside_le rest h
  next => exact Nat.zero_le _

theorem length_nextBlob_le (inside : List Char) : (nextBlob inside).2.length ≤ inside.length := by
  rw [nextBlob]
  split
  next c rest h =>
    have hlength := length_dropWhile_le (· != '\x27') inside
    rw [h] at hlength
    exact Nat.le_of_succ_le hlength
  next => exact Nat.zero_le _

theorem length_nextNumber_le (c : Char) (rest : List Char) :
    (nextNumber c rest).2.length ≤ rest.length := by
  have hdrop : (rest.drop ((numberChars (c :: rest)).length - 1)).length ≤ rest.length :=
    (List.drop_sublist _ _).length_le
  rw [nextNumber]
  split
  · exact (length_dropWhile_le _ _).trans hdrop
  · exact hdrop

/-- What follows an atom is no longer than what follows its first character. -/
theorem length_next_le (c : Char) (rest : List Char) : (next c rest).2.length ≤ rest.length := by
  have htail : rest.tail.length ≤ rest.length := (List.tail_sublist rest).length_le
  rw [next]
  split_ifs
  · exact Nat.le_refl _
  · exact length_nextQuoted_le c rest
  · exact length_dropWhile_le _ _
  · exact (length_afterBlock_le _).trans htail
  · exact (length_nextBlob_le _).trans htail
  · exact length_nextNumber_le c rest
  · exact length_dropWhile_le _ _
  · exact Nat.le_refl _
  · exact (List.drop_sublist _ _).length_le

/-- Reads a text from left to right. -/
def read : List Char → List Atom
  | [] => []
  | c :: rest => (next c rest).1 ++ read (next c rest).2
termination_by text => text.length
decreasing_by exact Nat.lt_succ_of_le (length_next_le c rest)

theorem read_nil : read [] = [] := by
  rw [read]

theorem read_cons (c : Char) (rest : List Char) :
    read (c :: rest) = (next c rest).1 ++ read (next c rest).2 := by
  rw [read]

/-- Puts values to the placeholders in turn: what is read off their literals. -/
def fill : List Atom → List Value → List Atom
  | placeholder :: rest, v :: vs => read v.literalChars ++ fill rest vs
  | a :: rest, vs => a :: fill rest vs
  | [], _ => []

/-! ### Texts in front of others -/

/-- What is read off a text in front of whatever fits behind it: either these atoms, and then what
is read off the rest, or a comment somewhere. -/
def Reads (Fits : List Char → Prop) (plain : Bool) (text : List Char) (as : List Atom) : Prop :=
  ∀ rest, Fits rest → if plain then read (text ++ rest) = as ++ read rest
    else comment ∈ read (text ++ rest)

/-- Anything fits. -/
def Anything : List Char → Prop := fun _ => True

/-- Nothing fits that a name goes on with. -/
def NoQuote (rest : List Char) : Prop := rest.head? ≠ some '"'

/-- Nothing fits that a minus runs together with. -/
def NoArrow (rest : List Char) : Prop := ∀ c ∈ rest.head?, c ≠ '-' ∧ c ≠ '>'

section Reads

open NormalForm (Ends)

variable {Fits Fits' : List Char → Prop} {plain plain' : Bool} {text more : List Char}
  {as bs : List Atom}

theorem reads_nil : Reads Fits true [] [] := fun _ _ => rfl

theorem Reads.imp (h : Reads Fits plain text as) (hfits : ∀ rest, Fits' rest → Fits rest) :
    Reads Fits' plain text as := fun rest hrest => h rest (hfits rest hrest)

/-- Texts are read one after the other if the second one fits behind the first one. -/
theorem Reads.append (h : Reads Fits plain text as) (h' : Reads Fits' plain' more bs)
    (hfits : ∀ rest, Fits' rest → Fits (more ++ rest)) :
    Reads Fits' (plain && plain') (text ++ more) (as ++ bs) := by
  intro rest hrest
  have hread := h (more ++ rest) (hfits rest hrest)
  have hmore := h' rest hrest
  rw [List.append_assoc, List.append_assoc]
  cases plain with
  | false => exact hread
  | true =>
    rw [if_pos rfl] at hread
    rw [hread, Bool.true_and]
    cases plain' with
    | true => exact congrArg (as ++ ·) hmore
    | false => exact List.mem_append_right as hmore

/-- What is read off a text is what is read if nothing follows. -/
theorem Reads.read_eq (h : Reads Fits true text as) (hnil : Fits []) : read text = as := by
  have hread := h [] hnil
  rwa [if_pos rfl, List.append_nil, read_nil, List.append_nil] at hread

/-- What is behind a text that ends is none of the characters that do not end it. -/
theorem eq_false_of_ends {p : Char → Bool} (hp : [' ', ')', ','].any p = false)
    {rest : List Char} (h : Ends rest) : ∀ c ∈ rest.head?, p c = false := fun c hc =>
  Bool.eq_false_iff.mpr (List.any_eq_false.mp hp c (h c hc))

theorem takeWhile_append_of_head {p : Char → Bool} {rest : List Char}
    (h : ∀ c ∈ text, p c = true) (hrest : ∀ c ∈ rest.head?, p c = false) :
    (text ++ rest).takeWhile p = text ∧ (text ++ rest).dropWhile p = rest := by
  rw [List.takeWhile_append_of_pos h, List.dropWhile_append_of_pos h]
  cases rest with
  | nil => exact ⟨List.append_nil _, rfl⟩
  | cons c rest => simp [hrest c rfl]

/-! ### Names, words and texts -/

theorem reads_name (n : String) : Reads NoQuote true (quoteName n) [name n] := by
  intro rest hrest
  have hchars : quoteName n ++ rest = '"' :: (Quoted.double '"' n.toList ++ '"' :: rest) := by
    simp [quoteName, Quoted.quote]
  have hinside := Quoted.readInside_double '"' n.toList rest hrest
  have hnext (inside : List Char) : next '"' inside = nextQuoted '"' inside := rfl
  rw [if_pos rfl, hchars, read_cons, hnext, nextQuoted, hinside]
  exact congrArg (fun s => name s :: read rest) String.ofList_toList

theorem reads_text (s : String) : Reads Ends true (Value.text s).literalChars [.text s] := by
  intro rest hrest
  have hchars : (Value.text s).literalChars ++ rest =
      '\x27' :: (Quoted.double '\x27' s.toList ++ '\x27' :: rest) := by
    simp [Value.literalChars, Quoted.quote]
  have hinside := Quoted.readInside_double '\x27' s.toList rest fun he =>
    (hrest.endsLiteral _ he).2 rfl
  have hnext (inside : List Char) : next '\x27' inside = nextQuoted '\x27' inside := rfl
  rw [if_pos rfl, hchars, read_cons, hnext, nextQuoted, hinside]
  exact congrArg (fun s => Atom.text s :: read rest) String.ofList_toList

theorem reads_blob (bytes : List UInt8) :
    Reads Ends true (Value.blob bytes).literalChars [blob bytes] := by
  intro rest _
  have hchars : (Value.blob bytes).literalChars ++ rest =
      'X' :: '\x27' :: (Hex.encode bytes ++ '\x27' :: rest) := by
    simp [Value.literalChars]
  have hdigits : ∀ c ∈ Hex.encode bytes, (c != '\x27') = true := by
    intro c hc
    rw [bne_iff_ne]
    rintro rfl
    exact Hex.quote_notMem_encode bytes hc
  have hquote : ∀ c ∈ ('\x27' :: rest).head?, (c != '\x27') = false := by simp
  obtain ⟨htake, hdrop⟩ := takeWhile_append_of_head hdigits hquote
  have hnext (inside : List Char) : next 'X' ('\x27' :: inside) = nextBlob inside := rfl
  rw [if_pos rfl, hchars, read_cons, hnext, nextBlob, hdrop, htake, Hex.decode_encode]
  rfl

/-- A word goes as far as its characters do. -/
theorem reads_word {c : Char} {w : List Char}
    (hc : ∀ rest, next c rest =
      ([word (c :: rest.takeWhile isWordChar)], rest.dropWhile isWordChar))
    (hw : w.all isWordChar = true) : Reads Ends true (c :: w) [word (c :: w)] := by
  intro rest hrest
  obtain ⟨htake, hdrop⟩ := takeWhile_append_of_head (List.all_eq_true.mp hw)
    (eq_false_of_ends (by decide) hrest)
  rw [if_pos rfl, List.cons_append, read_cons, hc, htake, hdrop]

/-! ### Numbers -/

/-- A digit is no other character. -/
theorem ne_of_isDigit {c d : Char} (hc : c.isDigit = true) (hd : d.isDigit = false) : c ≠ d := by
  rintro rfl
  rw [hd] at hc
  cases hc

/-- A text is a number as far as its characters go, and begins with a digit. -/
structure IsNumeral (n : List Char) : Prop where
  isDigit_head : ∃ c rest, n = c :: rest ∧ c.isDigit = true
  numberChars_append : ∀ {rest}, Ends rest → numberChars (n ++ rest) = n

theorem reads_number {n : List Char} (h : IsNumeral n) : Reads Ends true n [number n] := by
  obtain ⟨⟨c, digits, rfl, hc⟩, hchars⟩ := h
  intro rest hrest
  have hnot {d : Char} (hd : d.isDigit = false) : c ≠ d := ne_of_isDigit hc hd
  have hblank : isBlank c = false := by simp [isBlank, hnot]
  have hhead : rest.head?.any isWordChar = false := by
    cases rest with
    | nil => rfl
    | cons d rest => exact eq_false_of_ends (p := isWordChar) (by decide) hrest d rfl
  have hnumber : nextNumber c (digits ++ rest) = ([number (c :: digits)], rest) := by
    have hlength : (c :: digits).length - 1 = digits.length := rfl
    rw [nextNumber, ← List.cons_append, hchars hrest, hlength, List.drop_left, hhead,
      if_neg Bool.false_ne_true]
  have hnext : next c (digits ++ rest) = nextNumber c (digits ++ rest) := by
    rw [next, if_neg (by simp [hblank]), if_neg (by simp [hnot]), if_neg (by simp [hnot]),
      if_neg (by simp [hnot]), if_neg (by simp [hnot]), if_pos (Or.inl hc)]
  rw [if_pos rfl, List.cons_append, read_cons, hnext, hnumber]

section Numerals

variable {whole fraction rest : List Char}

/-- Digits and what stands behind them, which is no further digit. -/
theorem numberChars_whole (hwhole : ∀ c ∈ whole, c.isDigit = true)
    (hrest : ∀ c ∈ rest.head?, c.isDigit = false) :
    numberChars (whole ++ rest) =
      whole ++ (fractionChars rest ++ exponentChars (rest.drop (fractionChars rest).length)) := by
  obtain ⟨htake, -⟩ := takeWhile_append_of_head hwhole hrest
  rw [numberChars, htake, ← List.drop_drop, List.drop_left]

theorem fractionChars_of_ends (h : Ends rest) : fractionChars rest = [] := by
  rw [fractionChars]
  rintro rest rfl
  exact absurd (h '.' rfl) (by decide)

theorem exponentChars_of_ends (h : Ends rest) : exponentChars rest = [] := by
  cases rest with
  | nil => rfl
  | cons c rest =>
    refine if_neg ?_
    rintro ⟨rfl | rfl, -⟩
    · exact absurd (h _ rfl) (by decide)
    · exact absurd (h _ rfl) (by decide)

/-- An exponent goes as far as its digits do. -/
theorem exponentChars_append (e : Int) (h : Ends rest) :
    exponentChars ('e' :: ((toString e).toList ++ rest)) = 'e' :: (toString e).toList := by
  obtain ⟨htake, -⟩ := takeWhile_append_of_head (Numeral.isDigit_toDigits (n := e.natAbs))
    (eq_false_of_ends (by decide) h)
  have hne : Nat.toDigits 10 e.natAbs ≠ [] := Nat.toDigits_ne_nil
  have hsign (negative : Bool) :
      ((signText negative ++ (Nat.toDigits 10 e.natAbs ++ rest)).take 1).filter
        (fun d => d == '-' || d == '+') = signText negative := by
    obtain ⟨c, digits, hdigits⟩ := List.exists_cons_of_ne_nil hne
    have hc : c.isDigit = true := Numeral.isDigit_toDigits c (hdigits ▸ List.mem_cons_self)
    cases negative with
    | true => rfl
    | false => simp [signText, hdigits, ne_of_isDigit hc]
  rw [toList_toString_int, exponentChars, List.append_assoc, hsign, List.drop_left, htake,
    if_pos ⟨Or.inl rfl, hne⟩]

theorem isNumeral_toDigits (n : Nat) : IsNumeral (Nat.toDigits 10 n) where
  isDigit_head := by
    obtain ⟨c, digits, hdigits⟩ := List.exists_cons_of_ne_nil (Nat.toDigits_ne_nil (n := n))
    exact ⟨c, digits, hdigits, Numeral.isDigit_toDigits c (hdigits ▸ List.mem_cons_self)⟩
  numberChars_append {rest} h := by
    rw [numberChars_whole Numeral.isDigit_toDigits (eq_false_of_ends (by decide) h),
      fractionChars_of_ends h, List.nil_append, List.length_nil, List.drop_zero,
      exponentChars_of_ends h, List.append_nil]

/-- A point with digits behind it goes as far as these do. -/
theorem fractionChars_append (hfraction : ∀ c ∈ fraction, c.isDigit = true)
    (hrest : ∀ c ∈ rest.head?, c.isDigit = false) :
    fractionChars ('.' :: (fraction ++ rest)) = '.' :: fraction := by
  obtain ⟨htake, -⟩ := takeWhile_append_of_head hfraction hrest
  rw [fractionChars, htake]

theorem isNumeral_written {text : List Char} {d : Decimal} (h : Decimal.Written text d) :
    IsNumeral text where
  isDigit_head := h.exists_cons
  numberChars_append {rest} hrest := by
    cases h with
    | @point whole fraction hwhole hne hfraction =>
      rw [List.append_assoc, List.cons_append, numberChars_whole hwhole (by simp),
        fractionChars_append hfraction (eq_false_of_ends (by decide) hrest), ← List.cons_append,
        List.drop_left, exponentChars_of_ends hrest, List.append_nil]
    | @exponent whole hwhole hne e =>
      rw [List.append_assoc, List.cons_append, numberChars_whole hwhole (by simp)]
      have hfraction : fractionChars ('e' :: ((toString e).toList ++ rest)) = [] := rfl
      rw [hfraction, List.nil_append, List.length_nil, List.drop_zero,
        exponentChars_append e hrest]
    | @both whole fraction hwhole hne hfraction e =>
      rw [List.append_assoc, List.cons_append, List.append_assoc, List.cons_append,
        numberChars_whole hwhole (by simp), fractionChars_append hfraction (by simp),
        ← List.cons_append, List.drop_left, exponentChars_append e hrest, List.cons_append]

end Numerals

/-! ### Signs -/

/-- A minus is read as a sign unless it runs together with what follows. -/
theorem reads_minus : Reads NoArrow true ['-'] [sign ['-']] := by
  intro rest hrest
  have hnext : next '-' rest = ([sign ['-']], rest) := by
    cases rest with
    | nil => rfl
    | cons c rest =>
      obtain ⟨hminus, harrow⟩ := hrest c rfl
      have hlong : longSigns.find? (fun s => s.isPrefixOf ('-' :: c :: rest)) = none := by
        rw [List.find?_eq_none]
        simp [longSigns, harrow.symm]
      have htail : signTail '-' (c :: rest) = [] := by
        rw [signTail, hlong]
        rfl
      rw [next, if_neg (by decide), if_neg (by decide), if_neg (by simp [hminus]),
        if_neg (by simp), if_neg (by simp), if_neg (by simp), if_neg (by decide),
        if_neg (by decide), htail]
      rfl
  rw [if_pos rfl, List.singleton_append, read_cons, hnext]

/-- Two minus signs begin a comment, whatever follows them. -/
theorem reads_comment (text : List Char) (as : List Atom) :
    Reads Anything false ('-' :: '-' :: text) as := by
  intro rest _
  have hnext : next '-' ('-' :: (text ++ rest)) =
      ([comment], ('-' :: (text ++ rest)).dropWhile (· != '\n')) := rfl
  rw [if_neg Bool.false_ne_true, List.cons_append, List.cons_append, read_cons, hnext]
  exact List.mem_cons_self

theorem reads_signText {n : List Char} (h : IsNumeral n) (negative : Bool) :
    Reads Ends true (signText negative ++ n)
      ((if negative then [sign ['-']] else []) ++ [number n]) := by
  cases negative with
  | false => exact reads_number h
  | true =>
    refine reads_minus.append (reads_number h) fun rest _ c hc => ?_
    obtain ⟨⟨d, digits, rfl, hd⟩, -⟩ := h
    obtain rfl := Option.some.inj hc
    exact ⟨ne_of_isDigit hd rfl, ne_of_isDigit hd rfl⟩

/-! ### Fixed words and literals -/

/-- A text is read without what fits behind it, and has neither a comment nor a placeholder. -/
structure Fixed (Fits : List Char → Prop) (text : List Char) : Prop where
  reads : Reads Fits true text (read text)
  comment_notMem : comment ∉ read text
  placeholder_notMem : placeholder ∉ read text

theorem Reads.fixed (h : Reads Fits true text as) (hnil : Fits [])
    (has : comment ∉ as ∧ placeholder ∉ as) : Fixed Fits text := by
  have hread := h.read_eq hnil
  rw [← hread] at h has
  exact ⟨h, has.1, has.2⟩

theorem Fixed.append (h : Fixed Fits text) (h' : Fixed Fits' more)
    (hfits : ∀ rest, Fits' rest → Fits (more ++ rest)) (hnil : Fits' []) :
    Fixed Fits' (text ++ more) :=
  (h.reads.append h'.reads hfits).fixed hnil
    ⟨List.not_mem_append h.comment_notMem h'.comment_notMem,
      List.not_mem_append h.placeholder_notMem h'.placeholder_notMem⟩

theorem Fixed.followed (h : Fixed Anything text) (h' : Fixed Anything more) :
    Fixed Anything (text ++ more) := h.append h' (fun _ _ => trivial) trivial

theorem Fixed.ended (h : Fixed Ends text) (h' : Fixed Anything more)
    (hmore : ∀ rest, Ends (more ++ rest)) : Fixed Anything (text ++ more) :=
  h.append h' (fun rest _ => hmore rest) trivial

theorem fixed_nil : Fixed Anything [] := reads_nil.fixed trivial (by simp)

/-- One step of reading, which looks at nothing behind the text. -/
theorem Fixed.cons {c : Char}
    (hnext : ∀ rest, next c (text ++ rest) = ((next c text).1, (next c text).2 ++ rest))
    (hplain : comment ∉ (next c text).1 ∧ placeholder ∉ (next c text).1)
    (h : Fixed Fits (next c text).2) : Fixed Fits (c :: text) where
  reads := by
    intro rest hrest
    have hread : read ((next c text).2 ++ rest) = read (next c text).2 ++ read rest :=
      h.reads rest hrest
    rw [if_pos rfl, List.cons_append, read_cons, hnext, hread, read_cons, List.append_assoc]
  comment_notMem := by
    rw [read_cons]
    exact List.not_mem_append hplain.1 h.comment_notMem
  placeholder_notMem := by
    rw [read_cons]
    exact List.not_mem_append hplain.2 h.placeholder_notMem

theorem fixed_word {c : Char} {w : List Char}
    (hc : ∀ rest, next c rest =
      ([word (c :: rest.takeWhile isWordChar)], rest.dropWhile isWordChar))
    (hw : w.all isWordChar = true) : Fixed Ends (c :: w) :=
  (reads_word hc hw).fixed .nil (by simp)

theorem fixed_number {n : List Char} (h : IsNumeral n) : Fixed Ends n :=
  (reads_number h).fixed .nil (by simp)

theorem fixed_point {whole fraction : List Char} (hwhole : whole.all Char.isDigit = true)
    (hne : whole ≠ []) (hfraction : fraction.all Char.isDigit = true) :
    Fixed Ends (whole ++ '.' :: fraction) :=
  fixed_number (isNumeral_written
    (.point (List.all_eq_true.mp hwhole) hne (List.all_eq_true.mp hfraction)))

theorem fixed_null : Fixed Ends ['N', 'U', 'L', 'L'] := fixed_word (fun _ => rfl) (by decide)

/-- **A literal is read without what follows it.** -/
theorem fixed_literalChars (v : Value) : Fixed Ends v.literalChars := by
  have hsigned {n : List Char} (h : IsNumeral n) (negative : Bool) :
      Fixed Ends (signText negative ++ n) := by
    refine (reads_signText h negative).fixed .nil ?_
    cases negative <;> simp
  cases v with
  | null => exact fixed_null
  | integer i =>
    rw [Value.literalChars, toList_toString_int]
    exact hsigned (isNumeral_toDigits _) _
  | real x =>
    cases hnan : x.isNaN with
    | true =>
      rw [Value.literalChars, Value.realLiteral, if_pos hnan]
      exact fixed_null
    | false =>
      obtain ⟨text, d, htext, hwritten, -⟩ := Binary64.exists_written_realLiteral hnan
      rw [Value.literalChars, htext]
      exact hsigned (isNumeral_written hwritten) _
  | text s => exact (reads_text s).fixed .nil (by simp)
  | blob bytes => exact (reads_blob bytes).fixed .nil (by simp)

end Reads

end Atom

namespace Keyword

open Atom NormalForm

/-- What fits behind a fixed word: none may run together with a further word, nor a minus with a
minus or an arrow.  Most words end with a blank or a bracket. -/
def Fits : Keyword → List Char → Prop
  | null => Ends
  | isNull => Ends
  | isNotNull => Ends
  | direction _ => Ends
  | defaultValues => Ends
  | negate => NoArrow
  | _ => Anything

/-- **A fixed word is read without what fits behind it.** -/
theorem fixed_text (k : Keyword) : Fixed k.Fits k.text.toList := by
  cases k with
  | null => exact fixed_null
  | isNull =>
    iterate 3 refine .cons (fun _ => rfl) (by decide) ?_
    exact fixed_null
  | isNotNull =>
    iterate 5 refine .cons (fun _ => rfl) (by decide) ?_
    exact fixed_null
  | direction d =>
    cases d with
    | _ => exact .cons (fun _ => rfl) (by decide) (fixed_word (fun _ => rfl) (by decide))
  | defaultValues =>
    iterate 3 refine .cons (fun _ => rfl) (by decide) ?_
    exact fixed_word (fun _ => rfl) (by decide)
  | negate => exact reads_minus.fixed nofun (by decide)
  | operator op =>
    cases op with
    | _ =>
      iterate 3 refine .cons (fun _ => rfl) (by decide) ?_
      exact fixed_nil
  | call f =>
    cases f with
    | _ =>
      iterate 2 refine .cons (fun _ => rfl) (by decide) ?_
      exact fixed_nil
  | now =>
    have hopening : Fixed Anything "((julianday(".toList := by
      iterate 4 refine .cons (fun _ => rfl) (by decide) ?_
      exact fixed_nil
    have hminus : Fixed Anything ") - ".toList := by
      iterate 4 refine .cons (fun _ => rfl) (by decide) ?_
      exact fixed_nil
    have htimes : Fixed Anything ") * ".toList := by
      iterate 4 refine .cons (fun _ => rfl) (by decide) ?_
      exact fixed_nil
    have hclosing : Fixed Anything [')'] := .cons (fun _ => rfl) (by decide) fixed_nil
    have hepoch : Fixed Ends ("2440587".toList ++ '.' :: ['5']) :=
      fixed_point (by decide) (by decide) (by decide)
    have hday : Fixed Ends ("86400".toList ++ '.' :: ['0']) :=
      fixed_point (by decide) (by decide) (by decide)
    have hnow := (fixed_literalChars (.text "now")).ended hminus fun _ => ends_closeParen _
    have hdays := hepoch.ended htimes fun _ => ends_closeParen _
    have hseconds := hday.ended hclosing fun _ => ends_closeParen _
    exact hopening.followed (hnow.followed (hdays.followed hseconds))
  | _ =>
    repeat refine .cons (fun _ => rfl) (by decide) ?_
    exact fixed_nil

end Keyword

/-! ### Values in texts -/

/-- Whether the literal of a value begins with a minus. -/
def Value.isSigned : Value → Bool
  | integer i => i.toInt < 0
  | real x => !x.isNaN && x.isNegative
  | _ => false

/-- A text begins with a minus or, if it is not signed, with something that a minus in front of it
does not run together with. -/
def Begins (text : List Char) (signed : Bool) : Prop :=
  ∃ c rest, text = c :: rest ∧ c ≠ '>' ∧ (c = '-' ↔ signed = true)

theorem begins_unsigned {c : Char} (hc : c ≠ '>' ∧ c ≠ '-') (rest : List Char) :
    Begins (c :: rest) false :=
  ⟨c, rest, rfl, hc.1, iff_of_false hc.2 Bool.false_ne_true⟩

theorem begins_signText {n : List Char} (h : Atom.IsNumeral n) (negative : Bool) :
    Begins (signText negative ++ n) negative := by
  obtain ⟨⟨c, digits, rfl, hc⟩, -⟩ := h
  cases negative with
  | true => exact ⟨_, _, rfl, by decide, by decide⟩
  | false => exact begins_unsigned ⟨Atom.ne_of_isDigit hc rfl, Atom.ne_of_isDigit hc rfl⟩ digits

theorem begins_literalChars (v : Value) : Begins v.literalChars v.isSigned := by
  cases v with
  | null => exact begins_unsigned (by decide) _
  | integer i =>
    rw [Value.literalChars, toList_toString_int]
    exact begins_signText (Atom.isNumeral_toDigits _) _
  | real x =>
    rw [Value.literalChars, Value.isSigned]
    cases hnan : x.isNaN with
    | true =>
      rw [Value.realLiteral, if_pos hnan]
      exact begins_unsigned (by decide) _
    | false =>
      obtain ⟨text, d, htext, hwritten, -⟩ := Binary64.exists_written_realLiteral hnan
      rw [htext]
      exact begins_signText (Atom.isNumeral_written hwritten) _
  | text s => exact begins_unsigned (by decide) _
  | blob bytes => exact begins_unsigned (by decide) _

/-- A way to write values in a text. -/
structure Spelling where
  /-- How a value is written. -/
  chars : Value → List Char
  /-- Whether it is written with a minus in front. -/
  signed : Value → Bool
  /-- It is read without what follows. -/
  reads : ∀ v, Atom.Reads NormalForm.Ends true (chars v) (Atom.read (chars v))
  comment_notMem : ∀ v, .comment ∉ Atom.read (chars v)
  begins : ∀ v, Begins (chars v) (signed v)
  signed_null : signed .null = false

theorem Atom.read_placeholder : read ['?'] = [placeholder] := by
  rw [read_cons]
  exact congrArg (placeholder :: ·) read_nil

/-- Values are placeholders. -/
def Spelling.prepared : Spelling where
  chars _ := ['?']
  signed _ := false
  reads _ := by
    intro rest _
    rw [Atom.read_placeholder]
    exact Atom.read_cons '?' rest
  comment_notMem _ := by
    rw [Atom.read_placeholder]
    decide
  begins _ := begins_unsigned (by decide) []
  signed_null := rfl

/-- Values are literals. -/
def Spelling.canonical : Spelling where
  chars := Value.literalChars
  signed := Value.isSigned
  reads v := (Atom.fixed_literalChars v).reads
  comment_notMem v := (Atom.fixed_literalChars v).comment_notMem
  begins := begins_literalChars
  signed_null := rfl

/-! ### Tokens -/

/-- Whether a fixed word ends what stands in front of it. -/
def Keyword.isEnd (k : Keyword) : Bool := k.text.toList.head?.any [' ', ')', ','].contains

namespace Token

open Atom NormalForm

/-- What fits behind a token. -/
def Fits : Token → List Char → Prop
  | keyword k => k.Fits
  | _ => Ends

section Spelled

variable (s : Spelling)

/-- The characters of a token. -/
def spelled : Token → List Char
  | keyword k => k.text.toList
  | name n => quoteName n
  | column q n => quoteName q ++ '.' :: quoteName n
  | literal v => s.chars v

/-- The atoms of a token. -/
def atoms : Token → List Atom
  | keyword k => read k.text.toList
  | name n => [.name n]
  | column q n => [.name q, .sign ['.'], .name n]
  | literal v => read (s.chars v)

/-- What is read off some tokens in front of whatever fits behind them: either their atoms, or a
comment somewhere. -/
def ReadsAs (F : List Char → Prop) (plain : Bool) (ts : List Token) : Prop :=
  Reads F plain (ts.flatMap (spelled s)) (ts.flatMap (atoms s))

variable {s} {F F' : List Char → Prop} {plain plain' : Bool} {ts us : List Token} {k : Keyword}

/-- **A token is read without what fits behind it.** -/
theorem readsAs_singleton (t : Token) : ReadsAs s t.Fits true [t] := by
  rw [ReadsAs, List.flatMap_singleton, List.flatMap_singleton]
  cases t with
  | keyword k => exact k.fixed_text.reads
  | name n => exact (reads_name n).imp fun _ h => h.head?_ne
  | column q n =>
    have hpoint : Reads Ends true ('.' :: quoteName n) [.sign ['.'], .name n] := by
      intro rest hrest
      have hname := reads_name n rest hrest.head?_ne
      have hnext : next '.' (quoteName n ++ rest) = ([.sign ['.']], quoteName n ++ rest) := rfl
      rw [if_pos rfl, List.cons_append, read_cons, hnext]
      exact congrArg (Atom.sign ['.'] :: ·) hname
    exact (reads_name q).append hpoint fun _ _ => by simp [NoQuote]
  | literal v => exact s.reads v

theorem comment_notMem_atoms (t : Token) : .comment ∉ t.atoms s := by
  cases t with
  | keyword k => exact k.fixed_text.comment_notMem
  | name n => simp [atoms]
  | column q n => simp [atoms]
  | literal v => exact s.comment_notMem v

theorem readsAs_nil : ReadsAs s F true [] := reads_nil

theorem ReadsAs.append (h : ReadsAs s F plain ts) (h' : ReadsAs s F' plain' us)
    (hfits : ∀ rest, F' rest → F (us.flatMap (spelled s) ++ rest)) :
    ReadsAs s F' (plain && plain') (ts ++ us) := by
  rw [ReadsAs, List.flatMap_append, List.flatMap_append]
  exact Reads.append h h' hfits

theorem ReadsAs.imp (h : ReadsAs s F plain ts) (hfits : ∀ rest, F' rest → F rest) :
    ReadsAs s F' plain ts := Reads.imp h hfits

/-- Behind most fixed words anything may stand. -/
theorem ReadsAs.keyword (h : ReadsAs s F plain ts) (k : Keyword)
    (hk : ∀ rest, k.Fits rest) : ReadsAs s F plain (.keyword k :: ts) :=
  (readsAs_singleton (.keyword k)).append h fun _ _ => hk _

theorem ends_keyword (hk : k.isEnd = true) (ts : List Token) (rest : List Char) :
    Ends ((.keyword k :: ts).flatMap (spelled s) ++ rest) := by
  intro c hc
  rw [List.flatMap_cons, List.append_assoc, spelled] at hc
  rw [Keyword.isEnd] at hk
  cases htext : k.text.toList with
  | nil => simp [htext] at hk
  | cons d text =>
    rw [htext] at hc hk
    obtain rfl := Option.some.inj hc
    simpa using hk

/-- A fixed word may stand behind anything if it ends what stands in front of it. -/
theorem ReadsAs.ended (h : ReadsAs s Ends plain ts) (hk : k.isEnd = true)
    (h' : ReadsAs s F plain' (.keyword k :: us)) :
    ReadsAs s F (plain && plain') (ts ++ .keyword k :: us) :=
  h.append h' fun rest _ => ends_keyword hk us rest

theorem readsAs_closeParen : ReadsAs s Anything true [.keyword .closeParen] :=
  readsAs_singleton (.keyword .closeParen)

/-- A bracket behind some tokens. -/
theorem ReadsAs.closed (h : ReadsAs s Ends plain ts) :
    ReadsAs s Anything plain (ts ++ [.keyword .closeParen]) := by
  have hclosed := h.ended (k := .closeParen) rfl readsAs_closeParen
  rwa [Bool.and_true] at hclosed

end Spelled

end Token

/-! ### Expressions -/

namespace Expr

open Atom NormalForm Token

section Signs

variable (signed : Value → Bool)

/-- Whether an expression is a value that is written with a minus in front. -/
def isSigned : Expr → Bool
  | value v => signed v
  | _ => false

mutual

/-- Whether the minus of a negation is written right in front of another one. -/
def doublesSign : Expr → Bool
  | value _ => false
  | column _ => false
  | unary op e => (op == .negate && isSigned signed e) || doublesSign e
  | binary _ l r => doublesSign l || doublesSign r
  | call f args => f != .now && doublesSignAny args
  | join _ _ inner => doublesSign inner

/-- Whether one of some expressions does so. -/
def doublesSignAny : List Expr → Bool
  | [] => false
  | e :: es => doublesSign e || doublesSignAny es

end

end Signs

variable {s : Spelling}

/-- An expression begins with a minus only if it is a value that does. -/
theorem begins_tokens (scopes : Scopes) (n : Nat) (e : Expr) :
    Begins ((e.tokens scopes n).flatMap (spelled s)) (e.isSigned s.signed) := by
  have hunary (ts : List Token) (op : UnaryOp) :
      Begins ((unaryTokens ts op).flatMap (spelled s)) false := by
    cases op <;> exact begins_unsigned (by decide) _
  cases e with
  | value v =>
    cases v with
    | null =>
      rw [isSigned, s.signed_null]
      exact begins_unsigned (by decide) _
    | _ => simpa [tokens, valueTokens, spelled, isSigned] using s.begins _
  | column c => exact begins_unsigned (by decide) _
  | unary op e => exact hunary _ op
  | binary op l r =>
    rw [tokens]
    rcases nullTest? op l r with _ | ⟨test, _ | _⟩
    · exact begins_unsigned (by decide) _
    · exact hunary _ test
    · exact hunary _ test
  | call f args =>
    cases f with
    | _ => exact begins_unsigned (by decide) _
  | join source target inner => exact begins_unsigned (by decide) _

/-- An operation on one operand is read as it is written, unless its minus runs together with the
operand. -/
theorem readsAs_unaryTokens {plain : Bool} {ts : List Token} (h : ReadsAs s Ends plain ts)
    {op : UnaryOp} (hop : op = .negate → ∀ rest, NoArrow (ts.flatMap (spelled s) ++ rest)) :
    ReadsAs s Anything plain (unaryTokens ts op) := by
  have hanything : ∀ rest, Anything rest := fun _ => trivial
  have htest {k : Keyword} (hend : k.isEnd = true) (hfits : k.Fits = Ends) :
      ReadsAs s Anything plain (ts ++ [.keyword k, .keyword .closeParen]) := by
    have hk := readsAs_singleton (s := s) (.keyword k)
    rw [Token.Fits, hfits] at hk
    have htested := h.ended hend hk.closed
    rwa [Bool.and_true] at htested
  cases op with
  | not => exact (h.closed.keyword .not hanything).keyword .openParen hanything
  | negate =>
    have hminus := (readsAs_singleton (.keyword .negate)).append h.closed fun rest _ => by
      rw [List.flatMap_append, List.append_assoc]
      exact hop rfl _
    exact ReadsAs.keyword hminus .openParen hanything
  | isNull => exact (htest rfl rfl).keyword .openParen hanything
  | isNotNull => exact (htest rfl rfl).keyword .openParen hanything

/-- A minus in front of another one begins a comment. -/
theorem readsAs_unaryTokens_signed {e : Expr} (h : e.isSigned s.signed = true) (scopes : Scopes)
    (n : Nat) : ReadsAs s Anything false (unaryTokens (e.tokens scopes n) .negate) := by
  obtain ⟨c, text, htext, -, hc⟩ := begins_tokens (s := s) scopes n e
  obtain rfl := hc.mpr h
  have hcomment : ReadsAs s Anything false
      (.keyword .negate :: (e.tokens scopes n ++ [.keyword .closeParen])) := by
    rw [ReadsAs, List.flatMap_cons, List.flatMap_append, htext]
    exact reads_comment _ _
  exact hcomment.keyword .openParen fun _ => trivial

/-- Comparisons are rendered as tests for null, not as negations. -/
theorem ne_negate_of_nullTest? {op : BinaryOp} {l r : Expr} {test : UnaryOp} {onLeft : Bool}
    (h : nullTest? op l r = some (test, onLeft)) : test ≠ .negate := by
  rintro rfl
  cases op <;> grind [nullTest?]

mutual

/-- **An expression is read token by token**, unless a minus runs together with another one. -/
theorem readsAs_tokens (scopes : Scopes) (n : Nat) : (e : Expr) →
    ReadsAs s Ends (!e.doublesSign s.signed) (e.tokens scopes n)
  | value v => by
    cases v with
    | null => exact readsAs_singleton (.keyword .null)
    | _ => exact readsAs_singleton (.literal _)
  | column c => readsAs_singleton (c.token scopes)
  | unary op e => by
    have he := readsAs_tokens scopes n e
    rw [tokens, doublesSign]
    by_cases hop : op = .negate ∧ e.isSigned s.signed = true
    · obtain ⟨rfl, hsigned⟩ := hop
      rw [hsigned]
      exact (readsAs_unaryTokens_signed hsigned scopes n).imp fun _ _ => trivial
    · have hfalse : (op == .negate && e.isSigned s.signed) = false := by
        rw [Bool.and_eq_false_iff, beq_eq_false_iff_ne, ← Bool.not_eq_true]
        exact not_and_or.mp hop
      rw [hfalse, Bool.false_or]
      refine (readsAs_unaryTokens he fun hnegate rest => ?_).imp fun _ _ => trivial
      obtain ⟨c, text, htext, harrow, hc⟩ := begins_tokens (s := s) scopes n e
      rw [htext]
      rintro d ⟨⟩
      exact ⟨mt hc.mp fun hsigned => hop ⟨hnegate, hsigned⟩, harrow⟩
  | binary op l r => by
    have hl := readsAs_tokens scopes n l
    have hr := readsAs_tokens scopes (n + joins l) r
    have hend : (Keyword.operator op).isEnd = true := by cases op <;> rfl
    -- the operand that is not rendered is the null literal
    have hnull : null.doublesSign s.signed = false := rfl
    rw [tokens, doublesSign]
    rcases htest : nullTest? op l r with _ | ⟨test, onLeft⟩
    · rw [Bool.not_or]
      exact ((hl.ended hend (hr.closed.keyword _ fun _ => trivial)).keyword .openParen
        fun _ => trivial).imp fun _ _ => trivial
    · have hnegate : test = .negate → ∀ rest, NoArrow rest := fun he =>
        absurd he (ne_negate_of_nullTest? htest)
      rcases nullTest?_eq_some htest with ⟨rfl, rfl⟩ | ⟨rfl, rfl⟩
      · rw [hnull, Bool.or_false]
        exact (readsAs_unaryTokens hl fun he _ => hnegate he _).imp fun _ _ => trivial
      · rw [hnull, Bool.false_or]
        exact (readsAs_unaryTokens hr fun he _ => hnegate he _).imp fun _ _ => trivial
  | call f args => by
    by_cases hf : f = .now
    · subst hf
      exact (readsAs_singleton (.keyword .now)).imp fun _ _ => trivial
    · have hargs := readsAs_separated scopes n args
      have hcall : (f != .now) = true := bne_iff_ne.mpr hf
      rw [tokens_call hf, doublesSign, hcall, Bool.true_and]
      exact (hargs.closed.keyword (.call f) fun _ => trivial).imp fun _ _ => trivial
  | join source target inner => by
    have hinner := readsAs_tokens
      ((target.table, joinAlias target.table (n + 1)) :: scopes) (n + 1) inner
    have hanything : ∀ rest, Anything rest := fun _ => trivial
    -- every name of the join stands in front of a fixed word that ends it
    have hsource := (readsAs_singleton (s := s) (source.token scopes)).closed.keyword
      (.operator .equal) hanything
    have htarget := (readsAs_singleton (.column (joinAlias target.table (n + 1)) target.name)).ended
      rfl hsource
    have hrow := (readsAs_singleton (.name (joinAlias target.table (n + 1)))).ended rfl
      (htarget.keyword .where hanything)
    have htable := (readsAs_singleton (.name target.table)).ended rfl (hrow.keyword .as hanything)
    have hjoin := (hinner.ended rfl (htable.keyword .from hanything)).keyword .select hanything
    have htokens : ReadsAs s Ends _ _ :=
      (hjoin.keyword .openParen hanything).imp fun _ _ => trivial
    simpa [tokens, doublesSign, Column.token, Scopes.qualifier_cons_self] using htokens

/-- So are arguments with commas between them. -/
theorem readsAs_separated (scopes : Scopes) (n : Nat) : (es : List Expr) →
    ReadsAs s Ends (!doublesSignAny s.signed es) (separated (tokensAll scopes n es))
  | [] => readsAs_nil
  | [e] => by
    have he := readsAs_tokens scopes n e
    rw [doublesSignAny, doublesSignAny, Bool.or_false]
    exact he
  | e :: e' :: es => by
    have he := readsAs_tokens scopes n e
    have hes := readsAs_separated scopes (n + joins e) (e' :: es)
    rw [doublesSignAny, Bool.not_or]
    exact he.ended rfl (hes.keyword .comma fun _ => trivial)

end

mutual

/-- Placeholders have no sign. -/
theorem doublesSign_prepared : (e : Expr) → e.doublesSign (fun _ => false) = false
  | value _ => rfl
  | column _ => rfl
  | unary op e => by
    rw [doublesSign, doublesSign_prepared e, Bool.or_false]
    cases e <;> exact Bool.and_false _
  | binary _ l r => by
    rw [doublesSign, doublesSign_prepared l, doublesSign_prepared r, Bool.or_false]
  | call f args => by rw [doublesSign, doublesSignAny_prepared args, Bool.and_false]
  | join _ _ inner => doublesSign_prepared inner

theorem doublesSignAny_prepared : (es : List Expr) → doublesSignAny (fun _ => false) es = false
  | [] => rfl
  | e :: es => by
    rw [doublesSignAny, doublesSign_prepared e, doublesSignAny_prepared es, Bool.or_false]

end

end Expr

/-! ### The two texts -/

namespace Token

open Atom

theorem spelled_prepared (t : Token) : t.spelled .prepared = t.preparedChars := by
  cases t <;> rfl

theorem spelled_canonical (t : Token) : t.spelled .canonical = t.canonicalChars := by
  cases t <;> rfl

theorem fill_append {as : List Atom} (h : placeholder ∉ as) (bs : List Atom) (vs : List Value) :
    fill (as ++ bs) vs = as ++ fill bs vs := by
  induction as with
  | nil => rfl
  | cons a as ih =>
    obtain ⟨ha, has⟩ := List.ne_and_not_mem_of_not_mem_cons h
    rw [List.cons_append, fill, ih has, List.cons_append]
    exact fun _ _ _ hplaceholder => ha hplaceholder.symm

/-- A token of the prepared text takes the value that it stands for. -/
theorem fill_atoms (t : Token) (as : List Atom) (vs : List Value) :
    fill (t.atoms .prepared ++ as) (t.parameter?.toList ++ vs) =
      t.atoms .canonical ++ fill as vs := by
  cases t with
  | keyword k => exact fill_append k.fixed_text.placeholder_notMem as vs
  | name n => exact fill_append (by simp [atoms]) as vs
  | column q n => exact fill_append (by simp [atoms]) as vs
  | literal v =>
    have hmark : (literal v).atoms .prepared = [placeholder] := read_placeholder
    rw [hmark]
    rfl

/-- **The atoms of the prepared text, with its placeholders filled in, are those of the canonical
text.** -/
theorem fill_flatMap_atoms (ts : List Token) :
    fill (ts.flatMap (atoms .prepared)) (ts.filterMap parameter?) =
      ts.flatMap (atoms .canonical) := by
  induction ts with
  | nil => rfl
  | cons t ts ih => rw [List.flatMap_cons, parameters_cons, fill_atoms, ih, List.flatMap_cons]

theorem comment_notMem_flatMap (s : Spelling) (ts : List Token) :
    .comment ∉ ts.flatMap (atoms s) := by
  intro h
  obtain ⟨t, -, ht⟩ := List.mem_flatMap.mp h
  exact comment_notMem_atoms t ht

end Token

namespace Expr

open Atom

theorem read_prepare (e : Expr) :
    Atom.read e.prepare.text.toList = (e.tokens [] 0).flatMap (Token.atoms .prepared) := by
  have hread := readsAs_tokens (s := .prepared) [] 0 e
  have hsign : e.doublesSign Spelling.prepared.signed = false := e.doublesSign_prepared
  rw [hsign, Token.ReadsAs, funext Token.spelled_prepared] at hread
  rw [prepare, Token.prepare, String.toList_ofList]
  exact hread.read_eq .nil

theorem read_text (e : Expr) :
    if e.doublesSign Value.isSigned then .comment ∈ Atom.read e.text.toList
    else Atom.read e.text.toList = (e.tokens [] 0).flatMap (Token.atoms .canonical) := by
  have hread := readsAs_tokens (s := .canonical) [] 0 e
  have hsigned : Spelling.canonical.signed = Value.isSigned := rfl
  rw [hsigned, Token.ReadsAs, funext Token.spelled_canonical] at hread
  rw [text, Token.canonical, String.toList_ofList]
  cases hdoubles : e.doublesSign Value.isSigned with
  | false =>
    rw [hdoubles] at hread
    exact hread.read_eq .nil
  | true =>
    rw [hdoubles] at hread
    have hcomment := hread [] .nil
    rwa [List.append_nil] at hcomment

/-- **The canonical text has the structure of the prepared one with its placeholders filled in
exactly if no two minus signs meet.**  What is read in the canonical text is what is read in the
prepared one, with the literals of the parameters put to the placeholders, exactly if nowhere the
minus of a negation stands right in front of a literal with a minus of its own.  Otherwise, and only
then, a comment begins outside quotes in the canonical text.  None begins in the prepared one. -/
theorem text_structure_iff (e : Expr) :
    (Atom.read e.text.toList = fill (Atom.read e.prepare.text.toList) e.prepare.parameters ↔
        e.doublesSign Value.isSigned = false) ∧
      (.comment ∈ Atom.read e.text.toList ↔ e.doublesSign Value.isSigned = true) ∧
      .comment ∉ Atom.read e.prepare.text.toList := by
  have hfill : fill (Atom.read e.prepare.text.toList) e.prepare.parameters =
      (e.tokens [] 0).flatMap (Token.atoms .canonical) := by
    rw [read_prepare]
    exact Token.fill_flatMap_atoms _
  have hplain := Token.comment_notMem_flatMap .canonical (e.tokens [] 0)
  have htext := e.read_text
  have hprepared := Token.comment_notMem_flatMap .prepared (e.tokens [] 0)
  rw [hfill, read_prepare]
  cases hdoubles : e.doublesSign Value.isSigned with
  | false =>
    rw [hdoubles, if_neg Bool.false_ne_true] at htext
    rw [htext]
    exact ⟨iff_of_true rfl rfl, iff_of_false hplain Bool.false_ne_true, hprepared⟩
  | true =>
    rw [hdoubles, if_pos rfl] at htext
    refine ⟨iff_of_false (fun h => ?_) (fun h => by cases h), iff_of_true htext rfl, hprepared⟩
    rw [h] at htext
    exact hplain htext

/-- The negation of minus one is written as a bracket and a comment.  With its parameter put to the
placeholder, the prepared text has two minus signs and the number between its brackets. -/
theorem read_text_negate_negative :
    let e := unary .negate (value (.integer (-1)))
    e.text = "(--1)" ∧ e.prepare = ⟨"(-?)", [.integer (-1)]⟩ ∧
      Atom.read e.text.toList = [.sign ['('], .comment] ∧
      fill (Atom.read e.prepare.text.toList) e.prepare.parameters =
        [.sign ['('], .sign ['-'], .sign ['-'], .number ['1'], .sign [')']] := by
  decide +kernel

end Expr

end LiveQuery
