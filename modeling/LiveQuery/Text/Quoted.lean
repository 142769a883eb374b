/-!
# Quoted text

A quoted text stands between two quotes, and a quote inside it is written twice.  Names use the
double quote, text literals the single one.

## Main definitions

* `Quoted.double`: writes every quote of a text twice.
* `Quoted.quote`: the quoted form of a text.
* `Quoted.unquote`: reads a quoted form off the front of a text, with what follows it.
* `Quoted.cutOff?`: the quoted form in a text that a character of code zero cuts off.

## Main results

* `Quoted.unquote_quote`: reading gives back what was quoted, and the rest untouched.
-/

namespace LiveQuery.Quoted

/-- Writes every quote of a text twice. -/
def double (q : Char) : List Char → List Char
  | [] => []
  | c :: rest => if c = q then q :: q :: double q rest else c :: double q rest

/-- The quoted form of a text. -/
def quote (q : Char) (text : List Char) : List Char := q :: (double q text ++ [q])

/-- Reads the inside of a quoted form up to the quote that ends it: one that is not written
twice. -/
def readInside (q : Char) : List Char → Option (List Char × List Char)
  | [] => none
  | c :: rest =>
    if c = q then
      match rest with
      | d :: rest' =>
        if d = q then (readInside q rest').map fun r => (q :: r.1, r.2) else some ([], rest)
      | [] => some ([], [])
    else (readInside q rest).map fun r => (c :: r.1, r.2)

/-- Reads a quoted form off the front of a text: what it holds, and what follows it. -/
def unquote (q : Char) : List Char → Option (List Char × List Char)
  | [] => none
  | c :: rest => if c = q then readInside q rest else none

/-- How far a quoted form is read: the number of bytes before it, its characters with the last one
first, and whether that one is a quote that ends the form unless another one follows. -/
structure Opened where
  /-- The number of bytes before the form. -/
  offset : Nat
  /-- The characters read. -/
  read : List Char
  /-- Whether the form may have ended. -/
  ending : Bool

/-- The first quoted form in a text that a character of code zero cuts off: the number of bytes
before it, and what stands before that character.  `offset` counts the bytes before the text. -/
def cutOff? (q : Char) (offset : Nat) (opened : Option Opened) :
    List Char → Option (Nat × List Char)
  | [] => none
  | c :: rest =>
    let next := offset + c.utf8Size
    match opened with
    | none => cutOff? q next (if c = q then some ⟨offset, [c], false⟩ else none) rest
    | some o =>
      if c = q then cutOff? q next (some ⟨o.offset, c :: o.read, !o.ending⟩) rest
      else if o.ending then cutOff? q next none rest
      else if c = '\x00' then some (o.offset, o.read.reverse)
      else cutOff? q next (some ⟨o.offset, c :: o.read, false⟩) rest

/-- What follows a quoted form is no longer than the text that it is read off. -/
theorem length_readInside_le {q : Char} (text : List Char) {inside rest : List Char}
    (h : readInside q text = some (inside, rest)) : rest.length ≤ text.length := by
  induction text using readInside.induct q generalizing inside with
  | case1 => cases h
  | case2 rest' ih =>
    simp only [readInside, if_true, Option.map_eq_some_iff] at h
    obtain ⟨⟨inside', _⟩, hread, heq⟩ := h
    obtain ⟨-, rfl⟩ := Prod.mk.inj heq
    exact Nat.le_add_right_of_le (Nat.le_add_right_of_le (ih hread))
  | case3 d rest' hd =>
    simp only [readInside, if_true, if_neg hd, Option.some.injEq] at h
    obtain ⟨-, rfl⟩ := Prod.mk.inj h
    exact Nat.le_add_right _ 1
  | case4 =>
    simp only [readInside, if_true, Option.some.injEq] at h
    obtain ⟨-, rfl⟩ := Prod.mk.inj h
    exact Nat.zero_le _
  | case5 c rest' hc ih =>
    rw [readInside.eq_def] at h
    simp only [if_neg hc, Option.map_eq_some_iff] at h
    obtain ⟨⟨inside', _⟩, hread, heq⟩ := h
    obtain ⟨-, rfl⟩ := Prod.mk.inj heq
    exact Nat.le_add_right_of_le (ih hread)

theorem readInside_double (q : Char) (text rest : List Char) (h : rest.head? ≠ some q) :
    readInside q (double q text ++ q :: rest) = some (text, rest) := by
  induction text with
  | nil =>
    cases rest with
    | nil => simp [double, readInside]
    | cons d rest =>
      have hd : d ≠ q := by simpa using h
      simp [double, readInside, hd]
  | cons c text ih =>
    by_cases hc : c = q
    · simp [double, readInside, hc, ih]
    · rw [double, if_neg hc, List.cons_append, readInside.eq_def]
      simp [hc, ih]

/-- A quoted form reads back, whatever follows it other than a further quote. -/
theorem unquote_quote (q : Char) (text rest : List Char) (h : rest.head? ≠ some q) :
    unquote q (quote q text ++ rest) = some (text, rest) := by
  simpa [unquote, quote] using readInside_double q text rest h

end LiveQuery.Quoted
