import LiveQuery.Proofs.NormalForm

/-!
# Unique texts

No two normal forms have the same text, and a text can be told from what follows it.  This is not
plain from the brackets: a null test and a comparison begin alike and are told apart behind their
first operand, `(NOT ` begins a negation but `(NULL ` an operation on null, and a minus behind a
bracket is an operator or the sign of a number, which takes a look at what follows the number.

## Main definitions

* `NormalForm.Shape`, `NormalForm.Shape.ofText`: the kind of a normal form, read off the beginning
  of its text.
* `NormalForm.Opens`: how texts begin.

## Main results

* `NormalForm.ofText_chars`: the beginning of a text tells its kind.
* `NormalForm.chars_append_inj`: a text tells its normal form, whatever follows it.
* `Expr.text_eq_text_iff`: which expressions have one text.
-/

namespace LiveQuery

/-! ### Names, operators and functions -/

/-- Lists are told from what follows them by a separator that is in neither of them. -/
theorem append_separator_inj {α : Type} {a : α} {l m r s : List α} (hl : a ∉ l) (hm : a ∉ m)
    (h : l ++ a :: r = m ++ a :: s) : l = m ∧ r = s := by
  induction l generalizing m with
  | nil =>
    cases m with
    | nil => exact ⟨rfl, (List.cons.inj h).2⟩
    | cons c m => exact absurd ((List.cons.inj h).1 ▸ List.mem_cons_self) hm
  | cons c l ih =>
    cases m with
    | nil => exact absurd ((List.cons.inj h).1 ▸ List.mem_cons_self) hl
    | cons d m =>
      obtain ⟨rfl, htail⟩ := List.cons.inj h
      obtain ⟨rfl, hrest⟩ := ih (mt (List.mem_cons_of_mem _) hl) (mt (List.mem_cons_of_mem _) hm)
        htail
      exact ⟨rfl, hrest⟩

/-- A quoted name is told from what follows it. -/
theorem quoteName_append_inj {a b : String} {r s : List Char} (hr : r.head? ≠ some '"')
    (hs : s.head? ≠ some '"') (h : quoteName a ++ r = quoteName b ++ s) : a = b ∧ r = s := by
  have ha := Quoted.unquote_quote '"' a.toList r hr
  have hb := Quoted.unquote_quote '"' b.toList s hs
  rw [quoteName, quoteName] at h
  rw [h, hb] at ha
  obtain ⟨hname, hrest⟩ := Prod.mk.inj (Option.some.inj ha)
  exact ⟨String.toList_inj.mp hname.symm, hrest.symm⟩

theorem BinaryOp.find?_symbol (op : BinaryOp) : all.find? (·.symbol == op.symbol) = some op := by
  cases op <;> rfl

/-- Operators have different signs, in which there are no blanks. -/
theorem BinaryOp.symbol_append_inj {op op' : BinaryOp} {r s : List Char}
    (h : op.symbol.toList ++ ' ' :: r = op'.symbol.toList ++ ' ' :: s) : op = op' ∧ r = s := by
  have hblank (op : BinaryOp) : ' ' ∉ op.symbol.toList := by cases op <;> decide
  obtain ⟨hsymbol, hrest⟩ := append_separator_inj (hblank op) (hblank op') h
  have hfind := op.find?_symbol
  rw [String.toList_inj.mp hsymbol, op'.find?_symbol] at hfind
  exact ⟨(Option.some.inj hfind).symm, hrest⟩

/-- What is behind an operand tells the operator, if what is in front of it does not. -/
theorem UnaryOp.closing_append_inj {op op' : UnaryOp} {r s : List Char}
    (hopening : op.opening = op'.opening) (h : op.closing ++ r = op'.closing ++ s) :
    op = op' ∧ r = s := by
  cases op <;> cases op' <;> simp_all [opening, closing]

/-- A test for null is no operation on two operands. -/
theorem UnaryOp.closing_append_ne {op : UnaryOp} {op' : BinaryOp} {r s : List Char}
    (hopening : op.opening = ['(']) : op.closing ++ r ≠ ' ' :: (op'.symbol.toList ++ s) := by
  have hword : ∃ c rest, op'.symbol.toList = c :: rest ∧ c ≠ 'I' := by
    cases op' <;> exact ⟨_, _, rfl, by decide⟩
  obtain ⟨c, rest, hsymbol, hc⟩ := hword
  rw [hsymbol]
  cases op with
  | not => cases hopening
  | negate => cases hopening
  | isNull => exact fun he => hc (List.cons.inj (List.cons.inj he).2).1.symm
  | isNotNull => exact fun he => hc (List.cons.inj (List.cons.inj he).2).1.symm

theorem Builtin.find?_name (f : Builtin) : all.find? (·.name == f.name) = some f := by
  cases f <;> rfl

/-- Functions have different names, in which there are no brackets. -/
theorem Builtin.name_append_inj {f f' : Builtin} {r s : List Char}
    (h : f.name.toList ++ '(' :: r = f'.name.toList ++ '(' :: s) : f = f' ∧ r = s := by
  have hbracket (f : Builtin) : '(' ∉ f.name.toList := by cases f <;> decide
  obtain ⟨hname, hrest⟩ := append_separator_inj (hbracket f) (hbracket f') h
  have hfind := f.find?_name
  rw [String.toList_inj.mp hname, f'.find?_name] at hfind
  exact ⟨(Option.some.inj hfind).symm, hrest⟩

namespace NormalForm

open Decimal (isNumeral)

section Brackets

variable (rest : List Char)

theorem chars_unary_append (op : UnaryOp) (e : NormalForm) :
    (unary op e).chars ++ rest = op.opening ++ (e.chars ++ (op.closing ++ rest)) := by
  rw [chars, List.append_assoc, List.append_assoc]

theorem chars_binary_append (op : BinaryOp) (l r : NormalForm) :
    (binary op l r).chars ++ rest =
      ['('] ++ (l.chars ++ ' ' :: (op.symbol.toList ++ ' ' :: (r.chars ++ ')' :: rest))) := by
  simp [chars]

end Brackets

/-! ### How texts begin -/

/-- How the text of a normal form begins. -/
inductive Opens : List Char → Prop
  /-- It is a number. -/
  | number {text : List Char} (h : Value.IsNumber text) : Opens text
  /-- It is the word for null. -/
  | null (rest : List Char) : Opens ('N' :: 'U' :: rest)
  /-- It begins with a bracket, and not as the moment does behind its first one. -/
  | bracket {c : Char} (hc : c ≠ 'j') (rest : List Char) : Opens ('(' :: c :: rest)
  /-- It begins with a quote or the name of a function. -/
  | sign {c : Char} (hc : c ∈ ['\x27', 'X', '"', 'm', 'c', 'l']) (rest : List Char) :
      Opens (c :: rest)

/-- The first character is none that may follow a text, and not the first one of the moment behind
its bracket. -/
theorem Opens.exists_cons {text : List Char} (h : Opens text) :
    ∃ c rest, text = c :: rest ∧ c ∉ [' ', ')', ',', 'j', 'S'] := by
  cases h with
  | number h =>
    obtain ⟨c, rest, rfl⟩ := List.exists_cons_of_ne_nil h.1
    have hc := h.2 c List.mem_cons_self
    refine ⟨c, rest, rfl, fun hmem => ?_⟩
    have hnone : ∀ d ∈ [' ', ')', ',', 'j', 'S'], isNumeral d = false := by simp [isNumeral]
    rw [hnone c hmem] at hc
    cases hc
  | null rest => exact ⟨_, _, rfl, by decide⟩
  | bracket hc rest => exact ⟨_, _, rfl, by decide⟩
  | sign hc rest =>
    have hnone : ∀ c ∈ ['\x27', 'X', '"', 'm', 'c', 'l'], c ∉ [' ', ')', ',', 'j', 'S'] := by simp
    exact ⟨_, _, rfl, hnone _ hc⟩

/-- A text is not taken for the bracket that ends it. -/
theorem Opens.append_ne_closeParen {text : List Char} (h : Opens text) (r s : List Char) :
    text ++ r ≠ [')'] ++ s := by
  obtain ⟨c, text, rfl, hc⟩ := h.exists_cons
  intro he
  obtain rfl : c = ')' := (List.cons.inj he).1
  exact hc (by decide)

/-- A bracket in front of a text. -/
theorem Opens.bracket_append {text : List Char} (h : Opens text) (rest : List Char) :
    Opens ('(' :: (text ++ rest)) := by
  obtain ⟨c, text, rfl, hc⟩ := h.exists_cons
  have hmoment : c ≠ 'j' := by
    rintro rfl
    exact hc (by decide)
  exact .bracket hmoment _

theorem opens_chars : (a : NormalForm) → Opens a.chars
  | value v => by
    rw [chars]
    obtain h | h | ⟨inside, h⟩ | ⟨digits, h⟩ := v.value.literalChars_cases
    · exact h ▸ .null _
    · exact .number h
    · exact h ▸ .sign (by decide) _
    · exact h ▸ .sign (by decide) _
  | column q n => .sign (by decide) _
  | unary op e => by
    have he := opens_chars e
    cases op with
    | not => exact .bracket (by decide) _
    | negate => exact .bracket (by decide) _
    | isNull => exact he.bracket_append _
    | isNotNull => exact he.bracket_append _
  | binary op l r => (opens_chars l).bracket_append _
  | now => .bracket (by decide) _
  | call f hf args => by
    cases f with
    | now => exact absurd rfl hf
    | _ => exact .sign (by decide) _
  | join table row target sourceQualifier sourceName inner => .bracket (by decide) _

/-! ### The kind of a text -/

/-- The kinds of normal forms that the beginnings of their texts tell apart.  Operators behind an
operand are one kind. -/
inductive Shape
  | value
  | column
  | call
  | now
  | not
  | negate
  | operation
  | join
deriving DecidableEq

/-- The kind of a normal form. -/
def shape : NormalForm → Shape
  | value _ => .value
  | column .. => .column
  | unary .not _ => .not
  | unary .negate _ => .negate
  | unary .isNull _ => .operation
  | unary .isNotNull _ => .operation
  | binary .. => .operation
  | now => .now
  | call .. => .call
  | join .. => .join

/-- The kind that a text has behind a bracket.  A minus is the sign of a number if there is an
operator behind the number. -/
def Shape.ofBracket : List Char → Shape
  | 'N' :: 'O' :: _ => .not
  | 'S' :: _ => .join
  | '(' :: 'j' :: _ => .now
  | '-' :: rest => if (rest.dropWhile isNumeral).head? = some ' ' then .operation else .negate
  | _ => .operation

/-- The kind of a text. -/
def Shape.ofText : List Char → Shape
  | '"' :: _ => .column
  | '(' :: inside => .ofBracket inside
  | 'm' :: _ => .call
  | 'c' :: _ => .call
  | 'l' :: _ => .call
  | _ => .value

/-- No number is taken for anything else. -/
theorem Shape.ofText_numeral {c : Char} (hc : isNumeral c = true) (rest : List Char) :
    Shape.ofText (c :: rest) = .value := by
  rw [Shape.ofText]
  all_goals
    intro _ he
    rw [(List.cons.inj he).1] at hc
    exact absurd hc (by decide)

/-- The characters of a number are passed over, up to what follows it. -/
theorem dropWhile_number {text : List Char} (h : Value.IsNumber text) {c : Char}
    (hc : isNumeral c = false) (rest : List Char) :
    (text ++ c :: rest).dropWhile isNumeral = c :: rest := by
  rw [List.dropWhile_append_of_pos h.2, List.dropWhile_cons_of_neg (by simp [hc])]

/-- Behind a bracket, an operand with an operator behind it is taken for nothing else. -/
theorem Opens.ofBracket {text : List Char} (h : Opens text) (rest : List Char) :
    Shape.ofBracket (text ++ ' ' :: rest) = .operation := by
  cases h with
  | number h =>
    have hdrop := dropWhile_number h (by decide : isNumeral ' ' = false) rest
    obtain ⟨c, text, rfl⟩ := List.exists_cons_of_ne_nil h.1
    have hc : isNumeral c = true := h.2 c List.mem_cons_self
    by_cases hminus : c = '-'
    · -- the number begins with a sign, and there is the operator behind it
      subst hminus
      rw [List.cons_append, List.dropWhile_cons_of_pos hc] at hdrop
      exact if_pos (congrArg List.head? hdrop)
    · rw [List.cons_append, Shape.ofBracket]
      all_goals
        intro _ he
        rw [(List.cons.inj he).1] at hc hminus
        first | exact absurd rfl hminus | exact absurd hc (by decide)
  | null rest => rfl
  | bracket hc rest =>
    unfold Shape.ofBracket
    split
    next he => cases he
    next he => cases he
    next he =>
      obtain ⟨-, htail⟩ := List.cons.inj he
      exact absurd (List.cons.inj htail).1 hc
    next he => cases he
    next => rfl
  | sign hc rest =>
    simp only [List.mem_cons, List.not_mem_nil, or_false] at hc
    rcases hc with rfl | rfl | rfl | rfl | rfl | rfl <;> rfl

/-- A minus in front of an operand is taken for no sign. -/
theorem Opens.ofBracket_negate {text : List Char} (h : Opens text) (rest : List Char) :
    Shape.ofBracket ('-' :: (text ++ ')' :: rest)) = .negate := by
  have hhead {c : Char} (hc : isNumeral c = false ∧ c ≠ ' ') (more : List Char) :
      ((c :: more).dropWhile isNumeral).head? ≠ some ' ' := by
    rw [List.dropWhile_cons_of_neg (by simp [hc.1])]
    exact fun he => hc.2 (Option.some.inj he)
  refine if_neg ?_
  cases h with
  | number h =>
    rw [dropWhile_number h (by decide)]
    exact fun he => absurd (Option.some.inj he) (by decide)
  | null rest => exact hhead (by decide) _
  | bracket hc rest => exact hhead (by decide) _
  | sign hc rest =>
    have hsign : ∀ c ∈ ['\x27', 'X', '"', 'm', 'c', 'l'], isNumeral c = false ∧ c ≠ ' ' := by
      simp [isNumeral]
    exact hhead (hsign _ hc) _

/-- **The beginning of a text tells its kind.** -/
theorem ofText_chars (a : NormalForm) (rest : List Char) :
    Shape.ofText (a.chars ++ rest) = a.shape := by
  cases a with
  | value v =>
    rw [chars]
    obtain h | h | ⟨inside, h⟩ | ⟨digits, h⟩ := v.value.literalChars_cases
    · rw [h]
      rfl
    · obtain ⟨c, text, htext⟩ := List.exists_cons_of_ne_nil h.1
      rw [htext]
      exact Shape.ofText_numeral (h.2 c (htext ▸ List.mem_cons_self)) _
    · rw [h]
      rfl
    · rw [h]
      rfl
  | column q n => rfl
  | unary op e =>
    have he := opens_chars e
    cases op with
    | not => rfl
    | negate =>
      rw [chars_unary_append]
      exact he.ofBracket_negate rest
    | isNull =>
      rw [chars_unary_append]
      exact he.ofBracket _
    | isNotNull =>
      rw [chars_unary_append]
      exact he.ofBracket _
  | binary op l r =>
    rw [chars_binary_append]
    exact (opens_chars l).ofBracket _
  | now => rfl
  | call f hf args =>
    cases f with
    | now => exact absurd rfl hf
    | _ => rfl
  | join table row target sourceQualifier sourceName inner => rfl

/-- Texts with the same beginning are of one kind. -/
theorem shape_eq_of_append {a b : NormalForm} {r s : List Char}
    (h : a.chars ++ r = b.chars ++ s) : b.shape = a.shape := by
  rw [← ofText_chars b s, ← h, ofText_chars]

/-! ### Texts with something behind them -/

/-- What may follow a text. -/
def Ends (rest : List Char) : Prop := ∀ c ∈ rest.head?, c ∈ [' ', ')', ',']

theorem Ends.endsLiteral {rest : List Char} (h : Ends rest) : Value.EndsLiteral rest := by
  have hnone : ∀ c ∈ [' ', ')', ','], isNumeral c = false ∧ c ≠ '\x27' := by
    simp [isNumeral]
  exact fun c hc => hnone c (h c hc)

theorem Ends.head?_ne {rest : List Char} (h : Ends rest) : rest.head? ≠ some '"' := by
  intro he
  exact absurd (h '"' he) (by decide)

theorem Ends.nil : Ends [] := fun _ hc => absurd hc (Option.not_mem_none _)

theorem ends_blank (rest : List Char) : Ends (' ' :: rest) :=
  fun c hc => Option.some.inj hc ▸ by decide

theorem ends_closeParen (rest : List Char) : Ends (')' :: rest) :=
  fun c hc => Option.some.inj hc ▸ by decide

theorem ends_closing (op : UnaryOp) (rest : List Char) : Ends (op.closing ++ rest) := by
  cases op <;> exact fun c hc => Option.some.inj hc ▸ by decide

theorem ends_laterChars (args : List NormalForm) (rest : List Char) :
    Ends (laterChars args ++ rest) := by
  cases args <;> exact fun c hc => Option.some.inj hc ▸ by decide

section Parts

variable {r s : List Char}

theorem columnChars_append_inj {q n q' n' : String} (hr : r.head? ≠ some '"')
    (hs : s.head? ≠ some '"') (h : columnChars q n ++ r = columnChars q' n' ++ s) :
    q = q' ∧ n = n' ∧ r = s := by
  rw [columnChars, columnChars, List.append_assoc, List.append_assoc] at h
  obtain ⟨hq, h⟩ := quoteName_append_inj (by simp) (by simp) h
  obtain ⟨hn, hrest⟩ := quoteName_append_inj hr hs (List.cons.inj h).2
  exact ⟨hq, hn, hrest⟩

/-- A keyword in front of which there is a blank is no second quote. -/
theorem head?_keyword {k : Keyword} (hk : k.chars.head? = some ' ') (rest : List Char) :
    (k.chars ++ rest).head? ≠ some '"' := by
  rw [List.head?_append, hk]
  exact fun he => absurd (Option.some.inj he) (by decide)

theorem sourceChars_append_inj {t w g q n t' w' g' q' n' : String}
    (h : sourceChars t w g q n ++ r = sourceChars t' w' g' q' n' ++ s) :
    t = t' ∧ w = w' ∧ g = g' ∧ q = q' ∧ n = n' ∧ r = s := by
  have has : Keyword.as.chars.head? = some ' ' := rfl
  have hwhere : Keyword.where.chars.head? = some ' ' := rfl
  simp only [sourceChars, List.append_assoc, List.cons_append] at h
  obtain ⟨ht, h⟩ := quoteName_append_inj (head?_keyword has _) (head?_keyword has _)
    (List.append_cancel_left h)
  obtain ⟨hw, h⟩ := quoteName_append_inj (head?_keyword hwhere _) (head?_keyword hwhere _)
    (List.append_cancel_left h)
  obtain ⟨-, hg, h⟩ := columnChars_append_inj (by simp) (by simp) (List.append_cancel_left h)
  have hequal : columnChars q n ++ ')' :: r = columnChars q' n' ++ ')' :: s := by simpa using h
  obtain ⟨hq, hn, hrest⟩ := columnChars_append_inj (by simp) (by simp) hequal
  exact ⟨ht, hw, hg, hq, hn, (List.cons.inj hrest).2⟩

theorem ends_sourceChars {t w g q n : String} : Ends (sourceChars t w g q n ++ r) :=
  fun c hc => Option.some.inj hc ▸ by decide

end Parts

mutual

/-- **A text tells its normal form, and where it ends.** -/
theorem chars_append_inj : (a : NormalForm) → {b : NormalForm} → {r s : List Char} → Ends r →
    Ends s → a.chars ++ r = b.chars ++ s → a = b ∧ r = s
  | value v, b, r, s, hr, hs, h => by
    have hshape : b.shape = .value := shape_eq_of_append h
    cases b with
    | value w =>
      have hv := Value.readLiteral?_literalChars v.value hr.endsLiteral
      have hw := Value.readLiteral?_literalChars w.value hs.endsLiteral
      rw [chars, chars] at h
      rw [h, hw, v.written, w.written] at hv
      obtain ⟨hvalue, hrest⟩ := Prod.mk.inj (Option.some.inj hv)
      exact ⟨congrArg value (Literal.eq_of_value hvalue.symm), hrest.symm⟩
    | unary op e => cases op <;> cases hshape
    | _ => cases hshape
  | column q n, b, r, s, hr, hs, h => by
    have hshape : b.shape = .column := shape_eq_of_append h
    cases b with
    | column q' n' =>
      obtain ⟨rfl, rfl, rfl⟩ := columnChars_append_inj (hr.head?_ne) (hs.head?_ne) h
      exact ⟨rfl, rfl⟩
    | unary op e => cases op <;> cases hshape
    | _ => cases hshape
  | unary op e, b, r, s, hr, hs, h => by
    have hshape : b.shape = (unary op e).shape := shape_eq_of_append h
    cases b with
    | unary op' e' =>
      have hopening : op.opening = op'.opening := by
        cases op <;> cases op' <;> first | rfl | cases hshape
      rw [chars_unary_append, chars_unary_append, hopening] at h
      obtain ⟨rfl, hclosing⟩ := chars_append_inj e (ends_closing op r) (ends_closing op' s)
        (List.append_cancel_left h)
      obtain ⟨rfl, rfl⟩ := UnaryOp.closing_append_inj hopening hclosing
      exact ⟨rfl, rfl⟩
    | binary op' l' r' =>
      have hopening : op.opening = ['('] := by cases op <;> first | rfl | cases hshape
      rw [chars_unary_append, chars_binary_append, hopening] at h
      obtain ⟨-, hclosing⟩ := chars_append_inj e (ends_closing op r) (ends_blank _)
        (List.append_cancel_left h)
      exact absurd hclosing (UnaryOp.closing_append_ne hopening)
    | _ => cases op <;> cases hshape
  | binary op l l₂, b, r, s, hr, hs, h => by
    have hshape : b.shape = .operation := shape_eq_of_append h
    cases b with
    | unary op' e' =>
      have hopening : op'.opening = ['('] := by cases op' <;> first | rfl | cases hshape
      rw [chars_binary_append, chars_unary_append, hopening] at h
      obtain ⟨-, hclosing⟩ := chars_append_inj l (ends_blank _) (ends_closing op' s)
        (List.append_cancel_left h)
      exact absurd hclosing.symm (UnaryOp.closing_append_ne hopening)
    | binary op' l' l₂' =>
      rw [chars_binary_append, chars_binary_append] at h
      obtain ⟨rfl, hoperator⟩ := chars_append_inj l (ends_blank _) (ends_blank _)
        (List.append_cancel_left h)
      obtain ⟨rfl, hright⟩ := BinaryOp.symbol_append_inj (List.cons.inj hoperator).2
      obtain ⟨rfl, hrest⟩ := chars_append_inj l₂ (ends_closeParen r) (ends_closeParen s) hright
      exact ⟨rfl, (List.cons.inj hrest).2⟩
    | _ => cases hshape
  | now, b, r, s, hr, hs, h => by
    have hshape : b.shape = .now := shape_eq_of_append h
    cases b with
    | now => exact ⟨rfl, List.append_cancel_left h⟩
    | unary op e => cases op <;> cases hshape
    | _ => cases hshape
  | call f hf args, b, r, s, hr, hs, h => by
    have hshape : b.shape = .call := shape_eq_of_append h
    cases b with
    | call f' hf' args' =>
      rw [chars, chars, List.append_assoc, List.append_assoc] at h
      obtain ⟨rfl, hargs⟩ := Builtin.name_append_inj h
      obtain ⟨rfl, rfl⟩ := firstChars_append_inj args hargs
      exact ⟨rfl, rfl⟩
    | unary op e => cases op <;> cases hshape
    | _ => cases hshape
  | join t w g q n inner, b, r, s, hr, hs, h => by
    have hshape : b.shape = .join := shape_eq_of_append h
    cases b with
    | join t' w' g' q' n' inner' =>
      rw [chars, chars, List.cons_append, List.cons_append, List.append_assoc, List.append_assoc,
        List.append_assoc, List.append_assoc] at h
      have hinner := List.append_cancel_left (List.cons.inj h).2
      obtain ⟨rfl, hsource⟩ := chars_append_inj inner ends_sourceChars ends_sourceChars hinner
      obtain ⟨rfl, rfl, rfl, rfl, rfl, rfl⟩ := sourceChars_append_inj hsource
      exact ⟨rfl, rfl⟩
    | unary op e => cases op <;> cases hshape
    | _ => cases hshape

/-- Arguments are told from what follows their bracket. -/
theorem firstChars_append_inj : (as : List NormalForm) → {bs : List NormalForm} →
    {r s : List Char} → firstChars as ++ r = firstChars bs ++ s → as = bs ∧ r = s
  | [], [], r, s, h => ⟨rfl, (List.cons.inj h).2⟩
  | [], b :: bs, r, s, h => by
    rw [firstChars, firstChars, List.append_assoc] at h
    exact absurd h.symm ((opens_chars b).append_ne_closeParen _ _)
  | a :: as, [], r, s, h => by
    rw [firstChars, firstChars, List.append_assoc] at h
    exact absurd h ((opens_chars a).append_ne_closeParen _ _)
  | a :: as, b :: bs, r, s, h => by
    rw [firstChars, firstChars, List.append_assoc, List.append_assoc] at h
    obtain ⟨rfl, htail⟩ := chars_append_inj a (ends_laterChars as r) (ends_laterChars bs s) h
    obtain ⟨rfl, rfl⟩ := laterChars_append_inj as htail
    exact ⟨rfl, rfl⟩

theorem laterChars_append_inj : (as : List NormalForm) → {bs : List NormalForm} →
    {r s : List Char} → laterChars as ++ r = laterChars bs ++ s → as = bs ∧ r = s
  | [], [], r, s, h => ⟨rfl, (List.cons.inj h).2⟩
  | [], b :: bs, r, s, h => absurd (List.cons.inj h).1 (by decide)
  | a :: as, [], r, s, h => absurd (List.cons.inj h).1 (by decide)
  | a :: as, b :: bs, r, s, h => by
    have hargs : a.chars ++ (laterChars as ++ r) = b.chars ++ (laterChars bs ++ s) := by
      simpa [laterChars] using h
    obtain ⟨rfl, htail⟩ := chars_append_inj a (ends_laterChars as r) (ends_laterChars bs s) hargs
    obtain ⟨rfl, rfl⟩ := laterChars_append_inj as htail
    exact ⟨rfl, rfl⟩

end

end NormalForm

/-! ### Expressions -/

namespace Expr

/-- **Which expressions have one text.**  Two expressions have the same canonical text exactly if
they have the same normal form. -/
theorem text_eq_text_iff (a b : Expr) : a.text = b.text ↔ a.normalForm = b.normalForm := by
  rw [text_eq_normalForm, text_eq_normalForm]
  constructor
  · intro h
    have hchars : a.normalForm.chars ++ [] = b.normalForm.chars ++ [] := by
      rw [List.append_nil, List.append_nil]
      exact String.ofList_inj.mp h
    exact (NormalForm.chars_append_inj a.normalForm .nil .nil hchars).1
  · intro h
    rw [h]

/-- A comparison with a NaN and one with null are both written with `NULL`, but the first one
remains a comparison. -/
example : (binary .equal (column ⟨"A", "x"⟩) (value (.real .nan))).text = "(\"A\".\"x\" = NULL)" ∧
    (binary .equal (column ⟨"A", "x"⟩) null).text = "(\"A\".\"x\" IS NULL)" := by
  decide +kernel

end Expr

end LiveQuery
