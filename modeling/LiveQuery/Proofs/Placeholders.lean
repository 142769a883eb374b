import LiveQuery.Proofs.Contents

/-!
# Literals in the place of placeholders

A statement has two texts, one with placeholders and one with literals.  The second can be had from
the first and its parameters: every question mark outside quotes is replaced by the literal of the
next parameter.  To do so it is enough to know at every character whether it stands between double
quotes.  A quote inside a name is written twice, so it closes the name and opens it again.

Both texts of a statement are those of the same tokens, so the two agree as soon as they do for
every single token.  In particular the parameters are in the order of the text, also where a join
settles early what it writes late, and where a comparison drops an operand.  A parameter is never
null, since a null literal is written as a fixed word in either text.

## Main definitions

* `Prepared.fill?`: the text with literals in the place of its placeholders.

## Main results

* `Token.fillChars?_prepare`: filling the placeholders of tokens gives their canonical text.
* `Expr.filled_eq_text`: so it does for every expression.
-/

namespace LiveQuery

/-! ### Filling -/

namespace Prepared

/-- Replaces the question marks outside double quotes by the literals of some values in turn.  There
have to be as many values.  `inside` says whether the text begins between quotes. -/
def fillChars? (inside : Bool) : List Char → List Value → Option (List Char)
  | [], vs => if vs.isEmpty then some [] else none
  | c :: rest, vs =>
    if c = '"' then (fillChars? (!inside) rest vs).map (c :: ·)
    else if c = '?' ∧ inside = false then
      vs.head?.bind fun v => (fillChars? false rest vs.tail).map (v.literalChars ++ ·)
    else (fillChars? inside rest vs).map (c :: ·)

/-- The text with the literals of the parameters in the place of its placeholders. -/
def fill? (p : Prepared) : Option String :=
  (fillChars? false p.text.toList p.parameters).map String.ofList

/-- Text without quotes and question marks is kept. -/
theorem fillChars?_plain {cs : List Char} (hquote : '"' ∉ cs) (hmark : '?' ∉ cs)
    (rest : List Char) (vs : List Value) :
    fillChars? false (cs ++ rest) vs = (fillChars? false rest vs).map (cs ++ ·) := by
  induction cs with
  | nil => simp
  | cons c cs ih =>
    obtain ⟨hc, hquote⟩ := List.ne_and_not_mem_of_not_mem_cons hquote
    obtain ⟨hc', hmark⟩ := List.ne_and_not_mem_of_not_mem_cons hmark
    rw [List.cons_append, fillChars?, if_neg hc.symm, if_neg fun h => hc' h.1.symm,
      ih hquote hmark]
    simp [Function.comp_def]

/-- Between quotes everything is kept. -/
theorem fillChars?_inside (cs rest : List Char) (vs : List Value) :
    fillChars? true (Quoted.double '"' cs ++ '"' :: rest) vs =
      (fillChars? false rest vs).map (Quoted.double '"' cs ++ '"' :: ·) := by
  induction cs with
  | nil =>
    rw [Quoted.double, List.nil_append, fillChars?, if_pos rfl]
    rfl
  | cons c cs ih =>
    rw [Quoted.double]
    split
    next hc =>
      rw [List.cons_append, List.cons_append, fillChars?, if_pos rfl, fillChars?, if_pos rfl,
        Bool.not_true, Bool.not_false, ih]
      simp [Function.comp_def]
    next hc =>
      rw [List.cons_append, fillChars?, if_neg hc, if_neg (by simp), ih]
      simp [Function.comp_def]

theorem fillChars?_quoteName (n : String) (rest : List Char) (vs : List Value) :
    fillChars? false (quoteName n ++ rest) vs =
      (fillChars? false rest vs).map (quoteName n ++ ·) := by
  rw [quoteName, Quoted.quote, List.cons_append, List.append_assoc, List.singleton_append,
    fillChars?, if_pos rfl, Bool.not_false, fillChars?_inside]
  simp [Function.comp_def]

end Prepared

/-! ### Tokens -/

namespace Token

open LiveQuery.Prepared

theorem fillChars?_append (t : Token) (rest : List Char) (vs : List Value) :
    fillChars? false (t.preparedChars ++ rest) (t.parameter?.toList ++ vs) =
      (fillChars? false rest vs).map (t.canonicalChars ++ ·) := by
  cases t with
  | keyword k =>
    obtain ⟨-, hquote, hmark⟩ := k.text_plain
    exact fillChars?_plain hquote hmark rest vs
  | name n => exact fillChars?_quoteName n rest vs
  | column q n =>
    have hdot : fillChars? false (['.'] ++ (quoteName n ++ rest)) vs = _ :=
      fillChars?_plain (by decide) (by decide) _ vs
    rw [List.singleton_append] at hdot
    rw [preparedChars, List.append_assoc, List.cons_append]
    simp only [parameter?, Option.toList_none, List.nil_append]
    rw [fillChars?_quoteName, hdot, fillChars?_quoteName]
    simp [canonicalChars, Function.comp_def]
  | literal v => rfl

/-- **Filling the placeholders of tokens gives their canonical text.** -/
theorem fillChars?_prepare (tokens : List Token) :
    fillChars? false (tokens.flatMap preparedChars) (tokens.filterMap parameter?) =
      some (tokens.flatMap canonicalChars) := by
  induction tokens with
  | nil => rfl
  | cons t rest ih =>
    rw [List.flatMap_cons, parameters_cons, fillChars?_append, ih]
    rfl

theorem fill?_prepare (tokens : List Token) :
    (prepare tokens).fill? = some (canonical tokens) := by
  rw [fill?, prepare, String.toList_ofList, fillChars?_prepare]
  rfl

/-- Null is a parameter only if it is a literal. -/
theorem literal_null_mem {tokens : List Token} (h : .null ∈ (prepare tokens).parameters) :
    literal .null ∈ tokens := by
  obtain ⟨t, ht, hparameter⟩ := List.mem_filterMap.mp h
  cases t with
  | literal v => exact Option.some.inj hparameter ▸ ht
  | _ => cases hparameter

end Token

/-! ### Statements -/

/-- The two texts of a statement agree. -/
theorem Statement.fill?_prepare (s : Statement) :
    s.prepare.fill? = some s.canonical ∧ .null ∉ s.prepare.parameters := by
  rw [prepare_eq]
  exact ⟨Token.fill?_prepare s.tokens,
    fun h => s.spells_tokens.null_notMem (Token.literal_null_mem h)⟩

/-- **The two texts of an expression agree.**  Its parameters, put in the place of the placeholders
as literals, give the canonical text, and none of them is null. -/
theorem Expr.filled_eq_text (e : Expr) :
    e.prepare.fill? = some e.text ∧ .null ∉ e.prepare.parameters :=
  (Statement.expr e).fill?_prepare

/-- A question mark in a name is kept, and so is one in a literal. -/
example :
    let e := Expr.binary .equal (.column ⟨"Why?", "so\"?"⟩) (.value (.text "?"))
    e.prepare.text = "(\"Why?\".\"so\"\"?\" = ?)" ∧
      e.prepare.fill? = some "(\"Why?\".\"so\"\"?\" = '?')" := by
  decide +kernel

end LiveQuery
