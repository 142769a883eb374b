import LiveQuery.Proofs.Writer
import Mathlib.Data.List.Chain

/-!
# Prepared texts, character by character

The engine is handed the prepared text of a statement and reads it on its own.  No value is written
in such a text, so the double quotes settle what is a name and what is a placeholder: between them
there is a name, in which two quotes stand for one, and a question mark anywhere else is a
placeholder.

So a name could do harm in three ways.  A quote inside it could end it too early, a question mark
inside it could take a value away from the placeholder that it is meant for, and if it stood right
before another name, the quotes between the two would be read as one that belongs to a name.  The
first two are up to the way names are quoted.  The third is up to the renderer, which has to put
something between any two names (`Token.Apart`).

## Main definitions

* `Lexeme`, `Lexeme.scan?`: reading a prepared text.
* `Content`, `Lexeme.bind?`: the names and values in it, once values are put to placeholders.
* `Token.Apart`: nowhere do two names stand next to each other.

## Main results

* `Token.scan?_prepare`: what is read off the text of tokens are these tokens.
* `Token.bind?_prepare`: the placeholders get the values that they stand for.
-/

namespace LiveQuery

/-! ### Reading -/

/-- What the engine reads in a prepared text. -/
inductive Lexeme where
  /-- A name between double quotes. -/
  | name (n : String)
  /-- A question mark outside names. -/
  | placeholder
  /-- Any other character outside names. -/
  | other (c : Char)
deriving DecidableEq

namespace Lexeme

/-- Reads a text from left to right.  There is nothing to be read if a name does not end. -/
def scan? : List Char → Option (List Lexeme)
  | [] => some []
  | c :: rest =>
    if c = '"' then
      match h : Quoted.readInside '"' rest with
      | none => none
      | some (n, rest') =>
        have := Quoted.length_readInside_le rest h
        (scan? rest').map (name (.ofList n) :: ·)
    else (scan? rest).map ((if c = '?' then placeholder else other c) :: ·)
termination_by text => text.length

theorem scan?_nil : scan? [] = some [] := by
  rw [scan?]

theorem scan?_cons_of_ne {c : Char} (h : c ≠ '"') (rest : List Char) :
    scan? (c :: rest) =
      (scan? rest).map ((if c = '?' then placeholder else other c) :: ·) := by
  rw [scan?, if_neg h]

/-- A quoted name is read as this name, whatever follows it other than a further quote. -/
theorem scan?_quoteName (n : String) {rest : List Char} (h : rest.head? ≠ some '"') :
    scan? (quoteName n ++ rest) = (scan? rest).map (name n :: ·) := by
  have hinside := Quoted.readInside_double '"' n.toList rest h
  rw [quoteName, Quoted.quote, List.cons_append, List.append_assoc, List.singleton_append, scan?,
    if_pos rfl]
  split
  next hnone => rw [hinside] at hnone; cases hnone
  next n' rest' hsome =>
    rw [hinside] at hsome
    obtain ⟨rfl, rfl⟩ := Prod.mk.inj (Option.some.inj hsome)
    rw [String.ofList_toList]

/-- Text without quotes and question marks is passed over. -/
theorem scan?_plain {cs : List Char} (hquote : '"' ∉ cs) (hmark : '?' ∉ cs) (rest : List Char) :
    scan? (cs ++ rest) = (scan? rest).map (cs.map other ++ ·) := by
  induction cs with
  | nil => simp
  | cons c cs ih =>
    obtain ⟨hc, hquote⟩ := List.ne_and_not_mem_of_not_mem_cons hquote
    obtain ⟨hc', hmark⟩ := List.ne_and_not_mem_of_not_mem_cons hmark
    rw [List.cons_append, scan?_cons_of_ne hc.symm, if_neg hc'.symm, ih hquote hmark]
    simp [Function.comp_def]

/-- The characters that are read outside names. -/
def outside (lexemes : List Lexeme) : List Char :=
  lexemes.filterMap fun
    | name _ => none
    | placeholder => some '?'
    | other c => some c

end Lexeme

/-! ### Tokens -/

/-- A fixed word has characters, and none of them is a quote or a question mark. -/
theorem Keyword.text_plain (k : Keyword) :
    k.text.toList ≠ [] ∧ '"' ∉ k.text.toList ∧ '?' ∉ k.text.toList := by
  cases k with
  | operator op => cases op <;> decide
  | call f => cases f <;> decide
  | direction d => cases d <;> decide
  | _ => decide

namespace Token

/-- What is to be read in the prepared text of a token. -/
def lexemes : Token → List Lexeme
  | keyword k => k.text.toList.map .other
  | name n => [.name n]
  | column q n => [.name q, .other '.', .name n]
  | literal _ => [.placeholder]

/-- Whether the text of a token begins and ends with a name. -/
def isNamed : Token → Bool
  | keyword _ => false
  | name _ => true
  | column _ _ => true
  | literal _ => false

/-- Nowhere among the tokens do two names stand next to each other. -/
def Apart (tokens : List Token) : Prop :=
  tokens.IsChain fun t u => t.isNamed = true → u.isNamed = false

/-- Only names begin with a quote. -/
theorem head?_preparedChars {t : Token} (h : t.isNamed = false) (rest : List Char) :
    (t.preparedChars ++ rest).head? ≠ some '"' := by
  cases t with
  | keyword k =>
    obtain ⟨hne, hquote, -⟩ := k.text_plain
    obtain ⟨c, cs, hcs⟩ := List.exists_cons_of_ne_nil hne
    rw [preparedChars, hcs, List.cons_append, List.head?_cons]
    rintro ⟨⟩
    exact hquote (hcs ▸ List.mem_cons_self)
  | name n => cases h
  | column q n => cases h
  | literal v => simp [preparedChars]

/-- One token is read off the front of a text, unless it ends with a name and the rest begins with
one. -/
theorem scan?_append (t : Token) {rest : List Char}
    (h : t.isNamed = true → rest.head? ≠ some '"') :
    Lexeme.scan? (t.preparedChars ++ rest) = (Lexeme.scan? rest).map (t.lexemes ++ ·) := by
  cases t with
  | keyword k =>
    obtain ⟨-, hquote, hmark⟩ := k.text_plain
    exact Lexeme.scan?_plain hquote hmark rest
  | name n => exact Lexeme.scan?_quoteName n (h rfl)
  | column q n =>
    have hdot : ('.' :: (quoteName n ++ rest)).head? ≠ some '"' := by simp
    rw [preparedChars, List.append_assoc, List.cons_append, Lexeme.scan?_quoteName q hdot,
      Lexeme.scan?_cons_of_ne (by decide), if_neg (by decide), Lexeme.scan?_quoteName n (h rfl)]
    simp [lexemes, Function.comp_def]
  | literal v =>
    rw [preparedChars, List.singleton_append, Lexeme.scan?_cons_of_ne (by decide), if_pos rfl]
    rfl

/-- **What is read off the prepared text of tokens are these tokens**, if no two names stand next to
each other. -/
theorem scan?_prepare {tokens : List Token} (h : Apart tokens) :
    Lexeme.scan? (prepare tokens).text.toList = some (tokens.flatMap lexemes) := by
  rw [prepare, String.toList_ofList]
  induction tokens with
  | nil => exact Lexeme.scan?_nil
  | cons t rest ih =>
    obtain ⟨hnext, hrest⟩ := List.isChain_cons.mp h
    rw [List.flatMap_cons, scan?_append t, ih hrest]
    · rfl
    · intro hnamed
      cases rest with
      | nil => simp
      | cons u rest => exact head?_preparedChars (hnext u rfl hnamed) _

/-- The words of a token outside its names. -/
def words : Token → List String
  | keyword k => [k.text]
  | name _ => []
  | column _ _ => ["."]
  | literal _ => ["?"]

theorem outside_append_lexemes (t : Token) (rest : List Lexeme) :
    Lexeme.outside (t.lexemes ++ rest) = t.words.flatMap String.toList ++ Lexeme.outside rest := by
  rw [Lexeme.outside, List.filterMap_append]
  congr 1
  cases t with
  | keyword k => simp [lexemes, words, List.filterMap_map]
  | name n => rfl
  | column q n => simp [lexemes, words]
  | literal v => simp [lexemes, words]

/-- Outside the names there are fixed words, placeholders, and the dots of columns. -/
theorem outside_lexemes (tokens : List Token) :
    ∃ words : List String, (∀ w ∈ words, w = "." ∨ w = "?" ∨ ∃ k : Keyword, w = k.text) ∧
      Lexeme.outside (tokens.flatMap lexemes) = words.flatMap String.toList := by
  refine ⟨tokens.flatMap words, ?_, ?_⟩
  · intro w hw
    obtain ⟨t, -, hw⟩ := List.mem_flatMap.mp hw
    cases t with
    | keyword k => exact Or.inr (Or.inr ⟨k, List.mem_singleton.mp hw⟩)
    | name n => cases hw
    | column q n => exact Or.inl (List.mem_singleton.mp hw)
    | literal v => exact Or.inr (Or.inl (List.mem_singleton.mp hw))
  · induction tokens with
    | nil => rfl
    | cons t rest ih =>
      rw [List.flatMap_cons, outside_append_lexemes, ih, List.flatMap_cons, List.flatMap_append]

end Token

/-! ### Values for placeholders -/

/-- What a statement has beside its fixed words. -/
inductive Content where
  | name (n : String)
  | value (v : Value)
deriving DecidableEq

/-- Puts values to the placeholders in turn, and leaves out what is fixed.  There have to be as many
values as placeholders. -/
def Lexeme.bind? : List Lexeme → List Value → Option (List Content)
  | [], [] => some []
  | [], _ :: _ => none
  | name n :: rest, vs => (bind? rest vs).map (.name n :: ·)
  | placeholder :: _, [] => none
  | placeholder :: rest, v :: vs => (bind? rest vs).map (.value v :: ·)
  | other _ :: rest, vs => bind? rest vs

theorem Lexeme.bind?_other (cs : List Char) (rest : List Lexeme) (vs : List Value) :
    bind? (cs.map other ++ rest) vs = bind? rest vs := by
  induction cs with
  | nil => rfl
  | cons c cs ih => rw [List.map_cons, List.cons_append, bind?, ih]

/-- Values can be put to placeholders only if there are as many of them. -/
theorem Lexeme.count_of_bind? {lexemes : List Lexeme} {vs : List Value} {contents : List Content}
    (h : bind? lexemes vs = some contents) : lexemes.count placeholder = vs.length := by
  induction lexemes, vs using bind?.induct generalizing contents with
  | case1 => rfl
  | case2 v vs => cases h
  | case3 n rest vs ih =>
    obtain ⟨contents', hrest, -⟩ := Option.map_eq_some_iff.mp h
    rw [List.count_cons_of_ne (by simp), ih hrest]
  | case4 rest => cases h
  | case5 rest v vs ih =>
    obtain ⟨contents', hrest, -⟩ := Option.map_eq_some_iff.mp h
    rw [List.count_cons_self, ih hrest, List.length_cons]
  | case6 c rest vs ih =>
    rw [List.count_cons_of_ne (by simp), ih h]

namespace Token

/-- What a token has beside fixed characters. -/
def contents : Token → List Content
  | keyword _ => []
  | name n => [.name n]
  | column q n => [.name q, .name n]
  | literal v => [.value v]

theorem parameters_cons (t : Token) (rest : List Token) :
    (t :: rest).filterMap parameter? = t.parameter?.toList ++ rest.filterMap parameter? := by
  cases t <;> rfl

theorem bind?_append_lexemes (t : Token) (rest : List Lexeme) (vs : List Value) :
    Lexeme.bind? (t.lexemes ++ rest) (t.parameter?.toList ++ vs) =
      (Lexeme.bind? rest vs).map (t.contents ++ ·) := by
  cases t with
  | keyword k =>
    rw [lexemes, Lexeme.bind?_other]
    exact Option.map_id'.symm
  | name n => rfl
  | column q n =>
    simp [lexemes, contents, parameter?, Lexeme.bind?, Function.comp_def]
  | literal v => rfl

/-- **The placeholders get the values that they stand for.** -/
theorem bind?_prepare (tokens : List Token) :
    Lexeme.bind? (tokens.flatMap lexemes) (prepare tokens).parameters =
      some (tokens.flatMap contents) := by
  rw [prepare]
  induction tokens with
  | nil => rfl
  | cons t rest ih =>
    rw [List.flatMap_cons, parameters_cons, bind?_append_lexemes, ih]
    rfl

end Token

end LiveQuery
