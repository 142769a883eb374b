import LiveQuery.Proofs.Decimals
import LiveQuery.Value.Literal

/-!
# Literals that read back

A literal is read off the front of a text by its first character: the word for null, a quote, the
letter in front of a blob, or else a number.  A number goes on as long as its characters do, and it
is an integer if it has neither point nor exponent.  What follows a literal must not belong to it,
neither as part of a number nor as a second quote.

Every value but a NaN is read back from its literal, an infinity because its literal is a decimal
that no finite real is nearest to.

## Main definitions

* `Value.readLiteral?`: reads a literal.
* `Value.written`: the value that a literal is read as.
* `Value.EndsLiteral`: what may follow a literal.

## Main results

* `Value.readLiteral?_literalChars`: literals read back, whatever follows them.
* `Value.mark_notMem_integer`, `Value.mark_mem_real`: how integers are told from reals.
* `Value.literals_read_back`: whole literals read back, and different values have different ones.
-/

namespace LiveQuery

/-! ### Numbers, texts and blobs -/

/-- A text without quotes is only put between them. -/
theorem Quoted.double_of_notMem {q : Char} {text : List Char} (h : q ∉ text) :
    Quoted.double q text = text := by
  induction text with
  | nil => rfl
  | cons c text ih =>
    obtain ⟨hc, htext⟩ := not_or.mp (mt List.mem_cons.mpr h)
    rw [Quoted.double, if_neg (Ne.symm hc), ih htext]

theorem Hex.quote_notMem_encode (bytes : List UInt8) : '\x27' ∉ Hex.encode bytes := by
  have hdigit : ∀ n < 16, Hex.digit n ≠ '\x27' := by decide
  intro h
  obtain ⟨b, -, hb⟩ := List.mem_flatMap.mp h
  have hlt : b.toNat < 256 := b.toNat_lt
  rcases List.mem_cons.mp hb with hb | hb
  · exact hdigit (b.toNat / 16) (by omega) hb.symm
  · exact hdigit (b.toNat % 16) (by omega) (List.mem_singleton.mp hb).symm

namespace Binary64

variable {x : Binary64}

/-- The literal of an infinity is a decimal that no finite real is nearest to. -/
theorem ofDecimal_infinite (h : x.isInfinite = true) : ofDecimal x.isNegative 1 999 = x := by
  have hmagnitude : x.magnitude = infiniteMagnitude := of_decide_eq_true h
  have hround : roundRatio (1 * 10 ^ (999 : Int).toNat) (10 ^ (-999 : Int).toNat) =
      infiniteMagnitude := by
    decide +kernel
  rw [ofDecimal_eq_ofRatio, ofRatio, hround, ← hmagnitude, ofMagnitude_magnitude]

/-- The literal of a real that is not a NaN is a written decimal behind a sign, and the real is
nearest to it. -/
theorem exists_written_realLiteral (h : x.isNaN = false) :
    ∃ text d, Value.realLiteral x = signText x.isNegative ++ text ∧ Decimal.Written text d ∧
      ofDecimal x.isNegative d.digits d.exponent = x := by
  unfold Value.realLiteral
  rw [h, if_neg Bool.false_ne_true]
  by_cases hinfinite : x.isInfinite = true
  · have hdigit : ∀ c ∈ ['1'], c.isDigit = true := List.forall_mem_singleton.mpr rfl
    have hwritten := Decimal.Written.exponent hdigit (List.cons_ne_nil _ _) 999
    refine ⟨_, _, ?_, hwritten, ofDecimal_infinite hinfinite⟩
    rw [if_pos hinfinite, signText]
    split_ifs <;> rfl
  · have hfinite : x.isFinite = true := by
      have hnan := of_decide_eq_false h
      have hne : x.magnitude ≠ infiniteMagnitude := fun he => hinfinite (decide_eq_true he)
      exact decide_eq_true (by omega)
    rw [if_neg hinfinite]
    exact exists_written_chars hfinite

end Binary64

namespace Value

/-! ### Reading literals -/

/-- Reads a number: an integer if it is written as one, and a real otherwise. -/
def readNumber? (text : List Char) : Option Value :=
  match readInt? text with
  | some i => (narrow? i).map integer
  | none => (Binary64.read? text).map real

/-- Reads a literal off the front of a text: its value, and what follows it. -/
def readLiteral? : List Char → Option (Value × List Char)
  | 'N' :: 'U' :: 'L' :: 'L' :: rest => some (null, rest)
  | 'X' :: digits =>
    (Quoted.unquote '\x27' digits).bind fun (digits, rest) =>
      (Hex.decode digits).map fun bytes => (blob bytes, rest)
  | '\x27' :: inside =>
    (Quoted.readInside '\x27' inside).map fun (s, rest) => (text (.ofList s), rest)
  | number =>
    (readNumber? (number.takeWhile Decimal.isNumeral)).map fun v =>
      (v, number.dropWhile Decimal.isNumeral)

/-- The value that a literal is read as: a NaN has no literal and is written as null. -/
def written : Value → Value
  | real x => if x.isNaN then null else real x
  | v => v

/-- What may follow a literal: nothing that it would go on with. -/
def EndsLiteral (rest : List Char) : Prop :=
  ∀ c ∈ rest.head?, Decimal.isNumeral c = false ∧ c ≠ '\x27'

/-- Whether a text is that of a number. -/
def IsNumber (text : List Char) : Prop :=
  text ≠ [] ∧ ∀ c ∈ text, Decimal.isNumeral c = true

theorem isNumber_integer (i : Int64) : IsNumber (integer i).literalChars := by
  refine ⟨?_, Decimal.isNumeral_toString i.toInt⟩
  rw [literalChars, toList_toString_int]
  exact List.append_ne_nil_of_right_ne_nil _ Nat.toDigits_ne_nil

theorem isNumber_real {x : Binary64} (h : x.isNaN = false) : IsNumber (real x).literalChars := by
  obtain ⟨text, d, htext, hwritten, -⟩ := Binary64.exists_written_realLiteral h
  rw [literalChars, htext]
  constructor
  · obtain ⟨c, text, rfl, -⟩ := hwritten.exists_cons
    exact List.append_ne_nil_of_right_ne_nil _ (List.cons_ne_nil _ _)
  · exact List.forall_mem_append.mpr ⟨Decimal.isNumeral_signText _, hwritten.isNumeral⟩

/-- A number is read as far as its characters go. -/
theorem readLiteral?_number {number rest : List Char} {v : Value} (hnumber : IsNumber number)
    (hrest : EndsLiteral rest) (h : readNumber? number = some v) :
    readLiteral? (number ++ rest) = some (v, rest) := by
  obtain ⟨hne, hnumeral⟩ := hnumber
  have htake : rest.takeWhile Decimal.isNumeral = [] := by
    cases rest with
    | nil => rfl
    | cons c rest => simp [(hrest c rfl).1]
  have hdrop : rest.dropWhile Decimal.isNumeral = rest := by
    cases rest with
    | nil => rfl
    | cons c rest => simp [(hrest c rfl).1]
  obtain ⟨c, number, rfl⟩ := List.exists_cons_of_ne_nil hne
  have hc : Decimal.isNumeral c = true := hnumeral c List.mem_cons_self
  rw [List.cons_append, readLiteral?]
  · rw [← List.cons_append, List.takeWhile_append_of_pos hnumeral, htake, List.append_nil,
      List.dropWhile_append_of_pos hnumeral, hdrop, h]
    rfl
  -- the first character begins no other literal
  all_goals
    intro _ he
    rw [(List.cons.inj he).1] at hc
    exact absurd hc (by decide)

/-- **Literals read back**, whatever follows them. -/
theorem readLiteral?_literalChars (v : Value) {rest : List Char} (hrest : EndsLiteral rest) :
    readLiteral? (v.literalChars ++ rest) = some (v.written, rest) := by
  have hquote : rest.head? ≠ some '\x27' := fun he => (hrest _ he).2 rfl
  cases v with
  | null => rfl
  | integer i =>
    refine readLiteral?_number (isNumber_integer i) hrest ?_
    rw [readNumber?, literalChars, readInt?_toString]
    exact congrArg (Option.map integer) (narrow?_toInt i)
  | real x =>
    rw [written]
    split_ifs with hnan
    · rw [literalChars, realLiteral, if_pos hnan]
      rfl
    · have hnumber : x.isNaN = false := Bool.eq_false_iff.mpr hnan
      obtain ⟨text, d, htext, hwritten, hx⟩ := Binary64.exists_written_realLiteral hnumber
      refine readLiteral?_number (isNumber_real hnumber) hrest ?_
      rw [literalChars, htext, readNumber?, readInt?_written hwritten,
        Binary64.read?_written hwritten, hx]
      rfl
  | text s =>
    have hread := Quoted.readInside_double '\x27' s.toList rest hquote
    have hchars : (text s).literalChars ++ rest =
        '\x27' :: (Quoted.double '\x27' s.toList ++ '\x27' :: rest) := by
      simp [literalChars, Quoted.quote]
    rw [hchars, readLiteral?, hread, Option.map_some]
    exact congrArg (fun t => some (text t, rest)) String.ofList_toList
  | blob bytes =>
    have hread := Quoted.unquote_quote '\x27' (Hex.encode bytes) rest hquote
    have hchars : (blob bytes).literalChars ++ rest =
        'X' :: (Quoted.quote '\x27' (Hex.encode bytes) ++ rest) := by
      rw [Quoted.quote, Quoted.double_of_notMem (Hex.quote_notMem_encode bytes)]
      rfl
    rw [hchars, readLiteral?, hread, Option.bind_some]
    dsimp only
    rw [Hex.decode_encode]
    rfl

/-- How a literal begins: with the word for null, as a number, or with a quote, in front of which a
blob has a letter. -/
theorem literalChars_cases (v : Value) : v.literalChars = ['N', 'U', 'L', 'L'] ∨
    IsNumber v.literalChars ∨ (∃ inside, v.literalChars = '\x27' :: inside) ∨
      ∃ digits, v.literalChars = 'X' :: digits := by
  cases v with
  | null => exact Or.inl rfl
  | integer i => exact Or.inr (Or.inl (isNumber_integer i))
  | real x =>
    by_cases hnan : x.isNaN = true
    · refine Or.inl ?_
      rw [literalChars, realLiteral, if_pos hnan]
      rfl
    · exact Or.inr (Or.inl (isNumber_real (Bool.eq_false_iff.mpr hnan)))
  | text s => exact Or.inr (Or.inr (Or.inl ⟨_, rfl⟩))
  | blob bytes => exact Or.inr (Or.inr (Or.inr ⟨_, rfl⟩))

/-! ### Whole literals -/

/-- Whether the value is a NaN. -/
def isNaN : Value → Bool
  | real x => x.isNaN
  | _ => false

theorem written_eq_ite (v : Value) : v.written = if v.isNaN then null else v := by
  cases v with
  | real x => rfl
  | _ => rfl

theorem toList_literal (v : Value) : v.literal.toList = v.literalChars := String.toList_ofList

theorem readLiteral?_literal (v : Value) :
    readLiteral? v.literal.toList = some (if v.isNaN then null else v, []) := by
  have hread : readLiteral? (v.literalChars ++ []) = some (v.written, []) :=
    readLiteral?_literalChars v nofun
  rwa [List.append_nil, written_eq_ite, ← toList_literal] at hread

/-- An integer is written without a point and without an exponent. -/
theorem mark_notMem_integer (i : Int64) :
    '.' ∉ (integer i).literalChars ∧ 'e' ∉ (integer i).literalChars := by
  have hmark {c : Char} (hdigit : c.isDigit = false) (hminus : c ≠ '-') :
      c ∉ (integer i).literalChars := by
    rw [literalChars, toList_toString_int, List.mem_append]
    rintro (hsign | hc)
    · unfold signText at hsign
      split_ifs at hsign
      · exact hminus (List.mem_singleton.mp hsign)
      · cases hsign
    · rw [Numeral.isDigit_toDigits c hc] at hdigit
      cases hdigit
  exact ⟨hmark rfl (by decide), hmark rfl (by decide)⟩

/-- A real is written with a point or with an exponent. -/
theorem mark_mem_real {x : Binary64} (h : x.isNaN = false) :
    '.' ∈ (real x).literalChars ∨ 'e' ∈ (real x).literalChars := by
  obtain ⟨text, d, htext, hwritten, -⟩ := Binary64.exists_written_realLiteral h
  rw [literalChars, htext]
  exact hwritten.mark_mem.imp (List.mem_append_right _) (List.mem_append_right _)

/-- **Literals read back.**  The literal of a value is read to its end, as the value itself or, if
it is a NaN, as null.  So values that are no NaNs have the same literal only if they are the same,
and neither is an integer read as a real nor a real as an integer: reals are written with a point or
an exponent, and integers are not. -/
theorem literals_read_back :
    (∀ v : Value, readLiteral? v.literal.toList = some (if v.isNaN then null else v, [])) ∧
      (∀ v w : Value, v.isNaN = false → w.isNaN = false → v.literal = w.literal → v = w) ∧
      (∀ i x rest, readLiteral? (integer i).literal.toList ≠ some (real x, rest) ∧
        readLiteral? (real x).literal.toList ≠ some (integer i, rest)) ∧
      ∀ (i : Int64) (x : Binary64), x.isNaN = false →
        ('.' ∉ (integer i).literal.toList ∧ 'e' ∉ (integer i).literal.toList) ∧
          ('.' ∈ (real x).literal.toList ∨ 'e' ∈ (real x).literal.toList) := by
  refine ⟨readLiteral?_literal, fun v w hv hw h => ?_, fun i x rest => ⟨?_, ?_⟩, fun i x hx => ?_⟩
  · have hread := readLiteral?_literal v
    rw [h, readLiteral?_literal w, hv, hw] at hread
    exact (congrArg Prod.fst (Option.some.inj hread)).symm
  · rw [readLiteral?_literal]
    exact nofun
  · rw [readLiteral?_literal]
    split_ifs <;> exact nofun
  · rw [toList_literal, toList_literal]
    exact ⟨mark_notMem_integer i, mark_mem_real hx⟩

/-- A text with a quote is read back, and the integer one is written otherwise than the real one. -/
theorem literals_read_back_one :
    readLiteral? (text "it's").literal.toList = some (text "it's", []) ∧
      (integer 1).literal ≠ (real (.ofInt 1)).literal ∧
      ('.' ∈ (real (.ofInt 1)).literal.toList ∨ 'e' ∈ (real (.ofInt 1)).literal.toList) := by
  obtain ⟨hread, hinj, -, hmarks⟩ := literals_read_back
  have hone : (Binary64.ofInt 1).isNaN = false := by decide +kernel
  have hne (x : Binary64) : integer 1 ≠ real x := nofun
  exact ⟨hread (text "it's"), fun h => hne _ (hinj (integer 1) (real (.ofInt 1)) rfl hone h),
    (hmarks 1 _ hone).2⟩

end Value

end LiveQuery
