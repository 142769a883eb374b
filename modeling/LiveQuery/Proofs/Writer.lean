import LiveQuery.Proofs.Outline

/-!
# Writing from left to right

Rendering as one pass with a state: the text so far with the values of its placeholders, a stack of
the joins around the place where the writing goes on, and the number of joins that have begun.  A
join puts itself on the stack before its inner expression and takes itself off again before the end
of its subquery; the name for its source is looked up before and written after that.

This comes to the tokens of the expression, which take the stack and the number as arguments
(`Expr.emits_write`).  In particular an expression leaves the stack as it found it and changes
nothing of what was written before.

## Main definitions

* `Writer`, `Writer.put`: the state, and writing a token.
* `Expr.write`, `Statement.write`: writing expressions and statements.
* `Writer.Emits`: what a piece of writing amounts to.

## Main results

* `Expr.emits_write`, `Statement.write_start`: writing amounts to the tokens.
* `Expr.write_extends`: what an expression leaves as it was.
* `Statement.finish_write_prepared`, `Statement.finish_write_canonical`: the text that is written.
-/

namespace LiveQuery

/-! ### Writers -/

/-- A text that is being written. -/
structure Writer where
  /-- Whether values are written as placeholders. -/
  placeholders : Bool
  /-- The text so far. -/
  text : List Char
  /-- The values of the placeholders so far. -/
  parameters : List Value
  /-- The tables of the joins around, with their aliases, innermost first. -/
  scopes : Scopes
  /-- How many joins have begun. -/
  joins : Nat

namespace Writer

/-- The beginning of a text. -/
def start (placeholders : Bool) : Writer := ⟨placeholders, [], [], [], 0⟩

@[simp] theorem start_scopes (placeholders : Bool) : (start placeholders).scopes = [] := rfl

@[simp] theorem start_joins (placeholders : Bool) : (start placeholders).joins = 0 := rfl

/-- Writes a token. -/
def put (t : Token) (w : Writer) : Writer :=
  if w.placeholders then
    { w with text := w.text ++ t.preparedChars, parameters := w.parameters ++ t.parameter?.toList }
  else { w with text := w.text ++ t.canonicalChars }

/-- Writes some tokens. -/
def putAll (ts : List Token) (w : Writer) : Writer := ts.foldl (fun w t => w.put t) w

/-- Writes some things with commas between them. -/
def list : List (Writer → Writer) → Writer → Writer
  | [], w => w
  | [f], w => f w
  | f :: g :: rest, w => list (g :: rest) ((f w).put (.keyword .comma))

/-- Writes an operand with the brackets and the word around it. -/
def unary (op : UnaryOp) (operand : Writer → Writer) (w : Writer) : Writer :=
  match op with
  | .not => (operand (w.putAll [.keyword .openParen, .keyword .not])).put (.keyword .closeParen)
  | .negate =>
    (operand (w.putAll [.keyword .openParen, .keyword .negate])).put (.keyword .closeParen)
  | .isNull =>
    (operand (w.put (.keyword .openParen))).putAll [.keyword .isNull, .keyword .closeParen]
  | .isNotNull =>
    (operand (w.put (.keyword .openParen))).putAll [.keyword .isNotNull, .keyword .closeParen]

/-- Begins a join to a table. -/
def enter (table : String) (w : Writer) : Writer :=
  { w with joins := w.joins + 1, scopes := (table, joinAlias table (w.joins + 1)) :: w.scopes }

/-- Leaves the innermost join. -/
def leave (w : Writer) : Writer := { w with scopes := w.scopes.tail }

end Writer

/-! ### Writing expressions -/

namespace Expr

mutual

/-- Writes an expression. -/
def write : Expr → Writer → Writer
  | value v, w => w.putAll (valueTokens v)
  | column c, w => w.put (c.token w.scopes)
  | unary op e, w => w.unary op (write e)
  | binary op l r, w =>
    match nullTest? op l r with
    | some (test, true) => w.unary test (write l)
    | some (test, false) => w.unary test (write r)
    | none =>
      (write r ((write l (w.put (.keyword .openParen))).put (.keyword (.operator op)))).put
        (.keyword .closeParen)
  | call .now _, w => w.put (.keyword .now)
  | call f args, w =>
    ((w.put (.keyword (.call f))).list (writeAll args)).put (.keyword .closeParen)
  | join source target inner, w =>
    let outside := source.token w.scopes
    let row := joinAlias target.table (w.joins + 1)
    let w := (w.putAll [.keyword .openParen, .keyword .select]).enter target.table
    let w := (write inner w).putAll
      [.keyword .from, .name target.table, .keyword .as, .name row, .keyword .where]
    let w := (w.put (target.token w.scopes)).leave
    w.putAll [.keyword (.operator .equal), outside, .keyword .closeParen]

/-- How each of some expressions is written. -/
def writeAll : List Expr → List (Writer → Writer)
  | [] => []
  | e :: es => write e :: writeAll es

end

theorem writeAll_eq_map (es : List Expr) : writeAll es = es.map write := by
  induction es with
  | nil => rfl
  | cons e es ih => rw [writeAll, ih, List.map_cons]

theorem write_call {f : Builtin} (hf : f ≠ .now) (args : List Expr) (w : Writer) :
    write (call f args) w =
      ((w.put (.keyword (.call f))).list (writeAll args)).put (.keyword .closeParen) := by
  cases f <;> first | exact absurd rfl hf | rfl

end Expr

/-! ### Writing statements -/

namespace Writer

/-- Writes conditions that all have to hold. -/
def conditions : List Expr → Writer → Writer
  | [], w => w
  | e :: es, w =>
    es.foldl (fun w e => e.write (w.put (.keyword .and))) (e.write (w.put (.keyword .where)))

end Writer

namespace Query

/-- Writes the results. -/
def writeResults (q : Query) (w : Writer) : Writer :=
  if q.results.isEmpty then w.put (.keyword .star)
  else w.list (q.results.map fun r w => ((r.expr.write w).put (.keyword .as)).put (.name r.name))

/-- Writes the root tables. -/
def writeRoots (q : Query) (w : Writer) : Writer :=
  if q.rootTables.isEmpty then w
  else (w.put (.keyword .from)).list (q.rootTables.toList.map fun t => Writer.put (.name t))

/-- Writes the sort keys. -/
def writeOrder (q : Query) (w : Writer) : Writer :=
  if q.order.isEmpty then w
  else
    (w.put (.keyword .orderBy)).list
      (q.order.map fun k w => (k.expr.write w).put (.keyword (.direction k.direction)))

/-- Writes a query. -/
def write (q : Query) (w : Writer) : Writer :=
  q.writeOrder ((q.writeRoots (q.writeResults (w.put (.keyword .select)))).conditions q.predicates)

end Query

/-- Writes an action. -/
def Action.write : Action → Writer → Writer
  | insert table values, w =>
    let w := w.putAll [.keyword .insertInto, .name table]
    if values.isEmpty then w.put (.keyword .defaultValues)
    else
      let w := (w.put (.keyword .columns)).list (values.keys.map fun c => Writer.put (.name c))
      ((w.put (.keyword .values)).list (Expr.writeAll values.values)).put (.keyword .closeParen)
  | update table values predicate, w =>
    let w := w.putAll [.keyword .update, .name table, .keyword .set]
    let w := w.list (values.toList.map fun p w =>
      p.2.write (w.putAll [.name p.1, .keyword (.operator .equal)]))
    w.conditions predicate.toList
  | delete table predicate, w =>
    (w.putAll [.keyword .deleteFrom, .name table]).conditions predicate.toList

/-- Writes a statement. -/
def Statement.write : Statement → Writer → Writer
  | expr e => e.write
  | query q => q.write
  | action a => a.write

/-! ### Writing amounts to tokens -/

namespace Writer

@[simp] theorem put_scopes (t : Token) (w : Writer) : (w.put t).scopes = w.scopes := by
  unfold put
  split <;> rfl

@[simp] theorem put_joins (t : Token) (w : Writer) : (w.put t).joins = w.joins := by
  unfold put
  split <;> rfl

@[simp] theorem putAll_nil (w : Writer) : w.putAll [] = w := rfl

@[simp] theorem putAll_cons (t : Token) (ts : List Token) (w : Writer) :
    w.putAll (t :: ts) = (w.put t).putAll ts := rfl

theorem putAll_append (ts us : List Token) (w : Writer) :
    w.putAll (ts ++ us) = (w.putAll ts).putAll us := List.foldl_append

@[simp] theorem putAll_scopes (ts : List Token) (w : Writer) : (w.putAll ts).scopes = w.scopes := by
  induction ts generalizing w with
  | nil => rfl
  | cons t ts ih => rw [putAll_cons, ih, put_scopes]

@[simp] theorem putAll_joins (ts : List Token) (w : Writer) : (w.putAll ts).joins = w.joins := by
  induction ts generalizing w with
  | nil => rfl
  | cons t ts ih => rw [putAll_cons, ih, put_joins]

/-- A writer that goes on in another place of the statement. -/
def moved (scopes : Scopes) (joins : Nat) (w : Writer) : Writer := { w with scopes, joins }

@[simp] theorem moved_scopes (scopes : Scopes) (n : Nat) (w : Writer) :
    (w.moved scopes n).scopes = scopes := rfl

@[simp] theorem moved_joins (scopes : Scopes) (n : Nat) (w : Writer) :
    (w.moved scopes n).joins = n := rfl

@[simp] theorem moved_moved (scopes scopes' : Scopes) (n n' : Nat) (w : Writer) :
    (w.moved scopes n).moved scopes' n' = w.moved scopes' n' := rfl

/-- Tokens are written alike in every place. -/
@[simp] theorem put_moved (t : Token) (scopes : Scopes) (n : Nat) (w : Writer) :
    (w.moved scopes n).put t = (w.put t).moved scopes n := by
  unfold put moved
  cases w.placeholders <;> rfl

@[simp] theorem putAll_moved (ts : List Token) (scopes : Scopes) (n : Nat) (w : Writer) :
    (w.moved scopes n).putAll ts = (w.putAll ts).moved scopes n := by
  induction ts generalizing w with
  | nil => rfl
  | cons t ts ih => rw [putAll_cons, put_moved, ih, putAll_cons]

theorem enter_eq (table : String) (w : Writer) :
    w.enter table =
      w.moved ((table, joinAlias table (w.joins + 1)) :: w.scopes) (w.joins + 1) := rfl

theorem leave_eq (w : Writer) : w.leave = w.moved w.scopes.tail w.joins := rfl

/-! #### What a piece of writing amounts to -/

/-- A piece of writing amounts to some tokens, which depend on the joins around and on the number
of joins before, and to some joins that have begun and ended. -/
def Emits (f : Writer → Writer) (tokens : Scopes → Nat → List Token) (joins : Nat) : Prop :=
  ∀ w, f w = (w.putAll (tokens w.scopes w.joins)).moved w.scopes (w.joins + joins)

section Emits

variable {f g : Writer → Writer} {ts us : Scopes → Nat → List Token} {n m : Nat}

theorem emits_putAll (ts : List Token) : Emits (putAll ts) (fun _ _ => ts) 0 := by
  intro w
  rw [Nat.add_zero, ← putAll_scopes ts w, ← putAll_joins ts w]
  rfl

theorem emits_put (t : Token) : Emits (put t) (fun _ _ => [t]) 0 := emits_putAll [t]

/-- A token that depends on the place. -/
theorem emits_here (t : Scopes → Token) :
    Emits (fun w => w.put (t w.scopes)) (fun s _ => [t s]) 0 :=
  fun w => emits_put (t w.scopes) w

theorem Emits.congr (h : Emits f ts n) (hf : ∀ w, g w = f w) (hts : ∀ s k, us s k = ts s k)
    (hn : m = n) : Emits g us m := by
  intro w
  rw [hf, hts, hn]
  exact h w

/-- One piece of writing after another. -/
theorem Emits.comp (hf : Emits f ts n) (hg : Emits g us m) :
    Emits (fun w => g (f w)) (fun s k => ts s k ++ us s (k + n)) (n + m) := by
  intro w
  change g (f w) = _
  rw [hf w, hg, moved_scopes, moved_joins, putAll_moved, moved_moved, putAll_append, Nat.add_assoc]

theorem Emits.unary (hf : Emits f ts n) (op : UnaryOp) :
    Emits (Writer.unary op f) (fun s k => Expr.unaryTokens (ts s k) op) n := by
  have around : ∀ before after : List Token,
      Emits (fun w => (f (w.putAll before)).putAll after)
        (fun s k => before ++ ts s k ++ after) n := by
    intro before after
    have h := ((emits_putAll before).comp hf).comp (emits_putAll after)
    rwa [Nat.zero_add, Nat.add_zero] at h
  cases op with
  | not => exact around [.keyword .openParen, .keyword .not] [.keyword .closeParen]
  | negate => exact around [.keyword .openParen, .keyword .negate] [.keyword .closeParen]
  | isNull => exact around [.keyword .openParen] [.keyword .isNull, .keyword .closeParen]
  | isNotNull => exact around [.keyword .openParen] [.keyword .isNotNull, .keyword .closeParen]

/-- Things with commas between them, when each of them has an expression and some text of its
own. -/
theorem Emits.list {ι : Type} (expr : ι → Expr) (around : ι → List Token → List Token)
    {write : ι → Writer → Writer} (items : List ι)
    (h : ∀ i ∈ items, Emits (write i) (fun s k => around i ((expr i).tokens s k)) (expr i).joins) :
    Emits (Writer.list (items.map write))
      (fun s k => Token.separated (List.zipWith around items (Expr.tokensAll s k (items.map expr))))
      (Expr.joinsAll (items.map expr)) := by
  induction items with
  | nil => exact emits_putAll []
  | cons i rest ih =>
    obtain ⟨hi, hrest⟩ := List.forall_mem_cons.mp h
    cases rest with
    | nil => exact hi
    | cons j rest =>
      have hall := (hi.comp (emits_put (.keyword .comma))).comp (ih hrest)
      rw [Nat.add_zero] at hall
      simpa [Writer.list, Token.separated, Expr.tokensAll, Expr.joinsAll] using hall

/-- Names with commas between them. -/
theorem emits_names (names : List String) :
    Emits (Writer.list (names.map fun n => put (.name n)))
      (fun _ _ => Token.separated (names.map fun n => [.name n])) 0 := by
  induction names with
  | nil => exact emits_putAll []
  | cons n rest ih =>
    cases rest with
    | nil => exact emits_put (.name n)
    | cons n' rest =>
      exact ((emits_put (.name n)).comp (emits_put (.keyword .comma))).comp ih

end Emits

end Writer

namespace Expr

open Writer

theorem joins_call {f : Builtin} (hf : f ≠ .now) (args : List Expr) :
    joins (call f args) = joinsAll args := by
  cases f <;> first | exact absurd rfl hf | rfl

theorem joinsAll_append (es es' : List Expr) :
    joinsAll (es ++ es') = joinsAll es + joinsAll es' := by
  induction es with
  | nil => simp [joinsAll]
  | cons e es ih => rw [List.cons_append, joinsAll, joinsAll, ih, Nat.add_assoc]

theorem zipWith_tokensAll (scopes : Scopes) (n : Nat) (es : List Expr) :
    List.zipWith (fun _ ts => ts) es (tokensAll scopes n es) = tokensAll scopes n es := by
  induction es generalizing n with
  | nil => rfl
  | cons e es ih => rw [tokensAll, List.zipWith_cons_cons, ih]

mutual

/-- **Writing an expression amounts to its tokens.**  The joins that it begins it also leaves. -/
theorem emits_write : (e : Expr) → Emits (write e) (fun s k => e.tokens s k) e.joins
  | value v => emits_putAll (valueTokens v)
  | column c => emits_here fun scopes => c.token scopes
  | unary op e => (emits_write e).unary op
  | binary op l r => by
    have hl := emits_write l
    have hr := emits_write r
    rcases htest : nullTest? op l r with _ | ⟨test, onLeft⟩
    · have h := ((((emits_put (.keyword .openParen)).comp hl).comp
        (emits_put (.keyword (.operator op)))).comp hr).comp (emits_put (.keyword .closeParen))
      exact h.congr (fun w => by rw [write, htest]) (fun s k => by simp [tokens, htest])
        (by simp [joins])
    · rcases nullTest?_eq_some htest with ⟨rfl, rfl⟩ | ⟨rfl, rfl⟩
      · exact (hl.unary test).congr (fun w => by rw [write, htest])
          (fun s k => by rw [tokens, htest]) rfl
      · exact (hr.unary test).congr (fun w => by rw [write, htest])
          (fun s k => by rw [tokens, htest]; rfl) (by simp [joins, null])
  | call f args => by
    by_cases hf : f = .now
    · subst hf
      exact emits_put (.keyword .now)
    · have hargs := Emits.list id (fun _ ts => ts) args (emits_writeAll args)
      have h := ((emits_put (.keyword (.call f))).comp hargs).comp
        (emits_put (.keyword .closeParen))
      exact h.congr (fun w => by rw [write_call hf, writeAll_eq_map])
        (fun s k => by simp [tokens_call hf, zipWith_tokensAll]) (by simp [joins_call hf])
  | join source target inner => fun w => by
    simp only [write, tokens, joins, enter_eq, leave_eq, emits_write inner _, putAll_moved,
      put_moved, moved_moved, moved_scopes, moved_joins, putAll_scopes, putAll_joins]
    simp [putAll_append, Nat.add_assoc, Nat.add_comm]

theorem emits_writeAll : (es : List Expr) →
    ∀ e ∈ es, Emits (write e) (fun s k => e.tokens s k) e.joins
  | [] => nofun
  | e :: es => List.forall_mem_cons.mpr ⟨emits_write e, emits_writeAll es⟩

end

end Expr

/-! ### Statements amount to tokens -/

open Writer LiveQuery.Expr

theorem emits_conditions (es : List Expr) :
    Emits (conditions es) (fun s k => Query.conditionTokens (tokensAll s k es)) (joinsAll es) := by
  have hand : ∀ es : List Expr,
      Emits (fun w => es.foldl (fun w e => e.write (w.put (.keyword .and))) w)
        (fun s k => (tokensAll s k es).flatMap fun p => .keyword .and :: p) (joinsAll es) := by
    intro es
    induction es with
    | nil => exact emits_putAll []
    | cons e es ih =>
      have h := ((emits_put (.keyword .and)).comp (emits_write e)).comp ih
      exact h.congr (fun w => rfl) (fun s k => by simp [tokensAll]) (by simp [joinsAll])
  cases es with
  | nil => exact emits_putAll []
  | cons e es =>
    have h := ((emits_put (.keyword .where)).comp (emits_write e)).comp (hand es)
    exact h.congr (fun w => rfl) (fun s k => by simp [tokensAll, Query.conditionTokens])
      (by simp [joinsAll])

namespace Query

theorem emits_results (q : Query) :
    Emits q.writeResults
      (fun s k => if q.results.isEmpty then [.keyword .star] else
        Token.separated <| List.zipWith (fun name expr => expr ++ [.keyword .as, .name name])
          q.names (tokensAll s k (q.results.map ResultColumn.expr)))
      (joinsAll (q.results.map ResultColumn.expr)) := by
  by_cases hempty : q.results.isEmpty
  · exact (emits_put (.keyword .star)).congr (fun w => by rw [writeResults, if_pos hempty])
      (fun s k => by rw [if_pos hempty]) (by rw [List.isEmpty_iff.mp hempty]; rfl)
  · have hall := Emits.list ResultColumn.expr
      (fun r expr => expr ++ [.keyword .as, .name r.name]) q.results fun r _ =>
        (emits_write r.expr).comp (emits_putAll [.keyword .as, .name r.name])
    exact hall.congr (fun w => by rw [writeResults, if_neg hempty]; rfl)
      (fun s k => by rw [if_neg hempty, names, List.zipWith_map_left]) rfl

theorem emits_roots (q : Query) : Emits q.writeRoots (fun _ _ => q.rootTokens) 0 := by
  by_cases hempty : q.rootTables.isEmpty
  · exact (emits_putAll []).congr (fun w => by rw [writeRoots, if_pos hempty]; rfl)
      (fun s k => by rw [rootTokens, if_pos hempty]) rfl
  · exact ((emits_put (.keyword .from)).comp (emits_names q.rootTables.toList)).congr
      (fun w => by rw [writeRoots, if_neg hempty])
      (fun s k => by rw [rootTokens, if_neg hempty]; rfl) rfl

theorem emits_order (q : Query) :
    Emits q.writeOrder (fun s k => orderTokens q.order (tokensAll s k (q.order.map SortKey.expr)))
      (joinsAll (q.order.map SortKey.expr)) := by
  by_cases hempty : q.order.isEmpty
  · exact (emits_putAll []).congr (fun w => by rw [writeOrder, if_pos hempty]; rfl)
      (fun s k => by rw [orderTokens, if_pos hempty]) (by rw [List.isEmpty_iff.mp hempty]; rfl)
  · have hall := Emits.list SortKey.expr
      (fun key expr => expr ++ [.keyword (.direction key.direction)]) q.order fun key _ =>
        (emits_write key.expr).comp (emits_put (.keyword (.direction key.direction)))
    exact ((emits_put (.keyword .orderBy)).comp hall).congr
      (fun w => by rw [writeOrder, if_neg hempty])
      (fun s k => by rw [orderTokens, if_neg hempty]; rfl) (by rw [Nat.zero_add])

theorem write_start (q : Query) (placeholders : Bool) :
    q.write (.start placeholders) =
      ((start placeholders).putAll q.tokens).moved [] (joinsAll q.exprs) := by
  have h := ((((emits_put (.keyword .select)).comp q.emits_results).comp q.emits_roots).comp
    (emits_conditions q.predicates)).comp q.emits_order (.start placeholders)
  simpa [write, tokens, resultTokens, exprs, joinsAll_append, Nat.add_assoc] using h

end Query

namespace Action

theorem write_start (a : Action) (placeholders : Bool) :
    a.write (.start placeholders) =
      ((start placeholders).putAll a.tokens).moved [] (joinsAll (Statement.exprs (.action a))) := by
  cases a with
  | insert table values =>
    have htable := emits_putAll [.keyword .insertInto, .name table]
    by_cases hempty : values.isEmpty
    · have hjoins : joinsAll values.values = 0 := by
        rw [SortedMap.values, List.isEmpty_iff.mp hempty]
        rfl
      have h := htable.comp (emits_put (.keyword .defaultValues)) (.start placeholders)
      simpa [write, tokens, Statement.exprs, hempty, hjoins] using h
    · have hvalues := Emits.list id (fun _ ts => ts) values.values
        (emits_writeAll values.values)
      have h := ((((htable.comp (emits_put (.keyword .columns))).comp
        (emits_names values.keys)).comp (emits_put (.keyword .values))).comp hvalues).comp
        (emits_put (.keyword .closeParen)) (.start placeholders)
      simpa [write, tokens, Statement.exprs, hempty, writeAll_eq_map, zipWith_tokensAll] using h
  | update table values predicate =>
    have hassign : ∀ p ∈ values.toList,
        Emits (fun w => p.2.write (w.putAll [.name p.1, .keyword (.operator .equal)]))
          (fun s k => .name p.1 :: .keyword (.operator .equal) :: p.2.tokens s k) p.2.joins := by
      intro p _
      exact ((emits_putAll _).comp (emits_write p.2)).congr (fun _ => rfl) (fun _ _ => rfl)
        (Nat.zero_add _).symm
    have hvalues := Emits.list Prod.snd
      (fun p expr => .name p.1 :: .keyword (.operator .equal) :: expr) values.toList hassign
    have h := ((emits_putAll [.keyword .update, .name table, .keyword .set]).comp hvalues).comp
      (emits_conditions predicate.toList) (.start placeholders)
    simpa [write, tokens, predicateTokens, Statement.exprs, SortedMap.keys, SortedMap.values,
      List.zipWith_map_left, joinsAll_append] using h
  | delete table predicate =>
    have h := (emits_putAll [.keyword .deleteFrom, .name table]).comp
      (emits_conditions predicate.toList) (.start placeholders)
    simpa [write, tokens, predicateTokens, Statement.exprs] using h

end Action

namespace Statement

/-- **Writing a statement amounts to its tokens.** -/
theorem write_start (s : Statement) (placeholders : Bool) :
    s.write (.start placeholders) =
      ((start placeholders).putAll s.tokens).moved [] (joinsAll s.exprs) := by
  cases s with
  | expr e => simpa [write, tokens, exprs, joinsAll] using emits_write e (.start placeholders)
  | query q => exact q.write_start placeholders
  | action a => exact a.write_start placeholders

end Statement

/-! ### What was written -/

namespace Writer

/-- The text with the values of its placeholders. -/
def finish (w : Writer) : Prepared := ⟨String.ofList w.text, w.parameters⟩

theorem putAll_eq (ts : List Token) (w : Writer) :
    w.putAll ts =
      if w.placeholders then
        { w with
          text := w.text ++ ts.flatMap Token.preparedChars
          parameters := w.parameters ++ ts.filterMap Token.parameter? }
      else { w with text := w.text ++ ts.flatMap Token.canonicalChars } := by
  induction ts generalizing w with
  | nil => cases h : w.placeholders <;> simp [← h]
  | cons t ts ih =>
    rw [putAll_cons, ih]
    cases h : w.placeholders
    · simp [put, h]
    · cases ht : t.parameter? <;> simp [put, h, ht]

theorem prefix_putAll (ts : List Token) (w : Writer) :
    w.text <+: (w.putAll ts).text ∧ w.parameters <+: (w.putAll ts).parameters := by
  rw [putAll_eq]
  split
  · exact ⟨List.prefix_append _ _, List.prefix_append _ _⟩
  · exact ⟨List.prefix_append _ _, List.prefix_refl _⟩

end Writer

/-- **An expression leaves the joins around it as it found them**, and what was written before it
stays. -/
theorem Expr.write_extends (e : Expr) (w : Writer) :
    (e.write w).scopes = w.scopes ∧ w.text <+: (e.write w).text ∧
      w.parameters <+: (e.write w).parameters := by
  rw [emits_write e w]
  exact ⟨rfl, prefix_putAll (e.tokens w.scopes w.joins) w⟩

namespace Statement

/-- The prepared text of a statement. -/
def prepare : Statement → Prepared
  | expr e => e.prepare
  | query q => q.prepare
  | action a => a.prepare

/-- The canonical text of a statement. -/
def canonical (s : Statement) : String := Token.canonical s.tokens

theorem prepare_eq (s : Statement) : s.prepare = Token.prepare s.tokens := by
  cases s <;> rfl

/-- With placeholders, the prepared text is written. -/
theorem finish_write_prepared (s : Statement) : (s.write (.start true)).finish = s.prepare := by
  rw [write_start, putAll_eq, prepare_eq]
  rfl

/-- Without them, the canonical text is. -/
theorem finish_write_canonical (s : Statement) :
    (s.write (.start false)).finish = ⟨s.canonical, []⟩ := by
  rw [write_start, putAll_eq]
  rfl

end Statement

end LiveQuery
