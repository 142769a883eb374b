import LiveQuery.Proofs.History
import LiveQuery.Proofs.Steps

/-!
# Observations are up to date

An observation delivers the results of its query as they were when it was started, and from then on
new results whenever applied actions have changed them.  It does not look at the database by itself:
it fetches when an action arrives that affects the query.  Between the arrival of actions and the
fetch other calls may come, so a fetch may see more than the actions that made it due, and the
actions it has seen too early arrive later.

The invariant of a session is `Session.Follows`.  An action that does not affect the query leaves
its results current, one that does is put into the inbox in the same step in which it is executed,
and steps of the observation keep its last results current.

## Main definitions

* `Session.deliveries`, `Session.snapshots`: the results that an observation delivers.
* `Session.Serves`: what is taken for granted about the engine during some calls.
* `Session.Follows`: the invariant.

## Main results

* `Session.Follows.perform`: every call keeps the invariant.
* `Session.serves_of_explicit`, `Session.serves_of_opened`: where the engine serves.
* `Session.observation_fresh`: what an observation delivers.
-/

namespace LiveQuery

/-! ### Deliveries -/

/-- The results that a call delivers from the observation in a place. -/
def Event.delivered? {ι α : Type} (i : Nat) (e : Event ι α) : Outcome α → Option (List α)
  | .delivery d => if e.call.place? = some i then d.rows? else none
  | _ => none

/-- Calls to others deliver nothing from an observation. -/
theorem Event.delivered?_of_ne {ι α : Type} {i : Nat} {e : Event ι α}
    (hplace : e.call.place? ≠ some i) (out : Outcome α) : e.delivered? i out = none := by
  unfold delivered?
  split
  · exact if_neg hplace
  · rfl

/-- Calls that are no steps of an observation deliver nothing. -/
theorem Event.delivered?_of_quiet {ι α : Type} {i : Nat} {e : Event ι α} {out : Outcome α}
    (h : ∀ d, out ≠ .delivery d) : e.delivered? i out = none := by
  unfold delivered?
  split
  next d => exact absurd rfl (h d)
  next => rfl

namespace Session

variable {ι α : Type} [DecidableEq α]

/-- The results that the observation in a place delivers during some calls, each with the position
of its call.  Positions are counted from a given number. -/
def deliveries (m : Model ι) (i : Nat) (x : Session α) (n : Nat) :
    List (Event ι α) → List (Nat × List α)
  | [] => []
  | e :: rest =>
    (e.delivered? i (x.perform m e).1).toList.map (n, ·) ++
      (x.perform m e).2.deliveries m i (n + 1) rest

/-- The results that the observation in a place delivers during some calls, in their order. -/
def snapshots (m : Model ι) (i : Nat) (x : Session α) (es : List (Event ι α)) : List (List α) :=
  (x.deliveries m i 0 es).map (·.2)

/-- The engine serves a query during some calls: it answers row by row, joins find their rows by
keys, and statements that are executed write what they name. -/
structure Serves (m : Model ι) (q : Query) (x : Session α) (es : List (Event ι α)) : Prop where
  answers : ∀ pre, pre <+: es → (x.run m pre).database.AnswersRowwise q
  keyed : ∀ pre, pre <+: es → (x.run m pre).database.JoinsByKey q
  writes : ∀ pre e, pre ++ [e] <+: es → ∀ moment a,
    e.executed? m ((x.run m pre).perform m e).1 = some (moment, a) →
      (x.run m pre).database.WritesNamed moment a q

/-- The observation in a place is one of a query, it has delivered certain results so far, and its
last results are current. -/
structure Follows (i : Nat) (q : Query) (decode : Row → Except DecodeError α) (first : List α)
    (told : List (List α)) (x : Session α) : Prop where
  placed : i < x.observations.length
  fits : ∀ o, x.observations[i]? = some (some o) →
    (o.query = q ∧ o.decode = decode) ∧ o.Told first told ∧ o.Current x.store

variable {m : Model ι} {x : Session α} {e : Event ι α} {i : Nat} {q : Query}
  {decode : Row → Except DecodeError α} {first : List α} {told : List (List α)}

/-- The session after one more call. -/
theorem run_concat (es : List (Event ι α)) :
    x.run m (es ++ [e]) = ((x.run m es).perform m e).2 := run_append m x es [e]

/-- One more call with a known outcome. -/
theorem perform_eq_of_outcome {es : List (Event ι α)} {out : Outcome α}
    (h : ((x.run m es).perform m e).1 = out) :
    (x.run m es).perform m e = (out, x.run m (es ++ [e])) := by
  rw [run_concat, ← h]

theorem deliveries_concat (n : Nat) (es : List (Event ι α)) :
    x.deliveries m i n (es ++ [e]) = x.deliveries m i n es ++
      (e.delivered? i ((x.run m es).perform m e).1).toList.map (n + es.length, ·) := by
  induction es generalizing x n with
  | nil => exact List.append_nil _
  | cons e' es ih =>
    rw [List.cons_append, deliveries, ih, deliveries, run, List.append_assoc, List.length_cons,
      Nat.add_assoc, Nat.add_comm 1]

theorem snapshots_concat (es : List (Event ι α)) :
    x.snapshots m i (es ++ [e]) =
      x.snapshots m i es ++ (e.delivered? i ((x.run m es).perform m e).1).toList := by
  rw [snapshots, deliveries_concat, List.map_append, List.map_map]
  exact congrArg (x.snapshots m i es ++ ·) (List.map_id _)

/-- No fetch of the observation in a place fails during some calls. -/
def FetchesSucceed (m : Model ι) (i : Nat) (x : Session α) (es : List (Event ι α)) : Prop :=
  ∀ pre e, pre ++ [e] <+: es → e.call.place? = some i →
    ∀ error, ((x.run m pre).perform m e).1 ≠ .delivery (.failed error)

theorem Serves.of_prefix {es es' : List (Event ι α)} (h : x.Serves m q es) (hpre : es' <+: es) :
    x.Serves m q es' where
  answers pre h' := h.answers pre (h'.trans hpre)
  keyed pre h' := h.keyed pre (h'.trans hpre)
  writes pre e h' := h.writes pre e (h'.trans hpre)

theorem FetchesSucceed.of_prefix {es es' : List (Event ι α)} (h : x.FetchesSucceed m i es)
    (hpre : es' <+: es) : x.FetchesSucceed m i es' :=
  fun pre e h' => h pre e (h'.trans hpre)

/-- What holds for some calls and a further one holds for that one alone. -/
theorem Serves.last {es : List (Event ι α)} (h : x.Serves m q (es ++ [e])) :
    (x.run m es).Serves m q [e] where
  answers pre hpre := by
    rw [← run_append]
    exact h.answers _ (List.prefix_append_right_inj es |>.mpr hpre)
  keyed pre hpre := by
    rw [← run_append]
    exact h.keyed _ (List.prefix_append_right_inj es |>.mpr hpre)
  writes pre e' hpre := by
    rw [← run_append]
    refine h.writes _ e' ?_
    rw [List.append_assoc]
    exact List.prefix_append_right_inj es |>.mpr hpre

/-! ### The invariant -/

/-- Results fetched while the engine serves the query are those that it gives. -/
theorem Serves.gives {es : List (Event ι α)} (h : x.Serves m q es) (hresults : q.results ≠ [])
    (hnow : q.nowFree = true) {moment : Binary64} {rows : List α}
    (hrows : Store.results x.database moment q decode = .ok rows) :
    x.database.Gives q decode rows :=
  Database.gives_of_results hresults hnow (h.answers [] List.nil_prefix)
    (h.keyed [] List.nil_prefix) hrows

omit [DecidableEq α] in
/-- The observation in its place may be replaced, or dropped, by another that fits. -/
theorem Follows.set (h : x.Follows i q decode first told) {s : Store}
    {o? : Option (Observation α)} {told' : List (List α)}
    (hfits : ∀ o, o? = some o →
      (o.query = q ∧ o.decode = decode) ∧ o.Told first told' ∧ o.Current s) :
    Follows i q decode first told' ⟨s, x.observations.set i o?⟩ where
  placed := by
    rw [List.length_set]
    exact h.placed
  fits o ho := by
    rw [List.getElem?_set_self h.placed] at ho
    exact hfits o (Option.some.inj ho)

/-- What calls to others do to an observation.  If nothing that affects its query waits after the
call, nothing did before, and the database is as it was or changed by an action that does not affect
the query. -/
theorem Linked.quiet_of_ne (hlinked : x.Linked) (hserves : x.Serves m q [e])
    (hplace : e.call.place? ≠ some i) {o : Observation α}
    (ho : x.observations[i]? = some (some o))
    (hquiet : ((x.perform m e).2.store.log.inbox o.subscriber).any
      (fun entry => q.isAffectedBy entry.action) = false) :
    (x.store.log.inbox o.subscriber).any (fun entry => q.isAffectedBy entry.action) = false ∧
      ((x.perform m e).2.database = x.database ∨
        ∃ a, (x.perform m e).2.database = x.database.after e.moment a ∧
          q.isAffectedBy a = false ∧ (x.database.after e.moment a).AnswersRowwise q ∧
          x.database.WritesNamed e.moment a q) := by
  have hmove := move_perform m x e
  obtain ⟨queue, hqueue⟩ := Option.isSome_iff_exists.mp (hlinked.held i o ho)
  have hinbox := hmove.inbox hlinked hqueue fun j o' hj ho' heq =>
    hplace (hlinked.apart i j o o' ho ho' heq ▸ hj)
  rw [Log.inbox, hinbox, Option.getD_some, List.any_append, Bool.or_eq_false_iff] at hquiet
  refine ⟨?_, ?_⟩
  · rw [Log.inbox, hqueue]
    exact hquiet.1
  · rcases hmove.database with ⟨a, effect, hexecuted, -, hexecute, -⟩ | ⟨-, hdb, -⟩
    · have hafter : (x.perform m e).2.database = x.database.after e.moment a := by
        rw [Database.after, hexecute]
      have haffected : q.isAffectedBy a = false := by
        simpa [hexecuted, Entry.numbered] using hquiet.2
      have hanswers := hserves.answers [e] (List.prefix_refl _)
      have hwrites := hserves.writes [] e (List.prefix_refl _) e.moment a hexecuted
      exact Or.inr ⟨a, hafter, haffected, hafter ▸ hanswers, hwrites⟩
    · exact Or.inl hdb

/-- **Calls to others** keep the invariant: an action that they execute waits in the inbox, or it
does not affect the query. -/
theorem Follows.perform_of_ne (h : x.Follows i q decode first told) (hlinked : x.Linked)
    (hresults : q.results ≠ []) (hnow : q.nowFree = true) (hserves : x.Serves m q [e])
    (hplace : e.call.place? ≠ some i) :
    (x.perform m e).2.Follows i q decode first told := by
  have hmove := move_perform m x e
  have hsame := hmove.observation_of_ne h.placed hplace
  refine ⟨Nat.lt_of_lt_of_le h.placed hmove.length_le, fun o ho => ?_⟩
  rw [hsame] at ho
  obtain ⟨⟨rfl, rfl⟩, htold, hcurrent⟩ := h.fits o ho
  refine ⟨⟨rfl, rfl⟩, htold, fun hphase hquiet => ?_⟩
  obtain ⟨hbefore, hdb⟩ := hlinked.quiet_of_ne hserves hplace ho hquiet
  have hgives : x.database.Gives o.query o.decode o.last := hcurrent hphase hbefore
  rcases hdb with hdb | ⟨a, hdb, haffected, hanswers, hwrites⟩
  · rw [← hdb] at hgives
    exact hgives
  · have hkept := hgives.after hresults hnow haffected (hserves.answers [] List.nil_prefix) hanswers
      (hserves.keyed [] List.nil_prefix) hwrites
    rwa [← hdb] at hkept

/-- **Calls to the observation** keep the invariant, and what they deliver continues what was
delivered before. -/
theorem Follows.perform_of_eq (h : x.Follows i q decode first told)
    (hresults : q.results ≠ []) (hnow : q.nowFree = true) (hserves : x.Serves m q [e])
    (hplace : e.call.place? = some i)
    (hfetch : ∀ error, (x.perform m e).1 ≠ .delivery (.failed error)) :
    (x.perform m e).2.Follows i q decode first
        (told ++ (e.delivered? i (x.perform m e).1).toList) ∧
      ∀ rows, e.delivered? i (x.perform m e).1 = some rows →
        x.database.Continues e.moment q decode first told rows := by
  have hmove := move_perform m x e
  generalize (x.perform m e).1 = out at hmove hfetch ⊢
  generalize (x.perform m e).2 = x' at hmove ⊢
  rcases hmove.of_place? hplace with ⟨rfl, hquiet⟩ | ⟨o, count, ho, rfl, rfl⟩ | ⟨o, -, rfl, rfl⟩
  · rw [Event.delivered?_of_quiet hquiet, Option.toList_none, List.append_nil]
    exact ⟨h, nofun⟩
  · have hdelivered : e.delivered? i (.delivery (o.steps e.moment count x.store).1) =
        (o.steps e.moment count x.store).1.rows? := if_pos hplace
    rw [hdelivered]
    obtain ⟨⟨rfl, rfl⟩, htold, hcurrent⟩ := h.fits o ho
    obtain ⟨htold', hnext⟩ := (o.steps_brings e.moment count x.store).told htold
    have hsame := (o.steps_sameBut e.moment count x.store).1
    have hcurrent' := Observation.steps_current hcurrent
      (fun rows hrows => hserves.gives hresults hnow hrows)
      fun error herror => hfetch error (congrArg Outcome.delivery herror)
    refine ⟨h.set fun o' ho' => ?_, hnext⟩
    obtain rfl := Option.some.inj ho'
    exact ⟨⟨hsame.query, hsame.decode⟩, htold', hcurrent'⟩
  · exact ⟨h.set nofun, nofun⟩

/-- **Every call keeps the invariant.** -/
theorem Follows.perform (h : x.Follows i q decode first told) (hlinked : x.Linked)
    (hresults : q.results ≠ []) (hnow : q.nowFree = true) (hserves : x.Serves m q [e])
    (hfetch : e.call.place? = some i → ∀ error, (x.perform m e).1 ≠ .delivery (.failed error)) :
    (x.perform m e).2.Follows i q decode first
        (told ++ (e.delivered? i (x.perform m e).1).toList) ∧
      ∀ rows, e.delivered? i (x.perform m e).1 = some rows →
        x.database.Continues e.moment q decode first told rows := by
  by_cases hplace : e.call.place? = some i
  · exact h.perform_of_eq hresults hnow hserves hplace (hfetch hplace)
  · rw [Event.delivered?_of_ne hplace, Option.toList_none, List.append_nil]
    exact ⟨h.perform_of_ne hlinked hresults hnow hserves hplace, nofun⟩

/-! ### Runs -/

/-- The invariant holds after any calls, with what was delivered meanwhile. -/
theorem Follows.run (h : x.Follows i q decode first []) (hlinked : x.Linked)
    (hresults : q.results ≠ []) (hnow : q.nowFree = true) {es : List (Event ι α)}
    (hserves : x.Serves m q es) (hfetch : x.FetchesSucceed m i es) :
    (x.run m es).Follows i q decode first (x.snapshots m i es) := by
  induction es using List.reverseRecOn with
  | nil => exact h
  | append_singleton es e ih =>
    have hshort : es <+: es ++ [e] := List.prefix_append es [e]
    have hbefore := ih (hserves.of_prefix hshort) (hfetch.of_prefix hshort)
    rw [run_concat, snapshots_concat]
    exact (hbefore.perform (linked_run m hlinked es) hresults hnow hserves.last
      (hfetch es e (List.prefix_refl _))).1

/-- Everything delivered during some calls continues what was delivered before. -/
def Continuing (m : Model ι) (i : Nat) (q : Query) (decode : Row → Except DecodeError α)
    (first : List α) (x : Session α) (es : List (Event ι α)) : Prop :=
  ∀ pre e, pre ++ [e] <+: es → ∀ rows, e.delivered? i ((x.run m pre).perform m e).1 = some rows →
    (x.run m pre).database.Continues e.moment q decode first (x.snapshots m i pre) rows

theorem Follows.continuing (h : x.Follows i q decode first []) (hlinked : x.Linked)
    (hresults : q.results ≠ []) (hnow : q.nowFree = true) {es : List (Event ι α)}
    (hserves : x.Serves m q es) (hfetch : x.FetchesSucceed m i es) :
    x.Continuing m i q decode first es := by
  intro pre e hpre
  have hshort : pre <+: es := (List.prefix_append pre [e]).trans hpre
  have hbefore := h.run hlinked hresults hnow (hserves.of_prefix hshort) (hfetch.of_prefix hshort)
  exact (hbefore.perform (linked_run m hlinked pre) hresults hnow (hserves.of_prefix hpre).last
    (hfetch pre e hpre)).2

theorem Continuing.init {es : List (Event ι α)} (h : x.Continuing m i q decode first (es ++ [e])) :
    x.Continuing m i q decode first es :=
  fun pre e' hpre => h pre e' (hpre.trans (List.prefix_append es [e]))

/-- The first results are delivered first. -/
theorem Continuing.head {es : List (Event ι α)} (h : x.Continuing m i q decode first es) :
    ∀ rows ∈ (x.snapshots m i es).head?, rows = first := by
  induction es using List.reverseRecOn with
  | nil => exact nofun
  | append_singleton es e ih =>
    intro rows hrows
    rw [snapshots_concat, List.head?_append, Option.mem_def, Option.or_eq_some_iff] at hrows
    rcases hrows with hrows | ⟨hnone, hrows⟩
    · exact ih h.init rows hrows
    · have hdelivered : e.delivered? i ((x.run m es).perform m e).1 = some rows := by
        simpa using hrows
      rcases h es e (List.prefix_refl _) rows hdelivered with ⟨-, hfirst⟩ | ⟨last, hlast, -⟩
      · exact hfirst
      · rw [List.head?_eq_none_iff.mp hnone] at hlast
        cases hlast

/-- Equal results are not delivered twice in a row. -/
theorem Continuing.isChain {es : List (Event ι α)} (h : x.Continuing m i q decode first es) :
    (x.snapshots m i es).IsChain (· ≠ ·) := by
  induction es using List.reverseRecOn with
  | nil => exact List.IsChain.nil
  | append_singleton es e ih =>
    rw [snapshots_concat]
    cases hdelivered : e.delivered? i ((x.run m es).perform m e).1 with
    | none => simpa using ih h.init
    | some rows =>
      rw [Option.toList_some, List.isChain_append]
      refine ⟨ih h.init, List.isChain_singleton rows, fun last hlast rows' hrows' => ?_⟩
      obtain rfl : rows = rows' := Option.some.inj hrows'
      rcases h es e (List.prefix_refl _) rows hdelivered with ⟨hnil, -⟩ | ⟨last', hlast', hne, -⟩
      · rw [hnil] at hlast
        cases hlast
      · obtain rfl := Option.some.inj (hlast'.symm.trans hlast)
        exact hne.symm

/-- A delivery gives the results as they were after so many calls, and not later than it came. -/
def FetchedAfter (m : Model ι) (q : Query) (decode : Row → Except DecodeError α) (x : Session α)
    (es : List (Event ι α)) (t : Nat) (d : Nat × List α) : Prop :=
  t ≤ d.1 ∧ d.1 < es.length ∧
    ∃ moment, Store.results (x.run m (es.take t)).database moment q decode = .ok d.2

theorem FetchedAfter.concat {es : List (Event ι α)} {t : Nat} {d : Nat × List α}
    (h : x.FetchedAfter m q decode es t d) : x.FetchedAfter m q decode (es ++ [e]) t d := by
  obtain ⟨hle, hlt, hresults⟩ := h
  refine ⟨hle, ?_, ?_⟩
  · rw [List.length_append]
    exact Nat.lt_add_right [e].length hlt
  · rw [List.take_append_of_le_length (hle.trans hlt.le)]
    exact hresults

/-- What is delivered by the last call was fetched then, or it is the first results. -/
theorem Continuing.fetchedAfter {es : List (Event ι α)}
    (h : x.Continuing m i q decode first (es ++ [e])) {moment : Binary64}
    (hfirst : Store.results x.database moment q decode = .ok first) {rows : List α}
    (hrows : e.delivered? i ((x.run m es).perform m e).1 = some rows) :
    ∃ t, (x.deliveries m i 0 es = [] ∨ t = es.length) ∧
      x.FetchedAfter m q decode (es ++ [e]) t (es.length, rows) := by
  have hlt : es.length < (es ++ [e]).length := by
    rw [List.length_append]
    exact Nat.lt_succ_self _
  rcases h es e (List.prefix_refl _) rows hrows with ⟨hnil, rfl⟩ | ⟨last, -, -, hresults⟩
  · exact ⟨0, Or.inl (List.map_eq_nil_iff.mp hnil), Nat.zero_le _, hlt, moment, hfirst⟩
  · refine ⟨es.length, Or.inr rfl, Nat.le_refl _, hlt, e.moment, ?_⟩
    rw [List.take_left]
    exact hresults

/-- Everything delivered was fetched at some time, and these times do not go backwards. -/
theorem Continuing.times {es : List (Event ι α)} (h : x.Continuing m i q decode first es)
    {moment : Binary64} (hfirst : Store.results x.database moment q decode = .ok first) :
    ∃ times : List Nat, times.Pairwise (· ≤ ·) ∧
      List.Forall₂ (x.FetchedAfter m q decode es) times (x.deliveries m i 0 es) := by
  induction es using List.reverseRecOn with
  | nil => exact ⟨[], List.Pairwise.nil, List.Forall₂.nil⟩
  | append_singleton es e ih =>
    obtain ⟨times, hsorted, hall⟩ := ih h.init
    have hkept : List.Forall₂ (x.FetchedAfter m q decode (es ++ [e])) times
        (x.deliveries m i 0 es) := hall.imp fun t d => FetchedAfter.concat
    rw [deliveries_concat, Nat.zero_add]
    cases hdelivered : e.delivered? i ((x.run m es).perform m e).1 with
    | none => exact ⟨times, hsorted, by simpa using hkept⟩
    | some rows =>
      obtain ⟨t, ht, hfetched⟩ := h.fetchedAfter hfirst hdelivered
      refine ⟨times ++ [t], ?_, List.rel_append hkept (List.Forall₂.cons hfetched .nil)⟩
      rcases ht with hnil | rfl
      · rw [hnil, List.forall₂_nil_right_iff] at hall
        rw [hall]
        exact List.pairwise_singleton _ t
      · refine List.pairwise_append.mpr ⟨hsorted, List.pairwise_singleton _ _, ?_⟩
        have hearlier : ∀ t ∈ times, t ≤ es.length :=
          ((List.forall₂_and_left times _).mp (hall.imp fun t d hd =>
            ⟨hd.1.trans hd.2.1.le, hd⟩)).1
        intro t ht t' ht'
        rw [List.mem_singleton.mp ht']
        exact hearlier t ht

/-- Nothing is pending before the inbox of the observation is empty. -/
theorem Move.pending {x' : Session α} {out : Outcome α} (hmove : Move m x e out x')
    (hplace : e.call.place? = some i) (hpending : out = .delivery .pending) :
    ∃ o, x'.observations[i]? = some (some o) ∧ o.phase = .waiting ∧
      x'.store.log.inbox o.subscriber = [] := by
  rcases hmove.of_place? hplace with ⟨-, hquiet⟩ | ⟨o, count, ho, rfl, rfl⟩ | ⟨o, -, rfl, -⟩
  · exact absurd hpending (hquiet _)
  · have hsteps := Observation.steps_pending (Outcome.delivery.inj hpending)
    refine ⟨(o.steps e.moment count x.store).2.1, ?_, hsteps.1, hsteps.2⟩
    exact List.getElem?_set_self (List.getElem?_eq_some_iff.mp ho).1
  · cases hpending

omit [DecidableEq α] in
/-- While the inbox of an observation is empty, what it delivered last is what its query gives. -/
theorem Follows.gives (h : x.Follows i q decode first told) {o : Observation α}
    (ho : x.observations[i]? = some (some o)) (hphase : o.phase = .waiting)
    (hempty : x.store.log.inbox o.subscriber = []) :
    ∃ last, told.getLast? = some last ∧ x.database.Gives q decode last := by
  obtain ⟨⟨rfl, rfl⟩, htold, hcurrent⟩ := h.fits o ho
  refine ⟨o.last, htold.last (by rw [hphase]; exact nofun), hcurrent (Or.inr hphase) ?_⟩
  rw [hempty]
  rfl

/-! ### Started observations -/

/-- A new observation stands in its place with the results of now, and delivers nothing yet. -/
theorem observing_eq {root : ι} {request : Request} {moment : Binary64} {x' : Session α}
    (hcompile : request.compile m root = .ok q)
    (hobserve : x.perform m ⟨moment, .observe root request decode⟩ = (.observing i, x')) :
    ∃ first subscriber, Store.results x.database moment q decode = .ok first ∧
      x'.database = x.database ∧
      x'.observations[i]? = some (some ⟨q, decode, subscriber, first, .fresh⟩) := by
  have hmove := move_perform m x ⟨moment, .observe root request decode⟩
  rw [hobserve] at hmove
  cases hmove with
  | still hexecuted hquiet hstarted => exact absurd rfl (hstarted i)
  | @observed root' request' decode' q' rows hcall hopen hcompile' hrows =>
    obtain ⟨rfl, rfl, rfl⟩ := Call.observe.inj hcall
    obtain rfl := Except.ok.inj (hcompile'.symm.trans hcompile)
    exact ⟨rows, x.store.log.subscribe.1, hrows, rfl, List.getElem?_concat_length⟩

/-- A new observation has delivered nothing, and its first results are those of now. -/
theorem follows_observe {root : ι} {request : Request} {moment : Binary64} {x' : Session α}
    (hresults : q.results ≠ []) (hnow : q.nowFree = true)
    (hcompile : request.compile m root = .ok q)
    (hobserve : x.perform m ⟨moment, .observe root request decode⟩ = (.observing i, x'))
    (hserves : x'.Serves m q []) :
    ∃ first, Store.results x.database moment q decode = .ok first ∧ x'.database = x.database ∧
      x'.Follows i q decode first [] := by
  obtain ⟨first, subscriber, hrows, hdb, hself⟩ := observing_eq hcompile hobserve
  refine ⟨first, hrows, hdb, (List.getElem?_eq_some_iff.mp hself).1, fun o ho => ?_⟩
  obtain rfl := Option.some.inj (Option.some.inj (hself.symm.trans ho))
  refine ⟨⟨rfl, rfl⟩, ⟨fun _ => ⟨rfl, rfl⟩, fun hphase => absurd rfl hphase⟩, fun _ _ => ?_⟩
  rw [← hdb] at hrows
  exact hserves.gives hresults hnow hrows

/-! ### Where the assumptions hold -/

theorem numbered_ensureTable {entity : ι} {db db' : Database} (hnum : db.Numbered)
    (h : Store.ensureTable m db entity = .ok db') : db'.Numbered := by
  simp only [Store.ensureTable] at h
  split at h
  next => cases h
  next declared _ =>
    split at h
    next => cases h
    next =>
      split at h
      next hcreate =>
        obtain rfl := Except.ok.inj h
        exact Database.createTable_numbered hnum hcreate
      next => cases h
    next found _ =>
      split at h
      next =>
        obtain rfl := Except.ok.inj h
        exact hnum
      next => cases h

/-- Opening a database keeps row numbers in their columns. -/
theorem numbered_ensureTables {entities : List ι} {db db' : Database} (hnum : db.Numbered)
    (h : Store.ensureTables m db entities = .ok db') : db'.Numbered := by
  induction entities generalizing db with
  | nil =>
    obtain rfl := Except.ok.inj h
    exact hnum
  | cons entity rest ih =>
    simp only [Store.ensureTables] at h
    split at h
    next db₁ hfirst => exact ih (numbered_ensureTable hnum hfirst) h
    next => cases h

theorem numbered_open? {entities : List ι} {db opened : Database} {s : Store} (hnum : db.Numbered)
    (h : Store.open? m entities db = (.ok s, opened)) : s.database.Numbered := by
  simp only [Store.open?] at h
  split at h
  next db' hdb =>
    obtain rfl := Except.ok.inj (Prod.mk.inj h).1
    exact numbered_ensureTables hnum hdb
  next => cases (Prod.mk.inj h).1

/-- So do any calls, and the tables stay the same up to their rows. -/
theorem schema_run (hnum : x.database.Numbered) (es : List (Event ι α)) :
    (x.run m es).database.Numbered ∧ x.database.SameSchema (x.run m es).database := by
  induction es generalizing x with
  | nil => exact ⟨hnum, Database.SameSchema.refl _⟩
  | cons e es ih =>
    rcases (move_perform m x e).database with ⟨a, effect, -, -, hexecute, -⟩ | ⟨-, hdb, -⟩
    · have hrest := ih (Database.execute_numbered hexecute hnum)
      exact ⟨hrest.1, (Database.execute_sameSchema hexecute).trans hrest.2⟩
    · have hrest := ih (x := (x.perform m e).2) (hdb ▸ hnum)
      rw [hdb] at hrest
      exact hrest

/-- The engine serves queries without aggregates over tables that are told apart, as long as joins
are by keys and actions name all that they write. -/
theorem serves_of_explicit (hresults : q.results ≠ []) (hscalar : q.scalar = true)
    (hapart : NamesApart (· ∈ q.tables)) (hnum : x.database.Numbered) {es : List (Event ι α)}
    (hkeys : ∀ pre, pre <+: es → (x.run m pre).database.JoinsByKey q)
    (hexplicit : ∀ e ∈ es, ∀ a ∈ e.call.action? m, a.Explicit x.database q) :
    x.Serves m q es where
  answers pre _ := (x.run m pre).database.answersRowwise hresults hscalar hapart
  keyed := hkeys
  writes pre e hpre moment a hexecuted := by
    obtain ⟨hnum', hschema⟩ := schema_run (m := m) hnum pre
    have he : e ∈ es := hpre.subset (List.mem_append_right pre (List.mem_singleton_self e))
    have haction : e.call.action? m = some a := by
      unfold Event.executed? at hexecuted
      split at hexecuted
      · obtain ⟨a', ha', heq⟩ := Option.map_eq_some_iff.mp hexecuted
        rw [ha', (Prod.mk.inj heq).2]
      · cases hexecuted
    exact Database.writesNamed hnum' ((hexplicit e he a haction).congr hschema) moment

/-- So it does after any calls to a store that was opened on an empty database. -/
theorem serves_of_opened {entities : List ι} {opened : Database} {s : Store}
    (hopen : Store.open? m entities .empty = (.ok s, opened)) {before es : List (Event ι α)}
    (hsession : (start s).run m before = x) (hresults : q.results ≠ [])
    (hscalar : q.scalar = true) (hapart : NamesApart (· ∈ q.tables))
    (hkeys : ∀ pre ∈ es.inits, (x.run m pre).database.JoinsByKey q)
    (hexplicit : ∀ e ∈ es, ∀ a ∈ e.call.action? m, a.Explicit x.database q) :
    x.Serves m q es := by
  have hstart : (start s : Session α).database.Numbered :=
    numbered_open? Database.numbered_empty hopen
  have hnum := (schema_run (m := m) hstart before).1
  rw [hsession] at hnum
  exact serves_of_explicit hresults hscalar hapart hnum
    (fun pre hpre => hkeys pre ((List.mem_inits _ _).mpr hpre)) hexplicit

/-- Asks for the texts of the notes. -/
def texts : Request := ⟨[⟨some "text", .path (.property "text")⟩], [], []⟩

/-- The query of this request.  It has no joins. -/
def textsQuery : Query := ⟨[⟨.column ⟨"Note", "text"⟩, some "text"⟩], [], []⟩

/-- The engine serves this query if the actions name what they write. -/
theorem serves_textsQuery {entities : List ι} {opened : Database} {s : Store}
    (hopen : Store.open? m entities .empty = (.ok s, opened)) {before es : List (Event ι α)}
    (hsession : (start s).run m before = x)
    (hexplicit : ∀ e ∈ es, ∀ a ∈ e.call.action? m, a.Explicit x.database textsQuery) :
    x.Serves m textsQuery es :=
  serves_of_opened hopen hsession (by decide) (by decide)
    (namesApart_of_toList (by decide) (by decide))
    (fun _ _ => Database.joinsByKey_of_joinKeys_eq_nil _ (by decide)) hexplicit

/-- Whether a fetch of an observation failed. -/
def failedFetch (out : Outcome α) : Bool :=
  match out with
  | .delivery (.failed _) => true
  | _ => false

/-- That fetches succeed can be computed call by call. -/
theorem fetchesSucceed_of_inits {es : List (Event ι α)} (h : ∀ pre ∈ es.inits, ∀ e ∈ pre.getLast?,
    failedFetch ((x.run m pre.dropLast).perform m e).1 = false) : x.FetchesSucceed m i es := by
  intro pre e hpre _ error herror
  have hcall := h (pre ++ [e]) ((List.mem_inits _ _).mpr hpre) e (by simp)
  rw [List.dropLast_concat, herror] at hcall
  cases hcall

/-! ### Freshness -/

/-- **Observations are up to date.**  Let an observation of a request that selects something and
does not ask for the moment be started on an opened store, after any calls and before any calls.  As
long as its fetches succeed, it delivers what a fetch gave when it was started first; it does not
deliver equal results twice in a row; everything it delivers is what a fetch gave at some time, and
these times do not go backwards; and when it has nothing to say until actions arrive, what it
delivered last is what a fetch would give, up to the order of rows. -/
theorem observation_fresh {entities : List ι} {db opened : Database} {s : Store}
    (hopen : Store.open? m entities db = (.ok s, opened)) (before : List (Event ι α))
    {root : ι} {request : Request} {moment : Binary64} (hselection : request.selection ≠ [])
    (hcompile : request.compile m root = .ok q) (hnow : q.nowFree = true)
    (hobserve : ((start s).run m before).perform m ⟨moment, .observe root request decode⟩ =
      (.observing i, x)) (es : List (Event ι α))
    (hserves : x.Serves m q es) (hfetch : x.FetchesSucceed m i es) :
    (∀ rows ∈ (x.snapshots m i es).head?,
      ((start s).run m before).store.fetch m root moment request decode = .ok rows) ∧
      (x.snapshots m i es).IsChain (· ≠ ·) ∧
      (∃ times : List Nat, times.Pairwise (· ≤ ·) ∧ List.Forall₂
        (fun t d => t ≤ d.1 ∧ ∃ moment,
          (x.run m (es.take t)).store.fetch m root moment request decode = .ok d.2)
        times (x.deliveries m i 0 es)) ∧
      ∀ pre e, pre ++ [e] <+: es → e.call.place? = some i →
        ((x.run m pre).perform m e).1 = .delivery .pending →
          ∃ last, (x.snapshots m i (pre ++ [e])).getLast? = some last ∧ ∀ moment, ∃ rows,
            (x.run m (pre ++ [e])).store.fetch m root moment request decode = .ok rows ∧
              rows.Perm last := by
  obtain rfl := open?_eq_ok hopen
  have hresults := Request.results_ne_nil hselection hcompile
  have hlinked : x.Linked := by
    have hbefore := linked_run m (linked_start (α := α) (s := ⟨opened, ∅⟩) Log.wired_empty) before
    have hafter := linked_perform m hbefore ⟨moment, .observe root request decode⟩
    rwa [hobserve] at hafter
  obtain ⟨first, hfirst, hdb, hfollows⟩ := follows_observe hresults hnow hcompile hobserve
    (hserves.of_prefix List.nil_prefix)
  have hcontinuing := hfollows.continuing hlinked hresults hnow hserves hfetch
  have hfetch_eq := fun s moment => Store.fetch_eq hcompile s moment decode
  refine ⟨fun rows hrows => ?_, hcontinuing.isChain, ?_, fun pre e hpre hplace hpending => ?_⟩
  · rw [hcontinuing.head rows hrows, hfetch_eq]
    exact hfirst
  · have hfirst' : Store.results x.database moment q decode = .ok first := by rw [hdb, hfirst]
    obtain ⟨times, hsorted, hall⟩ := hcontinuing.times hfirst'
    refine ⟨times, hsorted, hall.imp fun t d ⟨hle, _, moment, hfetched⟩ => ⟨hle, moment, ?_⟩⟩
    rw [hfetch_eq]
    exact hfetched
  · have hafter := hfollows.run hlinked hresults hnow (hserves.of_prefix hpre)
      (hfetch.of_prefix hpre)
    obtain ⟨o, ho, hphase, hempty⟩ := (move_perform m (x.run m pre) e).pending hplace hpending
    rw [← run_concat] at ho hempty
    obtain ⟨last, hlast, hgives⟩ := hafter.gives ho hphase hempty
    refine ⟨last, hlast, fun moment => ?_⟩
    rw [hfetch_eq]
    exact hgives moment

/-! ### An example -/

/-- Books `B` by authors `A`, who sign with a name.  Identifiers are texts. -/
def library : Model Bool
  | true => ⟨"B", "id", [.value "id" .text, .toOne "by" false]⟩
  | false => ⟨"A", "id", [.value "id" .text, .value "as" .text]⟩

/-- Asks for the names with which the authors of the books sign. -/
def signatures : Request := ⟨[⟨some "as", .path (.through "by" (.property "as"))⟩], [], []⟩

/-- The query of this request. -/
def signaturesQuery : Query :=
  ⟨[⟨.join ⟨"B", "by"⟩ ⟨"A", "id"⟩ (.column ⟨"A", "as"⟩), some "as"⟩], [], []⟩

/-- Assigns a text to a property. -/
def textChange (property text : String) : Change :=
  .assign (.property property) (.literal (.text text))

/-- Inserts a row with an identifier and a further text. -/
def record (moment : Int) (entity : Bool) (id property text : String) : Event Bool Row :=
  ⟨.ofInt moment, .insert entity noIdentifier
    (.ofChanges library entity [textChange "id" id, textChange property text])⟩

/-- Assigns a text to the row with an identifier. -/
def revise (moment : Int) (entity : Bool) (id property text : String) : Event Bool Row :=
  ⟨.ofInt moment, .update entity
    (some (.binary .equal (.path (.property "id")) (.literal (.text id))))
    (.ofChanges library entity [textChange property text])⟩

/-- A store for a library, which is empty. -/
def shelves : Store := ⟨(Store.open? library [false, true] .empty).2, ∅⟩

/-- Authors with the identifiers `1` and `01` are recorded, and a book by the second of them. -/
def recorded : List (Event Bool Row) :=
  [record 1 false "1" "as" "A", record 2 false "01" "as" "B", record 3 true "X" "by" "01"]

/-- Starts an observation of the names. -/
def observeSignatures : Event Bool Row := ⟨.ofInt 4, .observe true signatures .ok⟩

/-- The session in which it is started. -/
def reading : Session Row := (start shelves).run library (recorded ++ [observeSignatures])

/-- The name of the author is changed twice, the second time between the arrival of the first change
and the fetch.  Then an identifier is used again in vain, and that of the book changes, which was
not asked for. -/
def readingCalls : List (Event Bool Row) :=
  [⟨.ofInt 5, .advance 0 4⟩, revise 6 false "01" "as" "C", ⟨.ofInt 7, .advance 0 1⟩,
    revise 8 false "01" "as" "D", ⟨.ofInt 9, .advance 0 1⟩, record 10 false "1" "as" "E",
    revise 11 true "X" "id" "Y"]

/-- A poll after these calls. -/
def lastPoll : Event Bool Row := ⟨.ofInt 12, .advance 0 4⟩

/-- The row that tells the name of an author. -/
def signature (name : String) : Row := .ofList [("as", .text name)]

/-- What can be computed about these calls, together: each state is computed once. -/
theorem computed_reading :
    Store.open? library [false, true] .empty = (.ok shelves, shelves.database) ∧
      signatures.compile library true = .ok signaturesQuery ∧
      (((start shelves).run library recorded).perform library observeSignatures).1 = .observing 0 ∧
      (∀ pre ∈ (readingCalls ++ [lastPoll]).inits,
        (reading.run library pre).database.JoinsByKey signaturesQuery) ∧
      (∀ e ∈ readingCalls ++ [lastPoll], ∀ a ∈ e.call.action? library,
        a.Explicit reading.database signaturesQuery) ∧
      (∀ pre ∈ (readingCalls ++ [lastPoll]).inits, ∀ e ∈ pre.getLast?,
        failedFetch ((reading.run library pre.dropLast).perform library e).1 = false) ∧
      reading.snapshots library 0 (readingCalls ++ [lastPoll]) =
        [[signature "B"], [signature "D"]] ∧
      ((reading.run library readingCalls).perform library lastPoll).1 = .delivery .pending := by
  decide +kernel

/-- The second name is delivered at once, and when the change that was seen too early arrives,
nothing more is delivered. -/
theorem observation_fresh_signatures :
    reading.snapshots library 0 (readingCalls ++ [lastPoll]) = [[signature "B"], [signature "D"]] ∧
      ∀ moment, ∃ rows, (reading.run library (readingCalls ++ [lastPoll])).store.fetch library
        true moment signatures .ok = .ok rows ∧ rows.Perm [signature "D"] := by
  obtain ⟨hopen, hcompile, hobserving, hkeys, hexplicit, hfetches, hsnapshots, hpending⟩ :=
    computed_reading
  have hserves : reading.Serves library signaturesQuery (readingCalls ++ [lastPoll]) :=
    serves_of_opened hopen rfl (by decide) (by decide)
      (namesApart_of_toList (by decide) (by decide)) hkeys hexplicit
  have hobserve : ((start shelves).run library recorded).perform library observeSignatures =
      (.observing 0, reading) := perform_eq_of_outcome hobserving
  obtain ⟨-, -, -, hnow⟩ := observation_fresh hopen recorded (by decide) hcompile (by decide)
    hobserve (readingCalls ++ [lastPoll]) hserves (fetchesSucceed_of_inits hfetches)
  obtain ⟨last, hlast, hfetch⟩ := hnow readingCalls lastPoll (List.prefix_refl _) rfl hpending
  rw [hsnapshots] at hlast
  obtain rfl : [signature "D"] = last := Option.some.inj hlast
  exact ⟨hsnapshots, hfetch⟩

end Session

end LiveQuery
