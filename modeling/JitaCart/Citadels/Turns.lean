/- module: JitaCart/Citadels/Turns
   source: backend/crates/worker/src/jobs/csa.rs, backend/crates/worker/src/jobs/citadel_orders.rs
   digest: How often a citadel is walked in vain before a certain character is asked. -/

import JitaCart.Citadels.Access

/-!
Five candidates are asked at a time. Whoever is denied goes behind all others, and
a citadel rests until they may be asked again, so the candidates take turns.
-/

set_option autoImplicit false
set_option relaxedAutoImplicit false

namespace JitaCart.Citadels

open Schema Base.Table Base.Request Base.Select Base.Rota

section Places
variable {x y : Check} {c d : Uuid} {backoff now : Nat}

private theorem place_injective (same : x.place c = y.place d) : c = d := by
  simp only [Check.place, toLex_inj, Prod.mk.injEq] at same
  exact same.2.2

private theorem place_lt_of_rank (h : x.rank < y.rank) : x.place c < y.place d :=
  Prod.Lex.toLex_lt_toLex.mpr (.inl h)

private theorem place_lt_of_checkedAt (rank : x.rank = y.rank)
    (h : nullsFirst x.checkedAt < nullsFirst y.checkedAt) : x.place c < y.place d :=
  Prod.Lex.toLex_lt_toLex.mpr (.inr ⟨rank, Prod.Lex.toLex_lt_toLex.mpr (.inl h)⟩)

private theorem rank_forbidden (h : x.status = .forbidden) : x.rank = 2 := by
  simp [Check.rank, h]

private theorem rank_lt_two (h : x.status ≠ .forbidden) : x.rank < 2 := by
  unfold Check.rank
  cases status : x.status with
  | forbidden => exact absurd status h
  | _ => decide

/-- A denial puts its character behind all that were checked earlier. -/
private theorem place_lt_denied (past : ∀ t ∈ x.checkedAt, t < now) :
    x.place c < (⟨.forbidden, some now⟩ : Check).place d := by
  by_cases denied : x.status = .forbidden
  · refine place_lt_of_checkedAt (rank_forbidden denied) ?_
    cases stamp : x.checkedAt with
    | none => exact WithBot.bot_lt_coe now
    | some t => exact WithBot.coe_lt_coe.mpr (past t stamp)
  · exact place_lt_of_rank (rank_lt_two denied)

private theorem place_lt_of_eligible (hx : x.eligible backoff now = true)
    (hy : y.eligible backoff now = false) : x.place c < y.place d := by
  simp only [Check.eligible, Bool.or_eq_false_iff, decide_eq_false_iff_not, not_not] at hy
  obtain ⟨denied, recent⟩ := hy
  cases stamp : y.checkedAt with
  | none => simp [stamp] at recent
  | some t =>
    simp only [stamp, Option.all_some, decide_eq_false_iff_not] at recent
    simp only [Check.eligible, Bool.or_eq_true, decide_eq_true_eq] at hx
    rcases hx with fine | old
    · exact place_lt_of_rank (rank_forbidden denied ▸ rank_lt_two fine)
    · by_cases also : x.status = .forbidden
      · refine place_lt_of_checkedAt ((rank_forbidden also).trans (rank_forbidden denied).symm) ?_
        rw [stamp]
        cases earlier : x.checkedAt with
        | none => exact WithBot.bot_lt_coe t
        | some t' =>
          simp only [earlier, Option.all_some, decide_eq_true_eq] at old
          have less := Nat.lt_of_add_lt_add_right (old.trans_le (Nat.not_lt.mp recent))
          exact WithBot.coe_lt_coe.mpr less
      · exact place_lt_of_rank (rank_forbidden denied ▸ rank_lt_two also)

private theorem eligible_of_le {later : Nat} (h : x.eligible backoff now = true)
    (le : now ≤ later) :
    x.eligible backoff later = true := by
  simp only [Check.eligible, Bool.or_eq_true, decide_eq_true_eq] at h ⊢
  refine h.imp_right fun old => ?_
  cases stamp : x.checkedAt with
  | none => rfl
  | some t =>
    simp only [stamp, Option.all_some, decide_eq_true_eq] at old ⊢
    omega

end Places

/-- How many denials of the citadel have been written. -/
def denials (m : Uuid) (history : List Note) : Nat :=
  history.countP fun
    | .marked _ m' .forbidden => decide (m' = m)
    | _ => false

/-- How many walks of the citadel have come to an end in vain. -/
def fruitless (m : Uuid) (history : List Note) : Nat :=
  history.countP fun
    | .exhausted m' => decide (m' = m)
    | _ => false

/-- The first of these walks asks somebody, and every later one asks five. -/
def owed : Nat → Nat
  | 0 => 0
  | n + 1 => 5 * n + 1

private theorem owed_succ_le (n : Nat) : owed (n + 1) ≤ owed n + 5 := by
  cases n with
  | zero => simp [owed]
  | succ n => simp only [owed]; omega

section Waiting
variable {P : Type}

def candidates (s : Tables P) (m : Uuid) : List Uuid := s.pool m ORDERS_SCOPE true

def placeOf (s : Tables P) (m c : Uuid) : Nat ×ₗ WithBot Nat ×ₗ Nat :=
  (s.checkOf .market c m).place c

variable (cfg : Config) (m a : Uuid) (pool : List Uuid)

/-- Those left to ask: who is asked before the character comes before it, and either its turn is
coming, or the walk asks enough others. -/
structure Asking (s : Site P) (rest : List Uuid) : Prop where
  nodup : rest.Nodup
  sub : ∀ c ∈ rest, c ∈ pool
  before : ∀ c ∈ rest.takeWhile (fun c => decide (c ≠ a)),
    placeOf s.tables m c < placeOf s.tables m a
  enough : a ∈ rest ∨
    owed (fruitless m s.history + 1) ≤ denials m s.history + rest.length

def StageOk (s : Site P) : Stage → Prop
  | .waiting => fruitless m s.history = 0 ∨
      (s.tables.checkOf .market a m).eligible cfg.backoff s.now = true
  | .asking rest tally => Asking m a pool s rest ∧ tally.transient = 0 ∧
      (rest = [] → 0 < tally.denied)
  | .marking c status rest tally => status = .forbidden ∧ c ≠ a ∧ tally.transient = 0 ∧
      0 < tally.denied ∧ Asking m a pool s (c :: rest)

structure Waits (bound : Nat) (s : Site P) : Prop where
  markets : Keyed MarketRow.id s.tables.markets
  characters : Keyed Character.id s.tables.characters
  members : ∀ c, c ∈ candidates s.tables m ↔ c ∈ pool
  past : ∀ t ∈ (s.tables.checkOf .market a m).checkedAt, t < s.now
  turns : ahead (placeOf s.tables m) pool a + denials m s.history ≤ bound
  paid : owed (fruitless m s.history) ≤ denials m s.history
  known : ∀ w, s.walkOf m = some w → lookup MarketRow.id m s.tables.markets ≠ none
  rested : fruitless m s.history = 0 ∨ ∃ U, s.tables.pause m = some U ∧
    ∀ t ∈ (s.tables.checkOf .market a m).checkedAt, t + cfg.backoff ≤ U
  stage : ∀ w, s.walkOf m = some w → StageOk cfg m a pool s w.stage

/-- Every question about the citadel is denied, and the character is not the one that is asked. -/
def PassesOver (s : Site P) : Event P → Prop
  | .ask m' answer => m' = m → answer = .refused (some 403) ∧
      ∀ w rest tally, s.walkOf m = some w → w.stage ≠ .asking (a :: rest) tally
  | .edit e => ∀ c, c ∈ candidates (e.on s.tables) m ↔ c ∈ candidates s.tables m
  | _ => True

end Waiting

section Frame
variable {P : Type} {cfg : Config} {m a : Uuid} {pool : List Uuid} {bound : Nat} {s s' : Site P}

/-- The walk goes on as before or is gone, and so is all else that concerns the citadel. -/
structure Quiet (m : Uuid) (s s' : Site P) : Prop where
  markets : Keyed MarketRow.id s.tables.markets → Keyed MarketRow.id s'.tables.markets
  characters : Keyed Character.id s.tables.characters → Keyed Character.id s'.tables.characters
  kept : lookup MarketRow.id m s.tables.markets ≠ none →
    lookup MarketRow.id m s'.tables.markets ≠ none
  members : ∀ c, c ∈ candidates s'.tables m ↔ c ∈ candidates s.tables m
  checks : ∀ c, s'.tables.checkOf .market c m = s.tables.checkOf .market c m
  pause : ∀ U, s.tables.pause m = some U → s'.tables.pause m = some U
  denials : denials m s'.history = denials m s.history
  fruitless : fruitless m s'.history = fruitless m s.history
  clock : s.now ≤ s'.now
  stage : ∀ w', s'.walkOf m = some w' → ∃ w, s.walkOf m = some w ∧ w'.stage = w.stage

private theorem Asking.congr {rest : List Uuid} (places : placeOf s'.tables m = placeOf s.tables m)
    (denied : denials m s'.history = denials m s.history)
    (vain : fruitless m s'.history = fruitless m s.history) (h : Asking m a pool s rest) :
    Asking m a pool s' rest := by
  refine ⟨h.nodup, h.sub, ?_, ?_⟩
  · rw [places]
    exact h.before
  · rw [denied, vain]
    exact h.enough

private theorem Quiet.places (q : Quiet m s s') : placeOf s'.tables m = placeOf s.tables m := by
  funext c
  unfold placeOf
  rw [q.checks]

private theorem Waits.quiet (h : Waits cfg m a pool bound s) (q : Quiet m s s') :
    Waits cfg m a pool bound s' := by
  have places := q.places
  constructor
  · exact q.markets h.markets
  · exact q.characters h.characters
  · exact fun c => (q.members c).trans (h.members c)
  · rw [q.checks]
    exact fun t ht => (h.past t ht).trans_le q.clock
  · rw [places, q.denials]
    exact h.turns
  · rw [q.denials, q.fruitless]
    exact h.paid
  · intro w' hw'
    obtain ⟨w, hw, -⟩ := q.stage w' hw'
    exact q.kept (h.known w hw)
  · rw [q.fruitless, q.checks]
    exact h.rested.imp_right fun ⟨U, paused, back⟩ => ⟨U, q.pause U paused, back⟩
  · intro w' hw'
    obtain ⟨w, hw, same⟩ := q.stage w' hw'
    have ok := h.stage w hw
    rw [same]
    cases stage : w.stage with
    | waiting =>
      rw [stage] at ok
      refine ok.imp (fun zero => q.fruitless.trans zero) fun fine => ?_
      rw [q.checks]
      exact eligible_of_le fine q.clock
    | asking rest tally =>
      rw [stage] at ok
      exact ⟨ok.1.congr places q.denials q.fruitless, ok.2⟩
    | marking c status rest tally =>
      rw [stage] at ok
      obtain ⟨denied, other, steady, nonempty, asking⟩ := ok
      exact ⟨denied, other, steady, nonempty, asking.congr places q.denials q.fruitless⟩

/-- The tables that the walk of a citadel reads are the same but for what these columns leave. -/
private theorem quiet_of_tables {t : Tables P} (markets : t.markets = s.tables.markets)
    (characters : t.characters = s.tables.characters)
    (memberships : t.memberships = s.tables.memberships) (tracked : t.tracked = s.tables.tracked)
    (checks : ∀ c, t.checkOf .market c m = s.tables.checkOf .market c m) :
    Quiet m s { s with tables := t } := by
  refine ⟨fun h => markets ▸ h, fun h => characters ▸ h, fun h => markets ▸ h, fun c => ?_, checks,
    fun U h => ?_, rfl, rfl, le_rfl, fun w hw => ⟨w, hw, rfl⟩⟩
  · unfold candidates Tables.pool Tables.tracks
    rw [characters, memberships, tracked]
  · unfold Tables.pause at h ⊢
    rw [markets]
    exact h

private theorem quiet_setMarket {k : Uuid} {f : MarketRow → MarketRow} (id : ∀ r, (f r).id = r.id)
    (same : k = m → ∀ r, (f r).untrackableUntil = r.untrackableUntil) :
    Quiet m s { s with tables := s.tables.setMarket k f } := by
  refine ⟨fun h => Tables.keyed_setMarket id h k, fun h => h, fun h => ?_, fun _ => Iff.rfl,
    fun _ => rfl, fun U h => ?_, rfl, rfl, le_rfl, fun w hw => ⟨w, hw, rfl⟩⟩
  · unfold Tables.setMarket
    simp only
    rw [lookup_updateWhere id]
    simpa using h
  rw [Tables.pause_setMarket id, ← h]
  unfold Tables.pause
  congr 1
  funext r
  split
  · exact same (Eq.symm ‹_›) r
  · rfl

private theorem quiet_same (tables : s'.tables = s.tables)
    (denied : denials m s'.history = denials m s.history)
    (vain : fruitless m s'.history = fruitless m s.history)
    (clock : s.now ≤ s'.now)
    (stage : ∀ w', s'.walkOf m = some w' → ∃ w, s.walkOf m = some w ∧ w'.stage = w.stage) :
    Quiet m s s' := by
  refine ⟨?_, ?_, ?_, ?_, ?_, ?_, denied, vain, clock, stage⟩ <;> rw [tables]
  · exact fun h => h
  · exact fun h => h
  · exact fun h => h
  · exact fun _ => Iff.rfl
  · exact fun _ => rfl
  · exact fun _ h => h

private theorem quiet_walks {walks : List Walk}
    (stage : ∀ w', lookup Walk.marketId m walks = some w' →
      ∃ w, s.walkOf m = some w ∧ w'.stage = w.stage) : Quiet m s { s with walks } :=
  quiet_same rfl rfl rfl le_rfl stage

private theorem quiet_note (note : Note)
    (denied : denials m (note :: s.history) = denials m s.history)
    (vain : fruitless m (note :: s.history) = fruitless m s.history) :
    Quiet m s { s with history := note :: s.history } :=
  quiet_same rfl denied vain le_rfl fun w hw => ⟨w, hw, rfl⟩

private theorem quiet_budget (b : Budget) : Quiet m s { s with budget := b } :=
  quiet_same rfl rfl rfl le_rfl fun w hw => ⟨w, hw, rfl⟩

private theorem quiet_wait (d : Nat) : Quiet m s { s with now := s.now + d } :=
  quiet_same rfl rfl rfl (Nat.le_add_right _ _) fun w hw => ⟨w, hw, rfl⟩

private theorem quiet_setStage {m' : Uuid} (other : m' ≠ m) (stage : Stage) :
    Quiet m s (s.setStage m' stage) := by
  refine quiet_walks fun w hw => ⟨w, ?_, rfl⟩
  have same := s.walkOf_setStage m' m stage
  rw [if_neg (Ne.symm other)] at same
  exact same.symm.trans hw

private theorem quiet_endWalk (m' : Uuid) : Quiet m s (s.endWalk m') := by
  refine quiet_walks fun w hw => ⟨w, ?_, rfl⟩
  have same := s.walkOf_endWalk m' m
  by_cases own : m = m'
  · rw [if_pos own] at same
    cases same.symm.trans hw
  · rw [if_neg own] at same
    exact same.symm.trans hw

private theorem Quiet.trans {s'' : Site P} (q : Quiet m s s') (r : Quiet m s' s'') :
    Quiet m s s'' := by
  refine ⟨fun h => r.markets (q.markets h), fun h => r.characters (q.characters h),
    fun h => r.kept (q.kept h), fun c => (r.members c).trans (q.members c),
    fun c => (r.checks c).trans (q.checks c), fun U h => r.pause U (q.pause U h),
    r.denials.trans q.denials, r.fruitless.trans q.fruitless, q.clock.trans r.clock,
    fun w hw => ?_⟩
  obtain ⟨w', hw', same'⟩ := r.stage w hw
  obtain ⟨w'', hw'', same⟩ := q.stage w' hw'
  exact ⟨w'', hw'', same'.trans same⟩

end Frame

section Steps
variable {P : Type} {cfg : Config} {m a : Uuid} {pool : List Uuid} {bound : Nat} {s s' : Site P}

private theorem Waits.tick {order : OrderBy oldestFirst} (h : Waits cfg m a pool bound s)
    (ok : s.tick cfg order = .ok s') : Waits cfg m a pool bound s' := by
  simp only [Site.tick, bind_eq_ok, require_eq_ok, Except.ok.injEq] at ok
  obtain ⟨-, -, rfl⟩ := ok
  -- A citadel of the tick is due, so it is not paused any more.
  have started (w : Walk) (hw : Site.walkOf
      { s with walks := (s.tables.driverRows cfg order s.now).map fun row => ⟨row, .waiting⟩ } m =
        some w) :
      w.stage = .waiting ∧ ∃ r, lookup MarketRow.id m s.tables.markets = some r ∧
        s.tables.due cfg s.now r = true := by
    obtain ⟨mem, own⟩ := lookup_mem hw
    obtain ⟨row, hrow, rfl⟩ := List.mem_map.mp mem
    obtain ⟨r, hr, rfl⟩ := List.mem_map.mp hrow
    obtain ⟨there, due⟩ := List.mem_filter.mp (mem_of_mem_limit order hr)
    exact ⟨rfl, r, (lookup_eq_some h.markets).mpr ⟨there, own⟩, due⟩
  refine ⟨h.markets, h.characters, h.members, h.past, h.turns, h.paid, fun w hw => ?_, h.rested,
    fun w hw => ?_⟩
  · obtain ⟨-, r, found, -⟩ := started w hw
    simp [found]
  · obtain ⟨waiting, r, found, due⟩ := started w hw
    rw [waiting]
    rcases h.rested with fresh | ⟨U, paused, back⟩
    · exact Or.inl fresh
    refine Or.inr ?_
    have ended : U < s.now := by
      unfold Tables.pause at paused
      rw [found, Option.bind_some] at paused
      simp only [Tables.due, paused, Option.all_some, Bool.and_eq_true, decide_eq_true_eq] at due
      exact due.1.1.1.2
    simp only [Check.eligible, Bool.or_eq_true]
    refine .inr ?_
    cases stamp : (s.tables.checkOf .market a m).checkedAt with
    | none => rfl
    | some t => exact decide_eq_true ((back t stamp).trans_lt ended)

private theorem nodup_candidates (keyed : Keyed Character.id s.tables.characters) :
    (candidates s.tables m).Nodup := keyed.filter _

private theorem asking_candidates (h : Waits cfg m a pool bound s) (member : a ∈ pool)
    (eligible : fruitless m s.history = 0 ∨
      (s.tables.checkOf .market a m).eligible cfg.backoff s.now = true)
    (nonempty : s.tables.selectCandidates m ORDERS_SCOPE .market cfg.backoff true s.now ≠ []) :
    Asking m a pool s
      (s.tables.selectCandidates m ORDERS_SCOPE .market cfg.backoff true s.now) := by
  unfold Tables.selectCandidates at nonempty ⊢
  have places : (fun c => (s.tables.checkOf .market c m).place c) = placeOf s.tables m := rfl
  rw [places] at nonempty ⊢
  generalize ready_eq : (s.tables.pool m ORDERS_SCOPE true).filter (fun c =>
    (s.tables.checkOf .market c m).eligible cfg.backoff s.now) = ready at nonempty ⊢
  have ready_iff (c : Uuid) : c ∈ ready ↔ c ∈ pool ∧
      (s.tables.checkOf .market c m).eligible cfg.backoff s.now = true := by
    rw [← ready_eq, List.mem_filter]
    exact and_congr_left' (h.members c)
  have less (c : Uuid) (le : placeOf s.tables m c ≤ placeOf s.tables m a) (ne : c ≠ a) :
      placeOf s.tables m c < placeOf s.tables m a :=
    lt_of_le_of_ne le fun same => ne (place_injective same)
  have nodup : ready.Nodup := ready_eq ▸ (nodup_candidates h.characters).filter _
  have sub (c : Uuid) (hc : c ∈ pick (placeOf s.tables m) 5 ready) : c ∈ pool :=
    ((ready_iff c).mp (mem_of_mem_pick hc)).1
  by_cases fine : (s.tables.checkOf .market a m).eligible cfg.backoff s.now = true
  · -- The character is ready itself, so it is asked, or five others are.
    have ready_a : a ∈ ready := (ready_iff a).mpr ⟨member, fine⟩
    refine ⟨nodup_pick nodup, sub, fun c hc => ?_, ?_⟩
    · exact less c (le_of_mem_takeWhile ready_a hc) (by simpa using List.mem_takeWhile_imp hc)
    · by_cases out : a ∈ pick (placeOf s.tables m) 5 ready
      · exact .inl out
      · rw [(passed_over ready_a out).1]
        have paid := h.paid
        have more := owed_succ_le (fruitless m s.history)
        exact .inr (by omega)
  · -- It is not, so nobody has been asked since, and all that are ready come before it.
    have first := eligible.resolve_right fine
    have out : a ∉ pick (placeOf s.tables m) 5 ready := fun picked =>
      fine ((ready_iff a).mp (mem_of_mem_pick picked)).2
    refine ⟨nodup_pick nodup, sub, fun c hc => ?_, ?_⟩
    · have ready_c := (ready_iff c).mp (mem_of_mem_pick (List.takeWhile_subset _ hc))
      exact place_lt_of_eligible ready_c.2 (Bool.eq_false_iff.mpr fine)
    · have asked := List.length_pos_iff.mpr nonempty
      rw [first]
      simp only [owed]
      exact .inr (by omega)

private theorem Waits.select {m' : Uuid} (h : Waits cfg m a pool bound s) (member : a ∈ pool)
    (ok : s.select cfg m' = .ok s') : Waits cfg m a pool bound s' := by
  simp only [Site.select, bind_eq_ok, fetch_eq_ok, require_eq_ok] at ok
  obtain ⟨w, hw, -, waiting, ok⟩ := ok
  by_cases own : m' = m
  · subst own
    split at ok
    · cases ok
      exact h.quiet (quiet_endWalk m')
    · rename_i nonempty
      cases ok
      have stage := h.stage w hw
      rw [waiting] at stage
      have asking := asking_candidates h member stage nonempty
      refine ⟨h.markets, h.characters, h.members, h.past, h.turns, h.paid,
        fun _ _ => h.known w hw, h.rested, fun w' hw' => ?_⟩
      rw [Site.walkOf_setStage, if_pos rfl, hw, Option.map_some, Option.some.injEq] at hw'
      subst hw'
      exact ⟨⟨asking.nodup, asking.sub, asking.before, asking.enough⟩, rfl,
        fun empty => absurd empty nonempty⟩
  · split at ok
    · cases ok
      exact h.quiet (quiet_endWalk m')
    · cases ok
      exact h.quiet (quiet_setStage own _)

private theorem Asking.tail {c : Uuid} {rest : List Uuid} (h : Asking m a pool s (c :: rest))
    (ne : c ≠ a) (marked : denials m s'.history = denials m s.history + 1)
    (vain : fruitless m s'.history = fruitless m s.history)
    (places : ∀ d ∈ rest, placeOf s'.tables m d = placeOf s.tables m d)
    (own : placeOf s'.tables m a = placeOf s.tables m a) : Asking m a pool s' rest := by
  refine ⟨h.nodup.of_cons, fun d hd => h.sub d (List.mem_cons_of_mem c hd), fun d hd => ?_, ?_⟩
  · rw [places d (List.takeWhile_subset _ hd), own]
    refine h.before d ?_
    rw [List.takeWhile_cons_of_pos (by simpa using ne)]
    exact List.mem_cons_of_mem c hd
  · rw [marked, vain]
    have enough := h.enough
    simp only [List.mem_cons, List.length_cons, Ne.symm ne, false_or] at enough
    exact enough.imp_right fun le => by omega

private theorem Waits.ask [LinearOrder P] {m' : Uuid} {answer : Answer P}
    (h : Waits cfg m a pool bound s)
    (passes : PassesOver m a s (.ask m' answer)) (ok : s.ask m' answer = .ok s') :
    Waits cfg m a pool bound s' := by
  simp only [Site.ask, bind_eq_ok, fetch_eq_ok] at ok
  obtain ⟨w, hw, ok⟩ := ok
  by_cases own : m' = m
  · subst own
    obtain ⟨rfl, other⟩ := passes rfl
    split at ok
    · rename_i c rest tally asking
      cases ok
      have stage := h.stage w hw
      rw [asking] at stage
      obtain ⟨ask, steady, -⟩ := stage
      have ne : c ≠ a := by
        rintro rfl
        exact other w rest tally hw asking
      refine ⟨h.markets, h.characters, h.members, h.past, h.turns, h.paid,
        fun _ _ => h.known w hw, h.rested, fun w' hw' => ?_⟩
      have moved := s.walkOf_setStage m' m'
        (.marking c .forbidden rest { tally with denied := tally.denied + 1 })
      rw [if_pos rfl, hw, Option.map_some] at moved
      obtain rfl := Option.some.inj (moved.symm.trans hw')
      exact ⟨rfl, ne, steady, Nat.succ_pos _, ask.nodup, ask.sub, ask.before, ask.enough⟩
    · cases ok
  · refine h.quiet ?_
    split at ok
    · rename_i c rest tally asking
      split at ok
      · cases ok
        exact quiet_setStage own _
      · rename_i rows
        cases ok
        obtain ⟨prices, same⟩ := s.tables.refreshManyForCitadel_eq w.row rows s.now
        rw [same]
        have priced : Quiet m s { s with tables := { s.tables with prices } } :=
          quiet_of_tables rfl rfl rfl rfl fun _ => rfl
        have synced := priced.trans (quiet_setMarket (k := w.row.marketId)
          (f := fun r => { r with lastOrdersSyncedAt := some s.now }) (fun _ => rfl)
          fun _ _ => rfl)
        have staged := synced.trans (quiet_setStage own (.marking c .ok rest tally))
        exact staged.trans (quiet_note (.granted c m' s.now) rfl rfl)
      · cases ok
        have staged := (quiet_setStage (s := s) own
          (.marking c .forbidden rest { tally with denied := tally.denied + 1 })).trans
          (quiet_budget s.budget.recordNon2xx)
        exact staged.trans (quiet_note (.denied c m' s.now) rfl rfl)
      · cases ok
        have gone := (quiet_endWalk (m := m) (s := s) m').trans
          (quiet_budget s.budget.recordNon2xx)
        exact gone.trans (quiet_setMarket (fun _ => rfl) fun _ _ => rfl)
      · cases ok
        exact (quiet_setStage own _).trans (quiet_budget _)
    · cases ok

private theorem Waits.mark {m' : Uuid} (h : Waits cfg m a pool bound s) (ok : s.mark m' = .ok s') :
    Waits cfg m a pool bound s' := by
  simp only [Site.mark, bind_eq_ok, fetch_eq_ok] at ok
  obtain ⟨w, hw, ok⟩ := ok
  split at ok
  swap
  · cases ok
  rename_i c status rest tally marking
  by_cases own : m' = m
  · subst own
    have stage := h.stage w hw
    rw [marking] at stage
    obtain ⟨rfl, ne, steady, nonempty, ask⟩ := stage
    rw [if_neg (by decide)] at ok
    cases ok
    have checks (d : Uuid) : (s.tables.upsertAccess c m' .forbidden .market s.now).checkOf .market
        d m' = if d = c then ⟨.forbidden, some s.now⟩ else s.tables.checkOf .market d m' := by
      rw [Tables.checkOf_upsertAccess]
      simp
    have marked : denials m' (.marked c m' .forbidden :: s.history) = denials m' s.history + 1 := by
      simp [denials]
    have vain : fruitless m' (.marked c m' .forbidden :: s.history) = fruitless m' s.history := by
      simp [fruitless]
    have own : (s.tables.upsertAccess c m' .forbidden .market s.now).checkOf .market a m' =
        s.tables.checkOf .market a m' := by rw [checks, if_neg (Ne.symm ne)]
    -- The denied character moves behind the one that waits.
    have turn : Turn pool a c (placeOf s.tables m')
        (placeOf (s.tables.upsertAccess c m' .forbidden .market s.now) m') := by
      refine ⟨ask.sub c List.mem_cons_self, ?_, ?_, fun d _ other => ?_, ?_⟩
      · refine ask.before c ?_
        rw [List.takeWhile_cons_of_pos (by simpa using ne)]
        exact List.mem_cons_self
      · unfold placeOf
        rw [own, checks, if_pos rfl]
        exact (place_lt_denied h.past).asymm
      · unfold placeOf
        rw [checks, if_neg other]
      · unfold placeOf
        rw [own]
    refine ⟨h.markets, h.characters, h.members, ?_, ?_, ?_, fun _ _ => h.known w hw, ?_,
      fun w' hw' => ?_⟩
    · simp only [Site.setStage]
      rw [own]
      exact h.past
    · simp only [Site.setStage]
      have less := turn.ahead_lt
      have turns := h.turns
      omega
    · simp only [Site.setStage]
      rw [marked, vain]
      exact h.paid.trans (Nat.le_succ _)
    · simp only [Site.setStage]
      rw [vain, own]
      exact h.rested
    · have moved := s.walkOf_setStage m' m' (.asking rest tally)
      rw [if_pos rfl, hw, Option.map_some] at moved
      obtain rfl := Option.some.inj (moved.symm.trans hw')
      refine ⟨ask.tail ne marked vain (fun d hd => ?_) turn.waits, steady, fun _ => nonempty⟩
      exact turn.stays d (ask.sub d (List.mem_cons_of_mem c hd)) fun same =>
        (List.nodup_cons.mp ask.nodup).1 (same ▸ hd)
  · have wrote : Quiet m s { s with
        tables := s.tables.upsertAccess c m' status .market s.now } := by
      refine quiet_of_tables rfl rfl rfl rfl fun d => ?_
      rw [Tables.checkOf_upsertAccess, if_neg fun h => own h.2.2.symm]
    have noted := wrote.trans (quiet_note (.marked c m' status)
      (by cases status <;> simp [denials, own]) rfl)
    refine h.quiet ?_
    split at ok
    · cases ok
      exact noted.trans (quiet_endWalk m')
    · cases ok
      exact noted.trans (quiet_setStage own _)

private theorem Waits.finish {m' : Uuid} (h : Waits cfg m a pool bound s)
    (ok : s.finish cfg m' = .ok s') : Waits cfg m a pool bound s' := by
  simp only [Site.finish, bind_eq_ok, fetch_eq_ok] at ok
  obtain ⟨w, hw, ok⟩ := ok
  split at ok
  swap
  · cases ok
  rename_i tally asking
  cases ok
  by_cases own : m' = m
  · subst own
    have stage := h.stage w hw
    rw [asking] at stage
    obtain ⟨ask, steady, nonempty⟩ := stage
    rw [if_pos ⟨nonempty rfl, steady⟩]
    have paused (r : MarketRow) :
        ({ r with untrackableUntil := some (s.now + cfg.backoff) } : MarketRow).id = r.id := rfl
    have vain : fruitless m' (.exhausted m' :: s.history) = fruitless m' s.history + 1 := by
      simp [fruitless]
    have marked : denials m' (.exhausted m' :: s.history) = denials m' s.history := by
      simp [denials]
    have gone := s.walkOf_endWalk m' m'
    rw [if_pos rfl] at gone
    refine ⟨Tables.keyed_setMarket paused h.markets m', h.characters, h.members, h.past,
      ?_, ?_, fun w' hw' => ?_, .inr ⟨s.now + cfg.backoff, ?_, fun t ht => ?_⟩, fun w' hw' => ?_⟩
    · simp only
      rw [marked]
      exact h.turns
    · simp only
      rw [marked, vain]
      simpa using ask.enough
    · cases gone.symm.trans hw'
    · rw [Tables.pause_setMarket paused]
      obtain ⟨r, found⟩ := Option.ne_none_iff_exists'.mp (h.known w hw)
      simp [found]
    · exact Nat.add_le_add_right (h.past t ht).le _
    · cases gone.symm.trans hw'
  · refine h.quiet ?_
    have ended := (quiet_endWalk (m := m) (s := s) m').trans
      (quiet_note (.exhausted m') rfl (by simp [fruitless, own]))
    split
    · exact ended.trans (quiet_setMarket (fun _ => rfl) fun same => absurd same own)
    · exact ended

/-- `citadel_discovery` keeps the rows there are, and their pauses. -/
private theorem quiet_discover {new : List MarketRow} {isPublic : Uuid → Bool}
    (ok : s.discover new isPublic = .ok s') : Quiet m s s' := by
  simp only [Site.discover, bind_eq_ok, require_eq_ok, Except.ok.injEq] at ok
  obtain ⟨-, keyed, rfl⟩ := ok
  have same (r : MarketRow) :
      ({ r with isPublic := isPublic r.id } : MarketRow).id = r.id := rfl
  have there (r : MarketRow) (found : lookup MarketRow.id m s.tables.markets = some r) :
      lookup MarketRow.id m
        (s.tables.markets.map (fun r => { r with isPublic := isPublic r.id }) ++ new) =
          some { r with isPublic := isPublic r.id } := by
    refine lookup_append_of_some ?_
    rw [lookup_map same, found, Option.map_some]
  refine ⟨fun _ => keyed, fun h => h, fun h => ?_, fun _ => Iff.rfl, fun _ => rfl, fun U h => ?_,
    rfl, rfl, le_rfl, fun w hw => ⟨w, hw, rfl⟩⟩
  · obtain ⟨r, found⟩ := Option.ne_none_iff_exists'.mp h
    simp [there r found]
  · unfold Tables.pause at h ⊢
    cases found : lookup MarketRow.id m s.tables.markets with
    | none => simp [found] at h
    | some r =>
      rw [found, Option.bind_some] at h
      simp only
      rw [there r found, Option.bind_some]
      exact h

private theorem Waits.step [LinearOrder P] {e : Event P} (h : Waits cfg m a pool bound s)
    (member : a ∈ pool) (passes : PassesOver m a s e) (ok : Site.step cfg e s = .ok s') :
    Waits cfg m a pool bound s' := by
  cases e with
  | tick order => exact h.tick ok
  | select m' => exact h.select member ok
  | ask m' answer => exact h.ask passes ok
  | mark m' => exact h.mark ok
  | finish m' => exact h.finish ok
  | abort m' =>
    cases ok
    exact h.quiet (quiet_endWalk m')
  | restart =>
    cases ok
    exact h.quiet (quiet_walks fun w hw => by cases hw)
  | wait d =>
    cases ok
    exact h.quiet (quiet_wait d)
  | reset =>
    cases ok
    exact h.quiet (quiet_budget _)
  | edit e =>
    simp only [Site.step, bind_eq_ok, require_eq_ok, Except.ok.injEq] at ok
    obtain ⟨-, keyed, rfl⟩ := ok
    exact h.quiet ⟨fun k => k, fun _ => keyed, fun k => k, passes, fun _ => rfl, fun _ k => k, rfl,
      rfl, le_rfl, fun w hw => ⟨w, hw, rfl⟩⟩
  | discover new isPublic => exact h.quiet (quiet_discover ok)
  | detail m' =>
    cases ok
    exact h.quiet (quiet_setMarket (fun _ => rfl) fun _ _ => rfl)
  | checkDetails c m' status =>
    cases ok
    refine h.quiet (quiet_of_tables rfl rfl rfl rfl fun d => ?_)
    rw [Tables.checkOf_upsertAccess, if_neg fun own => by cases own.1]
  | price row =>
    cases ok
    exact h.quiet (quiet_of_tables rfl rfl rfl rfl fun _ => rfl)

/-- However the steps of all jobs and requests interleave, a character that may be asked about a
citadel is not passed over for long: of `n` candidates that are all denied, at most `(n + 3) / 5`
walks come to their end before it is asked. -/
theorem passed_over_at_most [LinearOrder P] (cfg : Config) (s : Site P) (m a : Uuid)
    (markets : Keyed MarketRow.id s.tables.markets)
    (characters : Keyed Character.id s.tables.characters) (fresh : s.walks = [] ∧ s.history = [])
    (member : a ∈ candidates s.tables m)
    (past : ∀ t ∈ (s.tables.checkOf .market a m).checkedAt, t < s.now) (events : List (Event P))
    (passes : Meets (Site.step cfg) (PassesOver m a) s events) :
    5 * fruitless m (run (Site.step cfg) s events).history ≤
      (candidates s.tables m).length + 3 := by
  have start : Waits cfg m a (candidates s.tables m)
      (ahead (placeOf s.tables m) (candidates s.tables m) a) s := by
    obtain ⟨walks, history⟩ := fresh
    have idle : s.walkOf m = none := by
      unfold Site.walkOf
      rw [walks]
      rfl
    have none_yet : fruitless m s.history = 0 := by
      rw [history]
      rfl
    refine ⟨markets, characters, fun _ => Iff.rfl, past, ?_, ?_, fun w hw => ?_, .inl none_yet,
      fun w hw => ?_⟩
    · simp [history, denials]
    · simp [none_yet, owed]
    · cases idle.symm.trans hw
    · cases idle.symm.trans hw
  have waits := meets_invariant (fun s e s' h passes ok => Waits.step h member passes ok) start
    passes
  have paid := waits.paid
  have turns := waits.turns
  have less : ahead (placeOf s.tables m) (candidates s.tables m) a <
      (candidates s.tables m).length := ahead_lt_length member
  cases n : fruitless m (run (Site.step cfg) s events).history with
  | zero => omega
  | succ k =>
    rw [n] at paid
    simp only [owed] at paid
    omega

end Steps

-- Two members with the scope, of which the second was denied a minute ago.
instance : DecidableRel oldestFirst := fun a b =>
  inferInstanceAs (Decidable (nullsFirst a.lastOrdersSyncedAt ≤ nullsFirst b.lastOrdersSyncedAt))

instance : Std.Total oldestFirst :=
  ⟨fun a b => le_total (nullsFirst a.lastOrdersSyncedAt) (nullsFirst b.lastOrdersSyncedAt)⟩

instance : IsTrans MarketRow oldestFirst := ⟨fun _ _ _ => le_trans⟩

def keepstar : Site Nat where
  now := 100000
  tables := {
    characters := [⟨1, 11, [ORDERS_SCOPE]⟩, ⟨2, 12, [ORDERS_SCOPE]⟩]
    memberships := [⟨11, 5, .owner⟩, ⟨12, 5, .member⟩]
    tracked := [⟨5, 9⟩]
    lists := [⟨20, 5, 11, .open, 0, none⟩]
    listItems := [⟨21, 20, 34, "Tritanium", 100, 0, 11, .open, 1⟩]
    listMarkets := [⟨20, 9, true⟩]
    markets := [⟨9, .publicStructure, 1000, true, none, some 5, none⟩]
    access := [⟨2, 9, {}, ⟨.forbidden, some 99940⟩⟩] }

/-- The first member is denied, and the citadel paused. -/
def deniedOnce : List (Event Nat) :=
  [.tick (.insertion oldestFirst), .select 9, .ask 9 (.refused (some 403)), .mark 9, .finish 9]

theorem passed_over_keepstar :
    fruitless 9 (run (Site.step {}) keepstar deniedOnce).history = 1 ∧
      5 * fruitless 9 (run (Site.step {}) keepstar deniedOnce).history ≤
        (candidates keepstar.tables 9).length + 3 := by
  refine ⟨by decide +kernel, passed_over_at_most {} keepstar 9 2 (by decide) (by decide)
    ⟨rfl, rfl⟩ (by decide +kernel) (by decide +kernel) deniedOnce ?_⟩
  refine ⟨trivial, trivial, fun _ => ⟨rfl, fun w rest tally hw asking => ?_⟩, trivial, trivial,
    trivial⟩
  have next : (Site.walkOf (run (Site.step {}) keepstar
      [.tick (.insertion oldestFirst), .select 9]) 9).map Walk.stage =
        some (.asking [1] {}) := by decide +kernel
  have same := next.symm.trans (congrArg (Option.map Walk.stage) hw)
  rw [Option.map_some, asking, Option.some.injEq] at same
  cases same

end JitaCart.Citadels
