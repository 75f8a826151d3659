/- module: JitaCart/Markets/Discovery
   source: backend/crates/worker/src/jobs/citadel_discovery.rs
   digest: Polls of the public structures, and which structures they leave public. -/

import JitaCart.Base.Table
import JitaCart.Markets.Pricing

/-!
A poll that is skipped for want of budget, or that fails, writes nothing; a run is
the sequence of the others.
-/

set_option autoImplicit false
set_option relaxedAutoImplicit false

namespace JitaCart.Markets.Discovery

open Schema Base.Table Base.Request Pricing

/-- The columns of `markets` that a poll reads or sets. -/
structure MarketRow where
  id : Uuid
  kind : MarketKind
  esiLocationId : Int
  regionId : Option Int
  name : Option String
  shortLabel : Option String
  isHub : Bool
  isPublic : Bool
  lastSeenPublicAt : Option Timestamp
  missingPollCount : Int
  deriving DecidableEq

/-- A response, the time of its transaction, and the ids that new rows draw. -/
structure Poll where
  ids : List Int
  now : Timestamp
  newId : Int → Uuid

def Poll.newRow (p : Poll) (locationId : Int) : MarketRow where
  id := p.newId locationId
  kind := .publicStructure
  esiLocationId := locationId
  regionId := none
  name := none
  shortLabel := none
  isHub := false
  isPublic := true
  lastSeenPublicAt := some p.now
  missingPollCount := 0

/-- `ON CONFLICT (esi_location_id) DO UPDATE`, whatever the kind of the row. -/
def Poll.see (p : Poll) (r : MarketRow) : MarketRow :=
  if r.esiLocationId ∈ p.ids then
    { r with lastSeenPublicAt := some p.now, missingPollCount := 0, isPublic := true }
  else r

def Poll.upsert (p : Poll) (markets : List MarketRow) : List MarketRow :=
  markets.map p.see ++ (p.ids.filter fun i =>
    decide (lookup MarketRow.esiLocationId i markets = none)).map p.newRow

def Poll.bump (p : Poll) (r : MarketRow) : MarketRow :=
  if r.kind = .publicStructure ∧ r.isPublic = true ∧ r.esiLocationId ∉ p.ids then
    { r with missingPollCount := r.missingPollCount + 1 }
  else r

def disable (threshold : Int) (r : MarketRow) : MarketRow :=
  if r.kind = .publicStructure ∧ r.isPublic = true ∧ threshold ≤ r.missingPollCount then
    { r with isPublic := false }
  else r

/-- The transaction of a poll; one insert cannot touch a row twice. -/
def Poll.run (threshold : Int) (p : Poll) (markets : List MarketRow) :
    Except String (List MarketRow) := do
  require p.ids.Nodup "ON CONFLICT DO UPDATE command cannot affect row a second time"
  return ((p.upsert markets).map p.bump).map (disable threshold)

def runAll (threshold : Int) : List Poll → List MarketRow → Except String (List MarketRow)
  | [], markets => .ok markets
  | p :: ps, markets => do
    let markets ← p.run threshold markets
    runAll threshold ps markets

def Poll.atLocation (threshold : Int) (p : Poll) (locationId : Int) :
    Option MarketRow → Option MarketRow
  | none =>
    if locationId ∈ p.ids then some (disable threshold (p.bump (p.newRow locationId))) else none
  | some r => some (disable threshold (p.bump (p.see r)))

@[simp] theorem Poll.see_esiLocationId (p : Poll) (r : MarketRow) :
    (p.see r).esiLocationId = r.esiLocationId := by
  unfold Poll.see
  split <;> rfl

@[simp] theorem Poll.bump_esiLocationId (p : Poll) (r : MarketRow) :
    (p.bump r).esiLocationId = r.esiLocationId := by
  unfold Poll.bump
  split <;> rfl

@[simp] theorem disable_esiLocationId (threshold : Int) (r : MarketRow) :
    (disable threshold r).esiLocationId = r.esiLocationId := by
  unfold disable
  split <;> rfl

private theorem lookup_newRow (p : Poll) (ids : List Int) (k : Int) :
    lookup MarketRow.esiLocationId k (ids.map p.newRow) =
      if k ∈ ids then some (p.newRow k) else none := by
  induction ids with
  | nil => rfl
  | cons i ids ih =>
    unfold lookup at ih ⊢
    rw [List.map_cons, List.find?_cons]
    by_cases own : i = k
    · subst own
      simp [Poll.newRow]
    · have other : (p.newRow i).esiLocationId ≠ k := own
      simp only [other, decide_false, ih, List.mem_cons, Ne.symm own, false_or]

private theorem lookup_upsert (p : Poll) (markets : List MarketRow) (k : Int) :
    lookup MarketRow.esiLocationId k (p.upsert markets) =
      match lookup MarketRow.esiLocationId k markets with
      | none => if k ∈ p.ids then some (p.newRow k) else none
      | some r => some (p.see r) := by
  have seen : lookup MarketRow.esiLocationId k (markets.map p.see) =
      (lookup MarketRow.esiLocationId k markets).map p.see := lookup_map p.see_esiLocationId
  unfold Poll.upsert
  cases found : lookup MarketRow.esiLocationId k markets with
  | none =>
    rw [found] at seen
    have fresh := lookup_newRow p (p.ids.filter fun i =>
      decide (lookup MarketRow.esiLocationId i markets = none)) k
    simp only [List.mem_filter, found, decide_true, and_true] at fresh
    rw [← fresh]
    unfold lookup at seen ⊢
    rw [List.find?_append, seen]
    rfl
  | some r =>
    rw [found] at seen
    exact lookup_append_of_some seen

private theorem keyed_upsert {p : Poll} {markets : List MarketRow} (nodup : p.ids.Nodup)
    (keyed : Keyed MarketRow.esiLocationId markets) :
    Keyed MarketRow.esiLocationId (p.upsert markets) := by
  refine Keyed.append_list (keyed.map p.see_esiLocationId) ?_ ?_
  · unfold Keyed
    rw [List.map_map]
    refine List.Nodup.map (fun a b same => ?_) (nodup.filter _)
    exact same
  · intro a ha b hb same
    obtain ⟨r, hr, rfl⟩ := List.mem_map.mp ha
    obtain ⟨i, hi, rfl⟩ := List.mem_map.mp hb
    have absent := of_decide_eq_true (List.mem_filter.mp hi).2
    rw [p.see_esiLocationId] at same
    exact lookup_eq_none.mp absent r hr same

private theorem run_ok {threshold : Int} {p : Poll} {markets markets' : List MarketRow}
    (keyed : Keyed MarketRow.esiLocationId markets) (h : p.run threshold markets = .ok markets') :
    Keyed MarketRow.esiLocationId markets' ∧ ∀ k, lookup MarketRow.esiLocationId k markets' =
      p.atLocation threshold k (lookup MarketRow.esiLocationId k markets) := by
  simp only [Poll.run, bind_eq_ok, require_eq_ok, pure_eq_ok] at h
  obtain ⟨-, nodup, rfl⟩ := h
  refine ⟨((keyed_upsert nodup keyed).map p.bump_esiLocationId).map
    (disable_esiLocationId threshold), fun k => ?_⟩
  have disabled : ∀ t : List MarketRow, lookup MarketRow.esiLocationId k (t.map (disable threshold)) =
      (lookup MarketRow.esiLocationId k t).map (disable threshold) := fun t =>
    lookup_map (disable_esiLocationId threshold)
  have bumped : ∀ t : List MarketRow, lookup MarketRow.esiLocationId k (t.map p.bump) =
      (lookup MarketRow.esiLocationId k t).map p.bump := fun t => lookup_map p.bump_esiLocationId
  rw [disabled, bumped, lookup_upsert]
  cases lookup MarketRow.esiLocationId k markets with
  | none =>
    unfold Poll.atLocation
    dsimp only
    split <;> rfl
  | some r => rfl

/-- The number of polls since the last one that listed the location, if one did. -/
def since (locationId : Int) (start : Option Nat) (polls : List Poll) : Option Nat :=
  polls.foldl (fun n p => if locationId ∈ p.ids then some 0 else n.map (· + 1)) start

/-- What the row of a structure says of the polls since it was listed: their number up to the
threshold, and whether it is below. -/
structure Shows (threshold : Int) (n : Nat) (r : MarketRow) : Prop where
  kind : r.kind = .publicStructure
  count : r.missingPollCount = min (n : Int) threshold
  shown : r.isPublic = true ↔ (n : Int) < threshold

def Tracks (threshold : Int) : Option Nat → Option MarketRow → Prop
  | none, none => True
  | some n, some r => Shows threshold n r
  | _, _ => False

private theorem shows_listed {threshold : Int} (positive : 1 ≤ threshold) {p : Poll} {r : MarketRow}
    (listed : r.esiLocationId ∈ p.ids) (kind : r.kind = .publicStructure)
    (shown : r.isPublic = true) (zero : r.missingPollCount = 0) :
    Shows threshold 0 (disable threshold (p.bump r)) := by
  have stays : p.bump r = r := by
    unfold Poll.bump
    rw [if_neg fun missing => missing.2.2 listed]
  have kept : disable threshold r = r := by
    unfold disable
    rw [if_neg]
    rw [zero]
    omega
  rw [stays, kept]
  refine ⟨kind, ?_, ?_⟩
  · rw [zero, Nat.cast_zero]
    omega
  · rw [shown, Nat.cast_zero]
    exact iff_of_true rfl (by omega)

private theorem shows_missing {threshold : Int} {p : Poll} {n : Nat} {r : MarketRow}
    (missing : r.esiLocationId ∉ p.ids) (h : Shows threshold n r) :
    Shows threshold (n + 1) (disable threshold (p.bump r)) := by
  obtain ⟨kind, count, shown⟩ := h
  by_cases isPublic : r.isPublic = true
  · have few := shown.mp isPublic
    have bumped : p.bump r = { r with missingPollCount := r.missingPollCount + 1 } := by
      unfold Poll.bump
      rw [if_pos ⟨kind, isPublic, missing⟩]
    have counted : r.missingPollCount + 1 = ((n + 1 : Nat) : Int) := by
      push_cast
      omega
    rw [bumped, counted]
    unfold disable
    by_cases reached : threshold ≤ ((n + 1 : Nat) : Int)
    · rw [if_pos ⟨kind, isPublic, reached⟩]
      refine ⟨kind, (min_eq_left ?_).symm, iff_of_false Bool.false_ne_true (not_lt.mpr reached)⟩
      push_cast
      omega
    · rw [if_neg fun all => reached all.2.2]
      exact ⟨kind, (min_eq_left (le_of_not_ge reached)).symm,
        iff_of_true isPublic (lt_of_not_ge reached)⟩
  · have many : threshold ≤ n := not_lt.mp fun few => isPublic (shown.mpr few)
    have stays : p.bump r = r := by
      unfold Poll.bump
      rw [if_neg fun all => isPublic all.2.1]
    have kept : disable threshold r = r := by
      unfold disable
      rw [if_neg fun all => isPublic all.2.1]
    rw [stays, kept]
    refine ⟨kind, ?_, iff_of_false isPublic ?_⟩
    · push_cast
      omega
    · push_cast
      omega

private theorem tracks_atLocation {threshold : Int} (positive : 1 ≤ threshold) (p : Poll)
    {locationId : Int} {n : Option Nat} {row : Option MarketRow} (h : Tracks threshold n row)
    (own : ∀ r ∈ row, r.esiLocationId = locationId) :
    Tracks threshold (if locationId ∈ p.ids then some 0 else n.map (· + 1))
      (p.atLocation threshold locationId row) := by
  cases row with
  | none =>
    cases n with
    | some n => exact h.elim
    | none =>
      unfold Poll.atLocation
      dsimp only
      by_cases listed : locationId ∈ p.ids
      · rw [if_pos listed, if_pos listed]
        exact shows_listed positive listed rfl rfl rfl
      · rw [if_neg listed, if_neg listed]
        trivial
  | some r =>
    cases n with
    | none => exact h.elim
    | some n =>
      have here := own r rfl
      unfold Poll.atLocation
      dsimp only
      by_cases listed : locationId ∈ p.ids
      · have seen : p.see r = { r with
            lastSeenPublicAt := some p.now, missingPollCount := 0, isPublic := true } := by
          unfold Poll.see
          rw [if_pos (here ▸ listed)]
        rw [if_pos listed, seen]
        exact shows_listed positive (show r.esiLocationId ∈ p.ids from here ▸ listed) h.kind rfl rfl
      · have unseen : p.see r = r := by
          unfold Poll.see
          rw [if_neg (here ▸ listed)]
        rw [if_neg listed, unseen]
        exact shows_missing (here ▸ listed) h

private theorem runAll_ok {threshold : Int} (positive : 1 ≤ threshold) {polls : List Poll}
    {markets markets' : List MarketRow} (keyed : Keyed MarketRow.esiLocationId markets)
    (h : runAll threshold polls markets = .ok markets') :
    Keyed MarketRow.esiLocationId markets' ∧ ∀ k n,
      Tracks threshold n (lookup MarketRow.esiLocationId k markets) →
        Tracks threshold (since k n polls) (lookup MarketRow.esiLocationId k markets') := by
  induction polls generalizing markets with
  | nil =>
    obtain rfl := Except.ok.inj h
    exact ⟨keyed, fun _ _ tracks => tracks⟩
  | cons p polls ih =>
    simp only [runAll, bind_eq_ok] at h
    obtain ⟨middle, first, rest⟩ := h
    obtain ⟨keyed', step⟩ := run_ok keyed first
    obtain ⟨keyed'', tracks⟩ := ih keyed' rest
    refine ⟨keyed'', fun k n started => tracks k _ ?_⟩
    rw [step]
    exact tracks_atLocation positive p started fun r hr => (lookup_mem hr).2

private theorem runAll_hub {threshold : Int} {polls : List Poll} {markets markets' : List MarketRow}
    {r : MarketRow} (keyed : Keyed MarketRow.esiLocationId markets)
    (h : runAll threshold polls markets = .ok markets')
    (row : lookup MarketRow.esiLocationId r.esiLocationId markets = some r)
    (hub : r.kind = .npcHub) (unlisted : ∀ p ∈ polls, r.esiLocationId ∉ p.ids) :
    lookup MarketRow.esiLocationId r.esiLocationId markets' = some r := by
  induction polls generalizing markets with
  | nil =>
    obtain rfl := Except.ok.inj h
    exact row
  | cons p polls ih =>
    simp only [runAll, bind_eq_ok] at h
    obtain ⟨middle, first, rest⟩ := h
    obtain ⟨keyed', step⟩ := run_ok keyed first
    refine ih keyed' rest ?_ fun q hq => unlisted q (List.mem_cons_of_mem p hq)
    rw [step, row]
    unfold Poll.atLocation Poll.see
    dsimp only
    rw [if_neg (unlisted p List.mem_cons_self)]
    unfold Poll.bump disable
    simp [hub]

private theorem since_eq_none {locationId : Int} {polls : List Poll} :
    since locationId none polls = none ↔ ∀ p ∈ polls, locationId ∉ p.ids := by
  induction polls using List.reverseRecOn with
  | nil => simp [since]
  | append_singleton polls p ih =>
    unfold since at ih ⊢
    rw [List.foldl_append]
    simp only [List.foldl_cons, List.foldl_nil]
    by_cases listed : locationId ∈ p.ids
    · rw [if_pos listed]
      simp [listed]
    · rw [if_neg listed, Option.map_eq_none_iff, ih]
      simp [or_imp, forall_and, listed]

private theorem since_unlisted {locationId : Int} {polls : List Poll} {n : Nat}
    (unlisted : ∀ p ∈ polls, locationId ∉ p.ids) :
    since locationId (some n) polls = some (n + polls.length) := by
  induction polls generalizing n with
  | nil => rfl
  | cons p polls ih =>
    have later := @ih (n + 1) fun q hq => unlisted q (List.mem_cons_of_mem p hq)
    unfold since at later ⊢
    rw [List.foldl_cons, if_neg (unlisted p List.mem_cons_self)]
    refine later.trans (congrArg some ?_)
    rw [List.length_cons]
    omega

/-- The poll that listed the location last, and the number of polls after it. -/
private theorem since_eq_some {locationId : Int} {polls : List Poll} {n : Nat} :
    since locationId none polls = some n ↔ ∃ before p after, polls = before ++ p :: after ∧
      locationId ∈ p.ids ∧ (∀ q ∈ after, locationId ∉ q.ids) ∧ after.length = n := by
  constructor
  · intro h
    induction polls using List.reverseRecOn generalizing n with
    | nil => cases h
    | append_singleton polls p ih =>
      unfold since at ih h
      rw [List.foldl_append] at h
      simp only [List.foldl_cons, List.foldl_nil] at h
      by_cases listed : locationId ∈ p.ids
      · rw [if_pos listed] at h
        obtain rfl := Option.some.inj h
        exact ⟨polls, p, [], rfl, listed, by simp, rfl⟩
      · rw [if_neg listed] at h
        obtain ⟨m, earlier, rfl⟩ := Option.map_eq_some_iff.mp h
        obtain ⟨before, q, after, rfl, last, unlisted, rfl⟩ := ih earlier
        refine ⟨before, q, after ++ [p], by simp, last, fun x hx => ?_, by simp⟩
        rcases List.mem_append.mp hx with old | new
        · exact unlisted x old
        · obtain rfl := List.mem_singleton.mp new
          exact listed
  · rintro ⟨before, p, after, rfl, listed, unlisted, rfl⟩
    have from_last := @since_unlisted locationId after 0 unlisted
    unfold since at from_last ⊢
    rw [List.foldl_append, List.foldl_cons, if_pos listed, from_last, zero_add]

private theorem runAll_total {threshold : Int} {polls : List Poll}
    (distinct : ∀ p ∈ polls, p.ids.Nodup)
    (markets : List MarketRow) : ∃ markets', runAll threshold polls markets = .ok markets' := by
  induction polls generalizing markets with
  | nil => exact ⟨markets, rfl⟩
  | cons p polls ih =>
    have first : p.run threshold markets =
        .ok (((p.upsert markets).map p.bump).map (disable threshold)) := by
      simp only [Poll.run, bind_eq_ok, require_eq_ok, pure_eq_ok]
      exact ⟨(), distinct p List.mem_cons_self, trivial⟩
    obtain ⟨markets', rest⟩ := ih (fun q hq => distinct q (List.mem_cons_of_mem p hq)) _
    refine ⟨markets', ?_⟩
    simp only [runAll, bind_eq_ok]
    exact ⟨_, first, rest⟩

private theorem structure_visibility {threshold : Int} (positive : 1 ≤ threshold)
    {start final : List MarketRow} (keyed : Keyed MarketRow.esiLocationId start)
    {polls : List Poll} (h : runAll threshold polls start = .ok final) {k : Int}
    (absent : ∀ r ∈ start, r.esiLocationId ≠ k) :
    ((∃ r ∈ final, r.esiLocationId = k) ↔ ∃ p ∈ polls, k ∈ p.ids) ∧
    ∀ r ∈ final, r.esiLocationId = k →
      (r.isPublic = true ↔ ∃ before p after, polls = before ++ p :: after ∧
        k ∈ p.ids ∧ (∀ q ∈ after, k ∉ q.ids) ∧ (after.length : Int) < threshold) := by
  obtain ⟨keyed', tracks⟩ := runAll_ok positive keyed h
  have now := tracks k none (lookup_eq_none.mpr absent ▸ trivial)
  cases history : since k none polls with
  | none =>
    rw [history] at now
    have no_row : lookup MarketRow.esiLocationId k final = none := by
      cases row : lookup MarketRow.esiLocationId k final with
      | none => rfl
      | some r =>
        rw [row] at now
        exact now.elim
    have gone := lookup_eq_none.mp no_row
    have unlisted := since_eq_none.mp history
    refine ⟨iff_of_false ?_ ?_, fun r hr here => absurd here (gone r hr)⟩
    · rintro ⟨r, hr, here⟩
      exact gone r hr here
    · rintro ⟨p, hp, listed⟩
      exact unlisted p hp listed
  | some n =>
    rw [history] at now
    cases row : lookup MarketRow.esiLocationId k final with
    | none =>
      rw [row] at now
      exact now.elim
    | some r =>
      rw [row] at now
      obtain ⟨mem, here⟩ := lookup_mem row
      obtain ⟨before, p, after, split, listed, unlisted, length⟩ := since_eq_some.mp history
      refine ⟨iff_of_true ⟨r, mem, here⟩ ⟨p, by simp [split], listed⟩, fun x hx own => ?_⟩
      obtain rfl := keyed'.eq_of_key hx mem (own.trans here.symm)
      rw [now.shown]
      constructor
      · intro few
        exact ⟨before, p, after, split, listed, unlisted, length.symm ▸ few⟩
      · rintro ⟨before', p', after', split', listed', unlisted', few⟩
        have same := since_eq_some.mpr ⟨before', p', after', split', listed', unlisted', rfl⟩
        rw [history] at same
        rw [Option.some.inj same]
        exact few

/-- After a run of polls a structure has a row exactly when a poll listed it, and the row is public
exactly when fewer polls than the threshold came after the last one that did; a hub that no poll
listed has the row it had. A structure is a location that had no row at the start. -/
theorem discovery_visibility (threshold : Int) (positive : 1 ≤ threshold)
    (start : List MarketRow) (keyed : Keyed MarketRow.esiLocationId start)
    (hubs : ∀ r ∈ start, r.kind = .npcHub) (polls : List Poll)
    (distinct : ∀ p ∈ polls, p.ids.Nodup) :
    ∃ final, runAll threshold polls start = .ok final ∧
      Keyed MarketRow.esiLocationId final ∧
      (∀ k, (∀ r ∈ start, r.esiLocationId ≠ k) →
        ((∃ r ∈ final, r.esiLocationId = k) ↔ ∃ p ∈ polls, k ∈ p.ids) ∧
        ∀ r ∈ final, r.esiLocationId = k →
          (r.isPublic = true ↔ ∃ before p after, polls = before ++ p :: after ∧
            k ∈ p.ids ∧ (∀ q ∈ after, k ∉ q.ids) ∧ (after.length : Int) < threshold)) ∧
      ∀ r ∈ start, (∀ p ∈ polls, r.esiLocationId ∉ p.ids) → r ∈ final := by
  obtain ⟨final, h⟩ := @runAll_total threshold polls distinct start
  refine ⟨final, h, (runAll_ok positive keyed h).1, fun k absent => ?_, fun r hr unlisted => ?_⟩
  · exact structure_visibility positive keyed h absent
  · have row := runAll_hub keyed h ((lookup_eq_some keyed).mpr ⟨hr, rfl⟩) (hubs r hr) unlisted
    exact (lookup_mem row).1

def jita : MarketRow :=
  ⟨1, .npcHub, 60003760, some 10000002, some "Jita IV", some "Jita", true, true, none, 0⟩

/-- A hub, a structure that the first of two polls lists, and one that both list. -/
theorem discovery_visibility_jita :
    ∃ final, runAll 1 [⟨[7, 8], 1, Int.toNat⟩, ⟨[8], 2, Int.toNat⟩] [jita] = .ok final ∧
      jita ∈ final ∧ (∃ r ∈ final, r.esiLocationId = 7) ∧
      ∀ r ∈ final, r.esiLocationId = 8 → r.isPublic = true := by
  obtain ⟨final, h, -, structures, hubs⟩ := discovery_visibility 1 (by decide) [jita]
    (List.nodup_singleton _) (fun r hr => List.mem_singleton.mp hr ▸ rfl)
    [⟨[7, 8], 1, Int.toNat⟩, ⟨[8], 2, Int.toNat⟩] (by simp)
  obtain ⟨seven, -⟩ := structures 7 (by decide)
  obtain ⟨-, eight⟩ := structures 8 (by decide)
  refine ⟨final, h, hubs jita List.mem_cons_self (by simp [jita]), seven.mpr ?_, fun r hr here => ?_⟩
  · exact ⟨⟨[7, 8], 1, Int.toNat⟩, by simp, by simp⟩
  · exact (eight r hr here).mpr
      ⟨[⟨[7, 8], 1, Int.toNat⟩], ⟨[8], 2, Int.toNat⟩, [], rfl, by simp, by simp, by decide⟩

end JitaCart.Markets.Discovery
