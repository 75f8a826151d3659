/- module: JitaCart/Base/Quota
   source: none (library)
   digest: Caps that transactions check by counting before they insert. -/

import JitaCart.Base.RelyGuarantee

/-!
A meter counts the rows of one table under tags. A transaction that adds to a
count has guarded it first: by a lock that every other one has to take, or only
by having counted. In the first case the cap holds in every run; in the second
it holds in the runs where nobody commits an addition to a count that another
transaction has guarded.
-/

set_option autoImplicit false
set_option relaxedAutoImplicit false

namespace JitaCart.Base.ReadCommitted

open Request Table

/-- The row under a key as a write finds and leaves it. -/
structure Change (κ Row : Type) where
  key : κ
  before : Option Row
  after : Option Row

structure Meter (S W R Row κ τ : Type) where
  key : Row → κ
  rows : S → List Row
  lock : κ → R
  change : W → Option (Change κ Row)
  counts : τ → Row → Bool
  cap : τ → Int
  guards : τ → List W → List R → Prop
  /-- Additions that nothing guards. -/
  bare : τ → List W → Prop
  /-- The first log may be committed while a transaction has written the second one. -/
  clear : List W → List W → Prop
  guards_mono : ∀ {k log few many}, (∀ r ∈ few, r ∈ many) → guards k log few → guards k log many
  guards_append : ∀ {k log locks} (ws : List W), guards k log locks → guards k (log ++ ws) locks
  bare_append : ∀ {k log} (ws : List W), bare k log → bare k (log ++ ws)

namespace Meter

variable {S W R Q Row κ τ : Type} [DecidableEq κ] (e : Engine S W R Q) (M : Meter S W R Row κ τ)

def count (k : τ) (s : S) : Nat := (M.rows s).countP (M.counts k)

def gain (k : τ) (w : W) : Nat :=
  match M.change w with
  | some ch => if ch.after.any (M.counts k) && !ch.before.any (M.counts k) then 1 else 0
  | none => 0

def gainOf (k : τ) : List W → Nat
  | [] => 0
  | w :: log => M.gain k w + gainOf k log

structure Lawful : Prop where
  own : ∀ w ch, M.change w = some ch → ∀ r ∈ ch.after, M.key r = ch.key
  changed : ∀ w ch s, M.change w = some ch →
    M.rows (e.redo w s) = replace M.key ch.key ch.after (M.rows s)
  kept : ∀ w s, M.change w = none → M.rows (e.redo w s) = M.rows s

def Replays : List W → S → Prop
  | [], _ => True
  | w :: ws, s => (∀ ch ∈ M.change w, lookup M.key ch.key (M.rows s) = ch.before) ∧
      Replays ws (e.redo w s)

def Agree (locks : List R) (s s' : S) : Prop :=
  ∀ k, M.lock k ∈ locks → lookup M.key k (M.rows s') = lookup M.key k (M.rows s)

/-- What a transaction has to have done: its writes are of rows that it holds, and what it adds is
guarded and fits. -/
structure Metered (c : S) (log : List W) (locks : List R) : Prop where
  replays : M.Replays e log c
  locked : ∀ w ∈ log, ∀ ch ∈ M.change w, M.lock ch.key ∈ locks
  fits : ∀ k, M.gainOf k log = 0 ∨
    (M.guards k log locks ∧ (M.count k c + M.gainOf k log : Int) ≤ M.cap k) ∨ M.bare k log

omit [DecidableEq κ] in
theorem gainOf_append (k : τ) (log ws : List W) :
    M.gainOf k (log ++ ws) = M.gainOf k log + M.gainOf k ws := by
  induction log with
  | nil => simp [gainOf]
  | cons w log ih => rw [List.cons_append, gainOf, gainOf, ih, Nat.add_assoc]

variable {e M}

private theorem replays_append {log ws : List W} {s : S} :
    M.Replays e (log ++ ws) s ↔ M.Replays e log s ∧ M.Replays e ws (e.view s log) := by
  induction log generalizing s with
  | nil => simp [Replays, Engine.view]
  | cons w log ih =>
    rw [List.cons_append, Replays, Replays, ih, and_assoc]
    rfl

private theorem replays_aside {ws : List W} (h : ∀ w ∈ ws, M.change w = none) (s : S) :
    M.Replays e ws s := by
  induction ws generalizing s with
  | nil => trivial
  | cons w ws ih =>
    refine ⟨fun ch hch => ?_, ih (fun x hx => h x (List.mem_cons_of_mem w hx)) _⟩
    rw [h w List.mem_cons_self] at hch
    cases hch

omit [DecidableEq κ] in
theorem gainOf_eq_zero {k : τ} {ws : List W} (h : ∀ w ∈ ws, M.gain k w = 0) :
    M.gainOf k ws = 0 := by
  induction ws with
  | nil => rfl
  | cons w ws ih =>
    rw [gainOf, h w List.mem_cons_self, ih fun x hx => h x (List.mem_cons_of_mem w hx)]

section Lawful
variable (lawful : M.Lawful e)
include lawful

private theorem keyed_redo {s : S} (h : Keyed M.key (M.rows s)) (w : W) :
    Keyed M.key (M.rows (e.redo w s)) := by
  cases hw : M.change w with
  | none =>
    rw [lawful.kept w s hw]
    exact h
  | some ch =>
    rw [lawful.changed w ch s hw]
    exact keyed_replace h (lawful.own w ch hw)

theorem keyed_view {s : S} (h : Keyed M.key (M.rows s)) (log : List W) :
    Keyed M.key (M.rows (e.view s log)) := by
  induction log generalizing s with
  | nil => exact h
  | cons w log ih => exact ih (keyed_redo lawful h w)

private theorem lookup_redo (k : κ) (w : W) (s : S) :
    lookup M.key k (M.rows (e.redo w s)) =
      match M.change w with
      | some ch => if k = ch.key then ch.after else lookup M.key k (M.rows s)
      | none => lookup M.key k (M.rows s) := by
  cases hw : M.change w with
  | none => rw [lawful.kept w s hw]
  | some ch =>
    rw [lawful.changed w ch s hw]
    exact lookup_replace (lawful.own w ch hw) k

private theorem Agree.redo {locks : List R} {s s' : S} (h : M.Agree locks s s') (w : W) :
    M.Agree locks (e.redo w s) (e.redo w s') := by
  intro k hk
  rw [lookup_redo lawful, lookup_redo lawful, h k hk]

private theorem Replays.agree {locks : List R} {log : List W} {s s' : S} (h : M.Replays e log s)
    (same : M.Agree locks s s')
    (locked : ∀ w ∈ log, ∀ ch ∈ M.change w, M.lock ch.key ∈ locks) : M.Replays e log s' := by
  induction log generalizing s s' with
  | nil => trivial
  | cons w log ih =>
    refine ⟨fun ch hch => ?_, ?_⟩
    · rw [same ch.key (locked w List.mem_cons_self ch hch)]
      exact h.1 ch hch
    · exact ih h.2 (same.redo lawful w) fun x hx => locked x (List.mem_cons_of_mem w hx)

private theorem replays_deletes {del : Row → W}
    (hdel : ∀ r, M.change (del r) = some ⟨M.key r, some r, none⟩)
    {rs : List Row} {s : S} (keyed : Keyed M.key rs)
    (found : ∀ r ∈ rs, lookup M.key (M.key r) (M.rows s) = some r) :
    M.Replays e (rs.map del) s := by
  induction rs generalizing s with
  | nil => trivial
  | cons r rs ih =>
    refine ⟨fun ch hch => ?_, ih (List.nodup_cons.mp keyed).2 fun x hx => ?_⟩
    · rw [hdel r] at hch
      obtain rfl := Option.some.inj hch
      exact found r List.mem_cons_self
    · have apart : M.key x ≠ M.key r := fun same =>
        (List.nodup_cons.mp keyed).1 (same ▸ List.mem_map_of_mem hx)
      rw [lookup_redo lawful, hdel r]
      exact (if_neg apart).trans (found x (List.mem_cons_of_mem r hx))

theorem replays_inserts {ins : Row → W} (hins : ∀ r, M.change (ins r) = some ⟨M.key r, none, some r⟩)
    {rs : List Row} {s : S} (keyed : Keyed M.key rs)
    (fresh : ∀ r ∈ rs, lookup M.key (M.key r) (M.rows s) = none) :
    M.Replays e (rs.map ins) s := by
  induction rs generalizing s with
  | nil => trivial
  | cons r rs ih =>
    refine ⟨fun ch hch => ?_, ih (List.nodup_cons.mp keyed).2 fun x hx => ?_⟩
    · rw [hins r] at hch
      obtain rfl := Option.some.inj hch
      exact fresh r List.mem_cons_self
    · have apart : M.key x ≠ M.key r := fun same =>
        (List.nodup_cons.mp keyed).1 (same ▸ List.mem_map_of_mem hx)
      rw [lookup_redo lawful, hins r]
      exact (if_neg apart).trans (fresh x (List.mem_cons_of_mem r hx))

private theorem lookup_view {k : κ} {log : List W}
    (untouched : ∀ w ∈ log, ∀ ch ∈ M.change w, ch.key ≠ k)
    (s : S) : lookup M.key k (M.rows (e.view s log)) = lookup M.key k (M.rows s) := by
  induction log generalizing s with
  | nil => rfl
  | cons w log ih =>
    have tail := ih (fun x hx => untouched x (List.mem_cons_of_mem w hx)) (e.redo w s)
    refine Eq.trans tail ?_
    rw [lookup_redo lawful]
    cases hw : M.change w with
    | none => rfl
    | some ch => exact if_neg (Ne.symm (untouched w List.mem_cons_self ch hw))

private theorem count_redo_le {k : τ} {w : W} {s : S} (h : Keyed M.key (M.rows s))
    (found : ∀ ch ∈ M.change w, lookup M.key ch.key (M.rows s) = ch.before) :
    M.count k (e.redo w s) ≤ M.count k s + M.gain k w := by
  cases hw : M.change w with
  | none =>
    unfold count
    rw [lawful.kept w s hw]
    omega
  | some ch =>
    have moved : (replace M.key ch.key ch.after (M.rows s)).countP (M.counts k) +
        (lookup M.key ch.key (M.rows s)).toList.countP (M.counts k) =
          (M.rows s).countP (M.counts k) + ch.after.toList.countP (M.counts k) :=
      countP_replace h (M.counts k)
    rw [found ch hw] at moved
    have single (o : Option Row) :
        o.toList.countP (M.counts k) = if o.any (M.counts k) then 1 else 0 := by
      cases o with
      | none => rfl
      | some r => simp [List.countP_cons]
    rw [single, single] at moved
    unfold count gain
    rw [lawful.changed w ch s hw, hw]
    simp only [Bool.and_eq_true, Bool.not_eq_true']
    by_cases came : ch.after.any (M.counts k) = true <;>
      by_cases went : ch.before.any (M.counts k) = true <;>
      simp only [came, went, if_true, Bool.false_eq_true, if_false, and_self] at moved ⊢ <;>
      omega

private theorem count_view_le {k : τ} {log : List W} {s : S} (h : Keyed M.key (M.rows s))
    (replays : M.Replays e log s) :
    M.count k (e.view s log) ≤ M.count k s + M.gainOf k log := by
  induction log generalizing s with
  | nil => exact Nat.le_refl _
  | cons w log ih =>
    have first := count_redo_le (k := k) lawful h replays.1
    have rest := ih (keyed_redo lawful h w) replays.2
    have sum : M.gainOf k (w :: log) = M.gain k w + M.gainOf k log := rfl
    have unfold : e.view s (w :: log) = e.view (e.redo w s) log := rfl
    rw [unfold, sum]
    omega

-- What the others may do to a transaction, and what it may do to them.
omit lawful in
private theorem Metered.nil (c : S) (locks : List R) : M.Metered e c [] locks where
  replays := trivial
  locked := by simp
  fits _ := .inl rfl

private theorem Metered.rely {c c' : S} {log : List W} {locks : List R}
    (h : M.Metered e c log locks) (same : M.Agree locks c c')
    (kept : ∀ k, M.guards k log locks → M.count k c' ≤ M.count k c) :
    M.Metered e c' log locks where
  replays := h.replays.agree lawful same h.locked
  locked := h.locked
  fits k := by
    rcases h.fits k with none | ⟨guarded, fits⟩ | bare
    · exact .inl none
    · have := kept k guarded
      exact .inr (.inl ⟨guarded, by omega⟩)
    · exact .inr (.inr bare)

end Lawful

private theorem Metered.append {c : S} {log ws : List W} {locks held : List R}
    (h : M.Metered e c log locks) (more : ∀ r ∈ locks, r ∈ held)
    (replays : M.Replays e ws (e.view c log))
    (locked : ∀ w ∈ ws, ∀ ch ∈ M.change w, M.lock ch.key ∈ held)
    (fits : ∀ k, M.gainOf k (log ++ ws) = 0 ∨ (M.guards k (log ++ ws) held ∧
      (M.count k c + M.gainOf k (log ++ ws) : Int) ≤ M.cap k) ∨ M.bare k (log ++ ws)) :
    M.Metered e c (log ++ ws) held where
  replays := replays_append.mpr ⟨h.replays, replays⟩
  locked w hw ch hch := by
    rcases List.mem_append.mp hw with hw | hw
    · exact more _ (h.locked w hw ch hch)
    · exact locked w hw ch hch
  fits := fits

theorem Metered.fits_append {c : S} {log ws : List W} {locks held : List R}
    (h : M.Metered e c log locks) (more : ∀ r ∈ locks, r ∈ held)
    (nothing : ∀ k, M.gainOf k ws = 0) (k : τ) :
    M.gainOf k (log ++ ws) = 0 ∨ (M.guards k (log ++ ws) held ∧
      (M.count k c + M.gainOf k (log ++ ws) : Int) ≤ M.cap k) ∨ M.bare k (log ++ ws) := by
  rw [gainOf_append, nothing k, Nat.add_zero]
  rcases h.fits k with none | ⟨guarded, fits⟩ | bare
  · exact .inl none
  · exact .inr (.inl ⟨M.guards_append ws (M.guards_mono more guarded), fits⟩)
  · exact .inr (.inr (M.bare_append ws bare))

/-- Additions to a count exclude the other transactions that guard it. -/
def Exclusive (M : Meter S W R Row κ τ) : Prop :=
  ∀ k log locks log' others, M.clear log log' → (∀ r ∈ others, r ∉ locks) → M.gainOf k log ≠ 0 →
    M.guards k log locks ∨ M.bare k log → ¬ M.guards k log' others

/-- No two rows have one key, and no count is above its cap. -/
structure Within (M : Meter S W R Row κ τ) (c : S) : Prop where
  keyed : Keyed M.key (M.rows c)
  below : ∀ k, (M.count k c : Int) ≤ M.cap k

def terms (lawful : M.Lawful e) : Terms S W R Q where
  good := M.Within
  rely log locks c c' := M.Agree locks c c' ∧ ∀ k, M.guards k log locks → M.count k c' ≤ M.count k c
  cond _ _ _ _ := True
  ready c log := ∀ k, M.bare k log → (M.count k c + M.gainOf k log : Int) ≤ M.cap k
  clear := M.clear
  shape _ _ _ _ := True
  post _ := M.Metered e
  refl _ _ _ := ⟨fun _ _ => rfl, fun _ _ => Nat.le_refl _⟩
  trans h h' := ⟨fun k hk => (h'.1 k hk).trans (h.1 k hk),
    fun k hk => (h'.2 k hk).trans (h.2 k hk)⟩
  mono sub h := ⟨fun k hk => h.1 k (sub _ hk), fun k hk => h.2 k (M.guards_mono sub hk)⟩
  shape_rely _ _ := trivial
  shape_acquire _ _ _ := trivial
  post_rely _ h change := h.rely lawful change.1 change.2

/-- A transaction that has done what it has to keeps every cap when it commits. -/
theorem sound {lawful : M.Lawful e} {K : Q → Prop} (exclusive : M.Exclusive)
    (begins : ∀ q, K q → Triple e (M.terms lawful) q (fun _ log locks => log = [] ∧ locks = [])
      (e.program q) fun _ => M.Metered e) : Sound e (M.terms lawful) K where
  begins := begins
  commits := by
    intro q c log locks _ good post ready
    have grows (k : τ) := count_view_le (k := k) lawful good.keyed post.replays
    refine ⟨⟨keyed_view lawful good.keyed log, fun k => ?_⟩, fun log' others clear apart => ⟨?_, ?_⟩⟩
    · have := grows k
      rcases post.fits k with none | ⟨-, fits⟩ | bare
      · have := good.below k
        omega
      · omega
      · have := ready k bare
        omega
    · intro k hk
      refine lookup_view lawful (fun w hw ch hch same => ?_) c
      exact apart _ hk (same ▸ post.locked w hw ch hch)
    · intro k guarded
      have := grows k
      rcases post.fits k with none | fits
      · omega
      · by_cases idle : M.gainOf k log = 0
        · omega
        · exact absurd guarded
            (exclusive k log locks log' others clear apart idle (fits.imp And.left id))

theorem within_run [DecidableEq R] {lawful : M.Lawful e} {K : Q → Prop}
    (sound : Sound e (M.terms lawful) K) {c : S} (good : M.Within c) {as : List (Action R Q)}
    (allowed : Meets (step e) (Allowed (M.terms lawful) K) ⟨c, []⟩ as) :
    M.Within (run (step e) ⟨c, []⟩ as).committed :=
  (ok_run sound good allowed).good

/-- Where every addition is guarded by a lock, this needs no condition on the run. -/
theorem within_any_run [DecidableEq R] {lawful : M.Lawful e}
    (sound : Sound e (M.terms lawful) fun _ => True) (clear : ∀ log log', M.clear log log')
    (guarded : ∀ k log, ¬ M.bare k log) {c : S} (good : M.Within c) (as : List (Action R Q)) :
    M.Within (run (step e) ⟨c, []⟩ as).committed := by
  refine within_run sound good (meets_of_always (fun w a => ?_) _ _)
  cases a with
  | begin _ _ => trivial
  | start _ => trivial
  | acquire _ _ => trivial
  | exec _ => exact fun _ _ _ _ _ _ => trivial
  | commit _ =>
    exact fun t _ _ _ => ⟨fun k bare => (guarded k _ bare).elim, fun u _ _ => clear _ _⟩
  | abort _ => trivial

section Programs
variable {α : Type} {lawful : M.Lawful e} {q : Q}

/-- An assertion about the committed state that comes with being metered. -/
def With (M : Meter S W R Row κ τ) (e : Engine S W R Q) (F : Assertion S W R) : Assertion S W R :=
  fun c log locks => M.Metered e c log locks ∧ F c log locks

private theorem stable_metered : Stable (M.terms lawful) (M.Metered e) where
  rely _ _ h change := h.rely lawful change.1 change.2
  same := by
    intro c log locks held same h
    refine ⟨h.replays, fun w hw ch hch => (same _).mpr (h.locked w hw ch hch), fun k => ?_⟩
    refine (h.fits k).imp id (Or.imp (And.imp ?_ id) id)
    exact M.guards_mono fun r hr => (same r).mpr hr

private theorem stable_with {F : Assertion S W R} (h : Stable (M.terms lawful) F) :
    Stable (M.terms lawful) (M.With e F) := by
  have metered : Stable (M.terms lawful) (M.Metered e) := stable_metered
  exact ⟨fun good good' hA change => ⟨metered.rely good good' hA.1 change,
    h.rely good good' hA.2 change⟩, fun same hA => ⟨metered.same same hA.1, h.same same hA.2⟩⟩

/-- From `F` the program goes to `G`, writing only rows it holds and adding only what is guarded
and fits. -/
abbrev Ensures (lawful : M.Lawful e) (q : Q) (F : Assertion S W R) (p : Prog S W R α)
    (G : α → Assertion S W R) : Prop :=
  Triple e (M.terms lawful) q (M.With e F) p fun a => M.With e (G a)

theorem ensures_write {F : Assertion S W R} {G : α → Assertion S W R} {wants : S → List R}
    {act : Statement S R → S → Option (List W × α)} (stable : Stable (M.terms lawful) F)
    (acts : ∀ c₁ c₂ log locks held ws a, F c₁ log locks → M.With e F c₂ log locks →
      Moment e (M.terms lawful) q wants c₁ log locks c₁ c₂ held →
      act ⟨e.view c₁ log, wants (e.view c₁ log)⟩ (e.view c₂ log) = some (ws, a) →
      M.Replays e ws (e.view c₂ log) ∧ (∀ w ∈ ws, ∀ ch ∈ M.change w, M.lock ch.key ∈ held) ∧
      (∀ k, M.gainOf k (log ++ ws) = 0 ∨ (M.guards k (log ++ ws) held ∧
        (M.count k c₂ + M.gainOf k (log ++ ws) : Int) ≤ M.cap k) ∨ M.bare k (log ++ ws)) ∧
      G a c₂ (log ++ ws) held) :
    M.Ensures lawful q F (Prog.statement wants act) G := by
  refine triple_statement (stable_with stable) (fun _ _ _ _ _ => trivial) ?_
  intro c₁ c₂ log locks held ws a h₁ h₂ m hact
  obtain ⟨replays, locked, fits, hG⟩ := acts c₁ c₂ log locks held ws a h₁.2 h₂ m hact
  exact ⟨h₂.1.append (fun r hr => (m.held r).mpr (.inl hr)) replays locked fits, hG⟩

theorem ensures_aside {F : Assertion S W R} {G : α → Assertion S W R} {wants : S → List R}
    {act : Statement S R → S → Option (List W × α)} (stable : Stable (M.terms lawful) F)
    (acts : ∀ c₁ c₂ log locks held ws a, F c₁ log locks → F c₂ log locks →
      Moment e (M.terms lawful) q wants c₁ log locks c₁ c₂ held →
      act ⟨e.view c₁ log, wants (e.view c₁ log)⟩ (e.view c₂ log) = some (ws, a) →
      (∀ w ∈ ws, M.change w = none) ∧ G a c₂ (log ++ ws) held) :
    M.Ensures lawful q F (Prog.statement wants act) G := by
  refine ensures_write stable fun c₁ c₂ log locks held ws a h₁ h₂ m hact => ?_
  obtain ⟨aside, hG⟩ := acts c₁ c₂ log locks held ws a h₁ h₂.2 m hact
  have nothing (k : τ) : M.gainOf k ws = 0 := gainOf_eq_zero fun w hw => by simp [gain, aside w hw]
  have more : ∀ r ∈ locks, r ∈ held := fun r hr => (m.held r).mpr (.inl hr)
  refine ⟨replays_aside aside _, fun w hw ch hch => ?_, h₂.1.fits_append more nothing, hG⟩
  rw [aside w hw] at hch
  cases hch

def Idle (M : Meter S W R Row κ τ) : Assertion S W R := fun _ log _ =>
  ∀ w ∈ log, M.change w = none

omit [DecidableEq κ] in
theorem idle_gainOf {c : S} {log : List W} {locks : List R} (idle : M.Idle c log locks) (k : τ) :
    M.gainOf k log = 0 :=
  gainOf_eq_zero fun w hw => by simp [gain, idle w hw]

theorem idle_rows (lawful : M.Lawful e) {c : S} {log : List W} {locks : List R}
    (idle : M.Idle c log locks) : M.rows (e.view c log) = M.rows c := by
  induction log generalizing c with
  | nil => rfl
  | cons w log ih =>
    have first := lawful.kept w c (idle w List.mem_cons_self)
    exact (ih (c := e.redo w c) fun x hx => idle x (List.mem_cons_of_mem w hx)).trans first

theorem stable_idle : Stable (M.terms lawful) M.Idle := ⟨fun _ _ h _ => h, fun _ h => h⟩

theorem ensures_idle {wants : S → List R} {act : Statement S R → S → Option (List W × α)}
    (acts : ∀ st s ws a, act st s = some (ws, a) → ∀ w ∈ ws, M.change w = none) :
    M.Ensures lawful q M.Idle (Prog.statement wants act) fun _ => M.Idle := by
  refine ensures_aside stable_idle fun c₁ c₂ log locks held ws a _ idle m hact => ?_
  have aside := acts _ _ ws a hact
  exact ⟨aside, fun w hw => (List.mem_append.mp hw).elim (idle w) (aside w)⟩

theorem ensures_deletes (del : Row → W)
    (hdel : ∀ r, M.change (del r) = some ⟨M.key r, some r, none⟩) {wants : S → List R}
    {act : Statement S R → S → Option (List W × α)}
    (acts : ∀ st s ws a, act st s = some (ws, a) → ∃ p : Row → Bool,
      ws = ((M.rows s).filter p).map del ∧ ∀ r, p r = true → M.lock (M.key r) ∈ st.planned) :
    M.Ensures lawful q M.Idle (Prog.statement wants act) fun _ _ _ _ => True := by
  refine ensures_write stable_idle fun c₁ c₂ log locks held ws a _ h₂ m hact => ?_
  obtain ⟨p, rfl, planned⟩ := acts _ _ ws a hact
  have keyed := keyed_view lawful m.good₂.keyed log
  refine ⟨replays_deletes lawful hdel (keyed.filter p) fun r hr => ?_, fun w hw ch hch => ?_,
    fun k => .inl ?_, trivial⟩
  · exact (lookup_eq_some keyed).mpr ⟨(List.mem_filter.mp hr).1, rfl⟩
  · obtain ⟨r, hr, rfl⟩ := List.mem_map.mp hw
    rw [hdel r] at hch
    obtain rfl := Option.some.inj hch
    exact (m.held _).mpr (.inr (planned r (List.mem_filter.mp hr).2))
  · rw [gainOf_append, idle_gainOf h₂.2 k, gainOf_eq_zero, Nat.add_zero]
    intro w hw
    obtain ⟨r, -, rfl⟩ := List.mem_map.mp hw
    simp [gain, hdel r]

/-- A query without a locking clause adds a fact that others cannot make false. -/
theorem ensures_query {ε : Type} {F : Assertion S W R} {G : α → Assertion S W R}
    {query : S → Except ε α} (stable : Stable (M.terms lawful) F)
    (fact : ∀ a, Stable (M.terms lawful) (G a))
    (reads : ∀ a c log locks, M.Within c → F c log locks → query (e.view c log) = .ok a →
      G a c log locks) :
    M.Ensures lawful q F (Prog.select query) fun a c log locks =>
      F c log locks ∧ G a c log locks := by
  have h := triple_select (q := q) (stable_with stable) fact (fun _ _ _ _ _ => trivial)
    fun a c log locks good hA hq => reads a c log locks good hA.2 hq
  exact h.imp (fun _ _ _ _ hA => hA) fun a c log locks _ hA => ⟨hA.1.1, hA.1.2, hA.2⟩

theorem ensures_read {ε : Type} {F : Assertion S W R} {query : S → Except ε α}
    (stable : Stable (M.terms lawful) F) :
    M.Ensures lawful q F (Prog.select query) fun _ => F := by
  have h : M.Ensures lawful q F (Prog.select query) fun (_ : α) c log locks =>
      F c log locks ∧ True :=
    ensures_query stable (fun _ => ⟨fun _ _ _ _ => trivial, fun _ _ => trivial⟩)
      fun _ _ _ _ _ _ _ => trivial
  exact h.imp (fun _ _ _ _ hA => hA) fun a c log locks _ hA => ⟨hA.1, hA.2.1⟩

theorem ensures_check {ε : Type} {F : Assertion S W R} {x : Except ε α} :
    M.Ensures lawful q F (Prog.check x) fun _ => F :=
  triple_check fun _ _ _ _ _ _ hA => hA

/-- Where every program of a system ensures something, its runs are within the caps. -/
theorem begins_of_ensures {F : Assertion S W R} {G : Unit → Assertion S W R}
    (start : ∀ c, F c [] []) {p : Prog S W R Unit} (h : M.Ensures lawful q F p G) :
    Triple e (M.terms lawful) q (fun _ log locks => log = [] ∧ locks = []) p
      fun _ => M.Metered e := by
  refine h.imp (fun c log locks _ hA => ?_) fun _ _ _ _ _ hA => hA.1
  obtain ⟨rfl, rfl⟩ := hA
  exact ⟨.nil c [], start c⟩

end Programs

end Meter

end JitaCart.Base.ReadCommitted
