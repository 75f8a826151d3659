/- module: JitaCart/Base/Guarded
   source: none (library)
   digest: Invariants with one part for each key, where the lock of a row guards the part. -/

import JitaCart.Base.Replay

/-!
What a transaction does to the part of a key it does under the lock of the key's
guard. Under the lock nobody else changes the part; without it the transaction
has not changed the part itself, so the part is as right as it was committed.
-/

set_option autoImplicit false
set_option relaxedAutoImplicit false

namespace JitaCart.Base.ReadCommitted

variable {S W R Q α β : Type}

/-- The parts of an invariant, each with the row whose lock guards it. -/
structure Guard {e : Engine S W R Q} (D : Discipline e) (K : Type) where
  row : K → R
  holds : K → S → Prop
  same : ∀ {k locks s s'}, D.good s → D.good s' → D.same locks s s' → row k ∈ locks →
    holds k s → holds k s'

private theorem Discipline.same_nil {e : Engine S W R Q} (D : Discipline e) {locks : List R}
    {s s' : S} (h : D.same locks s s') : D.same [] s s' :=
  D.mono (fun _ hr => absurd hr List.not_mem_nil) h

namespace Guard

variable {e : Engine S W R Q} {D : Discipline e} {K : Type} (H : Guard D K)

/-- Outside `broken` every part is right in what the transaction sees. -/
def Mended (broken : K → Prop) : Assertion S W R := fun c log _ =>
  ∀ k, ¬ broken k → H.holds k (e.view c log)

/-- What stays true wherever the transaction and the others go. -/
def Lasting (D : Discipline e) (φ : S → Prop) : Prop :=
  ∀ s s', D.good s → D.good s' → D.same [] s s' → φ s → φ s'

/-- These rows are locked, and the transaction has seen `φ`. -/
def Holding (broken : K → Prop) (rows : List R) (φ : S → Prop) : Assertion S W R :=
  fun c log locks => H.Mended broken c log locks ∧ (∀ r ∈ rows, r ∈ locks) ∧ φ (e.view c log)

variable {q : Q} {c c' : S} {log : List W} {locks rows : List R} {broken : K → Prop}
  {φ ψ : S → Prop}

theorem Lasting.and (h : Lasting D φ) (h' : Lasting D ψ) : Lasting D fun s => φ s ∧ ψ s :=
  fun s s' good good' same hs => ⟨h s s' good good' same hs.1, h' s s' good good' same hs.2⟩

/-- A transaction does not touch a part whose guard it does not hold. -/
private theorem holds_view {k : K} (right : D.Right q c log locks) (free : H.row k ∉ locks)
    (h : H.holds k c) : H.holds k (e.view c log) := by
  have apart : ∀ r ∈ [H.row k], r ∉ locks := by simpa using free
  have same : D.same [H.row k] c (e.view c log) :=
    Discipline.frame_view right.good right.replays right.own apart
  exact H.same right.good right.view same List.mem_cons_self h

private theorem Mended.rely {H : Guard D K} (h : H.Mended broken c log locks)
    (right : D.Right q c log locks) (good' : D.good c') (inv' : ∀ k, H.holds k c')
    (same : D.same locks c c') : H.Mended broken c' log locks := by
  intro k hk
  have right' := right.rely good' same
  by_cases held : H.row k ∈ locks
  · exact H.same right.view right'.view (right.view_same good' same) held (h k hk)
  · exact H.holds_view right' held (inv' k)

def promise (cond : Q → S → List W → Statement S R → Prop) : Promise D where
  inv c := ∀ k, H.holds k c
  leaves _ _ _ := True
  done _ := H.Mended fun _ => False
  cond := cond
  ready _ _ := True
  clear _ _ := True
  refl _ _ := trivial
  trans _ _ := trivial
  done_rely right good' inv' same _ h := h.rely right good' inv' same

variable {cond : Q → S → List W → Statement S R → Prop}

private theorem stable_holding (lasting : Lasting D φ) :
    Stable (H.promise cond).terms (D.With q (H.Holding broken rows φ)) where
  rely _ good' h change := by
    have right' := h.1.rely good'.1 change.1
    have view := D.same_nil (h.1.view_same good'.1 change.1)
    exact ⟨right', h.2.1.rely h.1 good'.1 good'.2 change.1, h.2.2.1,
      lasting _ _ h.1.view right'.view view h.2.2.2⟩
  same same h := ⟨h.1.mono fun r hr => (same r).mpr hr, h.2.1,
    fun r hr => (same r).mpr (h.2.2.1 r hr), h.2.2.2⟩

theorem sound {A : Q → Prop}
    (keeps : ∀ q, A q → (H.promise cond).Keeps q (H.Mended fun _ => False) (e.program q)
      fun _ => H.Mended fun _ => False) : Sound e (H.promise cond).terms A := by
  refine Promise.sound _ (fun q hq => (keeps q hq).imp (fun c log locks good h => ?_)
    fun _ _ _ _ _ h => h) fun q c log locks _ done _ => ⟨fun k => done.2 k id, fun _ _ => trivial⟩
  obtain ⟨rfl, rfl⟩ := h
  exact ⟨.nil good.1, fun k _ => good.2 k⟩

theorem keeps_holding {G : α → Assertion S W R} {wants : S → List R}
    {act : Statement S R → S → Option (List W × α)} (lasting : Lasting D φ)
    (acts : ∀ c₁ c₂ log locks held ws a, D.With q (H.Holding broken rows φ) c₁ log locks →
      D.With q (H.Holding broken rows φ) c₂ log locks →
      D.same locks (e.view c₁ log) (e.view c₂ log) → (∀ r ∈ locks, r ∈ held) →
      (∀ r ∈ wants (e.view c₁ log), r ∈ held) →
      cond q c₂ log ⟨e.view c₁ log, wants (e.view c₁ log)⟩ →
      act ⟨e.view c₁ log, wants (e.view c₁ log)⟩ (e.view c₂ log) = some (ws, a) →
      D.Replays ws (e.view c₂ log) ∧ (∀ w ∈ ws, D.own q held w) ∧ G a c₂ (log ++ ws) held) :
    (H.promise cond).Keeps q (H.Holding broken rows φ) (Prog.statement wants act) G := by
  refine Promise.keeps_write (H.stable_holding lasting) ?_
  intro c₁ c₂ log locks held ws a h₁ h₂ m hact
  exact acts c₁ c₂ log locks held ws a h₁ h₂ (h₁.1.view_same m.good₂.1 m.during.1)
    (fun r hr => (m.held r).mpr (.inl hr)) (fun r hr => (m.held r).mpr (.inr hr)) m.cond hact

/-- What a locking read or a query finds. `fact` does not depend on the state. -/
theorem keeps_found {wants : S → List R} {act : Statement S R → S → Option (List W × α)}
    {ψ : α → S → Prop} {fact : α → Prop} (new : α → List R) (lasting : Lasting D φ)
    (reads : ∀ st s₂ ws a, D.good st.snapshot → D.good s₂ → D.same [] st.snapshot s₂ →
      φ st.snapshot → φ s₂ → act st s₂ = some (ws, a) → st.planned = wants st.snapshot →
      ws = [] ∧ (∀ r ∈ new a, r ∈ st.planned) ∧ ψ a s₂ ∧ fact a) :
    (H.promise cond).Keeps q (H.Holding broken rows φ) (Prog.statement wants act)
      fun a c log locks => H.Holding broken (new a ++ rows) (fun s => φ s ∧ ψ a s) c log locks ∧
        fact a := by
  refine H.keeps_holding lasting ?_
  intro c₁ c₂ log locks held ws a h₁ h₂ same more planned _ hact
  obtain ⟨rfl, new, seen, fact⟩ := reads ⟨e.view c₁ log, wants (e.view c₁ log)⟩ _ ws a h₁.1.view
    h₂.1.view (D.same_nil same) h₁.2.2.2 h₂.2.2.2 hact rfl
  rw [List.append_nil]
  refine ⟨trivial, by simp, ⟨h₂.2.1, fun r hr => ?_, h₂.2.2.2, seen⟩, fact⟩
  rcases List.mem_append.mp hr with hr | hr
  · exact planned r (new r hr)
  · exact more r (h₂.2.2.1 r hr)

/-- A fact that does not depend on the state lets the rest go on with it. -/
theorem keeps_given {P : Promise D} {F : Assertion S W R} {G : α → Assertion S W R} {fact : Prop}
    {p : Prog S W R α} (h : fact → P.Keeps q F p G) :
    P.Keeps q (fun c log locks => F c log locks ∧ fact) p G :=
  fun c log locks good hA => h hA.2.2 c log locks good ⟨hA.1, hA.2.1⟩

/-- What a statement writes lands, is its own, and concerns no part. -/
structure Silent (q : Q) (st : Statement S R) (s : S) (ws : List W) : Prop where
  replays : D.Replays ws s
  own : ∀ held, (∀ r ∈ st.planned, r ∈ held) → ∀ w ∈ ws, D.own q held w
  keeps : ∀ k, H.holds k s → H.holds k (e.view s ws)

/-- All statements of the program are silent. -/
def Calm (q : Q) : Prog S W R α → Prop
  | .stmt _ writes next => ∀ st s, D.good st.snapshot → D.good s →
      H.Silent q st s (writes st s) ∧ Calm q (next st s)
  | _ => True

variable {H}

theorem silent_nil {st : Statement S R} {s : S} : H.Silent q st s [] where
  replays := trivial
  own := by simp
  keeps _ h := h

theorem silent_cons {st : Statement S R} {s : S} {w : W} {ws : List W} (ok : D.ok w s)
    (own : ∀ held, (∀ r ∈ st.planned, r ∈ held) → D.own q held w)
    (keeps : ∀ k, H.holds k s → H.holds k (e.redo w s)) (rest : H.Silent q st (e.redo w s) ws) :
    H.Silent q st s (w :: ws) where
  replays := ⟨ok, rest.replays⟩
  own held planned x hx := by
    rcases List.mem_cons.mp hx with rfl | hx
    · exact own held planned
    · exact rest.own held planned x hx
  keeps k h := rest.keeps k (keeps k h)

theorem calm_bind {p : Prog S W R α} {next : α → Prog S W R β} (first : H.Calm q p)
    (rest : ∀ a, H.Calm q (next a)) : H.Calm q (p >>= next) := by
  induction p with
  | done a => exact rest a
  | fail => trivial
  | stmt wants writes go ih =>
    exact fun st s hst hs => ⟨(first st s hst hs).1, ih st s (first st s hst hs).2⟩

theorem calm_statement {wants : S → List R} {act : Statement S R → S → Option (List W × α)}
    (h : ∀ st s ws a, D.good st.snapshot → D.good s → act st s = some (ws, a) →
      H.Silent q st s ws) : H.Calm q (Prog.statement wants act) := by
  intro st s hst hs
  simp only
  cases hact : act st s with
  | none => exact ⟨silent_nil, trivial⟩
  | some x => exact ⟨h st s x.1 x.2 hst hs hact, trivial⟩

theorem calm_reads {wants : S → List R} {act : Statement S R → S → Option (List W × α)}
    (h : ∀ st s ws a, act st s = some (ws, a) → ws = []) : H.Calm q (Prog.statement wants act) :=
  calm_statement fun st s ws a _ _ hact => h st s ws a hact ▸ silent_nil

theorem calm_select {ε : Type} (query : S → Except ε α) :
    H.Calm q (Prog.select query : Prog S W R α) := by
  refine calm_reads fun st s ws a h => ?_
  obtain ⟨_, -, h⟩ := Option.map_eq_some_iff.mp h
  exact (Prod.mk.inj h).1.symm

theorem calm_check {ε : Type} (x : Except ε α) : H.Calm q (Prog.check x : Prog S W R α) := by
  cases x <;> trivial

theorem calm_pure (a : α) : H.Calm q (pure a : Prog S W R α) := trivial

theorem calm_forM {body : α → Prog S W R PUnit} (h : ∀ a, H.Calm q (body a)) (xs : List α) :
    H.Calm q (xs.forM body) := by
  induction xs with
  | nil => trivial
  | cons x xs ih => exact calm_bind (h x) fun _ => ih

/-- What was seen before a statement of the transaction itself is there after it. -/
theorem seen_after (lasting : Lasting D φ) {held : List R} {ws : List W} {s : S} (good : D.good s)
    (replays : D.Replays ws s) (own : ∀ w ∈ ws, D.own q held w) (seen : φ s) : φ (e.view s ws) := by
  have apart : ∀ r ∈ ([] : List R), r ∉ held := fun _ hr => absurd hr List.not_mem_nil
  have view := Discipline.frame_view good replays own apart
  exact lasting _ _ good (Discipline.good_view good replays) view seen

private theorem holding_silent (lasting : Lasting D φ) {st : Statement S R} {held : List R}
    {ws : List W}
    (h : D.With q (H.Holding broken rows φ) c log locks) (more : ∀ r ∈ locks, r ∈ held)
    (planned : ∀ r ∈ st.planned, r ∈ held) (silent : H.Silent q st (e.view c log) ws) :
    D.With q (H.Holding broken rows φ) c (log ++ ws) held := by
  have own := silent.own held planned
  refine ⟨h.1.append more silent.replays own, fun k hk => ?_, fun r hr => more r (h.2.2.1 r hr), ?_⟩
  · rw [view_append]
    exact silent.keeps k (h.2.1 k hk)
  · rw [view_append]
    exact seen_after lasting h.1.view silent.replays own h.2.2.2

/-- A statement may be silent because of what the transaction has seen. -/
theorem keeps_silent {wants : S → List R} {act : Statement S R → S → Option (List W × α)}
    (lasting : Lasting D φ)
    (acts : ∀ st s ws a, D.good s → φ s → act st s = some (ws, a) → H.Silent q st s ws) :
    (H.promise cond).Keeps q (H.Holding broken rows φ) (Prog.statement wants act)
      fun _ => H.Holding broken rows φ := by
  refine H.keeps_holding lasting ?_
  intro c₁ c₂ log locks held ws a _ h₂ _ more planned _ hact
  have silent := acts _ _ ws a h₂.1.view h₂.2.2.2 hact
  exact ⟨silent.replays, silent.own held planned, (holding_silent lasting h₂ more planned silent).2⟩

/-- Calm programs keep what is right, and what the transaction has locked and seen. -/
theorem keeps_calm {p : Prog S W R α} (lasting : Lasting D φ) (calm : H.Calm q p) :
    (H.promise cond).Keeps q (H.Holding broken rows φ) p fun _ => H.Holding broken rows φ := by
  induction p with
  | done a => exact fun _ _ _ _ h => h
  | fail => exact fun _ _ _ _ _ => trivial
  | stmt wants writes next ih =>
    intro c log locks good h
    refine ⟨fun _ _ _ => trivial, fun c₁ c₂ held m => ?_⟩
    have stable : Stable (H.promise cond).terms (D.With q (H.Holding broken rows φ)) :=
      H.stable_holding lasting
    have h₁ := stable.rely good m.good₁ h m.before
    have h₂ := stable.rely m.good₁ m.good₂ h₁ m.during
    obtain ⟨silent, rest⟩ := calm ⟨e.view c₁ log, wants (e.view c₁ log)⟩ (e.view c₂ log)
      h₁.1.view h₂.1.view
    exact ih _ _ rest c₂ _ held m.good₂ (holding_silent lasting h₂
      (fun r hr => (m.held r).mpr (.inl hr)) (fun r hr => (m.held r).mpr (.inr hr)) silent)

theorem keeps_calm_mended {p : Prog S W R α} (calm : H.Calm q p) :
    (H.promise cond).Keeps q (H.Mended broken) p fun _ => H.Mended broken := by
  have lasting : Lasting D fun _ => True := fun _ _ _ _ _ _ => trivial
  have h : (H.promise cond).Keeps q (H.Holding broken [] fun _ => True) p
      fun _ => H.Holding broken [] fun _ => True := keeps_calm lasting calm
  exact h.imp (fun c log locks _ h => ⟨h.1, h.2, by simp, trivial⟩) fun _ c log locks _ h =>
    ⟨h.1, h.2.1⟩

end Guard

end JitaCart.Base.ReadCommitted
