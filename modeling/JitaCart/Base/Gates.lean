/- module: JitaCart/Base/Gates
   source: none (library)
   digest: Transactions that take their gate before any other row never deadlock. -/

import JitaCart.Base.RelyGuarantee

/-!
Every row lies behind a gate, which is a row itself. A transaction that takes its
gate first and then only rows behind it either waits with empty hands, or for a
row that nobody else can hold.
-/

set_option autoImplicit false
set_option relaxedAutoImplicit false

namespace JitaCart.Base.ReadCommitted

open Request Table

variable {S W R Q : Type}

/-- A set of transactions in which each waits for a row of another one of the set. -/
def Deadlocked (w : Store S W R Q) : Prop :=
  ∃ ts : List (Tx S W R Q), ts ≠ [] ∧ ∀ t ∈ ts, t ∈ w.active ∧ ∃ u ∈ ts, Waits t u

def Store.stuck [DecidableEq R] (w : Store S W R Q) : Bool :=
  w.active.all fun t => w.active.any fun u => decide (t.id ≠ u.id) &&
    t.waiting.any fun p => p.wanted.any fun r => decide (r ∈ u.locks)

theorem deadlocked_of_stuck [DecidableEq R] {w : Store S W R Q} (nonempty : w.active ≠ [])
    (h : w.stuck = true) : Deadlocked w := by
  refine ⟨w.active, nonempty, fun t ht => ⟨ht, ?_⟩⟩
  obtain ⟨u, hu, waits⟩ := List.any_eq_true.mp (List.all_eq_true.mp h t ht)
  obtain ⟨other, waits⟩ := Bool.and_eq_true_iff.mp waits
  obtain ⟨p, hp, waits⟩ := (Option.any_eq_true _ _).mp waits
  obtain ⟨r, hr, held⟩ := List.any_eq_true.mp waits
  exact ⟨u, hu, of_decide_eq_true other, p, hp, r, hr, of_decide_eq_true held⟩

/-- `home` is the gate that a row lies behind. The states are `good` and the writes `fit` in every
interleaving, so a program may rely on both without a lock. -/
structure Gates (e : Engine S W R Q) where
  home : R → R
  gate : Q → R
  good : S → Prop
  fits : W → Prop
  good_redo : ∀ {w s}, fits w → good s → good (e.redo w s)

namespace Gates

variable {e : Engine S W R Q} (G : Gates e)

/-- The rows that are held and wanted lie behind the gate, and it is the first to be taken. -/
structure Behind (q : Q) (locks wanted : List R) : Prop where
  first : G.gate q ∈ locks ∨ (∀ r, r ∉ locks) ∧ ∀ r ∈ wanted, r = G.gate q
  held : ∀ r ∈ locks, G.home r = G.gate q
  wanted : ∀ r ∈ wanted, G.home r = G.gate q

/-- Others may change whatever they like. -/
def terms : Terms S W R Q where
  good := G.good
  rely _ _ _ _ := True
  cond _ _ _ _ := True
  ready _ _ := True
  clear _ _ := True
  shape q _ := G.Behind q
  post _ _ log _ := ∀ w ∈ log, G.fits w
  refl _ _ _ := trivial
  trans _ _ := trivial
  mono _ _ := trivial
  shape_rely h _ := h
  shape_acquire {q locks _ r wanted rest} h hr sub := by
    refine ⟨.inl ?_, fun x hx => ?_, fun x hx => h.wanted x (sub x hx)⟩
    · rcases h.first with taken | ⟨-, only⟩
      · exact List.mem_cons_of_mem r taken
      · exact only r hr ▸ List.mem_cons_self
    · rcases List.mem_cons.mp hx with rfl | hx
      · exact h.wanted x hr
      · exact h.held x hx
  post_rely _ h _ := h

private theorem good_view {log : List W} {s : S} (good : G.good s) (fits : ∀ w ∈ log, G.fits w) :
    G.good (e.view s log) := by
  induction log generalizing s with
  | nil => exact good
  | cons w log ih =>
    exact ih (G.good_redo (fits w List.mem_cons_self) good)
      fun x hx => fits x (List.mem_cons_of_mem w hx)

def Outside : Assertion S W R := fun _ log locks => log = [] ∧ ∀ r, r ∉ locks

/-- The gate is held, and nothing but rows behind it. -/
def Past (q : Q) : Assertion S W R := fun _ log locks =>
  (∀ w ∈ log, G.fits w) ∧ G.gate q ∈ locks ∧ ∀ r ∈ locks, G.home r = G.gate q

variable {G} {q : Q} {α β : Type}

theorem stable_outside : Stable G.terms (Outside : Assertion S W R) :=
  ⟨fun _ _ h _ => h, fun same h => ⟨h.1, fun r hr => h.2 r ((same r).mp hr)⟩⟩

private theorem stable_past : Stable G.terms (G.Past q) :=
  ⟨fun _ _ h _ => h, fun same h => ⟨h.1, (same _).mpr h.2.1, fun r hr => h.2.2 r ((same r).mp hr)⟩⟩

variable (G q) in
abbrev Free (p : Prog S W R α) (A : α → Prop) : Prop :=
  Triple e G.terms q Outside p fun a c log locks => Outside c log locks ∧ A a

variable (G q) in
/-- The program takes the gate, and ends with `A`. -/
abbrev Enters (p : Prog S W R α) (A : α → Prop) : Prop :=
  Triple e G.terms q Outside p fun a c log locks => G.Past q c log locks ∧ A a

variable (G q) in
/-- The program stays behind the gate, and ends with `A`. -/
abbrev Within (p : Prog S W R α) (A : α → Prop) : Prop :=
  Triple e G.terms q (G.Past q) p fun a c log locks => G.Past q c log locks ∧ A a

theorem triple_seq {T : Terms S W R Q} {F F' : Assertion S W R} {p : Prog S W R α}
    {k : α → Prog S W R β} {A : α → Prop} {B : β → Assertion S W R}
    (first : Triple e T q F p fun a c log locks => F' c log locks ∧ A a)
    (rest : ∀ a, A a → Triple e T q F' (k a) B) : Triple e T q F (p >>= k) B :=
  first.bind fun a c log locks good h => rest a h.2 c log locks good h.1

theorem within_pure {a : α} {A : α → Prop} (h : A a) : G.Within q (pure a) A :=
  triple_pure fun _ _ _ _ hF => ⟨hF, h⟩

theorem within_check {ε : Type} {x : Except ε α} {A : α → Prop} (h : ∀ a, x = .ok a → A a) :
    G.Within q (Prog.check x) A :=
  triple_check fun a hx _ _ _ _ hF => ⟨hF, h a hx⟩

theorem Within.imp {p : Prog S W R α} {A B : α → Prop} (h : G.Within q p A)
    (imp : ∀ a, A a → B a) : G.Within q p B :=
  Triple.imp h (fun _ _ _ _ hF => hF) fun a _ _ _ _ hF => ⟨hF.1, imp a hF.2⟩

theorem Within.ends {p : Prog S W R Unit} {A : Unit → Prop} (h : G.Within q p A) :
    Triple e G.terms q (G.Past q) p fun _ => G.terms.post q :=
  Triple.imp h (fun _ _ _ _ hF => hF) fun _ _ _ _ _ hF => hF.1.1

theorem within_statement {wants : S → List R} {act : Statement S R → S → Option (List W × α)}
    {A : α → Prop} (behind : ∀ s, G.good s → ∀ r ∈ wants s, G.home r = G.gate q)
    (acts : ∀ s₁ s₂ ws a, G.good s₁ → G.good s₂ → act ⟨s₁, wants s₁⟩ s₂ = some (ws, a) →
      (∀ w ∈ ws, G.fits w) ∧ A a) :
    G.Within q (Prog.statement wants act) A := by
  refine triple_statement stable_past (fun c log locks good h => ?_) ?_
  · exact ⟨.inl h.2.1, h.2.2, behind _ (G.good_view good h.1)⟩
  · intro c₁ c₂ log locks held ws a h₁ h₂ m hact
    have good₁ : G.good (e.view c₁ log) := G.good_view m.good₁ h₁.1
    have good₂ : G.good (e.view c₂ log) := G.good_view m.good₂ h₂.1
    obtain ⟨fits, hA⟩ := acts _ _ ws a good₁ good₂ hact
    refine ⟨⟨fun w hw => (List.mem_append.mp hw).elim (h₂.1 w) (fits w),
      (m.held _).mpr (.inl h₂.2.1), fun r hr => ?_⟩, hA⟩
    exact ((m.held r).mp hr).elim (h₂.2.2 r) (behind _ good₁ r)

theorem within_select {ε : Type} {query : S → Except ε α} {A : α → Prop}
    (reads : ∀ s a, G.good s → query s = .ok a → A a) : G.Within q (Prog.select query) A := by
  refine within_statement (by simp) fun s₁ _ ws a good₁ _ hact => ?_
  cases hq : query s₁ with
  | error _ => simp [hq, Except.toOption] at hact
  | ok b =>
    simp only [hq, Except.toOption, Option.map_some, Option.some.injEq, Prod.mk.injEq] at hact
    obtain ⟨rfl, rfl⟩ := hact
    exact ⟨by simp, reads s₁ b good₁ hq⟩

theorem within_forM {body : α → Prog S W R PUnit} (h : ∀ a, G.Within q (body a) fun _ => True)
    (xs : List α) : G.Within q (xs.forM body) fun _ => True := by
  have loop := triple_forM (A := G.Past q) (fun a => Triple.imp (h a) (fun _ _ _ _ hF => hF)
    fun _ _ _ _ _ hF => hF.1) xs
  exact Triple.imp loop (fun _ _ _ _ hF => hF) fun _ _ _ _ _ hF => ⟨hF, trivial⟩

theorem free_select {ε : Type} {query : S → Except ε α} {A : α → Prop}
    (reads : ∀ s a, G.good s → query s = .ok a → A a) : G.Free q (Prog.select query) A := by
  have outside (locks : List R) (h : ∀ r, r ∉ locks) : G.Behind q locks [] :=
    ⟨.inr ⟨h, by simp⟩, fun r hr => absurd hr (h r), by simp⟩
  refine Triple.imp (triple_select (F := fun a _ _ _ => A a) stable_outside
    (fun a => ⟨fun _ _ h _ => h, fun _ h => h⟩) (fun _ _ locks _ h => outside locks h.2) ?_)
    (fun _ _ _ _ h => h) fun _ _ _ _ _ h => h
  intro a c log locks good h hq
  obtain ⟨rfl, -⟩ := h
  exact reads c a good hq

theorem enters_statement {wants : S → List R} {act : Statement S R → S → Option (List W × α)}
    {A : α → Prop} (base : G.home (G.gate q) = G.gate q)
    (only : ∀ s, G.good s → ∀ r ∈ wants s, r = G.gate q)
    (acts : ∀ s₁ s₂ ws a, G.good s₁ → G.good s₂ → act ⟨s₁, wants s₁⟩ s₂ = some (ws, a) →
      G.gate q ∈ wants s₁ ∧ (∀ w ∈ ws, G.fits w) ∧ A a) :
    G.Enters q (Prog.statement wants act) A := by
  refine triple_statement stable_outside (fun c log locks good h => ?_) ?_
  · obtain ⟨rfl, empty⟩ := h
    exact ⟨.inr ⟨empty, only _ good⟩, fun r hr => absurd hr (empty r),
      fun r hr => (only _ good r hr).symm ▸ base⟩
  · intro c₁ c₂ log locks held ws a h₁ _ m hact
    obtain ⟨rfl, empty⟩ := h₁
    obtain ⟨taken, fits, hA⟩ := acts _ _ ws a m.good₁ m.good₂ hact
    refine ⟨⟨fits, (m.held _).mpr (.inr taken), fun r hr => ?_⟩, hA⟩
    rcases (m.held r).mp hr with hr | hr
    · exact absurd hr (empty r)
    · exact (only _ m.good₁ r hr).symm ▸ base

theorem ends_statement {wants : S → List R} {act : Statement S R → S → Option (List W × α)}
    (base : G.home (G.gate q) = G.gate q)
    (only : ∀ s, G.good s → ∀ r ∈ wants s, r = G.gate q)
    (acts : ∀ s₁ s₂ ws a, G.good s₁ → G.good s₂ → act ⟨s₁, wants s₁⟩ s₂ = some (ws, a) →
      ∀ w ∈ ws, G.fits w) :
    Triple e G.terms q Outside (Prog.statement wants act) fun _ => G.terms.post q := by
  refine triple_statement stable_outside (fun c log locks good h => ?_) ?_
  · obtain ⟨rfl, empty⟩ := h
    exact ⟨.inr ⟨empty, only _ good⟩, fun r hr => absurd hr (empty r),
      fun r hr => (only _ good r hr).symm ▸ base⟩
  · intro c₁ c₂ log locks held ws a h₁ _ m hact
    obtain ⟨rfl, -⟩ := h₁
    exact acts _ _ ws a m.good₁ m.good₂ hact

private theorem sound {K : Q → Prop} (begins : ∀ q, K q →
    Triple e G.terms q Outside (e.program q) fun _ => G.terms.post q) : Sound e G.terms K where
  begins q hq c log locks good h :=
    begins q hq c log locks good ⟨h.1, fun r hr => by simp [h.2] at hr⟩
  commits _ _ _ _ _ good post _ := ⟨G.good_view good post, fun _ _ _ _ => trivial⟩

/-- Two transactions behind one gate: the one that waits for the other would hold the gate too. -/
private theorem not_deadlocked {K : Q → Prop} {w : Store S W R Q} (ok : Ok e G.terms K w) :
    ¬ Deadlocked w := by
  rintro ⟨ts, nonempty, each⟩
  -- Who waits for a row of `u` finds `u` waiting itself, with rows in its hands.
  have waiting {t u : Tx S W R Q} (hu : u ∈ ts) (h : Waits t u) :
      G.gate u.request ∈ u.locks ∧ ∀ r ∈ u.locks, G.home r = G.gate u.request := by
    obtain ⟨-, -, -, r, -, held⟩ := h
    obtain ⟨active, v, -, -, p, hp, -⟩ := each u hu
    have shape := ((ok.going u active).mid p hp).1
    rcases shape.first with taken | ⟨empty, -⟩
    · exact ⟨taken, shape.held⟩
    · exact absurd held (empty r)
  obtain ⟨t, ht⟩ := List.exists_mem_of_ne_nil ts nonempty
  obtain ⟨-, u, hu, tu⟩ := each t ht
  obtain ⟨active, v, hv, uv⟩ := each u hu
  have mine := waiting hu tu
  have theirs := waiting hv uv
  obtain ⟨other, p, hp, r, wanted, held⟩ := uv
  have same : G.gate u.request = G.gate v.request :=
    (((ok.going u active).mid p hp).1.wanted r wanted).symm.trans (theirs.2 r held)
  exact ok.apart u active v (each v hv).1 other _ mine.1 (same ▸ theirs.1)

variable [DecidableEq R]

theorem not_deadlocked_run {K : Q → Prop} (begins : ∀ q, K q →
    Triple e G.terms q Outside (e.program q) fun _ => G.terms.post q) {c : S} (good : G.good c)
    {as : List (Action R Q)} (known : ∀ id q, .begin id q ∈ as → K q) :
    ¬ Deadlocked (run (step e) ⟨c, []⟩ as) := by
  refine not_deadlocked (K := K) (ok_run (sound begins) good ?_)
  refine meets_of_forall fun before a after split => ?_
  cases a with
  | begin id q => exact known id q (split ▸ List.mem_append_right _ List.mem_cons_self)
  | commit _ => exact fun _ _ _ _ => ⟨trivial, fun _ _ _ => trivial⟩
  | exec _ => exact fun _ _ _ _ _ _ => trivial
  | _ => trivial

end Gates

end JitaCart.Base.ReadCommitted
