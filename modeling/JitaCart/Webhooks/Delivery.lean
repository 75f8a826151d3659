/- module: JitaCart/Webhooks/Delivery
   source: backend/crates/worker/src/jobs/pending_webhooks.rs,
     backend/crates/webhook-dispatch/src/lib.rs
   digest: What is stored, taken and posted is what was fired, and goes to Discord. -/

import JitaCart.Webhooks.Outbox

set_option autoImplicit false
set_option relaxedAutoImplicit false

namespace JitaCart.Webhooks.Outbox

open Base.Table Base.Request Base.Json Schema

variable {db : Database} {s s' : Outbox}

/-- The row holds an event that was fired for its group. -/
def Stored (s : Outbox) (row : Row) : Prop :=
  ∃ f ∈ s.fired, f.id = row.id ∧ f.groupId = row.groupId ∧
    WebhookEvent.fromValue row.payload = some f.event

/-- The request tells of an event that was fired for its group, and goes to an allowed place. -/
def Genuine (s : Outbox) (post : Post) : Prop :=
  Allowed post.url ∧
    ∃ f ∈ s.fired, f.id = post.id ∧ f.groupId = post.groupId ∧ post.payload = buildPayload f.event

structure Sound (s : Outbox) : Prop where
  pending : Keyed PendingWebhook.id s.pending
  fired : Keyed Fired.id s.fired
  workers : Keyed Drain.worker s.drains
  rows : ∀ d ∈ s.drains, Keyed Row.id d.rows
  stored : ∀ p ∈ s.pending, s.Stored p.row
  taken : ∀ d ∈ s.drains, ∀ row ∈ d.rows, s.Stored row
  allowed : ∀ row ∈ s.webhooks, Allowed row.config.webhookUrl
  genuine : ∀ post ∈ s.posts, s.Genuine post
  readable : ∀ o ∈ s.outcomes, o.2 ≠ .unreadable

theorem sound_empty (clock : Nat) : Sound (empty clock) := by
  constructor <;> simp [empty, Keyed]

private theorem Stored.more {row : Row} (h : s.Stored row) (more : ∀ f ∈ s.fired, f ∈ s'.fired) :
    s'.Stored row := by
  obtain ⟨f, hf, rest⟩ := h
  exact ⟨f, more f hf, rest⟩

private theorem Genuine.more {post : Post} (h : s.Genuine post)
    (more : ∀ f ∈ s.fired, f ∈ s'.fired) :
    s'.Genuine post := by
  obtain ⟨allowed, f, hf, rest⟩ := h
  exact ⟨allowed, f, more f hf, rest⟩

private theorem Sound.fire (ok : Sound s) {id groupId : Uuid} {event : WebhookEvent} {began : Nat}
    (h : s.fire db id groupId event began = .ok s') : Sound s' := by
  obtain ⟨-, fresh, -, rfl⟩ := fire_ok h
  have more (f : Fired) (hf : f ∈ s.fired) : f ∈ (⟨id, groupId, event⟩ : Fired) :: s.fired :=
    List.mem_cons_of_mem _ hf
  have new (f : Fired) (hf : f ∈ s.fired) : f.id ≠ id := fun same =>
    fresh (same ▸ List.mem_map_of_mem hf)
  refine ⟨ok.pending.append fun p hp same => ?_, ?_, ok.workers, ok.rows, fun p hp => ?_,
    fun d hd row hrow => (ok.taken d hd row hrow).more more, ok.allowed,
    fun post hpost => (ok.genuine post hpost).more more, ok.readable⟩
  · obtain ⟨f, hf, id, -⟩ := ok.stored p hp
    exact new f hf (id.trans same)
  · exact List.nodup_cons.mpr ⟨fresh, ok.fired⟩
  · rcases List.mem_append.mp hp with old | own
    · exact (ok.stored p old).more more
    · obtain rfl := List.mem_singleton.mp own
      exact ⟨_, List.mem_cons_self, rfl, rfl,
        WebhookEvent.fromValue_perm (db.fields.perm event.toObject)⟩

/-- Rows of `pending_webhooks` that are updated keep what they hold. -/
private theorem Sound.update (ok : Sound s) {p : PendingWebhook → Bool}
    {f : PendingWebhook → PendingWebhook} (id : ∀ x, (f x).id = x.id)
    (same : ∀ x, s.Stored x.row → s.Stored (f x).row) :
    Sound { s with pending := updateWhere p f s.pending } := by
  refine { ok with pending := ok.pending.updateWhere id, stored := fun x hx => ?_ }
  obtain ⟨y, hy, rfl⟩ := mem_updateWhere.mp hx
  split
  · exact same y (ok.stored y hy)
  · exact ok.stored y hy

private theorem Sound.remove (ok : Sound s) (p : PendingWebhook → Bool) :
    Sound { s with pending := s.pending.filter p } :=
  { ok with
    pending := ok.pending.filter p
    stored := fun x hx => ok.stored x (List.mem_of_mem_filter hx) }

private theorem Sound.setDrain (ok : Sound s) (worker : Nat) {d : Option Drain}
    (own : ∀ x ∈ d, x.worker = worker) (rows : ∀ x ∈ d, Keyed Row.id x.rows)
    (taken : ∀ x ∈ d, ∀ row ∈ x.rows, s.Stored row) :
    Sound { s with drains := s.setDrain worker d } := by
  refine { ok with
    workers := keyed_replace ok.workers own
    rows := fun x hx => ?_
    taken := fun x hx => ?_ }
  · rcases mem_setDrain.mp hx with ⟨old, -⟩ | new
    · exact ok.rows x old
    · exact rows x new
  · rcases mem_setDrain.mp hx with ⟨old, -⟩ | new
    · exact ok.taken x old
    · exact taken x new

private theorem Sound.turn (ok : Sound s) {worker leasedUntil since : Nat} {rows : List Row}
    (keyed : Keyed Row.id rows) (taken : ∀ row ∈ rows, s.Stored row) :
    Sound { s with drains := s.setDrain worker (Drain.turn worker rows leasedUntil since) } := by
  refine ok.setDrain worker (fun x hx => ?_) (fun x hx => ?_) fun x hx => ?_
  all_goals obtain ⟨-, rfl⟩ := turn_eq_some.mp hx
  · rfl
  · exact keyed
  · exact taken

private theorem Sound.claim (ok : Sound s) {worker began : Nat} {skipped : List Uuid}
    (h : s.claim db worker began skipped = .ok s') : Sound s' := by
  obtain ⟨rows, -, -, -, nodup, due, rfl⟩ := claim_ok h
  have leased := ok.update (p := fun p => decide (p.id ∈ rows.map PendingWebhook.id))
    (f := fun p => { p with nextAttemptAt := began + LEASE_SECS }) (fun _ => rfl) fun _ h => h
  refine leased.turn (Keyed.map (fun _ => rfl) ?_) fun row hrow => ?_
  · exact (List.nodup_map_iff_inj_on (nodup ok.pending.nodup)).mpr fun x hx y hy same =>
      ok.pending.eq_of_key (due x hx).1 (due y hy).1 same
  · obtain ⟨p, hp, rfl⟩ := List.mem_map.mp hrow
    exact ok.stored p (due p hp).1

private theorem handle_stored {row : Row} (connected success : Bool) (stored : s.Stored row)
    (allowed : ∀ row ∈ s.webhooks, Allowed row.config.webhookUrl) :
    (s.handle row connected success).1 ≠ .unreadable ∧
      ∀ post ∈ (s.handle row connected success).2, s.Genuine post := by
  obtain ⟨f, hf, id, group, read⟩ := stored
  simp only [handle, read, dispatchWebhook]
  split
  · cases config : fetchRow s.webhooks row.groupId with
    | none => simp
    | some c =>
      simp only
      split
      · refine ⟨by cases success <;> simp, fun post hpost => ?_⟩
        obtain rfl := List.mem_singleton.mp hpost
        exact ⟨allowed _ (fetchRow_mem config), f, hf, id, group, rfl⟩
      · simp
  · simp

private theorem Sound.dispatch (ok : Sound s) {worker : Nat} {connected success : Bool}
    (h : s.dispatch worker connected success = .ok s') : Sound s' := by
  obtain ⟨d, row, rest, hd, rfl, rows, -, rfl⟩ := dispatch_ok h
  have stored : s.Stored row := ok.taken d hd row (rows ▸ List.mem_cons_self)
  obtain ⟨read, genuine⟩ := handle_stored connected success stored ok.allowed
  have turned := ok.setDrain d.worker
    (d := some { d with verdict := some (s.handle row connected success).1 })
    (fun x hx => by rw [← Option.some.inj hx]) (fun x hx => Option.some.inj hx ▸ ok.rows d hd)
    fun x hx => Option.some.inj hx ▸ ok.taken d hd
  refine { turned with
    genuine := fun post hpost => ?_
    readable := fun o ho => ?_ }
  · exact (List.mem_append.mp hpost).elim (genuine post) (ok.genuine post)
  · rcases List.mem_cons.mp ho with rfl | old
    · exact read
    · exact ok.readable o old

private theorem Sound.written (ok : Sound s) (row : Row) (began : Nat)
    (verdict : Base.Leases.Verdict) :
    Sound { s with pending := s.written row began verdict } := by
  cases verdict with
  | handled => exact ok.remove _
  | unreadable => exact ok.remove _
  | failed =>
    simp only [Outbox.written]
    split
    · exact ok.remove _
    · exact ok.update (fun _ => rfl) fun _ h => h

private theorem Sound.record (ok : Sound s) {worker began : Nat} {connected : Bool}
    (h : s.record worker began connected = .ok s') : Sound s' := by
  obtain ⟨d, row, rest, verdict, hd, rfl, rows, -, -, done⟩ := record_ok h
  have keyed : Keyed Row.id rest := by
    have all := ok.rows d hd
    rw [rows] at all
    exact (List.nodup_cons.mp all).2
  have taken (r : Row) (hr : r ∈ rest) : s.Stored r :=
    ok.taken d hd r (rows ▸ List.mem_cons_of_mem _ hr)
  rcases done with ⟨-, rfl⟩ | ⟨-, -, rfl⟩ | ⟨-, -, rfl⟩
  · exact (ok.written row began verdict).turn keyed taken
  · exact ok.turn keyed taken
  · exact ok.setDrain d.worker (by simp) (by simp) (by simp)

theorem sound_step {a : Action} (ok : Sound s) (h : step db a s = .ok s') : Sound s' := by
  cases a with
  | createGroup groupId =>
    obtain rfl := Except.ok.inj h
    exact { ok with }
  | deleteGroup groupId =>
    obtain rfl := Except.ok.inj h
    have removed := ok.remove fun p => decide (p.groupId ≠ groupId)
    refine { removed with allowed := fun row hrow => ?_ }
    rcases mem_replace.mp hrow with ⟨old, -⟩ | none
    · exact ok.allowed row old
    · cases none
  | upsertWebhook groupId role body =>
    obtain ⟨webhooks, new, rfl⟩ := upsertWebhook_ok h
    exact { ok with allowed := allowed_upsert new ok.allowed }
  | deleteWebhook groupId role =>
    obtain ⟨webhooks, gone, rfl⟩ := deleteWebhook_ok h
    exact { ok with allowed := allowed_delete gone ok.allowed }
  | fire id groupId event began => exact ok.fire h
  | pass seconds =>
    obtain rfl := Except.ok.inj h
    exact { ok with }
  | claim worker began skipped => exact ok.claim h
  | dispatch worker connected success => exact ok.dispatch h
  | record worker began connected => exact ok.record h
  | crash worker =>
    obtain rfl := Except.ok.inj h
    exact ok.setDrain worker (by simp) (by simp) (by simp)

private theorem sound_run (clock : Nat) (as : List Action) :
    Sound (run (step db) (empty clock) as) :=
  run_invariant (fun _ _ _ ok h => sound_step ok h) (sound_empty clock) as

/-- Whatever the requests and the workers do, no stored event is dropped as malformed, and every
request to Discord carries the very event that was fired under that id, for the group that it was
fired for. -/
theorem posts_are_genuine (db : Database) (clock : Nat) (as : List Action) :
    (∀ id, (id, .unreadable) ∉ (run (step db) (empty clock) as).outcomes) ∧
      ∀ post ∈ (run (step db) (empty clock) as).posts,
        post.url.utf8ByteSize ≤ 512 ∧ isDiscordUrl post.url = true ∧
          ∃! f, f ∈ (run (step db) (empty clock) as).fired ∧ f.id = post.id ∧
            f.groupId = post.groupId ∧ post.payload = buildPayload f.event := by
  have ok : Sound (run (step db) (empty clock) as) := sound_run clock as
  refine ⟨fun id told => ok.readable _ told rfl, fun post hpost => ?_⟩
  obtain ⟨⟨short, discord⟩, f, hf, id, rest⟩ := ok.genuine post hpost
  refine ⟨short, discord, f, ⟨hf, id, rest⟩, ?_⟩
  rintro g ⟨hg, id', -⟩
  exact ok.fired.eq_of_key hg hf (id'.trans id.symm)

end JitaCart.Webhooks.Outbox
