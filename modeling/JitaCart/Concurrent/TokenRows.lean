/- module: JitaCart/Concurrent/TokenRows
   source: backend/crates/auth-tokens/src/store.rs (persist_rotations, reencrypt_stale),
     backend/crates/auth-tokens/src/cipher.rs, backend/crates/api/src/auth.rs (upsert_character)
   digest: Token rows stay decryptable and current through logins, rotations and key sweeps. -/

import JitaCart.Base.Replay
import JitaCart.Concurrent.Characters

set_option autoImplicit false
set_option relaxedAutoImplicit false

namespace JitaCart.Concurrent.Characters

open Schema Base.Table Base.Request Base.ReadCommitted Api.Auth Tokens

def Vault.last (s : Vault) (characterId : Int) : Option Plaintexts :=
  (s.issued.filterMap fun i => if i.1 = characterId then some i.2 else none).getLast?

variable {A : Aead}

/-- The row's ciphertexts decrypt to these tokens, under the key that the row names and bound to
its character. -/
structure Opens (keys : Keys A) (row : CharacterRow) (p : Plaintexts) : Prop where
  refresh : decryptWith keys row.refreshTokenCiphertext row.refreshTokenNonce row.tokenKeyId
    (toBeBytes row.characterId) = .ok p.refresh
  access : ∀ ciphertext, row.accessTokenCiphertext = some ciphertext →
    ∃ nonce plaintext, row.accessTokenNonce = some nonce ∧ p.access = some plaintext ∧
      decryptWith keys ciphertext nonce row.tokenKeyId (toBeBytes row.characterId) = .ok plaintext
  absent : row.accessTokenCiphertext = none → p.access = none

/-- Every row decrypts to what was issued last for its character. -/
structure Custody (keys : Keys A) (s : Vault) : Prop where
  ids : Keyed CharacterRow.id s.characters
  characters : Keyed CharacterRow.characterId s.characters
  opens : ∀ row ∈ s.characters, ∃ p, s.last row.characterId = some p ∧ Opens keys row p

/-- What others leave alone: the locked rows and what was issued for them, ids that an insert waits
for, and the id of every character. -/
structure Kept (locks : List Row) (s s' : Vault) : Prop where
  table : Agrees CharacterRow.id CharacterRow.characterId (fun k => .character k ∈ locks)
    (fun i => .characterPk i ∈ locks) s.characters s'.characters
  last : ∀ characterId, .character characterId ∈ locks → s'.last characterId = s.last characterId

def plaintexts (tokens : EsiTokens) : Plaintexts :=
  ⟨utf8 tokens.refreshToken, some (utf8 tokens.accessToken)⟩

def entries : Write → List (Int × Plaintexts)
  | .putCharacter _ after issues => issues.toList.map fun p => (after.characterId, p)
  | _ => []

/-- What the commit of a request adds to the record, where it leaves this state: a login and a
rotation their tokens for the row that they are about, and a sweep nothing. A rotation adds nothing
where the client has no tokens, or their hash is the one it knew: that of its cache, or of a token
issued for this character. -/
def Issues (hash : String → UInt64) : TokenRequest A → Vault → List (Int × Plaintexts) → Prop
  | .login l, s, new => ∃ row ∈ s.characters, l.claims.characterId = .ok row.characterId ∧
      new = [(row.characterId, plaintexts l.tokens)]
  | .rotate r, s, new => ∃ row ∈ s.characters, row.id = r.id ∧
      ((∃ tokens ∈ r.tokens, new = [(row.characterId, plaintexts tokens)]) ∨
        new = [] ∧ ∀ tokens ∈ r.tokens, ∃ known p, (row.characterId, p) ∈ s.issued ∧
          p.refresh = utf8 known ∧ r.prior.getD (hash known) = hash tokens.refreshToken)
  | .sweep _, _, new => new = []

def Owned (locks : List Row) : Write → Prop
  | .putCharacter before after _ => .character after.characterId ∈ locks ∧
      (before = none → .characterPk after.id ∈ locks)
  | _ => True

/-- A row replaces the current one of its character, and decrypts to what is then issued last. -/
def Sealed (keys : Keys A) (w : Write) (s : Vault) : Prop :=
  match w with
  | .putCharacter before after issues => s.character? after.characterId = before ∧
      Succeeds CharacterRow.id CharacterRow.characterId s.characters after ∧
      ∃ p, issues.or (s.last after.characterId) = some p ∧ Opens keys after p
  | _ => True

private theorem last_put (before : Option CharacterRow) (after : CharacterRow)
    (issues : Option Plaintexts) (s : Vault) (characterId : Int) :
    (redo (.putCharacter before after issues) s).last characterId =
      if characterId = after.characterId then issues.or (s.last characterId)
      else s.last characterId := by
  unfold Vault.last
  simp only [redo, List.filterMap_append, List.getLast?_append]
  cases issues with
  | none => simp
  | some p =>
    by_cases same : after.characterId = characterId
    · simp [same]
    · simp [same, Ne.symm same]

private theorem custody_put {keys : Keys A} {before : Option CharacterRow} {after : CharacterRow}
    {issues : Option Plaintexts} {s : Vault} (good : Custody keys s)
    (h : Sealed keys (.putCharacter before after issues) s) :
    Custody keys (redo (.putCharacter before after issues) s) := by
  obtain ⟨-, succeeds, p, hp, opens⟩ := h
  refine ⟨succeeds.ids good.ids good.characters, keyed_replace_some good.characters, ?_⟩
  intro row hrow
  rcases mem_replace_some.mp hrow with ⟨old, other⟩ | rfl
  · rw [last_put, if_neg other]
    exact good.opens row old
  · rw [last_put, if_pos rfl]
    exact ⟨p, hp, opens⟩

private theorem kept_put {keys : Keys A} {locks others : List Row} {before : Option CharacterRow}
    {after : CharacterRow} {issues : Option Plaintexts} {s : Vault} (good : Custody keys s)
    (own : Owned locks (.putCharacter before after issues))
    (h : Sealed keys (.putCharacter before after issues) s) (apart : ∀ r ∈ others, r ∉ locks) :
    Kept others s (redo (.putCharacter before after issues) s) := by
  have other : ∀ k, .character k ∈ others → k ≠ after.characterId :=
    fun k held same => apart _ held (same ▸ own.1)
  refine ⟨.of_put good.ids good.characters h.2.1 other fun fresh held => ?_, fun k held => ?_⟩
  · exact apart _ held (own.2 (h.1.symm.trans fresh))
  · rw [last_put, if_neg (other k held)]

private theorem sealed_kept {keys : Keys A} {locks : List Row} {w : Write} {s s' : Vault}
    (own : Owned locks w) (h : Sealed keys w s) (kept : Kept locks s s') :
    Sealed keys w s' := by
  cases w with
  | putCharacter before after issues =>
    obtain ⟨current, succeeds, p, hp, opens⟩ := h
    refine ⟨(kept.table.rows _ own.1).trans current, ?_, p, kept.last _ own.1 ▸ hp, opens⟩
    exact kept.table.succeeds succeeds own.1 fun fresh => own.2 (current.symm.trans fresh)
  | insertUser u => trivial
  | insertPrincipal p => trivial
  | counting userId => trivial

private theorem Kept.refl (locks : List Row) (s : Vault) :
    Kept locks s s := ⟨.refl _, fun _ _ => rfl⟩

variable (A) in
def custody (keys : Keys A) (cap : Int) (hash : String → UInt64) :
    Discipline (engine A cap hash) where
  good := Custody keys
  same := Kept
  own _ := Owned
  ok := Sealed keys
  refl := Kept.refl
  trans h h' := ⟨h.table.trans h'.table, fun k hk => (h'.last k hk).trans (h.last k hk)⟩
  mono sub h := ⟨h.table.mono (fun _ => sub _) fun _ => sub _, fun k hk => h.last k (sub _ hk)⟩
  own_mono := by
    intro q few many w sub h
    cases w with
    | putCharacter before after issues => exact ⟨sub _ h.1, fun new => sub _ (h.2 new)⟩
    | insertUser u => trivial
    | insertPrincipal p => trivial
    | counting userId => trivial
  ok_same _ _ own ok same := sealed_kept own ok same
  redo_same := by
    intro q locks w s s' good good' own ok same
    cases w with
    | putCharacter before after issues =>
      refine ⟨same.table.put good.ids good.characters good'.ids good'.characters ok.2.1
        (sealed_kept own ok same).2.1, fun k hk => ?_⟩
      have last := last_put before after issues
      exact (last s' k).trans (same.last k hk ▸ (last s k).symm)
    | insertUser u => exact ⟨same.table, same.last⟩
    | insertPrincipal p => exact ⟨same.table, same.last⟩
    | counting userId => exact same
  good_redo := by
    intro w s good ok
    cases w with
    | putCharacter before after issues => exact custody_put good ok
    | insertUser u => exact ⟨good.ids, good.characters, good.opens⟩
    | insertPrincipal p => exact ⟨good.ids, good.characters, good.opens⟩
    | counting userId => exact good
  frame := by
    intro q locks others w s good own ok apart
    cases w with
    | putCharacter before after issues => exact kept_put good own ok apart
    | insertUser u => exact ⟨.refl _, fun _ _ => rfl⟩
    | insertPrincipal p => exact ⟨.refl _, fun _ _ => rfl⟩
    | counting userId => exact Kept.refl others s

private theorem issued_view (cap : Int) (hash : String → UInt64) (log : List Write) (s : Vault) :
    ((engine A cap hash).view s log).issued = s.issued ++ log.flatMap entries := by
  induction log generalizing s with
  | nil => simp [Engine.view]
  | cons w log ih =>
    have first : (redo w s).issued = s.issued ++ entries w := by
      cases w <;> simp [redo, entries]
    refine (ih (redo w s)).trans ?_
    rw [first, List.flatMap_cons, List.append_assoc]

private theorem issues_kept {keys : Keys A} {cap : Int} {hash : String → UInt64}
    {q : TokenRequest A} {c c' : Vault} {log : List Write} {locks : List Row}
    (right : (custody A keys cap hash).Right q c log locks) (good' : Custody keys c')
    (kept : Kept locks c c') (grown : ∀ entry ∈ c.issued, entry ∈ c'.issued)
    (h : Issues hash q ((engine A cap hash).view c log) (log.flatMap entries)) :
    Issues hash q ((engine A cap hash).view c' log) (log.flatMap entries) := by
  have view : Kept locks ((engine A cap hash).view c log) ((engine A cap hash).view c' log) :=
    right.view_same good' kept
  cases q with
  | login l =>
    obtain ⟨row, hrow, hid, new⟩ := h
    obtain ⟨row', hrow', -, key⟩ := view.table.stay row hrow
    exact ⟨row', hrow', key ▸ hid, key ▸ new⟩
  | rotate r =>
    obtain ⟨row, hrow, hid, new⟩ := h
    obtain ⟨row', hrow', id, key⟩ := view.table.stay row hrow
    refine ⟨row', hrow', id.trans hid, new.imp (fun new => key ▸ new) fun old => ?_⟩
    refine ⟨old.1, fun tokens htokens => ?_⟩
    obtain ⟨known, p, hp, rest⟩ := old.2 tokens htokens
    refine ⟨known, p, ?_, rest⟩
    rw [issued_view, List.mem_append] at hp ⊢
    exact hp.imp (fun hp => key ▸ grown _ hp) fun hp => key ▸ hp
  | sweep w => exact h

/-- The record only grows, and a transaction ends with its own entries. -/
def issuing (keys : Keys A) (cap : Int) (hash : String → UInt64) :
    Promise (custody A keys cap hash) where
  inv _ := True
  leaves _ c c' := ∀ entry ∈ c.issued, entry ∈ c'.issued
  done q c log _ := Issues hash q ((engine A cap hash).view c log) (log.flatMap entries)
  cond _ _ _ _ := True
  ready _ _ := True
  clear _ _ := True
  refl _ _ _ h := h
  trans h h' entry hentry := h' entry (h entry hentry)
  done_rely right good' _ kept grown h := issues_kept right good' kept grown h

section Programs
variable {keys : Keys A} {cap : Int} {hash : String → UInt64} {q : TokenRequest A}

/-- A row that was given these encrypted tokens opens to what was encrypted. -/
private theorem opens_of_holds {cipher : MultiKeyCipher A} {nonce : Nonce} {row : CharacterRow}
    {refresh : EncryptedToken} {access : Option EncryptedToken} {p : Plaintexts} {kid : String}
    (holds : Holds row refresh access kid) (hkid : kid = cipher.primary)
    (hrefresh : cipher.encrypt nonce p.refresh (toBeBytes row.characterId) = .ok refresh)
    (haccess : ∀ token ∈ access, ∃ nonce plaintext, p.access = some plaintext ∧
      cipher.encrypt nonce plaintext (toBeBytes row.characterId) = .ok token)
    (habsent : access = none → p.access = none) : Opens cipher.keys row p := by
  refine ⟨?_, fun ciphertext hct => ?_, fun hct => ?_⟩
  · rw [holds.refreshCiphertext, holds.refreshNonce, holds.key, hkid, ← encrypt_kid hrefresh]
    exact decryptWith_encrypt hrefresh
  · rw [holds.accessCiphertext] at hct
    obtain ⟨token, htoken, rfl⟩ := Option.map_eq_some_iff.mp hct
    obtain ⟨nonce', plaintext, hp, henc⟩ := haccess token htoken
    refine ⟨token.nonce, plaintext, by rw [holds.accessNonce, htoken]; rfl, hp, ?_⟩
    rw [holds.key, hkid, ← encrypt_kid henc]
    exact decryptWith_encrypt henc
  · rw [holds.accessCiphertext] at hct
    exact habsent (Option.map_eq_none_iff.mp hct)

abbrev KeepsTokens {α : Type} (keys : Keys A) (cap : Int) (hash : String → UInt64)
    (q : TokenRequest A) (F : Assertion Vault Write Row) (p : Program α)
    (G : α → Assertion Vault Write Row) : Prop :=
  (issuing keys cap hash).Keeps q F p G

def Quiet : Assertion Vault Write Row := fun _ log _ => log.flatMap entries = []

private theorem stable_quiet : Stable (issuing keys cap hash).terms Quiet :=
  ⟨fun _ _ h _ => h, fun _ h => h⟩

private theorem keeps_aside {α : Type} {wants : Vault → List Row}
    {act : Statement Vault Row → Vault → Option (List Write × α)}
    (acts : ∀ st s ws a, act st s = some (ws, a) → ∀ w ∈ ws, ∀ b c i, w ≠ .putCharacter b c i) :
    KeepsTokens keys cap hash q Quiet (.statement wants act) fun _ => Quiet := by
  refine Promise.keeps_write (Promise.stable_with stable_quiet) ?_
  intro c₁ c₂ log locks held ws a _ h₂ m hact
  have aside := acts _ _ ws a hact
  clear hact
  have silent : ∀ w ∈ ws, entries w = [] := by
    intro w hw
    cases w with
    | putCharacter b c i => exact absurd rfl (aside _ hw b c i)
    | insertUser u => rfl
    | insertPrincipal p => rfl
    | counting userId => rfl
  refine ⟨?_, fun w hw => ?_, ?_⟩
  · clear silent
    generalize (engine A cap hash).view c₂ log = s
    induction ws generalizing s with
    | nil => trivial
    | cons w ws ih =>
      refine ⟨?_, ih (fun x hx => aside x (List.mem_cons_of_mem w hx)) _⟩
      cases w with
      | putCharacter b c i => exact absurd rfl (aside _ List.mem_cons_self b c i)
      | insertUser u => trivial
      | insertPrincipal p => trivial
      | counting userId => trivial
  · cases w with
    | putCharacter b c i => exact absurd rfl (aside _ hw b c i)
    | insertUser u => trivial
    | insertPrincipal p => trivial
    | counting userId => trivial
  · rw [Quiet, List.flatMap_append, h₂.2, List.flatMap_eq_nil_iff.mpr silent]
    rfl

private theorem keeps_read {ε α : Type} {query : Vault → Except ε α} :
    KeepsTokens keys cap hash q Quiet (Prog.select query) fun _ => Quiet := by
  refine keeps_aside fun st s ws a hact => ?_
  simp only [Option.map_eq_some_iff, Prod.mk.injEq] at hact
  obtain ⟨a, -, rfl, -⟩ := hact
  simp

private theorem keeps_targetUser (claims : EveClaims) (existing : Option CharacterRow)
    (sessionUser : Option Uuid) (attach : Bool) (new : NewIds) :
    KeepsTokens keys cap hash q Quiet (targetUser claims existing sessionUser attach new)
      fun _ => Quiet := by
  rcases targetUser_cases claims existing sessionUser attach new with h | ⟨userId, h⟩ | h
  · rw [h]
    exact triple_check fun _ _ _ _ _ _ hA => hA
  · rw [h]
    exact triple_pure fun _ _ _ _ hA => hA
  · rw [h]
    refine (keeps_aside fun st s ws a hact => ?_).bind fun _ =>
      (keeps_aside fun st s ws a hact => ?_).bind fun _ => triple_pure fun _ _ _ _ hA => hA
    · simp only [Option.ite_none_right_eq_some, Option.some.injEq, Prod.mk.injEq] at hact
      obtain ⟨-, rfl, -⟩ := hact
      simp
    · split at hact
      · obtain ⟨rfl, -⟩ := Prod.mk.inj (Option.some.inj hact)
        simp
      · obtain ⟨rfl, -⟩ := Prod.mk.inj (Option.some.inj hact)
        simp

private theorem keeps_checkCharactersQuota (existing : Option CharacterRow) (userId : Uuid) :
    KeepsTokens keys cap hash q Quiet (checkCharactersQuota existing userId cap)
      fun _ => Quiet := by
  unfold checkCharactersQuota
  split
  · refine (keeps_aside fun st s ws a hact => ?_).bind fun _ => keeps_read
    obtain ⟨rfl, -⟩ := Prod.mk.inj (Option.some.inj hact)
    simp
  · exact triple_pure fun _ _ _ _ hA => hA

private theorem keeps_login (l : Login A) :
    KeepsTokens l.cipher.keys cap hash (.login l) Quiet (upsertCharacter cap l)
      fun _ => (issuing l.cipher.keys cap hash).done (.login l) := by
  refine triple_checked fun characterId hid => ?_
  have locked : KeepsTokens l.cipher.keys cap hash (.login l) Quiet
      (lockCharacter characterId) fun _ => Quiet := by
    refine keeps_aside fun st s ws a hact => ?_
    obtain ⟨rfl, -⟩ := Prod.mk.inj (Option.some.inj hact)
    simp
  refine locked.bind fun existing => (keeps_targetUser _ existing _ _ _).bind fun userId =>
    (keeps_checkCharactersQuota existing userId).bind fun _ =>
      triple_checked fun refresh hrefresh => triple_checked fun access haccess => ?_
  refine Promise.keeps_write (Promise.stable_with stable_quiet) ?_
  intro c₁ c₂ log locks held ws a _ h₂ m hact
  obtain ⟨after, rfl, -, rfl, holds, succeeds, pk⟩ := upsertRow_eq_some hact
  have opens : Opens l.cipher.keys after (plaintexts l.tokens) := by
    refine opens_of_holds holds (encrypt_kid hrefresh) hrefresh (fun token htoken => ?_) (by simp)
    obtain rfl := Option.some.inj htoken
    exact ⟨l.accessNonce, _, rfl, haccess⟩
  refine ⟨⟨⟨rfl, succeeds, _, rfl, opens⟩, trivial⟩, fun w hw => ?_, after, ?_, hid, ?_⟩
  · rw [List.mem_singleton.mp hw]
    exact ⟨(m.held _).mpr (.inr List.mem_cons_self), fun new => (m.held _).mpr (.inr (pk new))⟩
  · rw [view_append]
    exact mem_replace_some.mpr (.inr rfl)
  · rw [List.flatMap_append, h₂.2]
    rfl

/-- An update of the row with an id: it finds at most the current row of its character, and finds it
if the row cannot get lost. -/
private theorem keeps_updateCharacter {F G : Assertion Vault Write Row} (id : Uuid)
    (p : CharacterRow → Bool) {set : CharacterRow → CharacterRow} (issues : Option Plaintexts)
    (ids : ∀ c, (set c).id = c.id) (characters : ∀ c, (set c).characterId = c.characterId)
    (stable : Stable (issuing keys cap hash).terms ((custody A keys cap hash).With q F))
    (puts : ∀ c log locks row, (custody A keys cap hash).With q F c log locks →
      row ∈ ((engine A cap hash).view c log).characters → row.id = id → ∃ pt,
        issues.or (((engine A cap hash).view c log).last row.characterId) = some pt ∧
          Opens keys (set row) pt)
    (after : ∀ c log locks held ws, (custody A keys cap hash).With q F c log locks →
      (∀ r ∈ locks, r ∈ held) →
      (∀ w ∈ ws, ∃ row ∈ ((engine A cap hash).view c log).characters,
        row.id = id ∧ w = .putCharacter (some row) (set row) issues) → ws.length ≤ 1 →
      ((∃ characterId, ∀ c, (custody A keys cap hash).With q F c log locks →
        ∃ row ∈ ((engine A cap hash).view c log).characters,
          row.id = id ∧ row.characterId = characterId ∧ p row = true) → ws ≠ []) →
      G c (log ++ ws) held) :
    KeepsTokens keys cap hash q F (updateCharacter id p set issues) fun _ => G := by
  refine Promise.keeps_write stable ?_
  intro c₁ c₂ log locks held ws a h₁ h₂ m hact
  obtain ⟨rfl, -⟩ := Prod.mk.inj (Option.some.inj hact)
  clear hact
  have more : ∀ r ∈ locks, r ∈ held := fun r hr => (m.held r).mpr (.inl hr)
  have good : Custody keys ((engine A cap hash).view c₂ log) := h₂.1.view
  generalize hfound : Option.filter _ _ = found
  cases found with
  | none =>
    refine ⟨trivial, by simp, after c₂ log locks held _ h₂ more (by simp) (by simp) ?_⟩
    rintro ⟨characterId, steady⟩ -
    obtain ⟨old, hold, oldId, oldKey, passed⟩ := steady c₁ h₁
    obtain ⟨new, hnew, newId, newKey, passes⟩ := steady c₂ h₂
    have before : lookup CharacterRow.id id ((engine A cap hash).view c₁ log).characters =
        some old := (lookup_eq_some h₁.1.view.ids).mpr ⟨hold, oldId⟩
    have now : lookup CharacterRow.id id ((engine A cap hash).view c₂ log).characters =
        some new := (lookup_eq_some good.ids).mpr ⟨hnew, newId⟩
    rw [before, now] at hfound
    simp [Option.filter, passed, passes, oldKey, newKey] at hfound
  | some row =>
    obtain ⟨hrow, planned⟩ := Option.filter_eq_some_iff.mp hfound
    simp only [Bool.and_eq_true, decide_eq_true_eq] at planned
    simp only [Option.map_some, Option.toList_some]
    obtain ⟨mem, rfl⟩ := lookup_mem hrow
    obtain ⟨pt, last, opens⟩ := puts c₂ log locks row h₂ mem rfl
    have current : ((engine A cap hash).view c₂ log).character? (set row).characterId = some row :=
      (lookup_eq_some good.characters).mpr ⟨mem, (characters row).symm⟩
    refine ⟨⟨⟨current, .of_some current (ids row), pt, ?_, opens⟩, trivial⟩, fun w hw => ?_,
      after c₂ log locks held _ h₂ more (by simpa using mem) (by simp) (by simp)⟩
    · rw [characters row]
      exact last
    · rw [List.mem_singleton.mp hw]
      refine ⟨(m.held _).mpr (.inr ?_), by simp⟩
      rw [characters row]
      exact planned.2

/-- The character under an id, and a refresh token that was issued for it: what a row that was
loaded earlier still tells. -/
def Known (id : Uuid) (loaded : LoadedTokens) : Assertion Vault Write Row := fun c log _ =>
  log = [] ∧ (∃ row ∈ c.characters, row.id = id ∧ row.characterId = loaded.eveCharacterId) ∧
    ∃ p, (loaded.eveCharacterId, p) ∈ c.issued ∧ p.refresh = utf8 loaded.refreshToken

private theorem stable_known (id : Uuid) (loaded : LoadedTokens) :
    Stable (issuing keys cap hash).terms (Known id loaded) where
  rely _ _ h kept := by
    obtain ⟨nothing, ⟨row, hrow, hid, key⟩, p, hp, refresh⟩ := h
    obtain ⟨row', hrow', id', key'⟩ := kept.1.table.stay row hrow
    exact ⟨nothing, ⟨row', hrow', id'.trans hid, key'.trans key⟩, p, kept.2 _ hp, refresh⟩
  same _ h := h

private theorem mem_issued_of_last {s : Vault} {characterId : Int} {p : Plaintexts}
    (h : s.last characterId = some p) : (characterId, p) ∈ s.issued := by
  obtain ⟨entry, hentry, chosen⟩ := List.mem_filterMap.mp (List.mem_of_getLast? h)
  obtain ⟨rfl, same⟩ := Option.ite_none_right_eq_some.mp chosen
  exact Option.some.inj same ▸ hentry

private theorem utf8_of_fromUtf8 {field text : String} {plaintext : Bytes}
    (h : fromUtf8 field plaintext = .ok text) : utf8 text = plaintext := by
  obtain ⟨valid, decoded⟩ := Option.dite_none_right_eq_some.mp (fetch_eq_ok.mp h)
  obtain rfl := Option.some.inj decoded
  simp [utf8, String.fromUTF8]

def Fresh : Assertion Vault Write Row := fun _ log _ => log = []

private theorem stable_fresh : Stable (issuing keys cap hash).terms Fresh :=
  ⟨fun _ _ h _ => h, fun _ h => h⟩

private theorem keeps_loadTokens (cipher : MultiKeyCipher A) (id : Uuid) :
    KeepsTokens cipher.keys cap hash q Fresh (loadTokens cipher id)
      fun loaded => Known id loaded := by
  refine Triple.imp (Promise.keeps_query (Promise.stable_with stable_fresh)
    (fun loaded => stable_known id loaded) ?_) (fun _ _ _ _ h => h)
    fun _ _ _ _ _ h => ⟨h.1, h.2.2⟩
  rintro loaded c log locks ⟨right, rfl⟩ hq
  simp only [bind_eq_ok, fetch_eq_ok, Except.ok.injEq] at hq
  obtain ⟨row, hrow, refresh, opened, text, decoded, -, -, -, -, rfl⟩ := hq
  obtain ⟨mem, id⟩ := lookup_mem hrow
  obtain ⟨p, last, opens⟩ := right.good.opens row mem
  have same : refresh = p.refresh := Except.ok.inj (opened.symm.trans opens.refresh)
  exact ⟨rfl, ⟨row, mem, id, rfl⟩, p, mem_issued_of_last last,
    same.symm.trans (utf8_of_fromUtf8 decoded).symm⟩

private theorem keeps_rotation (r : Rotation A) :
    KeepsTokens r.cipher.keys cap hash (.rotate r) Fresh (persistRotations hash r)
      fun _ => (issuing r.cipher.keys cap hash).done (.rotate r) := by
  refine (keeps_loadTokens r.cipher r.id).bind fun loaded => ?_
  have idle (known : ∀ tokens ∈ r.tokens,
      r.prior.getD (hash loaded.refreshToken) = hash tokens.refreshToken) :
      KeepsTokens r.cipher.keys cap hash (.rotate r) (Known r.id loaded) (pure ())
        fun _ => (issuing r.cipher.keys cap hash).done (.rotate r) := by
    refine triple_pure ?_
    rintro c log locks - ⟨right, rfl, ⟨row, hrow, hid, key⟩, p, hp, refresh⟩
    exact ⟨right, row, hrow, hid, .inr ⟨rfl, fun tokens htokens =>
      ⟨loaded.refreshToken, p, key ▸ hp, refresh, known tokens htokens⟩⟩⟩
  cases htokens : r.tokens with
  | none => exact idle (by simp [htokens])
  | some tokens =>
    simp only
    split
    · rename_i known
      refine idle fun x hx => ?_
      obtain rfl := Option.some.inj (htokens.symm.trans hx)
      exact known
    · refine triple_checked fun refresh hrefresh => triple_checked fun access haccess => ?_
      refine keeps_updateCharacter _ _ _ (fun _ => rfl) (fun _ => rfl)
        (Promise.stable_with (stable_known _ _)) ?_ ?_
      · rintro c log locks row ⟨right, rfl, ⟨known, hknown, hid, key⟩, -⟩ hrow id
        have same : row = known := right.good.ids.eq_of_key hrow hknown (id.trans hid.symm)
        subst same
        refine ⟨plaintexts tokens, rfl, ?_⟩
        have holds : Holds { setTokens refresh (some access) refresh.kid row with
            accessTokenExpiresAt := some tokens.expiresAt } refresh (some access) refresh.kid :=
          ⟨rfl, rfl, rfl, rfl, rfl⟩
        refine opens_of_holds holds (encrypt_kid hrefresh) (key ▸ hrefresh)
          (fun token htoken => ?_) (by simp)
        obtain rfl := Option.some.inj htoken
        exact ⟨r.accessNonce, _, rfl, key ▸ haccess⟩
      · rintro c log locks held ws ⟨right, rfl, -⟩ - puts one found
        have some_row : ws ≠ [] := by
          refine found ⟨loaded.eveCharacterId, ?_⟩
          rintro c' ⟨-, -, ⟨row, hrow, hid, key⟩, -⟩
          exact ⟨row, hrow, hid, key, rfl⟩
        obtain ⟨w, rfl⟩ := List.length_eq_one_iff.mp
          (Nat.le_antisymm one (List.length_pos_iff.mpr some_row))
        obtain ⟨row, hrow, hid, rfl⟩ := puts w List.mem_cons_self
        exact ⟨_, mem_replace_some.mpr (.inr rfl), hid, .inl ⟨tokens, htokens, rfl⟩⟩

/-- The sweep has issued nothing, holds the rows that it has not come to, and sees them as it has
read them. -/
def Pending (A : Aead) (cap : Int) (hash : String → UInt64) (rest : List CharacterRow) :
    Assertion Vault Write Row := fun c log locks =>
  Quiet c log locks ∧ Keyed CharacterRow.characterId rest ∧ ∀ row ∈ rest, .character row.characterId ∈ locks ∧
    ((engine A cap hash).view c log).character? row.characterId = some row

private theorem stable_pending (rest : List CharacterRow) :
    Stable (issuing keys cap hash).terms
      ((custody A keys cap hash).With q (Pending A cap hash rest)) := by
  have right : Stable (issuing keys cap hash).terms ((custody A keys cap hash).Right q) :=
    Promise.stable_right
  refine ⟨fun good good' h kept => ⟨right.rely good good' h.1 kept, h.2.1, h.2.2.1,
    fun row hrow => ?_⟩, fun same h => ⟨right.same same h.1, h.2.1, h.2.2.1, fun row hrow =>
      ⟨(same _).mpr (h.2.2.2 row hrow).1, (h.2.2.2 row hrow).2⟩⟩⟩
  obtain ⟨held, current⟩ := h.2.2.2 row hrow
  have view : Kept _ _ _ := h.1.view_same good'.1 kept.1
  exact ⟨held, (view.table.rows _ held).trans current⟩

private theorem keeps_lockStale (primary : String) (claimed : List Uuid) :
    KeepsTokens keys cap hash q Quiet (lockStale primary claimed)
      fun stale => Pending A cap hash stale := by
  refine Promise.keeps_write (Promise.stable_with stable_quiet) ?_
  intro c₁ c₂ log locks held ws a _ h₂ m hact
  obtain ⟨rfl, rfl⟩ := Prod.mk.inj (Option.some.inj hact)
  have good : Custody keys ((engine A cap hash).view c₂ log) := h₂.1.view
  rw [List.append_nil]
  refine ⟨trivial, by simp, h₂.2, good.characters.filter _, fun row hrow => ?_⟩
  obtain ⟨mem, planned⟩ := List.mem_filter.mp hrow
  exact ⟨(m.held _).mpr (.inr (of_decide_eq_true planned).2.2),
    (lookup_eq_some good.characters).mpr ⟨mem, rfl⟩⟩

private theorem Opens.openAccess_eq {row : CharacterRow} {p : Plaintexts} {access : Option Bytes}
    (opens : Opens keys row p) (h : openAccess keys row = .ok access) : access = p.access := by
  unfold openAccess at h
  cases hct : row.accessTokenCiphertext with
  | none =>
    rw [hct] at h
    rw [opens.absent hct]
    exact (Except.ok.inj h).symm
  | some ciphertext =>
    obtain ⟨nonce, plaintext, hnonce, hp, hopen⟩ := opens.access ciphertext hct
    rw [hct, hnonce] at h
    simp only [hopen, bind_eq_ok, Except.ok.injEq] at h
    obtain ⟨_, rfl, rfl⟩ := h
    exact hp.symm

private theorem keeps_reencryptRow (w : Sweep A) (row : CharacterRow) (rest : List CharacterRow) :
    KeepsTokens w.cipher.keys cap hash (.sweep w) (Pending A cap hash (row :: rest))
      (reencryptRow w row) fun _ => Pending A cap hash rest := by
  refine triple_checked fun refreshPlain hrp => triple_checked fun refresh hrefresh =>
    triple_checked fun accessPlain hap => triple_checked fun access haccess => ?_
  refine keeps_updateCharacter _ _ _ (fun _ => rfl) (fun _ => rfl) (stable_pending _) ?_ ?_
  · intro c log locks found h hfound id
    have good : Custody w.cipher.keys ((engine A cap hash).view c log) := h.1.view
    obtain ⟨-, current⟩ := h.2.2.2 row List.mem_cons_self
    have same : found = row := good.ids.eq_of_key hfound (lookup_mem current).1 id
    subst same
    obtain ⟨p, last, opens⟩ := good.opens found hfound
    have refreshSame : refreshPlain = p.refresh := Except.ok.inj (hrp.symm.trans opens.refresh)
    have accessSame : accessPlain = p.access := opens.openAccess_eq hap
    subst refreshSame accessSame
    refine ⟨p, last, opens_of_holds ⟨rfl, rfl, rfl, rfl, rfl⟩ rfl hrefresh ?_ ?_⟩
    · intro token htoken
      rcases mapM_eq_ok.mp haccess with ⟨-, rfl⟩ | ⟨plaintext, _, hp, henc, rfl⟩
      · cases htoken
      · obtain rfl := Option.some.inj htoken
        exact ⟨w.accessNonce found.id, plaintext, hp, henc⟩
    · intro absent
      rcases mapM_eq_ok.mp haccess with ⟨hp, -⟩ | ⟨_, _, -, -, rfl⟩
      · exact hp
      · cases absent
  · intro c log locks held ws h more puts one _
    have good : Custody w.cipher.keys ((engine A cap hash).view c log) := h.1.view
    obtain ⟨fresh, keyed⟩ := List.nodup_cons.mp h.2.2.1
    have silent : ∀ x ∈ ws, entries x = [] := by
      intro x hx
      obtain ⟨found, -, -, rfl⟩ := puts x hx
      rfl
    refine ⟨?_, keyed, fun other hother => ?_⟩
    · rw [Quiet, List.flatMap_append, h.2.1, List.flatMap_eq_nil_iff.mpr silent]
      rfl
    obtain ⟨locked, current⟩ := h.2.2.2 other (List.mem_cons_of_mem row hother)
    refine ⟨more _ locked, ?_⟩
    rw [view_append]
    match ws, puts, one with
    | [], _, _ => exact current
    | [x], puts, _ =>
      obtain ⟨found, hfound, id, rfl⟩ := puts x (List.mem_singleton.mpr rfl)
      obtain ⟨-, mine⟩ := h.2.2.2 row List.mem_cons_self
      have same : found = row := good.ids.eq_of_key hfound (lookup_mem mine).1 id
      subst same
      refine (lookup_replace_some _).trans ((if_neg fun same => ?_).trans current)
      exact fresh (same ▸ List.mem_map_of_mem hother)
    | _ :: _ :: _, _, one => simp at one

private theorem keeps_sweep (w : Sweep A) :
    KeepsTokens w.cipher.keys cap hash (.sweep w) Quiet (reencryptStale w)
      fun _ => Quiet := by
  refine triple_checked fun _ _ => (keeps_lockStale _ _).bind fun stale => ?_
  have loop (rest : List CharacterRow) : KeepsTokens w.cipher.keys cap hash (.sweep w)
      (Pending A cap hash rest) (rest.forM (reencryptRow w)) fun _ => Quiet := by
    induction rest with
    | nil => exact triple_pure fun _ _ _ _ h => ⟨h.1, h.2.1⟩
    | cons row rest ih =>
      show KeepsTokens _ _ _ _ _ (reencryptRow w row >>= fun _ => rest.forM (reencryptRow w)) _
      exact (keeps_reencryptRow w row rest).bind fun _ => ih
  exact loop stale

private theorem keeps_program (q : TokenRequest A) :
    KeepsTokens q.cipher.keys cap hash q Fresh (program cap hash q)
      fun _ => (issuing q.cipher.keys cap hash).done q := by
  have quiet {G : Unit → Assertion Vault Write Row} {p : Program Unit}
      (h : KeepsTokens q.cipher.keys cap hash q Quiet p G) :
      KeepsTokens q.cipher.keys cap hash q Fresh p G := by
    refine h.imp ?_ fun _ _ _ _ _ hA => hA
    rintro c log locks - ⟨right, rfl⟩
    exact ⟨right, rfl⟩
  cases q with
  | login l => exact quiet (keeps_login l)
  | rotate r => exact keeps_rotation r
  | sweep w => exact quiet (keeps_sweep w)

private theorem sound_tokens (keys : Keys A) (cap : Int) (hash : String → UInt64) :
    Sound (engine A cap hash) (issuing keys cap hash).terms fun q => q.cipher.keys = keys := by
  refine Promise.sound _ (fun q shared => ?_) fun q c log locks _ _ _ =>
    ⟨trivial, fun _ _ entry hentry => ?_⟩
  · subst shared
    refine (keeps_program q).imp (fun c log locks good h => ?_) fun _ _ _ _ _ h => h
    obtain ⟨rfl, rfl⟩ := h
    exact ⟨.nil good.1, rfl⟩
  · rw [issued_view]
    exact List.mem_append_left _ hentry

end Programs

/-- In every committed state, every row decrypts under the key that it names and bound to its
character, to the tokens issued last for it. Only the commit of a login or of a rotation issues
tokens: its own ones, for the row that it is about. -/
theorem tokens_stay_current (A : Aead) (keys : Keys A) (cap : Int) (hash : String → UInt64)
    {s : Vault} (start : Custody keys s) {as : List (Action Row (TokenRequest A))}
    (shared : ∀ id q, .begin id q ∈ as → q.cipher.keys = keys) :
    (∀ row ∈ (run (step (engine A cap hash)) ⟨s, []⟩ as).committed.characters, ∃ p,
      (run (step (engine A cap hash)) ⟨s, []⟩ as).committed.last row.characterId = some p ∧
        Opens keys row p) ∧
    ∀ a w', step (engine A cap hash) a (run (step (engine A cap hash)) ⟨s, []⟩ as) = .ok w' →
      ∃ new, w'.committed.issued =
          (run (step (engine A cap hash)) ⟨s, []⟩ as).committed.issued ++ new ∧
        ((∀ id, a ≠ .commit id) ∧ new = [] ∨
          ∃ t ∈ (run (step (engine A cap hash)) ⟨s, []⟩ as).active,
            a = .commit t.id ∧ Issues hash t.request w'.committed new) := by
  have allowed : Meets (step (engine A cap hash)) (Allowed (issuing keys cap hash).terms fun q =>
      q.cipher.keys = keys) ⟨s, []⟩ as := Promise.allowed_always (fun _ _ _ _ => trivial)
    (fun _ _ => trivial) (fun _ _ => trivial) shared
  have ok := Promise.kept_run (sound_tokens keys cap hash) start trivial allowed
  refine ⟨ok.good.1.opens, fun a w' h => ?_⟩
  rcases committed_step ok h with ⟨other, same⟩ | ⟨t, ht, rfl, done, committed⟩
  · exact ⟨[], by rw [same, List.append_nil], .inl ⟨other, rfl⟩⟩
  · refine ⟨t.log.flatMap entries, by rw [committed, issued_view], .inr ⟨t, ht, rfl, ?_⟩⟩
    rw [committed]
    exact done.2

/-- Two keys, and processes with either as their primary one. -/
def twoKeys : Keys tagged := fun kid =>
  if kid = "v1" then some [1] else if kid = "v2" then some [2] else none

def firstPrimary : MultiKeyCipher tagged := ⟨twoKeys, "v1", rfl⟩

def secondPrimary : MultiKeyCipher tagged := ⟨twoKeys, "v2", rfl⟩

def firstLogin : TokenRequest tagged :=
  .login ⟨⟨.ok 90, "pilot", "owner", []⟩, ⟨"refresh", "access", 0⟩, none, false, firstPrimary,
    zeroNonce, zeroNonce, ⟨1, 1, 1⟩⟩

def firstSweep : TokenRequest tagged :=
  .sweep ⟨secondPrimary, 10, [1], fun _ => zeroNonce, fun _ => zeroNonce⟩

/-- A login under the first key and a sweep to the second. -/
def loginThenSweep : List (Action Row (TokenRequest tagged)) :=
  List.flatten [[.begin 1 firstLogin], Action.turn 1 [], Action.turn 1 [.user 1],
    Action.turn 1 [.principal 1, .principalOf 1], Action.turn 1 [], Action.turn 1 [],
    Action.turn 1 [.character 90, .characterPk 1], [.commit 1], [.begin 2 firstSweep],
    Action.turn 2 [.character 90], Action.turn 2 [.character 90], [.commit 2]]

theorem tokens_stay_current_swept :
    (run (step (engine tagged 1 fun _ => 0)) ⟨{}, []⟩ loginThenSweep).committed.characters.map
        (·.tokenKeyId) = ["v2"] ∧
      ∀ row ∈ (run (step (engine tagged 1 fun _ => 0)) ⟨{}, []⟩
          loginThenSweep).committed.characters, ∃ p,
        (run (step (engine tagged 1 fun _ => 0)) ⟨{}, []⟩ loginThenSweep).committed.last
            row.characterId = some p ∧ Opens twoKeys row p := by
  have start : Custody twoKeys {} := ⟨List.nodup_nil, List.nodup_nil, by simp⟩
  have shared : ∀ id q, .begin id q ∈ loginThenSweep → q.cipher.keys = twoKeys := by
    intro id q h
    simp only [loginThenSweep, Action.turn, List.flatten_cons, List.flatten_nil, List.map_nil,
      List.map_cons, List.nil_append, List.cons_append, List.mem_cons, Action.begin.injEq,
      reduceCtorEq, List.not_mem_nil, false_or, or_false] at h
    rcases h with ⟨-, rfl⟩ | ⟨-, rfl⟩ <;> rfl
  exact ⟨by decide +kernel, (tokens_stay_current tagged twoKeys 1 (fun _ => 0) start shared).1⟩

end JitaCart.Concurrent.Characters
