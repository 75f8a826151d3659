/- module: JitaCart/Tokens/Sweep
   source: backend/crates/auth-tokens/src/store.rs (reencrypt_stale)
   digest: The sweep that re-encrypts stale tokens under the primary key, batch by batch. -/

import JitaCart.Base.Select
import JitaCart.Concurrent.Characters

/-!
Without a concurrent writer `SKIP LOCKED` skips nothing. The order of the rows
that were refreshed at the same time is not determined, so each call brings one.
-/

set_option autoImplicit false
set_option relaxedAutoImplicit false

namespace JitaCart.Tokens.Sweep

open Schema Base.Table Base.Request Base.Select Api.Auth Concurrent.Characters

structure TokenRow extends CharacterRow where
  lastRefreshedAt : Option Timestamp
  deriving DecidableEq

/-- The rank of a nullable instant when `NULL` sorts first. -/
def nullsFirst : Option Timestamp → Nat
  | none => 0
  | some instant => instant + 1

/-- `ORDER BY last_refreshed_at NULLS FIRST`. -/
def TokenRow.notAfter (a b : TokenRow) : Prop :=
  nullsFirst a.lastRefreshedAt ≤ nullsFirst b.lastRefreshedAt

instance : DecidableRel TokenRow.notAfter := fun a b =>
  inferInstanceAs (Decidable (nullsFirst a.lastRefreshedAt ≤ nullsFirst b.lastRefreshedAt))

instance : Std.Total TokenRow.notAfter := ⟨fun _ _ => Nat.le_total _ _⟩

instance : IsTrans TokenRow TokenRow.notAfter := ⟨fun _ _ _ => Nat.le_trans⟩

/-- The table of characters, with its primary key. -/
structure Characters where
  rows : List TokenRow
  keyed : Keyed (fun c : TokenRow => c.id) rows

def setRow (refresh : EncryptedToken) (access : Option EncryptedToken) (kid : String)
    (c : TokenRow) : TokenRow :=
  { c with toCharacterRow := setTokens refresh access kid c.toCharacterRow }

/-- `UPDATE characters SET … WHERE id = … AND token_key_id = …`. -/
def Characters.rewrite (table : Characters) (row : TokenRow) (refresh : EncryptedToken)
    (access : Option EncryptedToken) (kid : String) : Characters :=
  let matching (c : TokenRow) : Bool := decide (c.id = row.id ∧ c.tokenKeyId = row.tokenKeyId)
  ⟨updateWhere matching (setRow refresh access kid) table.rows,
    table.keyed.updateWhere fun _ => rfl⟩

def Characters.rowsAffected (table : Characters) (row : TokenRow) : Nat :=
  table.rows.countP fun c => decide (c.id = row.id ∧ c.tokenKeyId = row.tokenKeyId)

variable {A : Aead}

/-- What a call draws: its nonces, and the order of tied rows. -/
structure Draw where
  order : OrderBy TokenRow.notAfter
  refreshNonce : Uuid → Nonce
  accessNonce : Uuid → Nonce

structure ReencryptOutcome where
  scanned : Nat
  rewritten : Nat
  deriving DecidableEq

def withContext {α : Type} (message : String) (result : Except String α) : Except String α :=
  result.mapError fun cause => s!"{message}: {cause}"

def isStale (primary : String) (row : TokenRow) : Bool := decide (row.tokenKeyId ≠ primary)

def Characters.stale (primary : String) (table : Characters) : List TokenRow :=
  table.rows.filter (isStale primary)

def batch (cipher : MultiKeyCipher A) (batchSize : Nat) (draw : Draw) (table : Characters) :
    List TokenRow :=
  draw.order.limit batchSize (table.stale cipher.primary)

/-- One turn of the loop; the state is what the transaction has written and counted so far. -/
def reencryptRow (cipher : MultiKeyCipher A) (draw : Draw) (tx : Characters × Nat)
    (row : TokenRow) : Except String (Characters × Nat) := do
  let aad := toBeBytes row.characterId
  let refreshPlain ← withContext s!"decrypting refresh token for character {row.id}"
    (openRefresh cipher.keys row.toCharacterRow)
  let refresh ← cipher.encrypt (draw.refreshNonce row.id) refreshPlain aad
  let accessPlain ← withContext s!"decrypting access token for character {row.id}"
    (openAccess cipher.keys row.toCharacterRow)
  let access ← accessPlain.mapM fun plaintext =>
    cipher.encrypt (draw.accessNonce row.id) plaintext aad
  .ok (tx.1.rewrite row refresh access cipher.primary,
    if tx.1.rowsAffected row = 1 then tx.2 + 1 else tx.2)

/-- The writes of the transaction and the outcome, once it has committed. -/
def reencryptStale (cipher : MultiKeyCipher A) (batchSize : Nat) (draw : Draw)
    (table : Characters) : Except String (Characters × ReencryptOutcome) := do
  let stale := batch cipher batchSize draw table
  let (written, rewritten) ← stale.foldlM (reencryptRow cipher draw) (table, 0)
  .ok (written, ⟨stale.length, rewritten⟩)

/-- The table after a call; a call that fails is rolled back. -/
def sweep (cipher : MultiKeyCipher A) (batchSize : Nat) (draw : Draw) (table : Characters) :
    Except String Characters :=
  (reencryptStale cipher batchSize draw table).map (·.1)

/-- What decrypts under some key can be encrypted again under every key. -/
def Reencrypts (A : Aead) : Prop :=
  ∀ {key nonce aad ciphertext plaintext}, A.decrypt key nonce aad ciphertext = some plaintext →
    ∀ key' (nonce' : Nonce), (A.encrypt key' nonce'.val aad plaintext).isSome

/-- The tokens of a row decrypt under the keys of a cipher. -/
def Opens (cipher : MultiKeyCipher A) (row : TokenRow) : Prop :=
  (∃ plaintext, openRefresh cipher.keys row.toCharacterRow = .ok plaintext) ∧
    ∃ access, openAccess cipher.keys row.toCharacterRow = .ok access

/-- The cipher knows the key that the row names, and the tokens of the row were encrypted under it
with the id of the character. -/
def Sealed (cipher : MultiKeyCipher A) (row : TokenRow) : Prop :=
  ∃ key, cipher.keys row.tokenKeyId = some key ∧
    (∃ nonce : Nonce, row.refreshTokenNonce = nonce.val ∧ ∃ plaintext,
      A.encrypt key nonce.val (toBeBytes row.characterId) plaintext =
        some row.refreshTokenCiphertext) ∧
    ∀ ciphertext ∈ row.accessTokenCiphertext, ∀ stored ∈ row.accessTokenNonce,
      ∃ nonce : Nonce, stored = nonce.val ∧ ∃ plaintext,
        A.encrypt key nonce.val (toBeBytes row.characterId) plaintext = some ciphertext

/-- `after` is `before` under the primary key: the same plaintexts, and no other column. -/
structure Rekeyed (cipher : MultiKeyCipher A) (before after : TokenRow) : Prop where
  key : after.tokenKeyId = cipher.primary
  refresh : ∃ plaintext, openRefresh cipher.keys before.toCharacterRow = .ok plaintext ∧
    openRefresh cipher.keys after.toCharacterRow = .ok plaintext
  access : ∃ plaintext, openAccess cipher.keys before.toCharacterRow = .ok plaintext ∧
    openAccess cipher.keys after.toCharacterRow = .ok plaintext ∧
    (plaintext = none → after.accessTokenCiphertext = none ∧ after.accessTokenNonce = none)
  rest : ∃ refresh access kid, after = setRow refresh access kid before

/-- `after` re-keys the rows `selected` of `before` and leaves the others alone. -/
def Rekeys (cipher : MultiKeyCipher A) (selected : List TokenRow) (before after : Characters) :
    Prop :=
  ∃ change : TokenRow → TokenRow, after.rows = before.rows.map change ∧
    ∀ row ∈ before.rows,
      (row ∈ selected → Rekeyed cipher row (change row)) ∧
        (row ∉ selected → change row = row)

variable {cipher : MultiKeyCipher A} {batchSize : Nat} {draw : Draw} {table : Characters}

private theorem opens_of_sealed {row : TokenRow} (h : Sealed cipher row) : Opens cipher row := by
  obtain ⟨key, known, ⟨nonce, hnonce, plaintext, hencrypt⟩, haccess⟩ := h
  have opened {ciphertext plaintext : Bytes} {nonce : Nonce}
      (h : A.encrypt key nonce.val (toBeBytes row.characterId) plaintext = some ciphertext) :
      decryptWith cipher.keys ciphertext nonce.val row.tokenKeyId (toBeBytes row.characterId) =
        .ok plaintext := by
    simp only [decryptWith, bind_eq_ok, require_eq_ok, fetch_eq_ok]
    exact ⟨(), nonce.property, key, known, A.decrypt_encrypt h⟩
  refine ⟨⟨plaintext, ?_⟩, ?_⟩
  · unfold openRefresh
    rw [hnonce]
    exact opened hencrypt
  · unfold openAccess
    cases hc : row.accessTokenCiphertext with
    | none => exact ⟨none, rfl⟩
    | some ciphertext =>
      cases hn : row.accessTokenNonce with
      | none => exact ⟨none, rfl⟩
      | some stored =>
        obtain ⟨nonce, rfl, plaintext, hencrypt⟩ := haccess ciphertext hc stored hn
        exact ⟨some plaintext, by simp [opened hencrypt, bind, Except.bind]⟩

private theorem encrypt_of_decryptWith (reencrypts : Reencrypts A)
    {ciphertext stored aad plaintext : Bytes}
    {kid : String} (h : decryptWith cipher.keys ciphertext stored kid aad = .ok plaintext)
    (nonce : Nonce) : ∃ token, cipher.encrypt nonce plaintext aad = .ok token := by
  simp only [decryptWith, bind_eq_ok, fetch_eq_ok] at h
  obtain ⟨_, _, key, _, hdecrypt⟩ := h
  obtain ⟨ciphertext', hencrypt⟩ := Option.isSome_iff_exists.mp
    (reencrypts hdecrypt ((cipher.keys cipher.primary).get cipher.known) nonce)
  refine ⟨⟨ciphertext', nonce.val, cipher.primary⟩, ?_⟩
  simp only [MultiKeyCipher.encrypt, bind_eq_ok, fetch_eq_ok]
  exact ⟨ciphertext', hencrypt, rfl⟩

private theorem decryptWith_primary {nonce : Nonce} {plaintext aad : Bytes} {token : EncryptedToken}
    (h : cipher.encrypt nonce plaintext aad = .ok token) :
    decryptWith cipher.keys token.ciphertext token.nonce cipher.primary aad = .ok plaintext := by
  have opened := decryptWith_encrypt h
  rw [encrypt_kid h] at opened
  exact opened

private theorem withContext_eq_ok {α : Type} {message : String} {result : Except String α} {a : α} :
    withContext message result = .ok a ↔ result = .ok a :=
  mapError_eq_ok

/-- An access token that opens is encrypted again; a missing one stays missing. -/
private theorem encrypt_access (reencrypts : Reencrypts A) {row : TokenRow}
    {plaintext : Option Bytes}
    (h : openAccess cipher.keys row.toCharacterRow = .ok plaintext) (nonce : Nonce) :
    ∃ access : Option EncryptedToken, plaintext.mapM (fun p =>
        cipher.encrypt nonce p (toBeBytes row.characterId)) = .ok access ∧
      ∀ refresh, openAccess cipher.keys
          (setRow refresh access cipher.primary row).toCharacterRow = .ok plaintext ∧
        (plaintext = none → access = none) := by
  cases plaintext with
  | none => exact ⟨none, by rw [Option.mapM_none]; rfl, fun _ => ⟨rfl, fun _ => rfl⟩⟩
  | some p =>
    have opened : ∃ ciphertext stored, decryptWith cipher.keys ciphertext stored row.tokenKeyId
        (toBeBytes row.characterId) = .ok p := by
      unfold openAccess at h
      split at h
      · next ciphertext stored _ _ =>
        obtain ⟨p', hp, hsome⟩ := bind_eq_ok.mp h
        obtain rfl := Option.some.inj (Except.ok.inj hsome)
        exact ⟨ciphertext, stored, hp⟩
      · cases h
    obtain ⟨ciphertext, stored, hp⟩ := opened
    obtain ⟨token, htoken⟩ := encrypt_of_decryptWith reencrypts hp nonce
    refine ⟨some token, mapM_eq_ok.mpr (.inr ⟨p, token, rfl, htoken, rfl⟩), fun refresh => ?_⟩
    refine ⟨bind_eq_ok.mpr ⟨p, decryptWith_primary htoken, rfl⟩, fun absent => by cases absent⟩

/-- A row that opens is rewritten, and what is written is the row re-keyed. -/
private theorem reencryptRow_of_opens (reencrypts : Reencrypts A) {row : TokenRow}
    (h : Opens cipher row) (draw : Draw) :
    ∃ refresh access, Rekeyed cipher row (setRow refresh access cipher.primary row) ∧
      ∀ tx, reencryptRow cipher draw tx row = .ok (tx.1.rewrite row refresh access cipher.primary,
        if tx.1.rowsAffected row = 1 then tx.2 + 1 else tx.2) := by
  obtain ⟨⟨plaintext, hrefresh⟩, accessPlain, haccess⟩ := h
  obtain ⟨refresh, hnew⟩ := encrypt_of_decryptWith reencrypts hrefresh (draw.refreshNonce row.id)
  obtain ⟨access, hnewAccess, opened⟩ := encrypt_access reencrypts haccess (draw.accessNonce row.id)
  refine ⟨refresh, access, ⟨rfl, ⟨plaintext, hrefresh, decryptWith_primary hnew⟩,
    ⟨accessPlain, haccess, (opened refresh).1, fun absent => ?_⟩, refresh, access, _, rfl⟩,
    fun tx => ?_⟩
  · rw [(opened refresh).2 absent]
    exact ⟨rfl, rfl⟩
  · simp only [reencryptRow, bind_eq_ok, withContext_eq_ok]
    exact ⟨plaintext, hrefresh, refresh, hnew, accessPlain, haccess, access, hnewAccess, rfl⟩

private theorem opens_of_reencryptRow {row : TokenRow} {tx tx' : Characters × Nat}
    (h : reencryptRow cipher draw tx row = .ok tx') : Opens cipher row := by
  simp only [reencryptRow, bind_eq_ok, withContext_eq_ok] at h
  obtain ⟨plaintext, hrefresh, _, _, access, haccess, _⟩ := h
  exact ⟨⟨plaintext, hrefresh⟩, access, haccess⟩

/-- In the table, the `WHERE` of the update finds the selected row and no other. -/
private theorem matching_iff {row c : TokenRow} (hrow : row ∈ table.rows) (hc : c ∈ table.rows) :
    (c.id = row.id ∧ c.tokenKeyId = row.tokenKeyId) ↔ c = row := by
  constructor
  · rintro ⟨same, _⟩
    exact table.keyed.eq_of_key hc hrow same
  · rintro rfl
    exact ⟨rfl, rfl⟩

private theorem rowsAffected_eq_one {row : TokenRow} (hrow : row ∈ table.rows) :
    table.rowsAffected row = 1 := by
  have same : table.rowsAffected row = table.rows.count row := by
    rw [List.count_eq_countP]
    refine List.countP_congr fun c hc => ?_
    simpa using matching_iff hrow hc
  rw [same]
  exact List.count_eq_one_of_mem table.keyed.nodup hrow

private theorem rows_rewrite {row : TokenRow} (hrow : row ∈ table.rows) (refresh : EncryptedToken)
    (access : Option EncryptedToken) (kid : String) :
    (table.rewrite row refresh access kid).rows =
      table.rows.map fun c => if c = row then setRow refresh access kid row else c := by
  refine List.map_congr_left fun c hc => ?_
  have found := matching_iff hrow hc
  by_cases same : c = row
  · subst same
    simp
  · simp only [decide_eq_true_eq, found, if_neg same]

/-- The loop over rows that all open: one turn takes its row away from those still to do. -/
private theorem foldlM_reencryptRow (reencrypts : Reencrypts A) (draw : Draw)
    (selected : List TokenRow) (nodup : selected.Nodup) (opens : ∀ row ∈ selected, Opens cipher row)
    (mem : ∀ row ∈ selected, row ∈ table.rows) (count : Nat) :
    ∃ written, selected.foldlM (reencryptRow cipher draw) (table, count) =
        .ok (written, count + selected.length) ∧ Rekeys cipher selected table written := by
  induction selected generalizing table count with
  | nil => exact ⟨table, rfl, id, by simp, fun row _ => ⟨by simp, fun _ => rfl⟩⟩
  | cons row rest ih =>
    obtain ⟨fresh, nodup⟩ := List.nodup_cons.mp nodup
    have hrow : row ∈ table.rows := mem row (List.mem_cons_self ..)
    obtain ⟨refresh, access, rekeyed, turn⟩ :=
      reencryptRow_of_opens reencrypts (opens row (List.mem_cons_self ..)) draw
    set next : Characters := table.rewrite row refresh access cipher.primary with hnext
    have rows := rows_rewrite hrow refresh access cipher.primary
    have kept : ∀ c ∈ table.rows, c ≠ row → c ∈ next.rows := by
      intro c hc other
      rw [hnext, rows]
      exact List.mem_map.mpr ⟨c, hc, if_neg other⟩
    obtain ⟨written, hfold, change, hchange, exact_⟩ := ih nodup
      (fun c hc => opens c (List.mem_cons_of_mem _ hc))
      (fun c hc => kept c (mem c (List.mem_cons_of_mem _ hc)) fun same => fresh (same ▸ hc))
      (count + 1)
    -- the rewritten row is none of the rest, for they have other ids
    have done : setRow refresh access cipher.primary row ∉ rest := by
      intro h
      have same := table.keyed.eq_of_key (mem _ (List.mem_cons_of_mem _ h)) hrow rfl
      exact fresh (same ▸ h)
    refine ⟨written, ?_, fun c => change (if c = row then
      setRow refresh access cipher.primary row else c), ?_, fun c hc => ?_⟩
    · rw [List.foldlM_cons, turn, rowsAffected_eq_one hrow]
      simpa [bind, Except.bind, Nat.add_comm, Nat.add_left_comm] using hfold
    · rw [hchange, hnext, rows, List.map_map]
      rfl
    · by_cases same : c = row
      · subst same
        have hmem : setRow refresh access cipher.primary c ∈ next.rows := by
          rw [hnext, rows]
          exact List.mem_map.mpr ⟨c, hc, if_pos rfl⟩
        simp only [if_true, (exact_ _ hmem).2 done]
        exact ⟨fun _ => rekeyed, fun absent => absurd (List.mem_cons_self ..) absent⟩
      · obtain ⟨rekeys, leaves⟩ := exact_ c (kept c hc same)
        simp only [List.mem_cons, same, false_or]
        exact ⟨rekeys, leaves⟩

private theorem opens_of_foldlM {selected : List TokenRow} {tx tx' : Characters × Nat}
    (h : selected.foldlM (reencryptRow cipher draw) tx = .ok tx') :
    ∀ row ∈ selected, Opens cipher row := by
  induction selected generalizing tx with
  | nil => simp
  | cons row rest ih =>
    rw [List.foldlM_cons] at h
    obtain ⟨next, turn, hrest⟩ := bind_eq_ok.mp h
    intro c hc
    rcases List.mem_cons.mp hc with rfl | hc
    · exact opens_of_reencryptRow turn
    · exact ih hrest c hc

private theorem mem_of_mem_batch {row : TokenRow} (h : row ∈ batch cipher batchSize draw table) :
    row ∈ table.rows ∧ row.tokenKeyId ≠ cipher.primary := by
  simpa [Characters.stale, isStale] using mem_of_mem_limit draw.order h

private theorem nodup_batch : (batch cipher batchSize draw table).Nodup :=
  nodup_limit draw.order (table.keyed.nodup.filter _)

private theorem length_batch : (batch cipher batchSize draw table).length =
    min batchSize (table.stale cipher.primary).length :=
  length_limit draw.order

private theorem reencryptStale_of_opens (reencrypts : Reencrypts A)
    (opens : ∀ row ∈ batch cipher batchSize draw table, Opens cipher row) :
    ∃ written, reencryptStale cipher batchSize draw table =
        .ok (written, ⟨min batchSize (table.stale cipher.primary).length,
          min batchSize (table.stale cipher.primary).length⟩) ∧
      Rekeys cipher (batch cipher batchSize draw table) table written := by
  obtain ⟨written, hfold, rekeys⟩ := foldlM_reencryptRow reencrypts draw _
    nodup_batch opens (fun row h => (mem_of_mem_batch h).1) 0
  refine ⟨written, ?_, rekeys⟩
  simp only [reencryptStale, hfold, bind, Except.bind, Nat.zero_add, length_batch]

private theorem reencryptStale_of_not_opens {row : TokenRow}
    (h : row ∈ batch cipher batchSize draw table) (closed : ¬ Opens cipher row) :
    ∃ e, reencryptStale cipher batchSize draw table = .error e := by
  cases result : reencryptStale cipher batchSize draw table with
  | error e => exact ⟨e, rfl⟩
  | ok a =>
    obtain ⟨_, hfold, _⟩ := bind_eq_ok.mp result
    exact absurd (opens_of_foldlM hfold row h) closed

private theorem mem_stale {row : TokenRow} {primary : String} :
    row ∈ table.stale primary ↔ row ∈ table.rows ∧ row.tokenKeyId ≠ primary := by
  simp [Characters.stale, isStale]

/-- What is stale after a batch was stale before, and was not in it. -/
private theorem stale_of_rekeys {selected : List TokenRow} {after : Characters}
    (h : Rekeys cipher selected table after) {row : TokenRow}
    (hrow : row ∈ after.stale cipher.primary) :
    row ∈ table.stale cipher.primary ∧ row ∉ selected := by
  obtain ⟨change, rows, exact_⟩ := h
  obtain ⟨hmem, hstale⟩ := mem_stale.mp hrow
  rw [rows] at hmem
  obtain ⟨c, hc, rfl⟩ := List.mem_map.mp hmem
  have skipped : c ∉ selected := fun h => hstale ((exact_ c hc).1 h).key
  rw [(exact_ c hc).2 skipped] at hstale ⊢
  exact ⟨mem_stale.mpr ⟨hc, hstale⟩, skipped⟩

private theorem length_stale_of_rekeys {selected : List TokenRow} {after : Characters}
    (h : Rekeys cipher selected table after) (nodup : selected.Nodup)
    (sub : ∀ row ∈ selected, row ∈ table.stale cipher.primary) :
    (after.stale cipher.primary).length + selected.length =
      (table.stale cipher.primary).length := by
  obtain ⟨change, rows, exact_⟩ := h
  have taken : ((table.stale cipher.primary).filter fun c => decide (c ∈ selected)).Perm
      selected := by
    refine (List.perm_ext_iff_of_nodup ((table.keyed.nodup.filter _).filter _) nodup).mpr ?_
    intro c
    rw [List.mem_filter, decide_eq_true_eq]
    exact ⟨And.right, fun h => ⟨sub c h, h⟩⟩
  have left : (after.stale cipher.primary).length =
      ((table.stale cipher.primary).filter fun c => !decide (c ∈ selected)).length := by
    unfold Characters.stale
    rw [rows, List.filter_filter, ← List.countP_eq_length_filter, List.countP_map,
      ← List.countP_eq_length_filter]
    refine List.countP_congr fun c hc => ?_
    by_cases hsel : c ∈ selected
    · simp [isStale, hsel, ((exact_ c hc).1 hsel).key]
    · simp [hsel, (exact_ c hc).2 hsel]
  rw [left, ← taken.length_eq, Nat.add_comm]
  exact (List.length_eq_length_filter_add _).symm

private theorem Rekeys.trans {first second : List TokenRow} {before mid after : Characters}
    (h : Rekeys cipher first before mid) (h' : Rekeys cipher second mid after)
    (sub : ∀ row ∈ second, row ∈ mid.stale cipher.primary) :
    Rekeys cipher (first ++ second) before after := by
  obtain ⟨change, rows, exact_⟩ := h
  obtain ⟨change', rows', exact'⟩ := h'
  refine ⟨change' ∘ change, by rw [rows', rows, List.map_map], fun row hrow => ?_⟩
  have hmid : change row ∈ mid.rows := by
    rw [rows]
    exact List.mem_map_of_mem hrow
  rw [List.mem_append]
  by_cases hfirst : row ∈ first
  · have rekeyed := (exact_ row hrow).1 hfirst
    have current : change row ∉ second := fun h => (mem_stale.mp (sub _ h)).2 rekeyed.key
    rw [Function.comp_apply, (exact' _ hmid).2 current]
    exact ⟨fun _ => rekeyed, fun absent => absurd (.inl hfirst) absent⟩
  · have same := (exact_ row hrow).2 hfirst
    have step := exact' _ hmid
    rw [same] at step
    rw [Function.comp_apply, same]
    exact ⟨fun h => step.1 (h.resolve_left hfirst), fun h => step.2 fun h' => h (.inr h')⟩

/-- A run of calls re-keys stale rows only, and `batchSize` of them in each call. -/
private theorem run_sweep (batchSize : Nat) (reencrypts : Reencrypts A) (draws : List Draw)
    (opens : ∀ row ∈ table.stale cipher.primary, Opens cipher row) :
    ∃ selected : List TokenRow, (∀ row ∈ selected, row ∈ table.stale cipher.primary) ∧
      Rekeys cipher selected table (run (sweep cipher batchSize) table draws) ∧
      ((run (sweep cipher batchSize) table draws).stale cipher.primary).length =
        (table.stale cipher.primary).length - batchSize * draws.length := by
  induction draws generalizing table with
  | nil => exact ⟨[], by simp, ⟨id, by simp, fun _ _ => ⟨by simp, fun _ => rfl⟩⟩, by simp⟩
  | cons draw draws ih =>
    have sub : ∀ row ∈ batch cipher batchSize draw table, row ∈ table.stale cipher.primary :=
      fun row h => mem_stale.mpr (mem_of_mem_batch h)
    have openBatch : ∀ row ∈ batch cipher batchSize draw table, Opens cipher row :=
      fun row h => opens row (sub row h)
    obtain ⟨mid, hcall, rekeys⟩ := reencryptStale_of_opens reencrypts openBatch
    have hstep : exec (sweep cipher batchSize) table draw = mid :=
      exec_of_ok (by rw [sweep, hcall]; rfl)
    have hcount := length_stale_of_rekeys rekeys nodup_batch sub
    obtain ⟨selected, hsel, rest, hlast⟩ := ih fun row h => opens row (stale_of_rekeys rekeys h).1
    rw [run_cons, hstep]
    refine ⟨_, fun row h => ?_, rekeys.trans rest hsel, ?_⟩
    · rcases List.mem_append.mp h with h | h
      · exact sub row h
      · exact (stale_of_rekeys rekeys (hsel row h)).1
    · rw [length_batch] at hcount
      rw [hlast, List.length_cons, Nat.mul_succ]
      omega

private theorem reencryptStale_of_current (h : table.stale cipher.primary = []) :
    reencryptStale cipher batchSize draw table = .ok (table, ⟨0, 0⟩) := by
  have empty : batch cipher batchSize draw table = [] := by
    rw [← List.length_eq_zero_iff, length_batch, h, List.length_nil, Nat.min_zero]
  rw [reencryptStale, empty]
  rfl

/-- Key rotation converges: a call re-keys as many stale rows as the batch holds, or fails as a
whole, and after `⌈stale / batchSize⌉` calls no stale row is left. -/
theorem key_rotation_converges (reencrypts : Reencrypts A) (cipher : MultiKeyCipher A)
    (batchSize : Nat) (positive : 1 ≤ batchSize) (table : Characters) :
    (∀ row, Sealed cipher row → Opens cipher row) ∧
    (∀ draw, (∀ row ∈ batch cipher batchSize draw table, Opens cipher row) →
      ∃ selected : List TokenRow, selected.Nodup ∧
        (∀ row ∈ selected, row ∈ table.stale cipher.primary) ∧
        selected.length = min batchSize (table.stale cipher.primary).length ∧
        ∃ written, Rekeys cipher selected table written ∧
          reencryptStale cipher batchSize draw table =
            .ok (written, ⟨selected.length, selected.length⟩) ∧
          exec (sweep cipher batchSize) table draw = written) ∧
    (∀ draw, (∃ row ∈ batch cipher batchSize draw table, ¬ Opens cipher row) →
      (∃ e, reencryptStale cipher batchSize draw table = .error e) ∧
        exec (sweep cipher batchSize) table draw = table) ∧
    ((∀ row ∈ table.stale cipher.primary, Opens cipher row) → ∀ draws : List Draw,
      ((table.stale cipher.primary).length + batchSize - 1) / batchSize ≤ draws.length →
        let final := run (sweep cipher batchSize) table draws
        final.stale cipher.primary = [] ∧
          Rekeys cipher (table.stale cipher.primary) table final ∧
          ∀ draw, reencryptStale cipher batchSize draw final = .ok (final, ⟨0, 0⟩) ∧
            exec (sweep cipher batchSize) final draw = final) := by
  refine ⟨fun _ => opens_of_sealed, fun draw opens => ?_, ?_, fun opens draws enough => ?_⟩
  · obtain ⟨written, hcall, rekeys⟩ := reencryptStale_of_opens reencrypts opens
    refine ⟨_, nodup_batch, fun row h => mem_stale.mpr (mem_of_mem_batch h), length_batch,
      written, rekeys, ?_, exec_of_ok ?_⟩
    · rw [hcall, length_batch]
    · rw [sweep, hcall]
      rfl
  · rintro draw ⟨row, hrow, closed⟩
    obtain ⟨e, hcall⟩ := reencryptStale_of_not_opens hrow closed
    have rolledBack : sweep cipher batchSize draw table = .error e := by
      rw [sweep, hcall]
      rfl
    exact ⟨⟨e, hcall⟩, exec_of_error rolledBack⟩
  · obtain ⟨selected, hsel, rekeys, hcount⟩ :=
      run_sweep batchSize reencrypts draws opens
    have covered : (table.stale cipher.primary).length ≤ batchSize * draws.length := by
      have hceil := (Nat.div_le_iff_le_mul_add_pred positive).mp enough
      omega
    have drained : (run (sweep cipher batchSize) table draws).stale cipher.primary = [] := by
      rw [← List.length_eq_zero_iff, hcount]
      omega
    have current : ∀ draw, reencryptStale cipher batchSize draw
        (run (sweep cipher batchSize) table draws) = .ok (_, ⟨0, 0⟩) :=
      fun draw => reencryptStale_of_current drained
    refine ⟨drained, ?_, fun draw => ⟨current draw, exec_of_ok ?_⟩⟩
    · obtain ⟨change, rows, exact_⟩ := rekeys
      refine ⟨change, rows, fun row hrow => ⟨fun hstale => (exact_ row hrow).1 ?_,
        fun fresh => (exact_ row hrow).2 fun h => fresh (hsel row h)⟩⟩
      -- a stale row that no call selected would still be there, and stale
      by_contra skipped
      have same := (exact_ row hrow).2 skipped
      have left : row ∈ (run (sweep cipher batchSize) table draws).stale cipher.primary := by
        refine mem_stale.mpr ⟨?_, (mem_stale.mp hstale).2⟩
        rw [rows]
        exact List.mem_map.mpr ⟨row, hrow, same⟩
      rw [drained] at left
      cases left
    · rw [sweep, current draw]
      rfl

/-- Two keys; the second is the primary one. -/
def rotatedKeys : Keys tagged := fun kid =>
  if kid = "v1" then some [1] else if kid = "v2" then some [2] else none

def rotated : MultiKeyCipher tagged := ⟨rotatedKeys, "v2", rfl⟩

/-- A row under the first key, with or without an access token. -/
def oldRow (id : Uuid) (access : Option Bytes) : TokenRow :=
  let sealedUnder (plaintext : Bytes) : Bytes :=
    [1] ++ zeroNonce.val ++ toBeBytes id ++ plaintext
  ⟨⟨id, 1, id, "pilot", "h", [], sealedUnder [7], zeroNonce.val, access.map sealedUnder,
    access.map fun _ => zeroNonce.val, none, "v1"⟩, none⟩

def oldRows : Characters := ⟨[oldRow 1 (some [8]), oldRow 2 none, oldRow 3 (some [9])], by decide⟩

def insertionDraw : Draw :=
  ⟨OrderBy.insertion TokenRow.notAfter, fun _ => zeroNonce, fun _ => zeroNonce⟩

theorem key_rotation_converges_two_calls :
    (run (sweep rotated 2) oldRows [insertionDraw, insertionDraw]).stale "v2" = [] :=
  ((key_rotation_converges (fun _ _ _ => rfl) rotated 2 (by decide) oldRows).2.2.2
    (fun row h => by
      have hrow : row ∈ oldRows.rows := (mem_stale.mp h).1
      simp only [oldRows, List.mem_cons, List.not_mem_nil, or_false] at hrow
      rcases hrow with rfl | rfl | rfl
      · exact ⟨⟨[7], rfl⟩, some [8], rfl⟩
      · exact ⟨⟨[7], rfl⟩, none, rfl⟩
      · exact ⟨⟨[7], rfl⟩, some [9], rfl⟩)
    [insertionDraw, insertionDraw] (by decide)).1

end JitaCart.Tokens.Sweep
