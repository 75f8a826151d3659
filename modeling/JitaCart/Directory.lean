/- module: JitaCart/Directory
   source: backend/crates/api/src/auth.rs, backend/crates/api/src/corps.rs,
     backend/migrations/20260427000000_init.sql (principals)
   digest: What user and corp management keeps of the principals, and lookups in them. -/

import JitaCart.Schema

set_option autoImplicit false
set_option relaxedAutoImplicit false

namespace JitaCart.Directory

open Schema Base.Table

/-- What the user, group and corp endpoints keep of the directory. -/
structure DirectoryOk (d : Schema.Directory) : Prop where
  ids : Keyed Principal.id d.principals
  owners : Keyed Principal.owner d.principals
  members : ∀ m ∈ d.groupMemberships, d.userPrincipal m.userId ≠ none
  corps : ∀ gc ∈ d.groupCorps, d.corpPrincipal gc.corpId ≠ none
  tips : ∀ g ∈ d.groups, 0 ≤ g.defaultTipPct

instance (d : Schema.Directory) : Decidable (DirectoryOk d) :=
  decidable_of_iff
    (Keyed Principal.id d.principals ∧ Keyed Principal.owner d.principals ∧
      (∀ m ∈ d.groupMemberships, d.userPrincipal m.userId ≠ none) ∧
      (∀ gc ∈ d.groupCorps, d.corpPrincipal gc.corpId ≠ none) ∧
      ∀ g ∈ d.groups, 0 ≤ g.defaultTipPct)
    ⟨fun ⟨a, b, c, e, f⟩ => ⟨a, b, c, e, f⟩, fun h => ⟨h.ids, h.owners, h.members, h.corps, h.tips⟩⟩

def Extends (old new : Schema.Directory) : Prop := ∀ p ∈ old.principals, p ∈ new.principals

instance (old new : Schema.Directory) : Decidable (Extends old new) :=
  inferInstanceAs (Decidable (∀ p ∈ old.principals, p ∈ new.principals))

section Principals
variable {d e : Schema.Directory}

private theorem userPrincipal_eq_some (ok : DirectoryOk d) {u p : Uuid} :
    d.userPrincipal u = some p ↔ ⟨p, .user u⟩ ∈ d.principals := by
  unfold Schema.Directory.userPrincipal
  rw [Option.map_eq_some_iff]
  constructor
  · rintro ⟨⟨i, o⟩, hx, rfl⟩
    obtain ⟨hmem, ho⟩ := lookup_mem hx
    simp only at ho
    subst ho
    exact hmem
  · intro hmem
    exact ⟨_, (lookup_eq_some ok.owners).mpr ⟨hmem, rfl⟩, rfl⟩

private theorem corpPrincipal_eq_some (ok : DirectoryOk d) {c p : Uuid} :
    d.corpPrincipal c = some p ↔ ⟨p, .corp c⟩ ∈ d.principals := by
  unfold Schema.Directory.corpPrincipal
  rw [Option.map_eq_some_iff]
  constructor
  · rintro ⟨⟨i, o⟩, hx, rfl⟩
    obtain ⟨hmem, ho⟩ := lookup_mem hx
    simp only at ho
    subst ho
    exact hmem
  · intro hmem
    exact ⟨_, (lookup_eq_some ok.owners).mpr ⟨hmem, rfl⟩, rfl⟩

theorem principalUser_eq_some (ok : DirectoryOk d) {u p : Uuid} :
    d.principalUser p = some u ↔ d.userPrincipal u = some p := by
  rw [userPrincipal_eq_some ok]
  unfold Schema.Directory.principalUser
  constructor
  · intro h
    split at h
    · rename_i i v hx
      obtain ⟨hmem, hid⟩ := lookup_mem hx
      cases h
      cases hid
      exact hmem
    · simp at h
  · intro hmem
    rw [(lookup_eq_some ok.ids).mpr ⟨hmem, rfl⟩]

theorem userPrincipal_inj (ok : DirectoryOk d) {u v p : Uuid} (hu : d.userPrincipal u = some p)
    (hv : d.userPrincipal v = some p) : u = v := by
  have hu' := (principalUser_eq_some ok).mpr hu
  rw [(principalUser_eq_some ok).mpr hv] at hu'
  exact (Option.some.inj hu').symm

theorem userPrincipal_extends (ok : DirectoryOk d) (ok' : DirectoryOk e) (ext : Extends d e)
    {u p : Uuid} (h : d.userPrincipal u = some p) : e.userPrincipal u = some p :=
  (userPrincipal_eq_some ok').mpr (ext _ ((userPrincipal_eq_some ok).mp h))

theorem corpPrincipal_extends (ok : DirectoryOk d) (ok' : DirectoryOk e) (ext : Extends d e)
    {c p : Uuid} (h : d.corpPrincipal c = some p) : e.corpPrincipal c = some p :=
  (corpPrincipal_eq_some ok').mpr (ext _ ((corpPrincipal_eq_some ok).mp h))

theorem requesterPrincipal_extends (ok : DirectoryOk d) (ok' : DirectoryOk e) (ext : Extends d e)
    {payer : Option Payer} {u p : Uuid} (h : d.requesterPrincipal payer u = some p) :
    e.requesterPrincipal payer u = some p := by
  cases payer with
  | none => exact userPrincipal_extends ok ok' ext h
  | some q => exact corpPrincipal_extends ok ok' ext h

end Principals

end JitaCart.Directory
