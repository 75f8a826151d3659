/- module: JitaCart/Operations
   source: backend/crates/api/src/lists.rs, backend/crates/api/src/fulfillment.rs,
     backend/crates/api/src/contracts.rs, backend/crates/worker/src/jobs/contracts.rs (routes and jobs)
   digest: Every modelled request and worker step as one transition of the database. -/

import JitaCart.Api.Contracts
import JitaCart.Api.Fulfillments
import JitaCart.Api.Lists
import JitaCart.Directory
import JitaCart.Worker.Match
import JitaCart.Worker.Terminal

/-!
Requests on users, groups, corps and characters change only the directory. Each
of them is one `directory` step: principals are never removed or reassigned, and
every member and every linked corp has its principal, as `create_user` and
`link_corp` insert it in the same transaction.
-/

set_option autoImplicit false
set_option relaxedAutoImplicit false

namespace JitaCart.Operations

open Schema Base.Request Settlement Directory
open Api.Claims Api.Fulfillments Api.Reimbursements Api.Lists Api.Contracts
open Worker.Match Worker.Terminal

inductive Refusal
  | api (e : ApiError)
  | settlement (e : SettlementError)
  | db (e : DbError)
  deriving DecidableEq

def changeDirectory (s : Db) (d : Directory) : Except DbError Db := do
  require (DirectoryOk d ∧ Extends s.directory d) .checkViolation
  .ok { s with directory := d }

inductive Op
  | directory (d : Directory)
  | create (limits : Limits) (userId groupId : Uuid) (lines : List NewLine) (listId : Uuid)
      (itemIds : List Uuid)
  | addItems (limits : Limits) (userId listId : Uuid) (lines : List NewLine) (itemIds : List Uuid)
  | patchListStatus (userId listId : Uuid) (status : ListStatus)
  | createClaim (userId listId : Uuid) (itemIds : List Uuid) (claimId : Uuid)
  | addClaimItems (userId claimId : Uuid) (itemIds : List Uuid)
  | removeClaimItem (userId claimId itemId : Uuid)
  | releaseClaim (userId claimId : Uuid)
  | recordFulfillment (userId listId itemId : Uuid) (body : RecordFulfillmentBody)
      (gen : Generated)
  | reverseFulfillment (userId fulfillmentId newReimbursementId : Uuid) (now : Timestamp)
  | markDelivered (userId listId itemId : Uuid) (lastHauler : Option Uuid)
  | setListTip (userId listId : Uuid) (tipPct : ℚ)
  | patchListPayer (userId listId : Uuid) (body : PatchListPayerBody)
  | doConfirm (userId suggestionId : Uuid) (now : Timestamp)
  | doReject (userId suggestionId : Uuid)
  | doManualLink (userId contractId reimbursementId newId : Uuid) (now : Timestamp)
  | doUnlink (userId contractId : Uuid)
  | settleReimbursement (userId reimbursementId : Uuid) (now : Timestamp)
  | settleManual (reimbursementId settledBy : Uuid) (now : Timestamp)
  | settleViaContract (contractId : Uuid) (now : Timestamp)
  | unbindContract (contractId : Uuid)
  | handleContractTerminal (u : UpsertedContract) (now : Timestamp)
  | upsertContract (u : ContractUpsert) (newId : Uuid)
  | syncItemsFor (contractId : Uuid) (items : List ContractItem) (now : Timestamp)
  | runOne (contractId : Uuid) (newId : Uuid → Uuid)

/-- One atomic request or worker step. -/
def apply : Op → Db → Except Refusal Db
  | .directory d, s => (changeDirectory s d).mapError .db
  | .create limits userId groupId lines listId itemIds, s =>
    (create s limits userId groupId lines listId itemIds).mapError .api
  | .addItems limits userId listId lines itemIds, s =>
    (addItems s limits userId listId lines itemIds).mapError .api
  | .patchListStatus userId listId status, s => (patchListStatus s userId listId status).mapError .api
  | .createClaim userId listId itemIds claimId, s =>
    (createClaim s userId listId itemIds claimId).mapError .api
  | .addClaimItems userId claimId itemIds, s => (addClaimItems s userId claimId itemIds).mapError .api
  | .removeClaimItem userId claimId itemId, s =>
    (removeClaimItem s userId claimId itemId).mapError .api
  | .releaseClaim userId claimId, s => (releaseClaim s userId claimId).mapError .api
  | .recordFulfillment userId listId itemId body gen, s =>
    (recordFulfillment s userId listId itemId body gen).mapError .api
  | .reverseFulfillment userId fulfillmentId newReimbursementId now, s =>
    (reverseFulfillment s userId fulfillmentId newReimbursementId now).mapError .api
  | .markDelivered userId listId itemId lastHauler, s =>
    (markDelivered s userId listId itemId lastHauler).mapError .api
  | .setListTip userId listId tipPct, s => (setListTip s userId listId tipPct).mapError .api
  | .patchListPayer userId listId body, s => (patchListPayer s userId listId body).mapError .api
  | .doConfirm userId suggestionId now, s => (doConfirm s userId suggestionId now).mapError .api
  | .doReject userId suggestionId, s => (doReject s userId suggestionId).mapError .api
  | .doManualLink userId contractId reimbursementId newId now, s =>
    (doManualLink s userId contractId reimbursementId newId now).mapError .api
  | .doUnlink userId contractId, s => (doUnlink s userId contractId).mapError .api
  | .settleReimbursement userId reimbursementId now, s =>
    (settleReimbursement s userId reimbursementId now).mapError .api
  | .settleManual reimbursementId settledBy now, s =>
    (settleManual s reimbursementId settledBy now).mapError .settlement
  | .settleViaContract contractId now, s =>
    ((settleViaContract s contractId now).map (·.2)).mapError .settlement
  | .unbindContract contractId, s => .ok (unbindContract s contractId).2
  | .handleContractTerminal u now, s => (handleContractTerminal s u now).mapError .settlement
  | .upsertContract u newId, s => ((upsertContract s u newId).map (·.2)).mapError .settlement
  | .syncItemsFor contractId items now, s => (syncItemsFor s contractId items now).mapError .db
  | .runOne contractId newId, s => (runOne s contractId newId).mapError .db

def empty : Db := {}

/-- The state after a run of requests from the empty database. -/
def reached (ops : List Op) : Db := run apply empty ops

theorem reached_append (os ps : List Op) : reached (os ++ ps) = run apply (reached os) ps :=
  run_append _ _ _

-- A small group for concrete runs: an owner and three members, no tip.
def sampleDirectory : Schema.Directory where
  principals := [⟨1, .user 1⟩, ⟨2, .user 2⟩, ⟨3, .user 3⟩, ⟨4, .user 4⟩]
  groups := [⟨1, 0⟩]
  groupMemberships := [⟨1, 1, .owner⟩, ⟨2, 1, .member⟩, ⟨3, 1, .member⟩, ⟨4, 1, .member⟩]

def sampleLimits : Limits := ⟨100, 100⟩

def samplePurchase (qty : Int) (unitPriceIsk : ℚ) : RecordFulfillmentBody where
  qty := qty
  unitPriceIsk := unitPriceIsk
  boughtAtMarketId := none
  boughtAtNote := some "Jita"
  haulerCharacterId := none
  claimId := none

/-- Member 3 hands items to member 1. -/
def sampleContract (status : ContractStatus) : ContractUpsert where
  esiContractId := 9
  issuerUserId := some 3
  assigneeUserId := some 1
  issuerPrincipalId := some 3
  assigneePrincipalId := some 1
  contractType := .itemExchange
  status := status
  priceIsk := 10
  dateCompleted := none
  sourceCorpId := none

end JitaCart.Operations
