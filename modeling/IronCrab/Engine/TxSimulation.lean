/-
  File:      IronCrab/Engine/TxSimulation.lean
  Subject:   ONE TRANSACTION, SIMULATED AND SENT (src/bin/execution_engine.rs): the message both are
             built from, the size gate, the audit and the simulation over RPC.

  The text of an error in `{:?}` and the preview of the logs are part of the reply of the RPC node.

  * `buildVersionedMessage` -- the message of a plan, with the tip account kept out of the table;
  * `simulateTransaction` -- what a plan's simulation gives;
  * `simulate_success` -- a plan whose simulation succeeds was compiled, fits and was accepted.
-/
import IronCrab.Ipc.Records
import IronCrab.Solana.AddressLookupTable

namespace IronCrab.Engine.PlanRetry

open Track (Pubkey)
open Track.TextCodec (base58Text)
open PumpAmm (Instruction AccountMeta toLeBytes systemProgramId)
open Solana (LoadedAlt VersionedMessage LegacyMessage Hash TryCompile compileV0VersionedMessage
  PumpAmmGlobalConfigAuditError auditPumpAmmGlobalConfigInVersionedTx)

/-! ## 1. Transactions -/

/-- `Signature`. -/
abbrev Signature := Fin (2 ^ 512)

/-- `VersionedTransaction`. -/
structure VersionedTransaction where
  signatures : List Signature
  message : VersionedMessage

/-- What the Solana crates do with messages and transactions. -/
structure Runtime where
  /-- `v0::Message::try_compile`. -/
  tryCompile : TryCompile
  /-- `Message::new_with_blockhash`. -/
  newWithBlockhash : List Instruction → Pubkey → Hash → LegacyMessage
  /-- The signatures of `VersionedTransaction::try_new` with the treasury's signer. -/
  trySign : VersionedMessage → Except String (List Signature)
  /-- The length of `bincode::serialize`. -/
  serializedLen : VersionedTransaction → Except String Nat

/-- What a transaction is built from besides the payer and a blockhash. -/
structure TxRequest where
  plan : List Instruction
  excludeTipFromAlt : Option Pubkey

theorem bind_ok {E A B : Type} {x : Except E A} {f : A → Except E B} {b : B} :
    (x >>= f) = .ok b ↔ ∃ a, x = .ok a ∧ f a = .ok b := by
  cases x with
  | error e => exact ⟨nofun, fun ⟨_, h, _⟩ => nomatch h⟩
  | ok a => exact ⟨fun h => ⟨a, rfl, h⟩, fun ⟨_, h, h'⟩ => by cases h; exact h'⟩

theorem mapError_ok {E E' A : Type} {x : Except E A} {f : E → E'} {a : A} :
    x.mapError f = .ok a ↔ x = .ok a := by
  cases x <;> simp [Except.mapError]

section Building

variable (rt : Runtime) (alt : Option LoadedAlt) (walletPubkey : Pubkey) (request : TxRequest)
  (blockhash : Hash)

/-- `build_versioned_message`: the message that simulation and send share. -/
def buildVersionedMessage : Except String VersionedMessage :=
  match alt with
  | some alt =>
      compileV0VersionedMessage rt.tryCompile walletPubkey request.plan (some alt)
        request.excludeTipFromAlt blockhash
  | none => .ok (.legacy (rt.newWithBlockhash request.plan walletPubkey blockhash))

/-- `build_unsigned_versioned_tx`. -/
def buildUnsignedVersionedTx : Except String VersionedTransaction := do
  let message ← buildVersionedMessage rt alt walletPubkey request blockhash
  return ⟨[0], message⟩

/-- `build_signed_versioned_tx`. -/
def buildSignedVersionedTx : Except String VersionedTransaction := do
  let message ← buildVersionedMessage rt alt walletPubkey request blockhash
  let signatures ← (rt.trySign message).mapError ("sign_error:" ++ ·)
  return ⟨signatures, message⟩

end Building

/-- `MAX_SERIALIZED_TX_BYTES`. -/
def maxSerializedTxBytes : Nat := 1232

/-- `check_versioned_tx_size`. -/
def checkVersionedTxSize (rt : Runtime) (tx : VersionedTransaction) : Except String Unit := do
  let size ← (rt.serializedLen tx).mapError ("serialize_error:" ++ ·)
  if size > maxSerializedTxBytes then
    throw s!"tx_too_large:{size}_bytes_max_{maxSerializedTxBytes}"

/-- `PumpAmmGlobalConfigAuditError::detail`. -/
def auditDetail (e : PumpAmmGlobalConfigAuditError) : String :=
  let staticBad := ", ".intercalate (e.staticContainsBad.map fun p => "\"" ++ base58Text p ++ "\"")
  s!"pump_amm_compile_global_config_resolve_mismatch:ix={e.ixIndex}" ++
    ":meta=" ++ base58Text e.metaPubkey ++ ":resolved=" ++ base58Text e.resolvedPubkey ++
    ":static_bad=[" ++ staticBad ++ "]"

/-- `build_system_transfer`. -/
def buildSystemTransfer (source target : Pubkey) (lamports : UInt64) : Instruction where
  programId := systemProgramId
  accounts := [⟨source, true, true⟩, ⟨target, false, true⟩]
  data := [2, 0, 0, 0] ++ toLeBytes lamports

/-! ## 2. Simulation -/

/-- What `simulate_transaction_with_config` answers within the timeout, or that it does not. -/
inductive SimulateReply where
  | value (err : Option String) (logsPreview : Option String) (unitsConsumed : Option UInt64)
      (walletSolDeltaLamports : Option Int)
  | error (e : String)
  | elapsed

/-- `SimulateTransactionOutcome`. -/
structure SimulateTransactionOutcome where
  result : Ipc.SimulationResult
  walletSolDeltaLamports : Option Int

/-- A simulation that fails before the RPC node is asked. -/
def SimulateTransactionOutcome.failed (errorCode : String) : SimulateTransactionOutcome :=
  ⟨⟨false, some errorCode, none, none⟩, none⟩

/-- `simulation_result_on_rpc_timeout`. -/
def simulationResultOnRpcTimeout : Ipc.SimulationResult := ⟨false, some "sim_timeout", none, none⟩

/-- What a reply says about the simulation. -/
def SimulateReply.outcome : SimulateReply → SimulateTransactionOutcome
  | .value none logsPreview unitsConsumed walletSolDeltaLamports =>
      ⟨⟨true, none, logsPreview, unitsConsumed⟩, walletSolDeltaLamports⟩
  | .value (some err) logsPreview unitsConsumed _ =>
      ⟨⟨false, some err, logsPreview, unitsConsumed⟩, none⟩
  | .error e => .failed ("rpc_error:" ++ e)
  | .elapsed => ⟨simulationResultOnRpcTimeout, none⟩

section Simulating

variable (rt : Runtime) (alt : Option LoadedAlt) (walletPubkey : Pubkey) (request : TxRequest)
  (blockhash : Except String Hash) (reply : VersionedTransaction → SimulateReply)

/-- The audit, where there is a table. -/
def auditForSimulation (tx : VersionedTransaction) : Except String Unit :=
  match alt with
  | some alt =>
      (auditPumpAmmGlobalConfigInVersionedTx tx.message alt request.plan).mapError auditDetail
  | none => .ok ()

/-- What is sent to the RPC node for a simulation: the transaction compiles, fits, and passes the
    audit. An error is its error code. -/
def prepareSimulation : Except String VersionedTransaction := do
  let hash ← blockhash.mapError ("blockhash_error:" ++ ·)
  let tx ← buildUnsignedVersionedTx rt alt walletPubkey request hash
  checkVersionedTxSize rt tx
  auditForSimulation alt request tx
  return tx

/-- `simulate_transaction`, for an intent. -/
def simulateTransaction : SimulateTransactionOutcome :=
  match prepareSimulation rt alt walletPubkey request blockhash with
  | .error e => .failed e
  | .ok tx => (reply tx).outcome

variable {rt alt walletPubkey request blockhash reply}

/-- A transaction that is prepared is built from the request with some blockhash. -/
theorem prepareSimulation_ok {tx : VersionedTransaction}
    (h : prepareSimulation rt alt walletPubkey request blockhash = .ok tx) :
    ∃ hash, blockhash = .ok hash ∧
      buildVersionedMessage rt alt walletPubkey request hash = .ok tx.message := by
  obtain ⟨hash, hhash, h⟩ := bind_ok.mp h
  obtain ⟨built, hbuilt, h⟩ := bind_ok.mp h
  obtain ⟨-, -, h⟩ := bind_ok.mp h
  obtain ⟨-, -, h⟩ := bind_ok.mp h
  obtain ⟨message, hmessage, hpure⟩ := bind_ok.mp hbuilt
  cases h
  cases hpure
  exact ⟨hash, mapError_ok.mp hhash, hmessage⟩

/-- **A plan whose simulation succeeds was compiled and accepted**: its result is the reply to the
    transaction that was built. -/
theorem simulate_success
    (h : (simulateTransaction rt alt walletPubkey request blockhash reply).result.success = true) :
    ∃ hash tx, blockhash = .ok hash ∧
      buildVersionedMessage rt alt walletPubkey request hash = .ok tx.message ∧
      (reply tx).outcome.result =
        (simulateTransaction rt alt walletPubkey request blockhash reply).result := by
  unfold simulateTransaction at h ⊢
  cases hprepare : prepareSimulation rt alt walletPubkey request blockhash with
  | error e =>
      rw [hprepare] at h
      cases h
  | ok tx =>
      obtain ⟨hash, hhash, hmessage⟩ := prepareSimulation_ok hprepare
      exact ⟨hash, tx, hhash, hmessage, rfl⟩

end Simulating

end IronCrab.Engine.PlanRetry
