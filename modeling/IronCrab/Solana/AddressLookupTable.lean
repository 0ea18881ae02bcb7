/-
  File:      IronCrab/Solana/AddressLookupTable.lean
  Subject:   COMPILING AGAINST A LOOKUP TABLE WITHOUT THE TIP
             (src/solana/address_lookup_table.rs): the table that is compiled against, the map of its
             indices back to the table on chain, and the audit of PumpSwap's global config.

  Removing the tip shifts every later index of the table, so the compiled message is rewritten: an
  index of the shorter table becomes the first index of the same pubkey on chain.

  * `onChainMap_get` -- that index is in the map, and on chain it names the same pubkey;
  * `compile_reindexes` -- so a compiled message is the one `try_compile` made, each lookup index
    replaced by one that names the same pubkey on chain;
  * `compiled_accounts_resolve` -- and every account resolves to what the instruction asked for.

  `v0::Message::try_compile` is a parameter; what is assumed of it is `CompilesAccounts`.
-/
import IronCrab.PumpAmm.SellBuilder
import IronCrab.Lib.Sift

namespace IronCrab.Solana

open Track (Pubkey TextCodec)
open Cache (parsePubkey)
open Sift
open PumpAmm (AccountMeta Instruction defaultPubkey pumpfunAmmProgramId pumpfunAmmGlobalConfig)

/-! ## 1. Tables and messages -/

/-- `LoadedAlt`. -/
structure LoadedAlt where
  address : Pubkey
  accounts : List Pubkey

namespace LoadedAlt

/-- `contains`. -/
def contains (alt : LoadedAlt) (pubkey : Pubkey) : Bool := pubkey ∈ alt.accounts

/-- `index_of`. -/
def indexOf (alt : LoadedAlt) (pubkey : Pubkey) : Option Nat :=
  alt.accounts.findIdx? fun p => p = pubkey

end LoadedAlt

/-- `AddressLookupTableAccount`. -/
structure AddressLookupTableAccount where
  key : Pubkey
  addresses : List Pubkey
  deriving DecidableEq

/-- `MessageAddressTableLookup`. -/
structure MessageAddressTableLookup where
  accountKey : Pubkey
  writableIndexes : List UInt8
  readonlyIndexes : List UInt8

/-- `CompiledInstruction`. -/
structure CompiledInstruction where
  programIdIndex : UInt8
  accounts : List UInt8
  data : List UInt8

/-- `v0::Message`, its keys, instructions and lookups. -/
structure Message where
  accountKeys : List Pubkey
  instructions : List CompiledInstruction
  addressTableLookups : List MessageAddressTableLookup

/-- `legacy::Message`. -/
structure LegacyMessage where
  accountKeys : List Pubkey
  instructions : List CompiledInstruction

/-- `VersionedMessage`. -/
inductive VersionedMessage where
  | legacy (message : LegacyMessage)
  | v0 (message : Message)

/-- `Hash`. -/
abbrev Hash := Fin (2 ^ 256)

/-- The type of `v0::Message::try_compile`: payer, instructions, tables, blockhash; an error is its
    text. -/
abbrev TryCompile :=
  Pubkey → List Instruction → List AddressLookupTableAccount → Hash → Except String Message

/-- `address_lookup_table_account`. -/
def addressLookupTableAccount (alt : LoadedAlt) (excludeTip : Option Pubkey) :
    AddressLookupTableAccount :=
  { key := alt.address
    addresses :=
      match excludeTip with
      | some tip => alt.accounts.filter fun addr => addr ≠ tip
      | none => alt.accounts }

/-- `u8::try_from`. -/
def u8TryFrom (n : Nat) : Option UInt8 := if n < 256 then some n.toUInt8 else none

/-- `filtered_alt_index_to_on_chain_map`. -/
def filteredAltIndexToOnChainMap (alt : LoadedAlt) (excludeTip : Pubkey) : Option (List UInt8) :=
  if !alt.contains excludeTip then none
  else some ((alt.accounts.filter fun pk => pk ≠ excludeTip).filterMap fun pk =>
    (alt.indexOf pk).bind u8TryFrom)

/-- One index of a lookup, rewritten. -/
def remapIndex (indexMap : List UInt8) (idx : UInt8) : Except String UInt8 :=
  match indexMap[idx.toNat]? with
  | some onChain => .ok onChain
  | none => .error s!"alt_lookup_remap_oob:filtered_index_{idx.toNat}"

/-- One lookup, rewritten: the writable indexes, then the readonly ones. -/
def remapLookup (alt : LoadedAlt) (indexMap : List UInt8) (lookup : MessageAddressTableLookup) :
    Except String MessageAddressTableLookup := do
  if lookup.accountKey ≠ alt.address then
    throw ("alt_lookup_remap_unexpected_table:" ++ TextCodec.base58Text lookup.accountKey)
  let writableIndexes ← lookup.writableIndexes.mapM (remapIndex indexMap)
  let readonlyIndexes ← lookup.readonlyIndexes.mapM (remapIndex indexMap)
  return { lookup with writableIndexes, readonlyIndexes }

/-- `remap_v0_alt_lookup_indices_to_on_chain`. -/
def remapV0AltLookupIndicesToOnChain (message : Message) (alt : LoadedAlt) (excludeTip : Pubkey) :
    Except String Message :=
  match filteredAltIndexToOnChainMap alt excludeTip with
  | none => .ok message
  | some indexMap => do
      let addressTableLookups ← message.addressTableLookups.mapM (remapLookup alt indexMap)
      return { message with addressTableLookups }

/-- `compile_v0_versioned_message`. -/
def compileV0VersionedMessage (tryCompile : TryCompile) (payer : Pubkey)
    (instructions : List Instruction) (alt : Option LoadedAlt) (excludeTipFromAlt : Option Pubkey)
    (recentBlockhash : Hash) : Except String VersionedMessage := do
  let compile (tables : List AddressLookupTableAccount) : Except String Message :=
    (tryCompile payer instructions tables recentBlockhash).mapError ("v0_compile_error:" ++ ·)
  match alt with
  | some alt =>
      let message ← compile [addressLookupTableAccount alt excludeTipFromAlt]
      match excludeTipFromAlt with
      | some tip => return .v0 (← remapV0AltLookupIndicesToOnChain message alt tip)
      | none => return .v0 message
  | none => return .v0 (← compile [])

/-- `LoadedAddresses`. -/
structure LoadedAddresses where
  writable : List Pubkey
  readonly : List Pubkey

/-- One kind of index of the lookups, loaded from the table: what is out of range is left out. -/
def loadIndexes (alt : LoadedAlt) (indexes : MessageAddressTableLookup → List UInt8)
    (lookups : List MessageAddressTableLookup) : List Pubkey :=
  lookups.flatMap fun lookup =>
    if lookup.accountKey ≠ alt.address then []
    else (indexes lookup).filterMap fun idx => alt.accounts[idx.toNat]?

/-- `loaded_addresses_from_alt_lookups`. -/
def loadedAddressesFromAltLookups (alt : LoadedAlt) : VersionedMessage → Option LoadedAddresses
  | .legacy _ => none
  | .v0 v0 =>
      if v0.addressTableLookups.isEmpty then some ⟨[], []⟩
      else some ⟨loadIndexes alt (·.writableIndexes) v0.addressTableLookups,
        loadIndexes alt (·.readonlyIndexes) v0.addressTableLookups⟩

/-- `AccountKeys::get`: the static keys, then what was loaded. -/
def accountKeysGet (staticKeys : List Pubkey) (loadedAddresses : Option LoadedAddresses)
    (keyIndex : Nat) : Option Pubkey :=
  (staticKeys ++ (loadedAddresses.elim [] fun l => l.writable ++ l.readonly))[keyIndex]?

/-- `resolved_instruction_account_pubkey`. -/
def resolvedInstructionAccountPubkey (message : VersionedMessage)
    (loadedAddresses : Option LoadedAddresses) (ixIndex metaIndex : Nat) : Option Pubkey :=
  match message with
  | .v0 v0 => do
      let ix ← v0.instructions[ixIndex]?
      let keyIndex ← ix.accounts[metaIndex]?
      accountKeysGet v0.accountKeys loadedAddresses keyIndex.toNat
  | .legacy legacy => do
      let ix ← legacy.instructions[ixIndex]?
      let keyIndex ← ix.accounts[metaIndex]?
      legacy.accountKeys[keyIndex.toNat]?

/-! ## 2. The audit -/

/-- `PUMP_AMM_KNOWN_BAD_GLOBAL_CONFIG_PUBKEYS`. -/
def pumpAmmKnownBadGlobalConfigPubkeys : List String :=
  ["T1pyyaTNZsKv2WcRAB8oVnk93mLJw2XzjtVYqCsaHqt", "39azUYFWPz3VHgKCf3VChUwbpURdCHRxjWVowf5jUJjg"]

/-- `PumpAmmGlobalConfigAuditError`. -/
structure PumpAmmGlobalConfigAuditError where
  ixIndex : Nat
  metaPubkey : Pubkey
  resolvedPubkey : Pubkey
  staticContainsBad : List Pubkey

/-- The static keys of a message. -/
def VersionedMessage.staticKeys : VersionedMessage → List Pubkey
  | .v0 message => message.accountKeys
  | .legacy message => message.accountKeys

/-- The known bad pubkeys among the static keys. -/
def badStatic (message : VersionedMessage) : List Pubkey :=
  (pumpAmmKnownBadGlobalConfigPubkeys.filterMap parsePubkey).filter fun pk => pk ∈ message.staticKeys

/-- The audit of one planned instruction. -/
def auditInstruction (message : VersionedMessage) (alt : LoadedAlt) (ixIndex : Nat)
    (planIx : Instruction) : Except PumpAmmGlobalConfigAuditError Unit :=
  if planIx.programId ≠ pumpfunAmmProgramId then .ok ()
  else
    match planIx.accounts[2]? with
    | none => .ok ()
    | some planned =>
        match resolvedInstructionAccountPubkey message (loadedAddressesFromAltLookups alt message)
            ixIndex 2 with
        | none => .error ⟨ixIndex, planned.pubkey, defaultPubkey, badStatic message⟩
        | some resolved =>
            if planned.pubkey ≠ resolved then
              .error ⟨ixIndex, planned.pubkey, resolved, badStatic message⟩
            else if planned.pubkey = pumpfunAmmGlobalConfig ∧ !(badStatic message).isEmpty then
              .error ⟨ixIndex, planned.pubkey, resolved, badStatic message⟩
            else .ok ()

/-- `audit_pump_amm_global_config_in_versioned_tx`: the instructions in order, the first failure. -/
def auditPumpAmmGlobalConfigInVersionedTx (message : VersionedMessage) (alt : LoadedAlt)
    (planInstructions : List Instruction) : Except PumpAmmGlobalConfigAuditError Unit :=
  planInstructions.zipIdx.forM fun (planIx, ixIndex) => auditInstruction message alt ixIndex planIx

/-! ## 3. What is assumed of `try_compile` -/

/-- What the lookups of a message load, in the order of the key indices: the writable entries of
    every lookup, then the readonly ones. -/
def Message.lookedUp (message : Message) : List (Pubkey × UInt8) :=
  (message.addressTableLookups.flatMap fun lookup =>
      lookup.writableIndexes.map (lookup.accountKey, ·)) ++
    message.addressTableLookups.flatMap fun lookup =>
      lookup.readonlyIndexes.map (lookup.accountKey, ·)

/-- A key index of a message compiled against some tables names a pubkey: as a static key, or
    through an entry of a table. -/
inductive Message.Names (message : Message) (tables : List AddressLookupTableAccount)
    (keyIndex : Nat) (pubkey : Pubkey) : Prop where
  | static (h : message.accountKeys[keyIndex]? = some pubkey)
  | entry (j : Nat) (idx : UInt8) (table : AddressLookupTableAccount)
      (hindex : keyIndex = message.accountKeys.length + j)
      (hlookedUp : message.lookedUp[j]? = some (table.key, idx)) (htable : table ∈ tables)
      (hentry : table.addresses[idx.toNat]? = some pubkey)

/-- **What is assumed of `v0::Message::try_compile`**: every account of every instruction is a static
    key or an entry of a table it was given, and it looks nothing else up. -/
structure CompilesAccounts (tryCompile : TryCompile) : Prop where
  accounts : ∀ {payer instructions tables recentBlockhash message},
    tryCompile payer instructions tables recentBlockhash = .ok message →
    ∀ (ixIndex : Nat) ix, instructions[ixIndex]? = some ix →
      ∃ compiled, message.instructions[ixIndex]? = some compiled ∧
        ∀ (metaIndex : Nat) account, ix.accounts[metaIndex]? = some account →
          ∃ keyIndex, compiled.accounts[metaIndex]? = some keyIndex ∧
            message.Names tables keyIndex.toNat account.pubkey
  lookups : ∀ {payer instructions tables recentBlockhash message},
    tryCompile payer instructions tables recentBlockhash = .ok message →
    ∀ lookup ∈ message.addressTableLookups, ∃ table ∈ tables, table.key = lookup.accountKey ∧
      ∀ idx ∈ lookup.writableIndexes ++ lookup.readonlyIndexes,
        idx.toNat < table.addresses.length

/-! ## 4. The map back to the table on chain -/

theorem u8TryFrom_of_lt {n : Nat} (h : n < 256) : ∃ i, u8TryFrom n = some i ∧ i.toNat = n :=
  ⟨n.toUInt8, if_pos h, Nat.mod_eq_of_lt h⟩

namespace LoadedAlt

variable {alt : LoadedAlt} {pubkey : Pubkey}

/-- The first index of an entry names it. -/
theorem indexOf_of_mem (h : pubkey ∈ alt.accounts) :
    ∃ i, alt.indexOf pubkey = some i ∧ i < alt.accounts.length ∧ alt.accounts[i]? = some pubkey := by
  have hfound : (alt.indexOf pubkey).isSome := by
    rw [indexOf, List.findIdx?_isSome, List.any_eq_true]
    exact ⟨pubkey, h, decide_eq_true rfl⟩
  obtain ⟨i, hi⟩ := Option.isSome_iff_exists.mp hfound
  obtain ⟨hlt, hp, -⟩ := List.findIdx?_eq_some_iff_getElem.mp hi
  exact ⟨i, hi, hlt, by rw [List.getElem?_eq_getElem hlt, of_decide_eq_true hp]⟩

/-- In a table of at most 256 entries it fits the map. -/
theorem onChainIndex_of_mem (hlen : alt.accounts.length ≤ 256) (h : pubkey ∈ alt.accounts) :
    ∃ i, (alt.indexOf pubkey).bind u8TryFrom = some i ∧ alt.accounts[i.toNat]? = some pubkey := by
  obtain ⟨n, hn, hlt, hentry⟩ := indexOf_of_mem h
  obtain ⟨i, hi, htoNat⟩ := u8TryFrom_of_lt (Nat.lt_of_lt_of_le hlt hlen)
  exact ⟨i, by rw [hn, Option.bind_some, hi], by rw [htoNat, hentry]⟩

end LoadedAlt

/-- **The map back**: an entry of the table without the tip has an index there, and on chain that
    index names the same pubkey. -/
theorem onChainMap_get {alt : LoadedAlt} {tip : Pubkey} {indexMap : List UInt8}
    (hlen : alt.accounts.length ≤ 256) (hmap : filteredAltIndexToOnChainMap alt tip = some indexMap)
    {i : Nat} {pubkey : Pubkey}
    (hentry : (addressLookupTableAccount alt (some tip)).addresses[i]? = some pubkey) :
    ∃ onChain, indexMap[i]? = some onChain ∧ alt.accounts[onChain.toNat]? = some pubkey := by
  unfold filteredAltIndexToOnChainMap at hmap
  split at hmap
  case isTrue => cases hmap
  cases hmap
  have hkept : ∀ pk ∈ alt.accounts.filter fun pk => pk ≠ tip,
      ((alt.indexOf pk).bind u8TryFrom).isSome := by
    intro pk hpk
    obtain ⟨j, hj, -⟩ := LoadedAlt.onChainIndex_of_mem hlen (List.mem_of_mem_filter hpk)
    rw [hj]
    rfl
  have hmem : pubkey ∈ alt.accounts := List.mem_of_mem_filter (List.mem_of_getElem? hentry)
  obtain ⟨onChain, honChain, hnames⟩ := LoadedAlt.onChainIndex_of_mem hlen hmem
  exact ⟨onChain, getElem?_of_map_some (map_some_filterMap hkept) hentry honChain, hnames⟩

/-! ## 5. The compiled message -/

/-- A lookup with each index replaced. -/
def MessageAddressTableLookup.reindex (g : UInt8 → UInt8) (lookup : MessageAddressTableLookup) :
    MessageAddressTableLookup :=
  { lookup with
    writableIndexes := lookup.writableIndexes.map g
    readonlyIndexes := lookup.readonlyIndexes.map g }

/-- A message with each index of its lookups replaced. -/
def Message.reindex (g : UInt8 → UInt8) (message : Message) : Message :=
  { message with
    addressTableLookups := message.addressTableLookups.map (MessageAddressTableLookup.reindex g) }

@[simp] theorem Message.reindex_accountKeys (g : UInt8 → UInt8) (message : Message) :
    (message.reindex g).accountKeys = message.accountKeys := rfl

@[simp] theorem Message.reindex_instructions (g : UInt8 → UInt8) (message : Message) :
    (message.reindex g).instructions = message.instructions := rfl

theorem Message.reindex_id (message : Message) : message.reindex id = message := by
  have hlookup : MessageAddressTableLookup.reindex id = id := by
    funext lookup
    simp [MessageAddressTableLookup.reindex]
  simp [Message.reindex, hlookup]

/-- The lookups are into one table: each index of each lookup is one of its indices. -/
def Message.LooksUpOnly (message : Message) (table : AddressLookupTableAccount) : Prop :=
  ∀ lookup ∈ message.addressTableLookups, lookup.accountKey = table.key ∧
    ∀ idx ∈ lookup.writableIndexes ++ lookup.readonlyIndexes, idx.toNat < table.addresses.length

/-- A replacement of indices that names on chain what the table named. -/
def NamesOnChain (alt : LoadedAlt) (table : AddressLookupTableAccount) (g : UInt8 → UInt8) : Prop :=
  ∀ idx, idx.toNat < table.addresses.length →
    alt.accounts[(g idx).toNat]? = table.addresses[idx.toNat]?

/-- A loop that passes has passed at every element. -/
theorem forM_ok {A E : Type} {f : A → Except E Unit} :
    ∀ {l : List A}, l.forM f = .ok () → ∀ a ∈ l, f a = .ok ()
  | [], _, _, ha => nomatch ha
  | b :: l, h, a, ha => by
      have h : (do f b; l.forM f) = .ok () := h
      cases hb : f b with
      | error e =>
          rw [hb] at h
          cases h
      | ok u =>
          rw [hb] at h
          obtain rfl | ha := List.mem_cons.mp ha
          · exact hb
          · exact forM_ok h a ha

theorem mapM_ok_of_forall {A B : Type} {f : A → Except String B} {g : A → B} :
    ∀ {l : List A}, (∀ a ∈ l, f a = .ok (g a)) → l.mapM f = .ok (l.map g)
  | [], _ => rfl
  | a :: l, h => by
      rw [List.mapM_cons, h a List.mem_cons_self,
        mapM_ok_of_forall fun a' ha' => h a' (List.mem_cons_of_mem _ ha')]
      rfl

/-- **Rewriting never fails**, and names on chain what was compiled. -/
theorem remap_reindexes {alt : LoadedAlt} {tip : Pubkey} {message : Message}
    (hlen : alt.accounts.length ≤ 256)
    (hlooks : message.LooksUpOnly (addressLookupTableAccount alt (some tip))) :
    ∃ g, NamesOnChain alt (addressLookupTableAccount alt (some tip)) g ∧
      remapV0AltLookupIndicesToOnChain message alt tip = .ok (message.reindex g) := by
  cases hmap : filteredAltIndexToOnChainMap alt tip with
  | none =>
      refine ⟨id, fun idx _ => ?_, ?_⟩
      · -- without the tip nothing is filtered
        have habsent : tip ∉ alt.accounts := by
          intro hmem
          simp [filteredAltIndexToOnChainMap, LoadedAlt.contains, hmem] at hmap
        have hsame : (alt.accounts.filter fun addr => addr ≠ tip) = alt.accounts := by
          rw [List.filter_eq_self]
          intro pk hpk
          exact decide_eq_true fun heq => habsent (heq ▸ hpk)
        show _ = (alt.accounts.filter fun addr => addr ≠ tip)[idx.toNat]?
        rw [hsame]
        rfl
      · rw [remapV0AltLookupIndicesToOnChain, hmap, Message.reindex_id]
  | some indexMap =>
      refine ⟨fun idx => indexMap[idx.toNat]?.getD 0, fun idx hidx => ?_, ?_⟩
      · obtain ⟨onChain, honChain, hnames⟩ :=
          onChainMap_get hlen hmap (List.getElem?_eq_getElem hidx)
        show alt.accounts[(indexMap[idx.toNat]?.getD 0).toNat]? = _
        rw [honChain, Option.getD_some, hnames, List.getElem?_eq_getElem hidx]
      · have hindex : ∀ idx : UInt8,
            idx.toNat < (addressLookupTableAccount alt (some tip)).addresses.length →
            remapIndex indexMap idx = .ok (indexMap[idx.toNat]?.getD 0) := by
          intro idx hidx
          obtain ⟨onChain, honChain, -⟩ :=
            onChainMap_get hlen hmap (List.getElem?_eq_getElem hidx)
          rw [remapIndex, honChain]
          rfl
        have hlookup : ∀ lookup ∈ message.addressTableLookups,
            remapLookup alt indexMap lookup =
              .ok (lookup.reindex fun idx => indexMap[idx.toNat]?.getD 0) := by
          intro lookup hmem
          obtain ⟨hkey, hrange⟩ := hlooks lookup hmem
          have hkey' : lookup.accountKey = alt.address := hkey
          unfold remapLookup
          rw [mapM_ok_of_forall fun idx h => hindex idx (hrange idx (List.mem_append_left _ h)),
            mapM_ok_of_forall fun idx h => hindex idx (hrange idx (List.mem_append_right _ h))]
          simp [hkey', MessageAddressTableLookup.reindex]
          rfl
        rw [remapV0AltLookupIndicesToOnChain, hmap]
        simp only
        rw [mapM_ok_of_forall hlookup]
        rfl

/-- **A compiled message is what `try_compile` made**, its lookups naming the same pubkeys on chain;
    and it fails only where `try_compile` fails. -/
theorem compile_reindexes {tryCompile : TryCompile} (h : CompilesAccounts tryCompile)
    {alt : LoadedAlt} (hlen : alt.accounts.length ≤ 256) (payer : Pubkey)
    (instructions : List Instruction) (tip : Option Pubkey) (recentBlockhash : Hash) :
    (∃ e, tryCompile payer instructions [addressLookupTableAccount alt tip] recentBlockhash =
        .error e ∧
      compileV0VersionedMessage tryCompile payer instructions (some alt) tip recentBlockhash =
        .error ("v0_compile_error:" ++ e)) ∨
    ∃ message g,
      tryCompile payer instructions [addressLookupTableAccount alt tip] recentBlockhash =
        .ok message ∧
      message.LooksUpOnly (addressLookupTableAccount alt tip) ∧
      NamesOnChain alt (addressLookupTableAccount alt tip) g ∧
      compileV0VersionedMessage tryCompile payer instructions (some alt) tip recentBlockhash =
        .ok (.v0 (message.reindex g)) := by
  cases hc : tryCompile payer instructions [addressLookupTableAccount alt tip] recentBlockhash with
  | error e =>
      refine .inl ⟨e, rfl, ?_⟩
      simp [compileV0VersionedMessage, hc, Except.mapError]
      rfl
  | ok message =>
      have hlooks : message.LooksUpOnly (addressLookupTableAccount alt tip) := by
        intro lookup hmem
        obtain ⟨table, htable, hkey, hrange⟩ := h.lookups hc lookup hmem
        cases List.mem_singleton.mp htable
        exact ⟨hkey.symm, hrange⟩
      cases tip with
      | none =>
          refine .inr ⟨message, id, rfl, hlooks, fun idx _ => rfl, ?_⟩
          rw [Message.reindex_id]
          simp [compileV0VersionedMessage, hc, Except.mapError]
      | some tip =>
          obtain ⟨g, hg, hremap⟩ := remap_reindexes hlen hlooks
          refine .inr ⟨message, g, rfl, hlooks, hg, ?_⟩
          simp only [compileV0VersionedMessage, hc, Except.mapError]
          show (return VersionedMessage.v0 (← remapV0AltLookupIndicesToOnChain message alt tip) :
            Except String VersionedMessage) = _
          rw [hremap]
          rfl

/-! ## 6. Resolving against the table on chain -/

section Resolve

variable {alt : LoadedAlt} {table : AddressLookupTableAccount} {g : UInt8 → UInt8}
  {message : Message}

/-- What one kind of index loads from the table on chain: per lookup, so over all of them. -/
theorem loadIndexes_reindex (hkey : table.key = alt.address) (hg : NamesOnChain alt table g)
    (indexes : MessageAddressTableLookup → List UInt8)
    (hindexes : ∀ lookup : MessageAddressTableLookup,
      indexes (lookup.reindex g) = (indexes lookup).map g)
    {lookups : List MessageAddressTableLookup}
    (hlooks : ∀ lookup ∈ lookups, lookup.accountKey = table.key ∧
      ∀ idx ∈ indexes lookup, idx.toNat < table.addresses.length) :
    (loadIndexes alt indexes (lookups.map (MessageAddressTableLookup.reindex g))).map some =
      (lookups.flatMap fun lookup => (indexes lookup).map (lookup.accountKey, ·)).map
        fun entry => table.addresses[entry.2.toNat]? := by
  unfold loadIndexes
  induction lookups with
  | nil => rfl
  | cons lookup lookups ih =>
      obtain ⟨hhere, hrange⟩ := hlooks lookup List.mem_cons_self
      have honChain : ¬ (lookup.reindex g).accountKey ≠ alt.address :=
        not_not.mpr (hhere.trans hkey)
      have hload : (((indexes lookup).map g).filterMap fun idx => alt.accounts[idx.toNat]?).map
          some = (indexes lookup).map fun idx => table.addresses[idx.toNat]? := by
        rw [List.filterMap_map, map_some_filterMap]
        · exact List.map_congr_left fun idx hidx => hg idx (hrange idx hidx)
        · intro idx hidx
          show (alt.accounts[(g idx).toNat]?).isSome
          rw [hg idx (hrange idx hidx), List.getElem?_eq_getElem (hrange idx hidx)]
          rfl
      rw [List.map_cons, List.flatMap_cons, List.flatMap_cons, List.map_append, List.map_append,
        ih fun l hl => hlooks l (List.mem_cons_of_mem _ hl), if_neg honChain, hindexes, hload,
        List.map_map]
      rfl

/-- **What a rewritten message loads from the table on chain** is, entry for entry, what the message
    looked up in the table it was compiled against. -/
theorem loaded_of_reindex (hkey : table.key = alt.address) (hlooks : message.LooksUpOnly table)
    (hg : NamesOnChain alt table g) :
    ∃ loaded, loadedAddressesFromAltLookups alt (.v0 (message.reindex g)) = some loaded ∧
      (loaded.writable ++ loaded.readonly).map some =
        message.lookedUp.map fun entry => table.addresses[entry.2.toNat]? := by
  have hwritable := loadIndexes_reindex hkey hg (·.writableIndexes) (fun _ => rfl)
    fun lookup hmem => ⟨(hlooks lookup hmem).1,
      fun idx hidx => (hlooks lookup hmem).2 idx (List.mem_append_left _ hidx)⟩
  have hreadonly := loadIndexes_reindex hkey hg (·.readonlyIndexes) (fun _ => rfl)
    fun lookup hmem => ⟨(hlooks lookup hmem).1,
      fun idx hidx => (hlooks lookup hmem).2 idx (List.mem_append_right _ hidx)⟩
  have hloaded : loadedAddressesFromAltLookups alt (.v0 (message.reindex g)) =
      some ⟨loadIndexes alt (·.writableIndexes) (message.reindex g).addressTableLookups,
        loadIndexes alt (·.readonlyIndexes) (message.reindex g).addressTableLookups⟩ := by
    unfold loadedAddressesFromAltLookups
    simp only
    split
    case isTrue hempty =>
        rw [List.isEmpty_iff.mp hempty]
        rfl
    case isFalse => rfl
  refine ⟨_, hloaded, ?_⟩
  rw [Message.lookedUp, List.map_append, List.map_append]
  exact congrArg₂ (· ++ ·) hwritable hreadonly

/-- **A key index names on chain what it named in the table it was compiled against.** -/
theorem accountKeysGet_of_names (hkey : table.key = alt.address) (hlooks : message.LooksUpOnly table)
    (hg : NamesOnChain alt table g) {keyIndex : Nat} {pubkey : Pubkey}
    (h : message.Names [table] keyIndex pubkey) :
    accountKeysGet (message.reindex g).accountKeys
      (loadedAddressesFromAltLookups alt (.v0 (message.reindex g))) keyIndex = some pubkey := by
  obtain ⟨loaded, hloaded, hmap⟩ := loaded_of_reindex hkey hlooks hg
  rw [hloaded, accountKeysGet, Message.reindex_accountKeys, Option.elim_some]
  cases h with
  | static h =>
      have hlt : keyIndex < message.accountKeys.length := (List.getElem?_eq_some_iff.mp h).1
      rw [List.getElem?_append_left hlt, h]
  | entry j idx table' hindex hlookedUp htable hentry =>
      cases List.mem_singleton.mp htable
      rw [hindex, List.getElem?_append_right (Nat.le_add_right _ _), Nat.add_sub_cancel_left]
      exact getElem?_of_map_some hmap hlookedUp hentry

/-- **Every lookup of a rewritten message** is into the table on chain, and what it names there is an
    entry of the table it was compiled against. -/
theorem lookups_of_reindex (hkey : table.key = alt.address) (hlooks : message.LooksUpOnly table)
    (hg : NamesOnChain alt table g) :
    ∀ lookup ∈ (message.reindex g).addressTableLookups, lookup.accountKey = alt.address ∧
      ∀ idx ∈ lookup.writableIndexes ++ lookup.readonlyIndexes,
        ∃ pubkey ∈ table.addresses, alt.accounts[idx.toNat]? = some pubkey := by
  intro lookup hmem
  obtain ⟨compiled, hcompiled, rfl⟩ := List.mem_map.mp hmem
  obtain ⟨hhere, hrange⟩ := hlooks compiled hcompiled
  refine ⟨hhere.trans hkey, fun idx hidx => ?_⟩
  have hidx' : idx ∈ (compiled.writableIndexes ++ compiled.readonlyIndexes).map g := by
    rw [List.map_append]
    exact hidx
  obtain ⟨filtered, hfiltered, rfl⟩ := List.mem_map.mp hidx'
  have hlt := hrange filtered hfiltered
  exact ⟨table.addresses[filtered.toNat], List.getElem_mem hlt,
    by rw [hg filtered hlt, List.getElem?_eq_getElem hlt]⟩

end Resolve

/-- The tip is in no table without it. -/
theorem tip_notMem {alt : LoadedAlt} {tip : Pubkey} :
    tip ∉ (addressLookupTableAccount alt (some tip)).addresses := by
  intro h
  exact absurd rfl (of_decide_eq_true (List.mem_filter.mp h).2)

/-- **An audit that passes has resolved every PumpSwap instruction's account 2 as planned.** -/
theorem audit_ok {message : VersionedMessage} {alt : LoadedAlt} {plan : List Instruction}
    (h : auditPumpAmmGlobalConfigInVersionedTx message alt plan = .ok ()) {ixIndex : Nat}
    {planIx : Instruction} (hix : plan[ixIndex]? = some planIx)
    (hprogram : planIx.programId = pumpfunAmmProgramId) {planned : AccountMeta}
    (hplanned : planIx.accounts[2]? = some planned) :
    resolvedInstructionAccountPubkey message (loadedAddressesFromAltLookups alt message) ixIndex 2 =
      some planned.pubkey := by
  have hall := forM_ok h (planIx, ixIndex) (by
    rw [List.mem_iff_getElem?]
    exact ⟨ixIndex, by simp [List.getElem?_zipIdx, hix]⟩)
  simp only [auditInstruction, hprogram, ne_eq, not_true, if_false, hplanned] at hall
  cases hresolved : resolvedInstructionAccountPubkey message
      (loadedAddressesFromAltLookups alt message) ixIndex 2 with
  | none =>
      rw [hresolved] at hall
      cases hall
  | some resolved =>
      rw [hresolved] at hall
      simp only at hall
      split at hall
      case isTrue => cases hall
      rename_i heq
      rw [not_not.mp heq]

/-- **Lookup-table compilation resolves every account**: it fails only where `try_compile` does; in
    the message it returns every instruction account resolves on chain to the pubkey it was given,
    and every lookup names an entry of the table on chain other than the tip. And an audit passes only
    when every PumpSwap instruction's account 2 resolves as planned. -/
theorem compiled_accounts_resolve {tryCompile : TryCompile} (h : CompilesAccounts tryCompile)
    {alt : LoadedAlt} (hlen : alt.accounts.length ≤ 256) (payer : Pubkey)
    (instructions : List Instruction) (tip : Option Pubkey) (recentBlockhash : Hash) :
    ((∃ e, tryCompile payer instructions [addressLookupTableAccount alt tip] recentBlockhash =
        .error e ∧
      compileV0VersionedMessage tryCompile payer instructions (some alt) tip recentBlockhash =
        .error ("v0_compile_error:" ++ e)) ∨
      ∃ message,
        compileV0VersionedMessage tryCompile payer instructions (some alt) tip recentBlockhash =
          .ok (.v0 message) ∧
        (∀ (ixIndex : Nat) ix, instructions[ixIndex]? = some ix →
          ∀ (metaIndex : Nat) account, ix.accounts[metaIndex]? = some account →
            resolvedInstructionAccountPubkey (.v0 message)
              (loadedAddressesFromAltLookups alt (.v0 message)) ixIndex metaIndex =
                some account.pubkey) ∧
        ∀ lookup ∈ message.addressTableLookups, lookup.accountKey = alt.address ∧
          ∀ idx ∈ lookup.writableIndexes ++ lookup.readonlyIndexes,
            ∃ pubkey, alt.accounts[idx.toNat]? = some pubkey ∧ tip ≠ some pubkey) ∧
    ∀ (message : VersionedMessage) (alt : LoadedAlt) (plan : List Instruction),
      auditPumpAmmGlobalConfigInVersionedTx message alt plan = .ok () →
      ∀ (ixIndex : Nat) planIx, plan[ixIndex]? = some planIx →
        planIx.programId = pumpfunAmmProgramId →
        ∀ planned, planIx.accounts[2]? = some planned →
          resolvedInstructionAccountPubkey message (loadedAddressesFromAltLookups alt message)
            ixIndex 2 = some planned.pubkey := by
  refine ⟨?_, fun _ _ _ haudit _ _ hix hprogram _ hplanned => audit_ok haudit hix hprogram hplanned⟩
  obtain hfail | ⟨compiled, g, hcompiled, hlooks, hg, hok⟩ :=
    compile_reindexes h hlen payer instructions tip recentBlockhash
  · exact .inl hfail
  refine .inr ⟨compiled.reindex g, hok, fun ixIndex ix hix metaIndex account hmeta => ?_,
    fun lookup hmem => ?_⟩
  · obtain ⟨ixCompiled, hixCompiled, haccounts⟩ := h.accounts hcompiled ixIndex ix hix
    obtain ⟨keyIndex, hkeyIndex, hnames⟩ := haccounts metaIndex account hmeta
    simp only [resolvedInstructionAccountPubkey, Message.reindex_instructions, hixCompiled,
      hkeyIndex, bind, Option.bind_some]
    exact accountKeysGet_of_names rfl hlooks hg hnames
  · obtain ⟨hkey, hnames⟩ := lookups_of_reindex rfl hlooks hg lookup hmem
    refine ⟨hkey, fun idx hidx => ?_⟩
    obtain ⟨pubkey, hmem, hentry⟩ := hnames idx hidx
    refine ⟨pubkey, hentry, fun htip => ?_⟩
    rw [htip] at hmem
    exact tip_notMem hmem

/-- A table with the tip 7 in front and a duplicate at the end. -/
def sampleAlt : LoadedAlt := ⟨99, [7, 10, 11, 10]⟩

/-- An instruction of the program 5 over the payer, two entries of the table, and the tip. -/
def sampleInstruction : Instruction :=
  ⟨5, [.new 1 true, .newReadonly 11 false, .new 7 false, .new 10 false], []⟩

/-- What it compiles to without the tip: payer, tip and program static, 10 looked up as writable and
    11 as readonly. -/
def sampleMessage : Message :=
  ⟨[1, 7, 5], [⟨2, [0, 4, 1, 3], []⟩], [⟨99, [0], [1]⟩]⟩

/-- `try_compile` on that instruction. -/
def sampleCompile : TryCompile := fun payer instructions tables _ =>
  if payer = 1 ∧ instructions = [sampleInstruction] ∧
      tables = [addressLookupTableAccount sampleAlt (some 7)] then .ok sampleMessage
  else .error "account keys overflowed during compilation"

theorem sampleCompile_compiles : CompilesAccounts sampleCompile := by
  have hinputs : ∀ {payer instructions tables recentBlockhash message},
      sampleCompile payer instructions tables recentBlockhash = .ok message →
      instructions = [sampleInstruction] ∧
        tables = [addressLookupTableAccount sampleAlt (some 7)] ∧ message = sampleMessage := by
    intro payer instructions tables recentBlockhash message h
    unfold sampleCompile at h
    split at h
    case isFalse => cases h
    rename_i hin
    cases h
    exact ⟨hin.2.1, hin.2.2, rfl⟩
  refine ⟨fun hok ixIndex ix hix => ?_, fun hok lookup hmem => ?_⟩
  · obtain ⟨rfl, rfl, rfl⟩ := hinputs hok
    match ixIndex, hix with
    | 0, hix =>
        cases hix
        refine ⟨_, rfl, fun metaIndex account hmeta => ?_⟩
        match metaIndex, hmeta with
        | 0, hmeta => cases hmeta; exact ⟨_, rfl, .static rfl⟩
        | 1, hmeta =>
            cases hmeta
            exact ⟨_, rfl, .entry 1 1 _ rfl rfl List.mem_cons_self (by decide +kernel)⟩
        | 2, hmeta => cases hmeta; exact ⟨_, rfl, .static rfl⟩
        | 3, hmeta =>
            cases hmeta
            exact ⟨_, rfl, .entry 0 0 _ rfl rfl List.mem_cons_self (by decide +kernel)⟩
  · obtain ⟨rfl, rfl, rfl⟩ := hinputs hok
    cases List.mem_singleton.mp hmem
    exact ⟨_, List.mem_cons_self, rfl, by decide +kernel⟩

/-- The sample's accounts resolve on chain, where the tip has shifted every index. -/
theorem sample_accounts_resolve :
    ∃ message, compileV0VersionedMessage sampleCompile 1 [sampleInstruction] (some sampleAlt)
        (some 7) 0 = .ok (.v0 message) ∧
      ∀ (metaIndex : Nat) account, sampleInstruction.accounts[metaIndex]? = some account →
        resolvedInstructionAccountPubkey (.v0 message)
          (loadedAddressesFromAltLookups sampleAlt (.v0 message)) 0 metaIndex =
            some account.pubkey := by
  have hlen : sampleAlt.accounts.length ≤ 256 := by decide
  have hresolve := (compiled_accounts_resolve sampleCompile_compiles hlen 1 [sampleInstruction]
    (some 7) 0).1
  obtain ⟨e, hfail, -⟩ | ⟨message, hok, hall, -⟩ := hresolve
  · have hcompiles : sampleCompile 1 [sampleInstruction]
        [addressLookupTableAccount sampleAlt (some 7)] 0 = .ok sampleMessage :=
      if_pos ⟨rfl, rfl, rfl⟩
    rw [hcompiles] at hfail
    cases hfail
  · exact ⟨message, hok, hall 0 sampleInstruction rfl⟩

end IronCrab.Solana
