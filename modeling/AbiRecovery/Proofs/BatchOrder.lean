import AbiRecovery.Proofs.BatchScan
import AbiRecovery.Proofs.Samples

/-!
# The order of a batch

A batch that comes to its end leaves what its contracts tell, whatever the order of its addresses is, however often each
of them is listed, and in whatever letter case. Carried out once more it leaves even the order of the rows. A batch that
breaks off leaves what has come first.
-/
namespace AbiRecovery

open Session Store Tool

namespace Session

variable {s : Session} {pair pair' : Text × Text}

theorem contract?_lowerAscii (address : Text) : contract? address.lowerAscii = contract? address :=
  Address.toOption_ofText_lowerAscii address

theorem contract?_eq_of_lowerAscii {address address' : Text} (same : address.lowerAscii = address'.lowerAscii) :
    contract? address = contract? address' := by
  rw [← contract?_lowerAscii, same, contract?_lowerAscii]

/-- The rows that a scan writes are told by the chain and the contract, not by the letter case of the address. -/
theorem writesOf_eq_of_contract? (chains : pair.1 = pair'.1) (contracts : contract? pair.2 = contract? pair'.2) :
    s.writesOf pair = s.writesOf pair' := by
  unfold writesOf
  rw [chains, contracts]

theorem canEnd_iff_of_contract? (chains : pair.1 = pair'.1) (contracts : contract? pair.2 = contract? pair'.2) :
    CanEnd s pair ↔ CanEnd s pair' := by
  unfold CanEnd
  rw [chains, contracts]

/-- A row that a scan writes is that of the code, or that of the contract. -/
theorem mem_writesOf {row : Text × Value} (member : row ∈ s.writesOf pair) :
    ∃ code contract, s.answer? pair.1 (contract? pair.2) = .ok (some code) ∧ contract? pair.2 = some contract ∧
      (row = (codeKey (codeHash code), .entries (Abi.recovered code)) ∨
        row = (contractKey pair.1 contract, .hash (codeHash code))) := by
  unfold writesOf at member
  split at member
  next code contract answer known => exact ⟨code, contract, answer, known, by simpa using member⟩
  next => cases member

theorem proper_of_contract? {address : Text} {contract : Address} (known : contract? address = some contract) :
    contract.Proper :=
  Address.proper_of_ofText (contract?_eq_some_iff.mp known)

/-- What is fetched does not depend on the case of the chain's name. -/
theorem answer?_eq_of_upper {chain chain' : Text} (names : Text.upper chain = Text.upper chain') (contract? : Option Address) :
    s.answer? chain contract? = s.answer? chain' contract? := by
  unfold answer? Settings.chain?
  rw [names]

/-- Only contracts have code. -/
theorem contract_of_answer? {chain : Text} {contract? : Option Address} {code : Bytes}
    (answer : s.answer? chain contract? = .ok (some code)) : ∃ contract, contract? = some contract := by
  cases contract? with
  | some contract => exact ⟨contract, rfl⟩
  | none =>
    unfold answer? at answer
    cases known : s.settings.chain? chain <;> rw [known] at answer <;> cases answer

/-- The rows of several scans do not contradict each other, if codes with one hash are one code. -/
theorem consistent_writesOf {pairs : List (Text × Text)}
    (distinct : ∀ pair ∈ pairs, ∀ pair' ∈ pairs, ∀ code code', s.answer? pair.1 (contract? pair.2) = .ok (some code) →
      s.answer? pair'.1 (contract? pair'.2) = .ok (some code') → codeHash code = codeHash code' → code = code') :
    Table.Consistent (pairs.flatMap s.writesOf) := by
  intro key value value' one other
  obtain ⟨pair, member, one⟩ := List.mem_flatMap.mp one
  obtain ⟨pair', member', other⟩ := List.mem_flatMap.mp other
  obtain ⟨code, contract, answer, known, row⟩ := mem_writesOf one
  obtain ⟨code', contract', answer', known', row'⟩ := mem_writesOf other
  rcases row with row | row <;> rcases row' with row' | row' <;> cases row <;> obtain ⟨keys, rfl⟩ := Prod.mk.inj row'
  case inl.inl =>
    rw [distinct pair member pair' member' code code' answer answer' (codeKey_injective keys)]
  case inl.inr => exact absurd keys (codeKey_ne_contractKey _ _ _)
  case inr.inl => exact absurd keys.symm (codeKey_ne_contractKey _ _ _)
  case inr.inr =>
    obtain ⟨names, rfl⟩ := (contractKey_eq_iff (proper_of_contract? known) (proper_of_contract? known')).mp keys
    rw [known, answer?_eq_of_upper names, ← known', answer'] at answer
    cases answer
    rfl

/-- The store can be opened, written, and opened again. -/
def StoreReopens (s : Session) : Prop :=
  ∃ key value o t, perform (do writeStore (← openStore) key value; openStore) s = (.ok o, t)

theorem StoreReopens.ready (reopens : s.StoreReopens) (apart : s.LogApart) : ∃ filed rows, Ready filed rows s := by
  obtain ⟨key, value, o, t, ran⟩ := reopens
  obtain ⟨_, _, opened, ran⟩ := bind_ok_cases ran
  obtain ⟨_, _, written, again⟩ := bind_ok_cases ran
  exact ⟨_, _, ready_of_reopened apart opened written again⟩

/-- A store that can be written once and opened again can be opened again after any write. -/
theorem storeReopens_of_isOk (opens : (perform (do writeStore (← openStore) "key" (.hash "value"); openStore) s).1.isOk) :
    s.StoreReopens := by
  cases ran : perform (do writeStore (← openStore) "key" (.hash "value"); openStore) s with
  | mk result t =>
    cases result with
    | error failure => rw [ran] at opens; cases opens
    | ok o => exact ⟨_, _, o, t, ran⟩

end Session

namespace CommandLine

/-- The addresses of two lists are the same but for their order, their repetition and their letter case. -/
def SameAddresses (addresses addresses' : List Text) : Prop :=
  ∀ address, address ∈ addresses.map Text.lowerAscii ↔ address ∈ addresses'.map Text.lowerAscii

instance (addresses addresses' : List Text) : Decidable (SameAddresses addresses addresses') :=
  decidable_of_iff ((∀ address ∈ addresses.map Text.lowerAscii, address ∈ addresses'.map Text.lowerAscii) ∧
      ∀ address ∈ addresses'.map Text.lowerAscii, address ∈ addresses.map Text.lowerAscii)
    ⟨fun ⟨there, back⟩ address => ⟨there address, back address⟩, fun same => ⟨fun a => (same a).mp, fun a => (same a).mpr⟩⟩

variable {s t : Session} {settings : Settings} {chain? : Option Text} {addresses addresses' : List Text}

theorem SameAddresses.symm (same : SameAddresses addresses addresses') : SameAddresses addresses' addresses :=
  fun address => (same address).symm

theorem mem_batchPairs {pair : Text × Text} :
    pair ∈ batchPairs settings chain? addresses ↔ pair.1 ∈ settings.targetChains chain? ∧ pair.2 ∈ addresses := by
  obtain ⟨chain, address⟩ := pair
  simp only [batchPairs, List.mem_flatMap, List.mem_map, Prod.mk.injEq]
  constructor
  · rintro ⟨_, chains, _, member, rfl, rfl⟩
    exact ⟨chains, member⟩
  · rintro ⟨chains, member⟩
    exact ⟨chain, chains, address, member, rfl, rfl⟩

/-- For each pair of one batch there is one of the other with the same chain and the same contract. -/
theorem SameAddresses.pair (same : SameAddresses addresses addresses') {pair : Text × Text}
    (member : pair ∈ batchPairs settings chain? addresses) :
    ∃ pair' ∈ batchPairs settings chain? addresses', pair.1 = pair'.1 ∧ contract? pair.2 = contract? pair'.2 := by
  obtain ⟨chains, listed⟩ := mem_batchPairs.mp member
  obtain ⟨address, listed', lower⟩ := List.mem_map.mp ((same _).mp (List.mem_map_of_mem listed))
  exact ⟨(pair.1, address), mem_batchPairs.mpr ⟨chains, listed'⟩, rfl, contract?_eq_of_lowerAscii lower.symm⟩

theorem SameAddresses.batchResult_eq (same : SameAddresses addresses addresses') :
    batchResult (batchPairs settings chain? addresses) = batchResult (batchPairs settings chain? addresses') := by
  have empty {front back : List Text} (same : SameAddresses front back) (none : front = []) : back = [] := by
    subst none
    refine List.eq_nil_iff_forall_not_mem.mpr fun address member => ?_
    cases (same _).mpr (List.mem_map_of_mem member)
  have both : addresses = [] ↔ addresses' = [] := ⟨empty same, empty same.symm⟩
  simp only [batchResult, batchPairs_isEmpty, Bool.or_eq_true, List.isEmpty_iff, both]

/-- The rows of both batches are the same but for their order and repetition. -/
theorem SameAddresses.mem_rows (same : SameAddresses addresses addresses') (row : Text × Store.Value) :
    row ∈ (batchPairs settings chain? addresses).flatMap s.writesOf ↔
      row ∈ (batchPairs settings chain? addresses').flatMap s.writesOf := by
  have oneWay {front back : List Text} (same : SameAddresses front back)
      (member : row ∈ (batchPairs settings chain? front).flatMap s.writesOf) :
      row ∈ (batchPairs settings chain? back).flatMap s.writesOf := by
    obtain ⟨pair, member, row⟩ := List.mem_flatMap.mp member
    obtain ⟨pair', member', chains, contracts⟩ := same.pair member
    exact List.mem_flatMap.mpr ⟨pair', member', writesOf_eq_of_contract? chains contracts ▸ row⟩
  exact ⟨oneWay same, oneWay same.symm⟩

theorem SameAddresses.canScan (same : SameAddresses addresses addresses')
    (can : CanScan s (batchPairs settings chain? addresses)) : CanScan s (batchPairs settings chain? addresses') where
  canEnd pair' member' := by
    obtain ⟨pair, member, chains, contracts⟩ := same.symm.pair member'
    exact (canEnd_iff_of_contract? chains contracts).mpr (can.canEnd pair member)
  writable := can.writable.imp_right fun nothing =>
    List.eq_nil_iff_forall_not_mem.mpr fun row member => by
      have before := (same.mem_rows row).mpr member
      rw [nothing] at before
      cases before

/-- The same rows leave the same in the store, in whatever order they are written. -/
theorem find?_eq_of_wrote {t' : Session} {writes writes' : Table} (consistent : writes.Consistent)
    (same : ∀ row, row ∈ writes ↔ row ∈ writes') (writable : (∃ filed rows, Ready filed rows s) ∨ writes = [])
    (wrote : Wrote s writes t) (wrote' : Wrote s writes' t') (key : Text) :
    t'.storeRows?.map (Table.find? · key) = t.storeRows?.map (Table.find? · key) := by
  rcases writable with ⟨filed, rows, ready⟩ | rfl
  · rw [(wrote.written filed rows ready).storeRows?_eq, (wrote'.written filed rows ready).storeRows?_eq]
    cases filed with
    | false => rfl
    | true => exact congrArg some (Table.find?_putAll_eq consistent same rows key)
  · obtain rfl : writes' = [] := List.eq_nil_iff_forall_not_mem.mpr fun row member => by cases (same row).mpr member
    rw [(wrote.quiet rfl).storeRows?_eq, (wrote'.quiet rfl).storeRows?_eq]

/-- Writing the same rows once more leaves the store as it is. -/
theorem storeRows?_eq_of_again {u : Session} {writes : Table} (writable : (∃ filed rows, Ready filed rows s) ∨ writes = [])
    (wrote : Wrote s writes t) (again : Wrote t writes u) : u.storeRows? = t.storeRows? := by
  rcases writable with ⟨filed, rows, ready⟩ | rfl
  · have ready := wrote.written filed rows ready
    rw [ready.storeRows?_eq, (again.written filed _ ready).storeRows?_eq]
    cases filed with
    | false => rfl
    | true => exact congrArg some (Table.putAll_putAll rows writes)
  · exact (again.quiet rfl).storeRows?_eq

variable {r r' : BatchRequest}

/-- What fetching comes to, as the session tells it. -/
theorem fetched_eq (apart : s.LogApart) (chain address : Text) :
    (perform (fetchCode chain address) s).1 = (s.answer? chain (contract? address)).mapError .code := by
  obtain ⟨_, fetched, -⟩ := perform_fetchCode chain address s apart
  rw [fetched]

/-- The pairs of a batch can be scanned, if all code can be fetched, the names of the chains have bytes, and the store can
be opened, written and opened again. -/
theorem canScan_of_reopens (apart : s.LogApart) (reopens : s.StoreReopens)
    (named : ∀ chain ∈ s.settings.targetChains chain?, chain.hasBytes)
    (fetched : ∀ chain ∈ s.settings.targetChains chain?, ∀ address ∈ addresses, ∃ code?,
      (perform (fetchCode chain address) s).1 = .ok code?) :
    CanScan s (batchPairs s.settings chain? addresses) where
  canEnd pair member := by
    obtain ⟨chains, listed⟩ := mem_batchPairs.mp member
    obtain ⟨code?, fetched⟩ := fetched pair.1 chains pair.2 listed
    rw [fetched_eq apart] at fetched
    unfold CanEnd
    have answer := FileTree.eq_ok_of_mapError fetched
    rw [answer]
    cases code? with
    | none => trivial
    | some code =>
      obtain ⟨contract, known⟩ := contract_of_answer? answer
      exact ⟨contract, known, hasBytes_contractKey.mpr (named pair.1 chains)⟩
  writable := .inl (reopens.ready apart)

/-- Saving batches depend neither on the order of their addresses nor on their repetition and letter case. If all code can
be fetched, the chains have names with bytes, and the store can be opened again once it is written, a batch comes to its
end. If one does, so does each with the same addresses, with the same result, and leaves the same under each key. The same
batch once more leaves the same rows in the same order. -/
theorem batch_ignores_order_and_repetition (save : r.save) (save' : r'.save) (chains : r'.chain? = r.chain?)
    (listed : (perform r.listed s).1 = .ok addresses) (listed' : (perform r'.listed s).1 = .ok addresses')
    (same : SameAddresses addresses addresses') (apart : s.LogApart)
    (distinct : ∀ chain ∈ s.settings.targetChains r.chain?, ∀ chain' ∈ s.settings.targetChains r.chain?,
      ∀ address ∈ addresses, ∀ address' ∈ addresses, ∀ code code',
        (perform (fetchCode chain address) s).1 = .ok (some code) →
        (perform (fetchCode chain' address') s).1 = .ok (some code') → codeHash code = codeHash code' → code = code') :
    (s.StoreReopens → (∀ chain ∈ s.settings.targetChains r.chain?, chain.hasBytes) →
      (∀ chain ∈ s.settings.targetChains r.chain?, ∀ address ∈ addresses, ∃ code?,
        (perform (fetchCode chain address) s).1 = .ok code?) →
      ∃ n t, perform r.run s = (.ok n, t)) ∧
    ∀ n t, perform r.run s = (.ok n, t) →
      (∃ t', perform r'.run s = (.ok n, t') ∧
        ∀ key, t'.storeRows?.map (Table.find? · key) = t.storeRows?.map (Table.find? · key)) ∧
      ((perform r.listed t).1 = .ok addresses → ∃ u, perform r.run t = (.ok n, u) ∧ u.storeRows? = t.storeRows?) := by
  refine ⟨fun reopens named fetched => run_ends save apart listed (canScan_of_reopens apart reopens named fetched), ?_⟩
  intro n t ran
  obtain ⟨result, can, like, wrote⟩ := of_run save apart listed ran
  refine ⟨?_, fun listed => ?_⟩
  · have can' := same.canScan can
    rw [← chains] at can'
    obtain ⟨n', t', ran'⟩ := run_ends save' apart listed' can'
    obtain ⟨result', -, -, wrote'⟩ := of_run save' apart listed' ran'
    rw [chains] at result' wrote'
    obtain rfl : n' = n := result'.trans (same.batchResult_eq.symm.trans result.symm)
    refine ⟨t', ran', find?_eq_of_wrote ?_ same.mem_rows can.writable wrote wrote'⟩
    refine consistent_writesOf fun pair member pair' member' code code' answer answer' => ?_
    obtain ⟨chain, address⟩ := mem_batchPairs.mp member
    obtain ⟨chain', address'⟩ := mem_batchPairs.mp member'
    have fetched {pair : Text × Text} {code : Bytes} (answer : s.answer? pair.1 (contract? pair.2) = .ok (some code)) :
        (perform (fetchCode pair.1 pair.2) s).1 = .ok (some code) := by
      rw [fetched_eq apart, answer]
      rfl
    exact distinct _ chain _ chain' _ address _ address' code code' (fetched answer) (fetched answer')
  · have again : CanScan t (batchPairs t.settings r.chain? addresses) := by
      rw [like.settings]
      exact can.of_asksLike like fun filed rows ready => ⟨_, wrote.written filed rows ready⟩
    obtain ⟨m, u, ran'⟩ := run_ends save wrote.logApart listed again
    obtain ⟨result', -, -, wrote'⟩ := of_run save wrote.logApart listed ran'
    rw [like.settings] at result' wrote'
    rw [show t.writesOf = s.writesOf from funext like.writesOf_eq] at wrote'
    obtain rfl : m = n := result'.trans result.symm
    exact ⟨u, ran', storeRows?_eq_of_again can.writable wrote wrote'⟩

open Sample

set_option maxRecDepth 100000 in
/-- Two contracts, whose addresses are listed in another order, once more, and in another letter case. -/
theorem batch_ignores_order_of_two :
    let s := withLists (withNode "ETH") twoCodes [uniform 'a', uniform 'B'] [uniform 'b', uniform 'A', uniform 'B']
    ∃ n t t' u, perform (batchOf none "one").run s = (.ok n, t) ∧ perform (batchOf none "two").run s = (.ok n, t') ∧
      (∀ key, t'.storeRows?.map (Table.find? · key) = t.storeRows?.map (Table.find? · key)) ∧
      perform (batchOf none "one").run t = (.ok n, u) ∧ u.storeRows? = t.storeRows? := by
  intro s
  have listed : (perform (batchOf none "one").listed s).1 = .ok [uniform 'a', uniform 'B'] := ok_of_toOption (by decide +kernel)
  have listed' : (perform (batchOf none "two").listed s).1 = .ok [uniform 'b', uniform 'A', uniform 'B'] :=
    ok_of_toOption (by decide +kernel)
  have apart : s.LogApart := logApart_start _ _ _ _
  have ended : (perform (batchOf none "one").run s).1 = .ok 0 := ok_of_toOption (by decide +kernel)
  have codes : ∀ chain ∈ s.settings.targetChains none, ∀ address ∈ [uniform 'a', uniform 'B'],
      (s.answer? chain (contract? address)).toOption = some (some logging) ∨
        (s.answer? chain (contract? address)).toOption = some (some [0x00]) := by decide +kernel
  have again : (perform (batchOf none "one").listed (perform (batchOf none "one").run s).2).1 =
      .ok [uniform 'a', uniform 'B'] := ok_of_toOption (by decide +kernel)
  have fetched {chain address : Text} {code : Bytes} (known : chain ∈ s.settings.targetChains none)
      (member : address ∈ [uniform 'a', uniform 'B']) (found : (perform (fetchCode chain address) s).1 = .ok (some code)) :
      code = logging ∨ code = [0x00] := by
    rw [fetched_eq apart] at found
    have answers := codes chain known address member
    rw [FileTree.eq_ok_of_mapError found] at answers
    exact answers.imp (fun first => Option.some.inj (Option.some.inj first)) fun second => Option.some.inj (Option.some.inj second)
  have save : (batchOf none "one").save := rfl
  have save' : (batchOf none "two").save := rfl
  have chains : (batchOf none "two").chain? = (batchOf none "one").chain? := rfl
  obtain ⟨ends, leaves⟩ := batch_ignores_order_and_repetition save save' chains listed listed' (by decide) apart
    fun chain known chain' known' address member address' member' code code' found found' same => by
      rcases fetched known member found with rfl | rfl <;> rcases fetched known' member' found' with rfl | rfl
      · rfl
      · exact absurd same codeHash_logging_ne
      · exact absurd same.symm codeHash_logging_ne
      · rfl
  obtain ⟨⟨t', ran', finds⟩, second⟩ := leaves 0 _ (Prod.ext ended rfl)
  obtain ⟨u, ran, rows⟩ := second again
  exact ⟨0, _, t', u, Prod.ext ended rfl, ran', finds, ran, rows⟩

set_option maxRecDepth 100000 in
/-- On a chain whose name has no bytes a batch ends at the first contract, between the two writes of its scan. And where
the log is written into the file of the store, an address that is none breaks the batch off if it is listed first: what is
logged about it is there before the store is. -/
theorem batch_depends_on_order :
    let s := withLists (withNode halfName) twoCodes [uniform 'a', uniform 'b'] [uniform 'b', uniform 'a']
    let one := batchOf (some halfName) "one"
    let two := batchOf (some halfName) "two"
    let inLog := { withNode "ETH" with storePath := "logs/app.log" }
    let logged := (perform setUpLog (withLists inLog twoCodes ["junk", uniform 'a'] [uniform 'a', "junk"])).2
    ((perform one.listed s).1 = .ok [uniform 'a', uniform 'b'] ∧ (perform two.listed s).1 = .ok [uniform 'b', uniform 'a'] ∧
      s.LogApart ∧ s.StoreReopens ∧ (perform (fetchCode halfName (uniform 'a')) s).1 = .ok (some logging) ∧
      (perform (fetchCode halfName (uniform 'b')) s).1 = .ok (some [0x00]) ∧ codeHash logging ≠ codeHash [0x00] ∧
      ¬∀ key, (perform two.run s).2.storeRows?.map (Table.find? · key) =
        (perform one.run s).2.storeRows?.map (Table.find? · key)) ∧
    logged.storeRows? = some [] ∧ (perform (batchOf none "one").listed logged).1 = .ok ["junk", uniform 'a'] ∧
      (perform (batchOf none "two").listed logged).1 = .ok [uniform 'a', "junk"] ∧
      (perform (batchOf none "one").run logged).1.toOption = none ∧
      (perform (batchOf none "one").run logged).2.storeRows? = none ∧
      (perform (batchOf none "two").run logged).1.toOption = some 0 ∧
      rowsInLog? (perform (batchOf none "two").run logged).2 = some 2 := by
  intro s one two inLog logged
  have apart : s.LogApart := logApart_start _ _ _ _
  have reopens : s.StoreReopens := storeReopens_of_isOk (by decide +kernel)
  -- Each batch leaves one row, and the values in the two rows differ.
  obtain ⟨key, first⟩ : ∃ key, (perform one.run s).2.storeRows? = some [(key, .entries (Abi.recovered logging))] :=
    exists_row_of_values (by decide +kernel)
  obtain ⟨key', second⟩ : ∃ key, (perform two.run s).2.storeRows? = some [(key, .entries [])] :=
    exists_row_of_values (by decide +kernel)
  have logs : Abi.recovered logging ≠ [] := by decide +kernel
  refine ⟨⟨ok_of_toOption (by decide +kernel), ok_of_toOption (by decide +kernel), apart, reopens,
    ok_of_toOption (by decide +kernel), ok_of_toOption (by decide +kernel), codeHash_logging_ne, ?_⟩,
    by decide +kernel, ok_of_toOption (by decide +kernel), ok_of_toOption (by decide +kernel), by decide +kernel⟩
  intro alike
  have same := alike key
  rw [first, second] at same
  by_cases keys : key' = key
  · simp [Table.find?, OrderedMap.get?, keys, logs.symm] at same
  · simp [Table.find?, OrderedMap.get?, keys] at same

end CommandLine

end AbiRecovery
