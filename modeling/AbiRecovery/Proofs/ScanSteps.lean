import AbiRecovery.Proofs.Fetching
import AbiRecovery.Proofs.StoreKeys
import AbiRecovery.Proofs.StoreSteady
import AbiRecovery.Proofs.StoreWrites

/-!
# Scans one after another

What a scan writes is told by the nodes and the settings alone, so it is the same whatever has been scanned before. Where
the store can be used, scanning pairs of chains and addresses writes what each of them tells to write.
-/
namespace AbiRecovery

open FileTree Tool Store

namespace Session

/-- The second session asks the same nodes in the same way. -/
structure AsksLike (s t : Session) : Prop where
  settings : t.settings = s.settings
  network : t.network = s.network
  clients : ∀ name found, s.settings.chain? name = some found → t.client found = s.client found

theorem AsksLike.refl (s : Session) : AsksLike s s := ⟨rfl, rfl, fun _ _ _ => rfl⟩

theorem AsksLike.trans {s t u : Session} (first : AsksLike s t) (second : AsksLike t u) : AsksLike s u where
  settings := second.settings.trans first.settings
  network := second.network.trans first.network
  clients name found known :=
    (second.clients name found (by rw [first.settings]; exact known)).trans (first.clients name found known)

theorem AsksLike.answer?_eq {s t : Session} (like : AsksLike s t) (chain : Text) (contract? : Option Address) :
    t.answer? chain contract? = s.answer? chain contract? := by
  unfold answer?
  rw [like.settings, like.network]
  cases found? : s.settings.chain? chain with
  | none => rfl
  | some found =>
    cases contract? with
    | none => rfl
    | some contract =>
      dsimp only
      rw [like.clients chain found found?]

theorem SameButOutput.asksLike {s t : Session} (same : SameButOutput s t) : AsksLike s t where
  settings := same.settings.symm
  network := same.network.symm
  clients name found _ := by
    unfold client
    rw [same.settings, same.clients]

/-- A chain is told by its name. -/
theorem chain_eq_of_name_eq {settings : Settings} {name name' : Text} {found found' : Chain}
    (known : settings.chain? name = some found) (known' : settings.chain? name' = some found')
    (same : found.name = found'.name) : found = found' := by
  unfold Settings.chain? Settings.exactChain? at known known'
  obtain ⟨uri, node, rfl⟩ := Option.map_eq_some_iff.mp known
  obtain ⟨uri', node', rfl⟩ := Option.map_eq_some_iff.mp known'
  rw [show Text.upper name = Text.upper name' from same, node'] at node
  rw [show Text.upper name = Text.upper name' from same, Option.some.inj node]

theorem asksLike_connected {s : Session} {chain : Text} {found : Chain} (known : s.settings.chain? chain = some found) :
    AsksLike s (s.connected found) := by
  unfold connected
  cases kept : OrderedMap.get? s.clients found.name with
  | some client => exact .refl s
  | none =>
    refine ⟨rfl, rfl, fun name found' known' => ?_⟩
    unfold client
    dsimp only
    rw [OrderedMap.get?_insert]
    split
    next same =>
      obtain rfl := chain_eq_of_name_eq known known' same
      rw [kept]
      rfl
    next => rfl

/-- Asking once leaves the answers to all questions. -/
theorem asksLike_asked (s : Session) (chain : Text) (contract? : Option Address) : AsksLike s (s.asked chain contract?) := by
  unfold asked
  split
  next => exact .refl s
  next found known => exact asksLike_connected known
  next found contract known =>
    obtain ⟨settings, network, clients⟩ := asksLike_connected known
    exact ⟨settings, network, clients⟩

/-- The rows that a scan of an address on a chain writes. -/
def writesOf (s : Session) (pair : Text × Text) : Table :=
  match s.answer? pair.1 (contract? pair.2), contract? pair.2 with
  | .ok (some code), some contract =>
    [(codeKey (codeHash code), .entries (Abi.recovered code)), (contractKey pair.1 contract, .hash (codeHash code))]
  | _, _ => []

/-- Nothing keeps a scan of an address on a chain from its end but the store: code that is fetched is not above the limit,
and the contract has a key. -/
def CanEnd (s : Session) (pair : Text × Text) : Prop :=
  match s.answer? pair.1 (contract? pair.2) with
  | .error _ => False
  | .ok none => True
  | .ok (some _) => ∃ contract, contract? pair.2 = some contract ∧ (contractKey pair.1 contract).hasBytes

/-- A session in which the store can be used. -/
structure Ready (filed : Bool) (rows : Table) (s : Session) : Prop where
  apart : s.LogApart
  usable : Usable s.storePath filed rows s.files

variable {filed : Bool} {rows : Table} {s t : Session}

/-- What is logged makes no difference. -/
theorem Ready.of_sameButOutput (ready : Ready filed rows s) (same : SameButOutput s t) : Ready filed rows t := by
  refine ⟨same.logApart, ?_⟩
  rw [← same.storePath_eq]
  exact ready.usable.of_agree (s.clear_logsAt _) (not_logsAt_place same.apart) same.files

/-- A row is written where the store can be used, and the store is steady then. -/
theorem Ready.writeSteady (ready : Ready filed rows s) {key : Text} (bytes : key.hasBytes) (value : Value) :
    ∃ files, perform (do writeStore (← openStore) key value) s = (.ok ⟨⟩, { s with files }) ∧
      Steady s.storePath filed (writtenRows filed rows [(key, value)]) files := by
  obtain ⟨o, u, entered, rfl, writes⟩ := ready.usable
  obtain ⟨v, written, steady⟩ := writes key value
  refine ⟨v, ?_, steady⟩
  rw [perform_bind_ok (openStore_of_enterStore entered), perform_writeStore]
  unfold Text.hasBytes at bytes
  cases encoded : Text.encodeUtf8 key with
  | error fault => rw [encoded] at bytes; cases bytes
  | ok _ =>
    have written : perform (FileTree.writeStore ({ s with files := u } : Session).storePath o key value)
        ({ s with files := u } : Session).files = (.ok ⟨⟩, v) := written
    dsimp only
    rw [perform_onFiles, written]
    rfl

theorem Ready.write (ready : Ready filed rows s) {key : Text} (bytes : key.hasBytes) (value : Value) :
    ∃ files, perform (do writeStore (← openStore) key value) s = (.ok ⟨⟩, { s with files }) ∧
      Ready filed (writtenRows filed rows [(key, value)]) { s with files } := by
  obtain ⟨files, written, steady⟩ := ready.writeSteady bytes value
  exact ⟨files, written, ready.apart, steady.usable⟩

/-- What is recovered from code is kept where the store can be used. -/
theorem Ready.keep (ready : Ready filed rows s) {chain address : Text} {contract : Address}
    (known : contract? address = some contract) (bytes : (contractKey chain contract).hasBytes) (code : Bytes) :
    ∃ files, perform (keepScan chain address code) s = (.ok ⟨⟩, { s with files }) ∧
      Ready filed (writtenRows filed rows [(codeKey (codeHash code), .entries (Abi.recovered code)),
        (contractKey chain contract, .hash (codeHash code))]) { s with files } := by
  obtain ⟨files, saved, ready⟩ := ready.write (hasBytes_codeKey code) (.entries (Abi.recovered code))
  obtain ⟨files', linked, ready⟩ := ready.write bytes (.hash (codeHash code))
  rw [← writtenRows_append] at ready
  refine ⟨files', ?_, ready⟩
  unfold keepScan
  rw [perform_bind_ok (show perform (saveEntries _ _) s = _ from saved)]
  unfold linkContract
  rw [contract?_eq_some_iff.mp known]
  exact linked

theorem Ready.asked (ready : Ready filed rows s) (chain : Text) (contract? : Option Address) :
    Ready filed rows (s.asked chain contract?) := by
  obtain ⟨clients, calls, same⟩ := s.asked_eq chain contract?
  rw [same]
  exact ⟨ready.apart, ready.usable⟩

/-- Where the store can be used, a scan that can end does so and writes its rows. -/
theorem Ready.scan (ready : Ready filed rows s) {chain address : Text} (canEnd : CanEnd s (chain, address)) :
    ∃ found t, perform (scanAddress chain address true) s = (.ok found, t) ∧ AsksLike s t ∧
      Ready filed (writtenRows filed rows (writesOf s (chain, address))) t := by
  have scan := scanFrom_scanAddress chain address s ready.apart
  have asked := ready.asked chain (contract? address)
  have like := asksLike_asked s chain (contract? address)
  generalize perform (scanAddress chain address true) s = result at scan ⊢
  unfold CanEnd at canEnd
  unfold writesOf
  dsimp only at canEnd ⊢
  cases answer : s.answer? chain (contract? address) with
  | error fault =>
    rw [answer] at canEnd
    cases canEnd
  | ok code? =>
    rw [answer] at canEnd scan
    cases code? with
    | none =>
      cases scan with
      | nothing logged =>
        refine ⟨none, _, rfl, like.trans logged.asksLike, ?_⟩
        rw [writtenRows_nil]
        exact asked.of_sameButOutput logged.toSameButOutput
    | some code =>
      obtain ⟨contract, known, bytes⟩ := canEnd
      rw [known]
      cases scan with
      | failed logged kept =>
        obtain ⟨files, keeps, -⟩ := (asked.of_sameButOutput logged.toSameButOutput).keep known bytes code
        rw [keeps] at kept
        cases kept
      | kept logged kept told =>
        obtain ⟨files, keeps, ready⟩ := (asked.of_sameButOutput logged.toSameButOutput).keep known bytes code
        rw [keeps] at kept
        cases kept
        have later := told.asksLike
        exact ⟨_, _, rfl, (like.trans logged.asksLike).trans ⟨later.settings, later.network, later.clients⟩,
          ready.of_sameButOutput told.toSameButOutput⟩

/-! ## What a scan that has ended says -/

theorem writeStore_ok {o : OpenStore} {key : Text} {value : Value} {u : Unit}
    (ran : perform (writeStore o key value) s = (.ok u, t)) :
    key.hasBytes ∧ perform (FileTree.writeStore s.storePath o key value) s.files = (.ok ⟨⟩, t.files) ∧
      t.storePath = s.storePath := by
  rw [perform_writeStore] at ran
  unfold Text.hasBytes
  cases encoded : Text.encodeUtf8 key with
  | error fault => rw [encoded] at ran; cases ran
  | ok bytes =>
    rw [encoded] at ran
    dsimp only at ran
    rw [perform_onFiles] at ran
    obtain ⟨result, rfl⟩ := Prod.mk.inj ran
    exact ⟨rfl, Prod.ext (eq_ok_of_mapError result) rfl, rfl⟩

/-- A store that has been opened, written and opened again can be used, in a file if it has been opened in one. -/
theorem ready_of_reopened (apart : s.LogApart) {o o' : OpenStore} {key : Text} {value : Value} {s₁ s₂ s₃ : Session} {u : Unit}
    (opened : perform openStore s = (.ok o, s₁)) (written : perform (writeStore o key value) s₁ = (.ok u, s₂))
    (again : perform openStore s₂ = (.ok o', s₃)) : Ready o.place?.isSome o.file.rows s := by
  obtain ⟨entered, located⟩ := enterStore_of_openStore opened
  obtain ⟨-, written, located'⟩ := writeStore_ok written
  obtain ⟨again, -⟩ := enterStore_of_openStore again
  rw [located', located] at again
  rw [located] at written
  exact ⟨apart, usable_of_written entered written again⟩

/-- Where something has been kept, the contract has a key, and the store can be used. -/
theorem ready_of_kept (apart : s.LogApart) {chain address : Text} {code : Bytes} {u : Unit}
    (kept : perform (keepScan chain address code) s = (.ok u, t)) :
    (∃ contract, contract? address = some contract ∧ (contractKey chain contract).hasBytes) ∧
      ∃ filed rows, Ready filed rows s := by
  obtain ⟨_, s₁, saved, linked⟩ := bind_ok_cases kept
  obtain ⟨o, s₂, opened, written⟩ := bind_ok_cases saved
  obtain ⟨o', s₃, opened', linked⟩ := bind_ok_cases linked
  obtain ⟨contract, s₄, read, linked⟩ := bind_ok_cases linked
  rw [perform_ofExcept] at read
  obtain ⟨result, rfl⟩ := Prod.mk.inj read
  obtain ⟨bytes, -, -⟩ := writeStore_ok linked
  exact ⟨⟨contract, contract?_eq_some_iff.mpr (eq_ok_of_mapError result), bytes⟩, _, _,
    ready_of_reopened apart opened written opened'⟩

/-- A scan that has ended could end; and either the store can be used, or there was nothing to write, and nothing but
the question and the output is left of the scan. -/
theorem canEnd_of_scan (apart : s.LogApart) {chain address : Text} {found : Option (List Abi.Entry)}
    (ran : perform (scanAddress chain address true) s = (.ok found, t)) :
    CanEnd s (chain, address) ∧ ((∃ filed rows, Ready filed rows s) ∨
      (writesOf s (chain, address) = [] ∧ SameButOutput (s.asked chain (contract? address)) t)) := by
  have scan := scanFrom_scanAddress chain address s apart
  rw [ran] at scan
  unfold CanEnd writesOf
  dsimp only
  cases answer : s.answer? chain (contract? address) with
  | error fault => rw [answer] at scan; cases scan
  | ok code? =>
    rw [answer] at scan
    cases code? with
    | none =>
      cases scan with
      | nothing logged => exact ⟨trivial, .inr ⟨rfl, logged.toSameButOutput⟩⟩
    | some code =>
      cases scan with
      | kept logged kept told =>
        obtain ⟨contract, filed, rows, ready⟩ := ready_of_kept logged.logApart kept
        refine ⟨contract, .inl ⟨filed, rows, ?_⟩⟩
        have ready := ready.of_sameButOutput logged.toSameButOutput.symm
        obtain ⟨clients, calls, same⟩ := s.asked_eq chain (contract? address)
        rw [same] at ready
        exact ⟨ready.apart, ready.usable⟩

end Session

end AbiRecovery
