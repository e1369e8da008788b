import AbiRecovery.Proofs.AddressText
import AbiRecovery.Proofs.BatchOrder
import AbiRecovery.Proofs.SavePaths
import AbiRecovery.Proofs.StoreCalls

/-!
# What a scan of a contract comes to

A scan ends in one of three ways, told by what the node of the chain replies: there is no code, the code is above the
limit, or its entries are recovered. Only the last way writes, and only when it is asked to. Everything that can refuse a
contract is asked before the first write, but for one thing: whether the name of the chain has bytes (`scan_ends`). So a
scan that saves leaves both rows of a contract or none, and on a chain whose name has no bytes it leaves the first.
-/
namespace AbiRecovery

open FileTree Tool Store

namespace Settings

/-- Whether there is a node for a chain, which is looked up by its name in upper case. An empty address is that of no
node. -/
def HasNode (settings : Settings) (chain : Text) : Prop :=
  ∃ uri, OrderedMap.get? settings.nodes (Text.upper chain) = some uri ∧ uri ≠ []

theorem chain?_eq_none_iff {settings : Settings} {chain : Text} : settings.chain? chain = none ↔ ¬settings.HasNode chain := by
  unfold chain? exactChain? HasNode
  cases OrderedMap.get? settings.nodes (Text.upper chain) with
  | none => simp
  | some uri => cases uri <;> simp

end Settings

namespace Session

variable {filed : Bool} {rows : Table} {s t : Session} {chain address : Text} {code : Bytes}

/-- What the node of a chain replies when it is asked for the code at an address. -/
def reply? (s : Session) (chain address : Text) : Option Reply :=
  (s.settings.chain? chain).bind fun found =>
    (contract? address).map fun contract => s.network.reply (s.client found).uri contract

/-- Whether code is above the limit, if there is one. -/
def IsBeyond (s : Session) (code : Bytes) : Prop := 0 < s.settings.maxCodeBytes ∧ s.settings.maxCodeBytes < code.length

instance (s : Session) (code : Bytes) : Decidable (s.IsBeyond code) := inferInstanceAs (Decidable (_ ∧ _))

/-- The store is opened in a file. -/
def StoreFiled (s : Session) : Prop := ((perform openStore s).1.toOption.bind OpenStore.place?).isSome

/-- Between the two sessions nothing is written but the log. -/
structure StoreUntouched (s t : Session) : Prop where
  rows : t.storeRows? = s.storeRows?
  items : ∀ l, ¬s.LogsAt l → t.files.itemAt? l = s.files.itemAt? l

/-- The entries of code are saved under its hash. -/
def EntriesSaved (s : Session) (code : Bytes) (entries : List Abi.Entry) : Prop :=
  (perform (savedEntries (codeHash code)) s).1 = .ok (some (entries.map Abi.Entry.toJson))

/-- The contract at an address of a chain is linked to code, however the two are spelled. -/
def ContractLinked (s : Session) (chain address : Text) (code : Bytes) : Prop :=
  ∀ chain' address', Text.upper chain' = Text.upper chain → address'.SameAddress address →
    (perform (linkedHash chain' address') s).1 = .ok (some (.str (codeHash code)))

/-- Between the two sessions no row of the store is written but those with some keys. -/
def OtherRowsKept (s t : Session) (keys : List Text) : Prop :=
  ∀ key ∉ keys, t.storeRows?.map (Table.find? · key) = s.storeRows?.map (Table.find? · key)

/-- Between the two sessions both rows of a scan are written, and nothing else is. -/
structure BothKept (s t : Session) (chain address : Text) (code : Bytes) (entries : List Abi.Entry) : Prop where
  saved : t.EntriesSaved code entries
  linked : t.ContractLinked chain address code
  others : ∀ contract, contract? address = some contract →
    OtherRowsKept s t [codeKey (codeHash code), contractKey chain contract]

/-- Between the two sessions the first row of a scan is written, and nothing else is. -/
structure FirstKept (s t : Session) (code : Bytes) (entries : List Abi.Entry) : Prop where
  saved : t.EntriesSaved code entries
  others : OtherRowsKept s t [codeKey (codeHash code)]

/-! ## Replies -/

theorem contract?_eq_some_iff_spells {contract : Address} :
    contract? address = some contract ↔
      ∃ digits, address.SpellsAddress digits ∧ contract.digits = digits.map Char.toLower :=
  contract?_eq_some_iff.trans Address.ofText_eq_ok_iff

theorem contract?_eq_none_iff : contract? address = none ↔ ¬address.IsAddress := by
  rw [← not_iff_not, not_not, ← ne_eq, Option.ne_none_iff_exists']
  constructor
  · rintro ⟨contract, known⟩
    obtain ⟨digits, spelled, -⟩ := contract?_eq_some_iff_spells.mp known
    exact ⟨digits, spelled⟩
  · rintro ⟨digits, spelled⟩
    exact ⟨⟨digits.map Char.toLower⟩, contract?_eq_some_iff_spells.mpr ⟨digits, spelled, rfl⟩⟩

theorem contract?_eq_of_sameAddress {address' : Text} (same : address'.SameAddress address) :
    contract? address' = contract? address := by
  obtain ⟨digits, digits', spelled, spelled', lower⟩ := same
  have known : contract? address' = some ⟨digits.map Char.toLower⟩ :=
    contract?_eq_some_iff_spells.mpr ⟨digits, spelled, rfl⟩
  rw [known, eq_comm, contract?_eq_some_iff_spells]
  exact ⟨digits', spelled', lower⟩

theorem reply?_eq_none_iff : s.reply? chain address = none ↔ ¬s.settings.HasNode chain ∨ ¬address.IsAddress := by
  rw [← Settings.chain?_eq_none_iff, ← contract?_eq_none_iff]
  unfold reply?
  cases s.settings.chain? chain <;> simp

/-- Fetching comes to what the node replies: code within the limit, a fault for code above it, and else no code. -/
theorem answer?_eq (s : Session) (chain address : Text) :
    s.answer? chain (contract? address) = match s.reply? chain address with
      | some (.code code) => some <$> CodeInput.withinLimit s.settings.maxCodeBytes code
      | _ => .ok none := by
  unfold answer? reply?
  cases s.settings.chain? chain with
  | none => rfl
  | some found =>
    cases contract? address with
    | none => rfl
    | some contract =>
      dsimp only [Option.bind_some, Option.map_some]
      cases s.network.reply (s.client found).uri contract <;> rfl

theorem answer?_of_no_code (nothing : ∀ code, s.reply? chain address ≠ some (.code code)) :
    s.answer? chain (contract? address) = .ok none := by
  rw [answer?_eq]
  split
  next code replied => exact absurd replied (nothing code)
  next => rfl

theorem answer?_of_isBeyond (replied : s.reply? chain address = some (.code code)) (beyond : s.IsBeyond code) :
    s.answer? chain (contract? address) = .error (.tooLarge code.length s.settings.maxCodeBytes) := by
  have refused : CodeInput.withinLimit s.settings.maxCodeBytes code =
      .error (.tooLarge code.length s.settings.maxCodeBytes) := if_pos (by simpa [IsBeyond] using beyond)
  rw [answer?_eq, replied]
  dsimp only
  rw [refused]
  rfl

theorem answer?_of_code (replied : s.reply? chain address = some (.code code)) (within : ¬s.IsBeyond code) :
    s.answer? chain (contract? address) = .ok (some code) := by
  have taken : CodeInput.withinLimit s.settings.maxCodeBytes code = .ok code := if_neg (by simpa [IsBeyond] using within)
  rw [answer?_eq, replied]
  dsimp only
  rw [taken]
  rfl

/-- There is no code if there is no node or no address, or if the node fails. -/
theorem no_code_iff :
    (∀ code, s.reply? chain address ≠ some (.code code)) ↔
      ¬s.settings.HasNode chain ∨ ¬address.IsAddress ∨ ∃ text, s.reply? chain address = some (.failure text) := by
  rw [← or_assoc, ← reply?_eq_none_iff]
  cases s.reply? chain address with
  | none => simp
  | some reply => cases reply <;> simp

/-! ## The three ways -/

theorem Quiet.untouched (quiet : Quiet s t) : StoreUntouched s t := by
  refine ⟨quiet.storeRows?_eq, fun l outside => ?_⟩
  obtain ⟨clients, calls, same⟩ := quiet
  exact (same.files.items l outside).symm

/-- Without code a scan comes to nothing. -/
theorem scanAddress_of_no_code (apart : s.LogApart) (save : Bool) (nothing : ∀ code, s.reply? chain address ≠ some (.code code)) :
    ∃ t, perform (scanAddress chain address save) s = (.ok none, t) ∧ Quiet s t := by
  obtain ⟨t, fetched, logged⟩ := perform_fetchCode chain address s apart
  rw [answer?_of_no_code nothing] at fetched
  exact ⟨t, perform_bind_ok fetched, .of_asked logged.toSameButOutput⟩

/-- Code above the limit ends a scan. -/
theorem scanAddress_of_isBeyond (apart : s.LogApart) (save : Bool) (replied : s.reply? chain address = some (.code code))
    (beyond : s.IsBeyond code) :
    ∃ t, perform (scanAddress chain address save) s =
        (.error (.code (.tooLarge code.length s.settings.maxCodeBytes)), t) ∧ Quiet s t := by
  obtain ⟨t, fetched, logged⟩ := perform_fetchCode chain address s apart
  rw [answer?_of_isBeyond replied beyond] at fetched
  exact ⟨t, perform_bind_error fetched, .of_asked logged.toSameButOutput⟩

/-- A scan that does not save recovers the entries of the code and writes nothing. -/
theorem scanAddress_of_code (apart : s.LogApart) (replied : s.reply? chain address = some (.code code))
    (within : ¬s.IsBeyond code) :
    ∃ t, perform (scanAddress chain address false) s = (.ok (some (Abi.recovered code)), t) ∧ Quiet s t := by
  obtain ⟨s₁, fetched, logged⟩ := perform_fetchCode chain address s apart
  rw [answer?_of_code replied within] at fetched
  obtain ⟨s₂, recovered, logged'⟩ := perform_recoverEntries code s₁ logged.logApart
  obtain ⟨s₃, told, logged''⟩ := (onlyLogs_log intakeLogger .info "address_scanned" _).return
    (some (Abi.recovered code)) s₂ logged'.logApart
  have all := (logged.trans logged').trans logged''
  exact ⟨s₃, (perform_bind_ok fetched).trans ((perform_bind_ok recovered).trans told), .of_asked all.toSameButOutput⟩

/-- A scan that saves recovers the entries of the code, unless the store fails it. -/
theorem scanAddress_saving_cases (apart : s.LogApart) (replied : s.reply? chain address = some (.code code))
    (within : ¬s.IsBeyond code) :
    (perform (scanAddress chain address true) s).1 = .ok (some (Abi.recovered code)) ∨
      ∃ failure, (perform (scanAddress chain address true) s).1 = .error failure ∧ ∀ fault, failure ≠ .code fault := by
  have scan := scanFrom_scanAddress chain address s apart
  rw [answer?_of_code replied within] at scan
  generalize perform (scanAddress chain address true) s = outcome at scan ⊢
  cases scan with
  | kept _ _ _ => exact .inl rfl
  | @failed _ t _ _ _ kept =>
    exact .inr ⟨_, rfl, failsBeyondCode_keepScan chain address code t _ (by rw [kept])⟩

/-! ## What is kept -/

theorem Ready.open (ready : Ready filed rows s) : ∃ o t, perform openStore s = (.ok o, t) ∧ o.file.rows = rows := by
  obtain ⟨o, u, entered, found, -⟩ := ready.usable
  exact ⟨o, { s with files := u }, openStore_of_enterStore entered, found⟩

theorem StoreReopens.ready_of_filed (reopens : s.StoreReopens) (filed : s.StoreFiled) (apart : s.LogApart) :
    ∃ rows, Ready true rows s := by
  obtain ⟨key, value, o, t, ran⟩ := reopens
  obtain ⟨first, _, opened, ran⟩ := bind_ok_cases ran
  obtain ⟨_, _, written, again⟩ := bind_ok_cases ran
  have ready := ready_of_reopened apart opened written again
  unfold StoreFiled at filed
  rw [opened] at filed
  rw [show first.place?.isSome = true from filed] at ready
  exact ⟨_, ready⟩

/-- Entries are found under the hash of their code. -/
theorem Ready.entriesSaved (ready : Ready filed rows s) {entries : List Abi.Entry}
    (row : rows.find? (codeKey (codeHash code)) = some (.entries entries)) : s.EntriesSaved code entries := by
  obtain ⟨o, t, opened, rfl⟩ := ready.open
  unfold EntriesSaved
  rw [perform_savedEntries opened, keyed_of_hasBytes (hasBytes_codeKey code)]
  unfold Table.entriesOf?
  rw [row]
  rfl

/-- The hash of a contract is found under each of its spellings. -/
theorem Ready.contractLinked (ready : Ready filed rows s) {contract : Address} (known : contract? address = some contract)
    (bytes : chain.hasBytes) (row : rows.find? (contractKey chain contract) = some (.hash (codeHash code))) :
    s.ContractLinked chain address code := by
  intro chain' address' chains addresses
  obtain ⟨o, t, opened, rfl⟩ := ready.open
  have read : Address.ofText address' = .ok contract := by
    rw [← contract?_eq_some_iff, contract?_eq_of_sameAddress addresses, known]
  have key : contractKey chain' contract = contractKey chain contract := by
    unfold contractKey
    rw [chains]
  rw [perform_linkedHash opened, read]
  dsimp only
  unfold Table.hashOf?
  rw [key, keyed_of_hasBytes (hasBytes_contractKey.mpr bytes), row]
  rfl

theorem otherRowsKept_of_ready {writes : Table} (ready : Ready filed rows s)
    (ready' : Ready filed (writtenRows filed rows writes) t) : OtherRowsKept s t (writes.map Prod.fst) := by
  intro key other
  rw [ready.storeRows?_eq, ready'.storeRows?_eq, Option.map_some, Option.map_some]
  cases filed with
  | false => rfl
  | true =>
    refine congrArg some (Table.find?_putAll_of_not_mem (fun value listed => other ?_) rows)
    exact List.mem_map_of_mem (f := Prod.fst) listed

/-- Where the store can be used and the name of the chain has bytes, a scan that saves keeps what it has recovered. -/
theorem Ready.scan_of_code (ready : Ready filed rows s) {contract : Address} (known : contract? address = some contract)
    (bytes : chain.hasBytes) (replied : s.reply? chain address = some (.code code)) (within : ¬s.IsBeyond code) :
    ∃ t, perform (scanAddress chain address true) s = (.ok (some (Abi.recovered code)), t) ∧
      Ready filed (writtenRows filed rows [(codeKey (codeHash code), .entries (Abi.recovered code)),
        (contractKey chain contract, .hash (codeHash code))]) t := by
  have answer := answer?_of_code replied within
  have canEnd : CanEnd s (chain, address) := by
    unfold CanEnd
    dsimp only
    rw [answer]
    exact ⟨contract, known, hasBytes_contractKey.mpr bytes⟩
  have writes : s.writesOf (chain, address) = [(codeKey (codeHash code), .entries (Abi.recovered code)),
      (contractKey chain contract, .hash (codeHash code))] := by
    unfold writesOf
    dsimp only
    rw [answer, known]
  obtain ⟨found, t, ran, -, later⟩ := ready.scan canEnd
  rw [writes] at later
  have scan := scanFrom_scanAddress chain address s ready.apart
  rw [ran, answer] at scan
  cases scan with
  | kept _ _ _ => exact ⟨t, ran, later⟩

/-- A steady store keeps its rows when a row is refused. -/
theorem perform_write_of_no_bytes (steady : Steady s.storePath filed rows s.files) {key : Text} (nameless : key.hasBytes = false)
    (value : Value) :
    ∃ fault files, perform (do writeStore (← openStore) key value) s = (.error (.key fault), { s with files }) ∧
      Steady s.storePath filed rows files := by
  obtain ⟨o, u, entered, -, steady, -⟩ := steady.enter
  unfold Text.hasBytes at nameless
  cases encoded : Text.encodeUtf8 key with
  | ok _ => rw [encoded] at nameless; cases nameless
  | error fault =>
    refine ⟨fault, u, ?_, steady⟩
    rw [perform_bind_ok (openStore_of_enterStore entered), perform_writeStore, encoded]

/-- Where the name of the chain has no bytes, what is recovered from code is saved, and the contract is not linked. -/
theorem Ready.keep_of_no_bytes (ready : Ready filed rows s) {contract : Address} (known : contract? address = some contract)
    (nameless : chain.hasBytes = false) (code : Bytes) :
    ∃ fault files, perform (keepScan chain address code) s = (.error (.key fault), { s with files }) ∧
      Ready filed (writtenRows filed rows [(codeKey (codeHash code), .entries (Abi.recovered code))]) { s with files } := by
  obtain ⟨files, saved, steady⟩ := ready.writeSteady (hasBytes_codeKey code) (.entries (Abi.recovered code))
  have key : (contractKey chain contract).hasBytes = false := by
    rw [← Bool.not_eq_true, hasBytes_contractKey, nameless]
    decide
  obtain ⟨fault, files', refused, steady⟩ :=
    perform_write_of_no_bytes (s := { s with files }) steady key (.hash (codeHash code))
  refine ⟨fault, files', ?_, ready.apart, steady.usable⟩
  unfold keepScan
  rw [perform_bind_ok (show perform (saveEntries _ _) s = _ from saved)]
  unfold linkContract
  rw [contract?_eq_some_iff.mp known]
  exact refused

theorem Ready.scan_of_no_bytes (ready : Ready filed rows s) {contract : Address} (known : contract? address = some contract)
    (nameless : chain.hasBytes = false) (replied : s.reply? chain address = some (.code code)) (within : ¬s.IsBeyond code) :
    ∃ fault t, perform (scanAddress chain address true) s = (.error (.key fault), t) ∧
      Ready filed (writtenRows filed rows [(codeKey (codeHash code), .entries (Abi.recovered code))]) t := by
  have scan := scanFrom_scanAddress chain address s ready.apart
  rw [answer?_of_code replied within] at scan
  generalize perform (scanAddress chain address true) s = outcome at scan ⊢
  cases scan with
  | failed logged kept =>
    obtain ⟨fault, files, refused, later⟩ :=
      ((ready.asked chain (contract? address)).of_sameButOutput logged.toSameButOutput).keep_of_no_bytes known nameless code
    rw [refused] at kept
    cases kept
    exact ⟨fault, _, rfl, later⟩
  | kept logged kept _ =>
    obtain ⟨fault, files, refused, -⟩ :=
      ((ready.asked chain (contract? address)).of_sameButOutput logged.toSameButOutput).keep_of_no_bytes known nameless code
    rw [refused] at kept
    cases kept

/-- Of the two rows that a scan writes each is found. -/
theorem find?_bothRows (rows : Table) (code : Bytes) (chain : Text) (contract : Address) (entries : List Abi.Entry) :
    let both := rows.putAll [(codeKey (codeHash code), .entries entries), (contractKey chain contract, .hash (codeHash code))]
    both.find? (codeKey (codeHash code)) = some (.entries entries) ∧
      both.find? (contractKey chain contract) = some (.hash (codeHash code)) := by
  have different := codeKey_ne_contractKey (codeHash code) chain contract
  intro both
  simp only [both, Table.putAll, List.foldl_cons, List.foldl_nil, Table.find?_put]
  simp [different.symm]

/-- What a scan of code within the limit comes to. -/
theorem scanAddress_within (apart : s.LogApart) (save : Bool) (replied : s.reply? chain address = some (.code code))
    (within : ¬s.IsBeyond code) :
    ∃ result t, perform (scanAddress chain address save) s = (result, t) ∧ result ≠ .ok none ∧
      (∀ fault, result ≠ .error (.code fault)) ∧ (save = false → s.StoreUntouched t) ∧
      (save = false ∨ s.StoreReopens ∧ chain.hasBytes → result = .ok (some (Abi.recovered code))) ∧
      (save → s.StoreReopens → s.StoreFiled →
        (chain.hasBytes → BothKept s t chain address code (Abi.recovered code)) ∧
        (chain.hasBytes = false → (∃ fault, result = .error (.key fault)) ∧ FirstKept s t code (Abi.recovered code))) := by
  have known : ∃ contract, contract? address = some contract := contract_of_answer? (answer?_of_code replied within)
  obtain ⟨contract, known⟩ := known
  cases save with
  | false =>
    obtain ⟨t, ran, quiet⟩ := scanAddress_of_code apart replied within
    exact ⟨_, t, ran, nofun, nofun, fun _ => quiet.untouched, fun _ => rfl, nofun⟩
  | true =>
    have ends := scanAddress_saving_cases apart replied within
    cases outcome : perform (scanAddress chain address true) s with
    | mk result t =>
      rw [outcome] at ends
      refine ⟨result, t, rfl, ?_, fun fault => ?_, nofun, ?_, fun _ reopens filed => ?_⟩
      · rcases ends with rfl | ⟨_, rfl, -⟩ <;> nofun
      · rcases ends with rfl | ⟨_, rfl, other⟩
        · nofun
        · exact fun refused => other fault (Except.error.inj refused)
      · rintro (⟨⟨⟩⟩ | ⟨reopens, bytes⟩)
        obtain ⟨_, _, ready⟩ := reopens.ready apart
        obtain ⟨_, ran, -⟩ := ready.scan_of_code known bytes replied within
        exact congrArg Prod.fst (outcome.symm.trans ran)
      · obtain ⟨rows, ready⟩ := reopens.ready_of_filed filed apart
        constructor
        · intro bytes
          obtain ⟨_, ran, later⟩ := ready.scan_of_code known bytes replied within
          cases outcome.symm.trans ran
          obtain ⟨first, second⟩ := find?_bothRows rows code chain contract (Abi.recovered code)
          refine ⟨later.entriesSaved first, later.contractLinked known bytes second, fun other same => ?_⟩
          obtain rfl := Option.some.inj (known.symm.trans same)
          exact otherRowsKept_of_ready ready later
        · intro nameless
          obtain ⟨fault, _, ran, later⟩ := ready.scan_of_no_bytes known nameless replied within
          cases outcome.symm.trans ran
          refine ⟨⟨fault, rfl⟩, later.entriesSaved ?_, otherRowsKept_of_ready ready later⟩
          exact (Table.find?_put rows _ _ _).trans (if_pos rfl)

/-- A scan of a contract ends in one of three ways. There is no code just if the chain has no node, the text is no address
or the node fails; there is a fault of code just if the code is above the limit; and else the entries of the code are
recovered. Nothing is written in the first two ways, and in the third only if it is asked for. Then both rows are
written and no other is, provided that the store is in a file and can be written, and that the name of the chain has
bytes. If it has none, the second row is refused when the first has been written. -/
theorem scan_ends {s : Session} (apart : s.LogApart) (chain address : Text) (save : Bool) :
    ∃ result t, perform (scanAddress chain address save) s = (result, t) ∧
      (result = .ok none ↔
        ¬s.settings.HasNode chain ∨ ¬address.IsAddress ∨ ∃ text, s.reply? chain address = some (.failure text)) ∧
      (∀ fault, result = .error (.code fault) ↔ ∃ code, s.reply? chain address = some (.code code) ∧ s.IsBeyond code ∧
        fault = .tooLarge code.length s.settings.maxCodeBytes) ∧
      ((save = false ∨ result = .ok none ∨ ∃ fault, result = .error (.code fault)) → s.StoreUntouched t) ∧
      ∀ code, s.reply? chain address = some (.code code) → ¬s.IsBeyond code → ∃ entries, Abi.ofCode code = .ok entries ∧
        (save = false ∨ s.StoreReopens ∧ chain.hasBytes → result = .ok (some entries)) ∧
        (save → s.StoreReopens → s.StoreFiled →
          (chain.hasBytes → BothKept s t chain address code entries) ∧
          (chain.hasBytes = false → (∃ fault, result = .error (.key fault)) ∧ FirstKept s t code entries)) := by
  by_cases nothing : ∀ code, s.reply? chain address ≠ some (.code code)
  · obtain ⟨t, ran, quiet⟩ := scanAddress_of_no_code apart save nothing
    refine ⟨_, t, ran, iff_of_true rfl (no_code_iff.mp nothing), fun fault => ⟨nofun, ?_⟩, fun _ => quiet.untouched,
      fun code replied => absurd replied (nothing code)⟩
    rintro ⟨code, replied, -⟩
    exact absurd replied (nothing code)
  · have some_code := mt no_code_iff.mpr nothing
    obtain ⟨code, replied⟩ := not_forall_not.mp nothing
    have only {other : Bytes} (replied' : s.reply? chain address = some (.code other)) : other = code :=
      Reply.code.inj (Option.some.inj (replied'.symm.trans replied))
    by_cases beyond : s.IsBeyond code
    · obtain ⟨t, ran, quiet⟩ := scanAddress_of_isBeyond apart save replied beyond
      refine ⟨_, t, ran, iff_of_false nofun some_code, fun fault => ⟨?_, ?_⟩, fun _ => quiet.untouched, ?_⟩
      · intro refused
        exact ⟨code, replied, beyond, (Failure.code.inj (Except.error.inj refused)).symm⟩
      · rintro ⟨other, replied', -, rfl⟩
        rw [only replied']
      · intro other replied' within
        exact absurd (only replied' ▸ beyond) within
    · obtain ⟨result, t, ran, found, taken, untouched, ended, kept⟩ := scanAddress_within apart save replied beyond
      refine ⟨result, t, ran, iff_of_false found some_code, fun fault => ⟨fun refused => absurd refused (taken fault), ?_⟩,
        ?_, ?_⟩
      · rintro ⟨other, replied', beyond', -⟩
        exact absurd (only replied' ▸ beyond') beyond
      · rintro (unsaved | none | ⟨fault, refused⟩)
        · exact untouched unsaved
        · exact absurd none found
        · exact absurd refused (taken fault)
      · intro other replied' _
        obtain rfl := only replied'
        exact ⟨_, Abi.ofCode_eq other, ended, kept⟩

open Sample

set_option maxRecDepth 100000 in
/-- A contract is scanned and saved under other spellings of its chain and its address; and there is no node for another
chain. -/
theorem scan_ends_in_a_file :
    let s := withStore "ETH" "one.sqlite"
    s.LogApart ∧
      (∃ t, perform (scanAddress "eth" (uniform 'A') true) s = (.ok (some (Abi.recovered logging)), t) ∧
        BothKept s t "eth" (uniform 'A') logging (Abi.recovered logging)) ∧
      ∃ t, perform (scanAddress "BSC" (uniform 'A') true) s = (.ok none, t) ∧ StoreUntouched s t := by
  intro s
  have apart : s.LogApart := logApart_start _ _ _ _
  have reopens : s.StoreReopens := storeReopens_of_isOk (by decide +kernel)
  have filed : s.StoreFiled := by unfold StoreFiled; decide +kernel
  have replied : s.reply? "eth" (uniform 'A') = some (.code logging) := by decide +kernel
  have bytes : Text.hasBytes "eth" := by decide
  have no_node : ¬s.settings.HasNode "BSC" := Settings.chain?_eq_none_iff.mp (by decide +kernel)
  refine ⟨apart, ?_, ?_⟩
  · obtain ⟨result, t, ran, -, -, -, ends⟩ := scan_ends apart "eth" (uniform 'A') true
    obtain ⟨entries, recovered, ended, kept⟩ := ends _ replied (by decide +kernel)
    obtain rfl := Except.ok.inj ((Abi.ofCode_eq _).symm.trans recovered)
    refine ⟨t, ?_, (kept rfl reopens filed).1 bytes⟩
    rw [ran, ended (.inr ⟨reopens, bytes⟩)]
  · obtain ⟨result, t, ran, nothing, -, untouched, -⟩ := scan_ends apart "BSC" (uniform 'A') true
    have ended := nothing.mpr (.inl no_node)
    exact ⟨t, ended ▸ ran, untouched (.inr (.inl ended))⟩

set_option maxRecDepth 100000 in
/-- A scan that saves can leave the first of its rows alone, although the store can be opened, written and opened again:
then the name of the chain has no bytes. In a store that can be opened it can leave nothing at all: one in no file forgets
what is saved, and one that is opened for reading refuses it. And a scan that finds no code can spoil the store, if what
it logs is written into the same file. -/
theorem scan_leaves_less_than_both :
    let half := withStore halfName "one.sqlite"
    let forgetful := withStore "ETH" ":memory:"
    let made := (perform openStore (withStore "ETH" "one.sqlite")).2
    let barred : Session := { made with settings := { made.settings with storePath := "file:one.sqlite?mode=ro" } }
    let logged := (perform setUpLog (withStore "ETH" "logs/app.log")).2
    let scan (chain : Text) (s : Session) := perform (scanAddress chain (uniform 'a') true) s
    (half.LogApart ∧ half.StoreReopens ∧ half.StoreFiled ∧
      half.reply? halfName (uniform 'a') = some (.code logging) ∧
      ¬half.IsBeyond logging ∧ (scan halfName half).1.toOption = none ∧
      ∃ key, (scan halfName half).2.storeRows? = some [(key, .entries (Abi.recovered logging))]) ∧
    ((perform openStore forgetful).1.isOk ∧
      (scan "ETH" forgetful).1.toOption = some (some (Abi.recovered logging)) ∧
      (perform (savedEntries (codeHash logging)) (scan "ETH" forgetful).2).1.toOption = some none) ∧
    ((perform openStore barred).1.isOk ∧ barred.reply? "ETH" (uniform 'a') = some (.code logging) ∧
      (scan "ETH" barred).1.toOption = none) ∧
    logged.storeRows? = some [] ∧ (scan "BSC" logged).1.toOption = some none ∧ (scan "BSC" logged).2.storeRows? = none := by
  intro half forgetful made barred logged scan
  have filed : half.StoreFiled := by
    unfold StoreFiled
    decide +kernel
  refine ⟨⟨logApart_start _ _ _ _, storeReopens_of_isOk (by decide +kernel), filed, by decide +kernel, by decide +kernel,
    by decide +kernel, exists_row_of_values (by decide +kernel)⟩,
    ?_, ?_, ?_⟩
  all_goals decide +kernel

end Session

end AbiRecovery
