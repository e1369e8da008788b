import AbiRecovery.Proofs.ScanSteps

/-!
# What a batch leaves

A batch is the reading of a list and the scan of its pairs of chains and addresses. It comes to its end just if each of
the pairs can be scanned and the store can be used, or there is nothing to write. Then it writes the rows of the pairs in
their order, and nothing else.
-/
namespace AbiRecovery

open FileTree Session Tool Store

namespace Session

variable {filed : Bool} {rows : Table} {s t u : Session}

/-- Between the two sessions questions have been asked, and something has been logged or printed. -/
def Quiet (s t : Session) : Prop := ∃ clients calls, SameButOutput { s with clients, calls } t

theorem Quiet.of_sameButOutput (same : SameButOutput s t) : Quiet s t := ⟨s.clients, s.calls, same⟩

theorem Quiet.of_asked {chain : Text} {contract? : Option Address} (same : SameButOutput (s.asked chain contract?) t) :
    Quiet s t := by
  obtain ⟨clients, calls, asked⟩ := s.asked_eq chain contract?
  exact ⟨clients, calls, asked ▸ same⟩

theorem Quiet.trans (first : Quiet s t) (second : Quiet t u) : Quiet s u := by
  obtain ⟨_, _, first⟩ := first
  obtain ⟨clients, calls, second⟩ := second
  have first' : SameButOutput { s with clients, calls } { t with clients, calls } :=
    { first with clients := rfl, calls := rfl }
  exact ⟨clients, calls, first'.trans second⟩

theorem Quiet.logApart (quiet : Quiet s t) : t.LogApart := by
  obtain ⟨_, _, same⟩ := quiet
  exact same.logApart

theorem Quiet.ready (quiet : Quiet s t) (ready : Ready filed rows t) : Ready filed rows s := by
  obtain ⟨clients, calls, same⟩ := quiet
  have before := ready.of_sameButOutput same.symm
  exact ⟨before.apart, before.usable⟩

theorem storeRows?_eq (s : Session) :
    s.storeRows? = (perform (enterStore s.storePath) s.files).1.toOption.map fun o => o.file.rows := by
  unfold storeRows?
  rw [perform_openStore, perform_onFiles]
  cases (perform (enterStore s.storePath) s.files).1 <;> rfl

theorem Quiet.storeRows?_eq (quiet : Quiet s t) : t.storeRows? = s.storeRows? := by
  obtain ⟨clients, calls, same⟩ := quiet
  rw [← same.storeRows?_eq, Session.storeRows?_eq, Session.storeRows?_eq s]
  rfl

theorem Ready.storeRows?_eq (ready : Ready filed rows s) : s.storeRows? = some rows := by
  obtain ⟨o, u, entered, rfl, -⟩ := ready.usable
  rw [Session.storeRows?_eq, entered]
  rfl

theorem AsksLike.writesOf_eq (like : AsksLike s t) (pair : Text × Text) : t.writesOf pair = s.writesOf pair := by
  unfold writesOf
  rw [like.answer?_eq]

theorem AsksLike.canEnd_iff (like : AsksLike s t) (pair : Text × Text) : CanEnd t pair ↔ CanEnd s pair := by
  unfold CanEnd
  rw [like.answer?_eq]

/-- Pairs can be scanned one after another. -/
structure CanScan (s : Session) (pairs : List (Text × Text)) : Prop where
  canEnd : ∀ pair ∈ pairs, CanEnd s pair
  writable : (∃ filed rows, Ready filed rows s) ∨ pairs.flatMap s.writesOf = []

/-- Between the two sessions rows have been written. -/
structure Wrote (s : Session) (writes : Table) (t : Session) : Prop where
  logApart : t.LogApart
  written : ∀ filed rows, Ready filed rows s → Ready filed (writtenRows filed rows writes) t
  quiet : writes = [] → Quiet s t

theorem Wrote.of_sameButOutput (same : SameButOutput s t) : Wrote s [] t where
  logApart := same.logApart
  written filed rows ready := by
    rw [writtenRows_nil]
    exact ready.of_sameButOutput same
  quiet _ := .of_sameButOutput same

theorem Wrote.trans {front back : Table} (first : Wrote s front t) (second : Wrote t back u) : Wrote s (front ++ back) u where
  logApart := second.logApart
  written filed rows ready := by
    rw [writtenRows_append]
    exact second.written filed _ (first.written filed rows ready)
  quiet nothing :=
    have ⟨front, back⟩ := List.append_eq_nil_iff.mp nothing
    (first.quiet front).trans (second.quiet back)

theorem CanScan.of_asksLike {pairs : List (Text × Text)} (can : CanScan s pairs) (like : AsksLike s t)
    (ready : ∀ filed rows, Ready filed rows s → ∃ rows', Ready filed rows' t) : CanScan t pairs where
  canEnd pair member := (like.canEnd_iff pair).mpr (can.canEnd pair member)
  writable := by
    rw [show t.writesOf = s.writesOf from funext like.writesOf_eq]
    exact can.writable.imp_left fun ⟨filed, rows, before⟩ => ⟨filed, ready filed rows before⟩

end Session

namespace CommandLine

variable {filed : Bool} {rows : Table} {s t : Session} {pairs : List (Text × Text)}

/-- Where the store can be used, pairs that can be scanned are, and all their rows are written. -/
theorem scanPairs_of_ready (pairs : List (Text × Text)) (scanned : Nat) (ready : Ready filed rows s)
    (canEnd : ∀ pair ∈ pairs, CanEnd s pair) :
    ∃ n t, perform (scanPairs true scanned pairs) s = (.ok n, t) ∧ AsksLike s t ∧
      Ready filed (writtenRows filed rows (pairs.flatMap s.writesOf)) t := by
  induction pairs generalizing s rows scanned with
  | nil => exact ⟨scanned, s, rfl, .refl s, by rwa [List.flatMap_nil, writtenRows_nil]⟩
  | cons pair pairs ih =>
    obtain ⟨chain, address⟩ := pair
    obtain ⟨found, t, ran, like, ready⟩ := ready.scan (canEnd _ List.mem_cons_self)
    have printed := sameButOutput_print [pairLine chain address found] t ready.apart
    have like := like.trans printed.asksLike
    obtain ⟨n, u, rest, like', ready⟩ := ih (if found.isSome then scanned + 1 else scanned)
      (ready.of_sameButOutput printed) fun other member => (like.canEnd_iff other).mpr (canEnd other (List.mem_cons_of_mem _ member))
    refine ⟨n, u, ?_, like.trans like', ?_⟩
    · rw [scanPairs, perform_bind_ok ran]
      exact rest
    · rw [List.flatMap_cons, writtenRows_append]
      rwa [show List.flatMap _ pairs = pairs.flatMap s.writesOf from
        congrArg (List.flatMap · pairs) (funext like.writesOf_eq)] at ready

/-- A scan for which there is nothing to write ends whatever the store is. -/
theorem scanAddress_of_nothing {chain address : Text} (apart : s.LogApart) (canEnd : CanEnd s (chain, address))
    (nothing : s.writesOf (chain, address) = []) :
    ∃ t, perform (scanAddress chain address true) s = (.ok none, t) ∧
      SameButOutput (s.asked chain (contract? address)) t := by
  have scan := scanFrom_scanAddress chain address s apart
  generalize perform (scanAddress chain address true) s = result at scan ⊢
  unfold CanEnd at canEnd
  unfold writesOf at nothing
  dsimp only at canEnd nothing
  cases answer : s.answer? chain (contract? address) with
  | error fault =>
    rw [answer] at canEnd
    cases canEnd
  | ok code? =>
    rw [answer] at canEnd nothing scan
    cases code? with
    | none =>
      cases scan with
      | nothing logged => exact ⟨_, rfl, logged.toSameButOutput⟩
    | some code =>
      obtain ⟨contract, known, -⟩ := canEnd
      rw [known] at nothing
      cases nothing

/-- Pairs for which there is nothing to write are scanned whatever the store is. -/
theorem scanPairs_of_nothing (pairs : List (Text × Text)) (scanned : Nat) (apart : s.LogApart)
    (canEnd : ∀ pair ∈ pairs, CanEnd s pair) (nothing : ∀ pair ∈ pairs, s.writesOf pair = []) :
    ∃ n t, perform (scanPairs true scanned pairs) s = (.ok n, t) ∧ AsksLike s t ∧ Quiet s t := by
  induction pairs generalizing s scanned with
  | nil => exact ⟨scanned, s, rfl, .refl s, .of_sameButOutput (.refl apart)⟩
  | cons pair pairs ih =>
    obtain ⟨chain, address⟩ := pair
    obtain ⟨t, ran, same⟩ :=
      scanAddress_of_nothing apart (canEnd _ List.mem_cons_self) (nothing _ List.mem_cons_self)
    have told := same.trans (sameButOutput_print [pairLine chain address none] t same.logApart)
    have like := (asksLike_asked s chain (contract? address)).trans told.asksLike
    obtain ⟨n, u, rest, like', quiet⟩ := ih scanned told.logApart
      (fun other member => (like.canEnd_iff other).mpr (canEnd other (List.mem_cons_of_mem _ member)))
      fun other member => (like.writesOf_eq other).trans (nothing other (List.mem_cons_of_mem _ member))
    refine ⟨n, u, ?_, like.trans like', (Quiet.of_asked told).trans quiet⟩
    rw [scanPairs, perform_bind_ok ran]
    exact rest

/-- Pairs whose scans have ended could be scanned; and either the store can be used, or there was nothing to write. -/
theorem canEnd_of_scanPairs (pairs : List (Text × Text)) (scanned : Nat) {n : Nat} (apart : s.LogApart)
    (ran : perform (scanPairs true scanned pairs) s = (.ok n, t)) :
    (∀ pair ∈ pairs, CanEnd s pair) ∧
      ((∃ filed rows, Ready filed rows s) ∨ ∀ pair ∈ pairs, s.writesOf pair = []) := by
  induction pairs generalizing s scanned with
  | nil => exact ⟨nofun, .inr nofun⟩
  | cons pair pairs ih =>
    obtain ⟨chain, address⟩ := pair
    rw [scanPairs] at ran
    obtain ⟨found, s₁, scan, rest⟩ := bind_ok_cases ran
    obtain ⟨canEnd, done⟩ := canEnd_of_scan apart scan
    obtain ⟨_, s₂, printed, rest⟩ := bind_ok_cases rest
    obtain rfl : (perform (print [pairLine chain address found]) s₁).2 = s₂ := congrArg Prod.snd printed
    rcases done with ⟨filed, rows, ready⟩ | ⟨nothing, same⟩
    · obtain ⟨_, _, ran, like, ready'⟩ := ready.scan canEnd
      cases ran.symm.trans scan
      have told := sameButOutput_print [pairLine chain address found] s₁ ready'.apart
      have like := like.trans told.asksLike
      obtain ⟨later, -⟩ := ih _ told.logApart rest
      refine ⟨List.forall_mem_cons.mpr ⟨canEnd, fun other member => (like.canEnd_iff other).mp (later other member)⟩, ?_⟩
      exact .inl ⟨filed, rows, ready⟩
    · have told := same.trans (sameButOutput_print [pairLine chain address found] s₁ same.logApart)
      have like := (asksLike_asked s chain (contract? address)).trans told.asksLike
      obtain ⟨later, done⟩ := ih _ told.logApart rest
      refine ⟨List.forall_mem_cons.mpr ⟨canEnd, fun other member => (like.canEnd_iff other).mp (later other member)⟩, ?_⟩
      rcases done with ⟨filed, rows, ready⟩ | empty
      · exact .inl ⟨filed, rows, (Quiet.of_asked told).ready ready⟩
      · exact .inr (List.forall_mem_cons.mpr
          ⟨nothing, fun other member => (like.writesOf_eq other).symm.trans (empty other member)⟩)

/-- Pairs that can be scanned are. -/
theorem scanPairs_ends (scanned : Nat) (apart : s.LogApart) (can : CanScan s pairs) :
    ∃ n t, perform (scanPairs true scanned pairs) s = (.ok n, t) := by
  rcases can.writable with ⟨filed, rows, ready⟩ | nothing
  · obtain ⟨n, t, ran, -⟩ := scanPairs_of_ready pairs scanned ready can.canEnd
    exact ⟨n, t, ran⟩
  · obtain ⟨n, t, ran, -⟩ := scanPairs_of_nothing pairs scanned apart can.canEnd (List.flatMap_eq_nil_iff.mp nothing)
    exact ⟨n, t, ran⟩

/-- Only pairs that can be scanned are, and their rows are written. -/
theorem of_scanPairs {scanned n : Nat} (apart : s.LogApart) (ran : perform (scanPairs true scanned pairs) s = (.ok n, t)) :
    CanScan s pairs ∧ AsksLike s t ∧ Wrote s (pairs.flatMap s.writesOf) t := by
  obtain ⟨canEnd, writable⟩ := canEnd_of_scanPairs pairs scanned apart ran
  have ofReady (filed : Bool) (rows : Table) (ready : Ready filed rows s) :
      AsksLike s t ∧ Ready filed (writtenRows filed rows (pairs.flatMap s.writesOf)) t := by
    obtain ⟨_, _, ran', like, ready⟩ := scanPairs_of_ready pairs scanned ready canEnd
    cases ran'.symm.trans ran
    exact ⟨like, ready⟩
  have ofNothing (nothing : pairs.flatMap s.writesOf = []) : AsksLike s t ∧ Quiet s t := by
    obtain ⟨_, _, ran', like, quiet⟩ :=
      scanPairs_of_nothing pairs scanned apart canEnd (List.flatMap_eq_nil_iff.mp nothing)
    cases ran'.symm.trans ran
    exact ⟨like, quiet⟩
  have writable := writable.imp_right List.flatMap_eq_nil_iff.mpr
  have ⟨like, apart'⟩ : AsksLike s t ∧ t.LogApart := by
    rcases writable with ⟨filed, rows, ready⟩ | nothing
    · have ⟨like, ready'⟩ := ofReady filed rows ready
      exact ⟨like, ready'.apart⟩
    · have ⟨like, quiet⟩ := ofNothing nothing
      exact ⟨like, quiet.logApart⟩
  exact ⟨⟨canEnd, writable⟩, like, apart', fun filed rows ready => (ofReady filed rows ready).2,
    fun nothing => (ofNothing nothing).2⟩

/-! ## Batches -/

/-- The addresses that a batch is to scan. -/
def BatchRequest.listed (r : BatchRequest) : Tool (List Text) := do
  let addresses ← loadAddresses (← need .path r.file?)
  return takeLimit (← need .limit r.limit?) addresses

/-- The pairs of chains and addresses that a batch scans, chain by chain. -/
def batchPairs (settings : Settings) (chain? : Option Text) (addresses : List Text) : List (Text × Text) :=
  (settings.targetChains chain?).flatMap fun chain => addresses.map fun address => (chain, address)

/-- What a batch comes to. -/
def batchResult (pairs : List (Text × Text)) : Nat := if pairs.isEmpty then 1 else 0

/-- The rest of a batch, once its addresses are known. -/
def BatchRequest.scanListed (r : BatchRequest) (addresses : List Text) : Tool Nat := do
  if addresses.isEmpty then
    print ["No addresses loaded."]
    return 1
  let s ← get
  if (s.settings.targetChains r.chain?).isEmpty then
    print ["No chains with an RPC configured."]
    return 1
  let pairs := batchPairs s.settings r.chain? addresses
  let scanned ← scanPairs r.save 0 pairs
  print ["scanned=" ++ toString scanned ++ "/" ++ toString pairs.length]
  return 0

theorem BatchRequest.run_eq (r : BatchRequest) : r.run = r.listed >>= r.scanListed := by
  unfold run listed
  simp only [bind_assoc, pure_bind]
  rfl

/-- Reading the list keeps what a line at the terminal keeps. -/
theorem keeps_listed {kept : Session → Prop} (prints : ∀ line, Keeps kept (printError line)) (r : BatchRequest) :
    Keeps kept r.listed :=
  (keeps_need .path r.file?).bind fun file => (keeps_loadAddresses prints file).bind fun _ =>
    (keeps_need .limit r.limit?).bind fun _ => Keeps.pure _

/-- Reading the list changes nothing but the output, whatever comes of it. -/
theorem sameButOutput_listed (r : BatchRequest) (apart : s.LogApart) : SameButOutput s (perform r.listed s).2 := by
  have prints (line : Text) : Keeps (SameButOutput s) (printError line) := fun _ same =>
    same.trans ⟨rfl, rfl, rfl, rfl, rfl, Agree.refl _, same.logApart⟩
  exact keeps_listed prints r s (.refl apart)

variable {r : BatchRequest} {addresses : List Text}

theorem perform_run_of_listed (listed : (perform r.listed s).1 = .ok addresses) :
    perform r.run s = perform (r.scanListed addresses) (perform r.listed s).2 := by
  rw [BatchRequest.run_eq]
  exact perform_bind_ok (Prod.ext listed rfl)

theorem batchPairs_isEmpty (settings : Settings) (chain? : Option Text) (addresses : List Text) :
    (batchPairs settings chain? addresses).isEmpty = (addresses.isEmpty || (settings.targetChains chain?).isEmpty) := by
  unfold batchPairs
  cases settings.targetChains chain? with
  | nil => simp
  | cons chain chains => cases addresses <;> simp

/-- Without pairs a batch only says so. -/
theorem perform_scanListed_of_isEmpty (empty : (batchPairs s.settings r.chain? addresses).isEmpty) :
    ∃ lines, perform (r.scanListed addresses) s = (.ok 1, (perform (print lines) s).2) := by
  rw [batchPairs_isEmpty, Bool.or_eq_true] at empty
  unfold BatchRequest.scanListed
  by_cases none : addresses.isEmpty
  · rw [if_pos none]
    exact ⟨_, rfl⟩
  · rw [if_neg none, perform_bind_ok (perform_get s), if_pos (empty.resolve_left none)]
    exact ⟨_, rfl⟩

/-- Pairs are scanned, and then their number is told. -/
theorem perform_scanListed (some : ¬(batchPairs s.settings r.chain? addresses).isEmpty) :
    perform (r.scanListed addresses) s = perform (do
      let scanned ← scanPairs r.save 0 (batchPairs s.settings r.chain? addresses)
      print ["scanned=" ++ toString scanned ++ "/" ++ toString (batchPairs s.settings r.chain? addresses).length]
      return 0) s := by
  rw [batchPairs_isEmpty, Bool.or_eq_true, not_or] at some
  unfold BatchRequest.scanListed
  rw [if_neg some.1, perform_bind_ok (perform_get s), if_neg some.2]

theorem scanListed_ends (save : r.save) (apart : s.LogApart) (can : CanScan s (batchPairs s.settings r.chain? addresses)) :
    ∃ n t, perform (r.scanListed addresses) s = (.ok n, t) := by
  by_cases empty : (batchPairs s.settings r.chain? addresses).isEmpty
  · obtain ⟨lines, ran⟩ := perform_scanListed_of_isEmpty empty
    exact ⟨1, _, ran⟩
  · obtain ⟨n, t, ran⟩ := scanPairs_ends 0 apart can
    rw [perform_scanListed empty, save, perform_bind_ok ran]
    exact ⟨0, _, rfl⟩

theorem of_scanListed (save : r.save) (apart : s.LogApart) {n : Nat}
    (ran : perform (r.scanListed addresses) s = (.ok n, t)) :
    n = batchResult (batchPairs s.settings r.chain? addresses) ∧ CanScan s (batchPairs s.settings r.chain? addresses) ∧
      AsksLike s t ∧ Wrote s ((batchPairs s.settings r.chain? addresses).flatMap s.writesOf) t := by
  unfold batchResult
  by_cases empty : (batchPairs s.settings r.chain? addresses).isEmpty
  · obtain ⟨lines, told⟩ := perform_scanListed_of_isEmpty empty
    cases told.symm.trans ran
    have same := sameButOutput_print lines s apart
    rw [if_pos empty, List.isEmpty_iff.mp empty]
    exact ⟨rfl, ⟨nofun, .inr rfl⟩, same.asksLike, .of_sameButOutput same⟩
  · rw [perform_scanListed empty, save] at ran
    obtain ⟨scanned, u, scan, told⟩ := bind_ok_cases ran
    obtain ⟨can, like, wrote⟩ := of_scanPairs apart scan
    have same := sameButOutput_print
      ["scanned=" ++ toString scanned ++ "/" ++ toString (batchPairs s.settings r.chain? addresses).length] u wrote.logApart
    have whole := wrote.trans (.of_sameButOutput same)
    rw [List.append_nil] at whole
    cases told
    rw [if_neg empty]
    exact ⟨rfl, can, like.trans same.asksLike, whole⟩

/-- A batch whose pairs can be scanned comes to its end. -/
theorem run_ends (save : r.save) (apart : s.LogApart) (listed : (perform r.listed s).1 = .ok addresses)
    (can : CanScan s (batchPairs s.settings r.chain? addresses)) : ∃ n t, perform r.run s = (.ok n, t) := by
  have same := sameButOutput_listed r apart
  rw [perform_run_of_listed listed]
  refine scanListed_ends save same.logApart ?_
  rw [← same.settings]
  exact can.of_asksLike same.asksLike fun filed rows ready => ⟨rows, ready.of_sameButOutput same⟩

/-- Only batches whose pairs can be scanned come to their end, and they write the rows of their pairs. -/
theorem of_run (save : r.save) (apart : s.LogApart) (listed : (perform r.listed s).1 = .ok addresses) {n : Nat}
    (ran : perform r.run s = (.ok n, t)) :
    n = batchResult (batchPairs s.settings r.chain? addresses) ∧ CanScan s (batchPairs s.settings r.chain? addresses) ∧
      AsksLike s t ∧ Wrote s ((batchPairs s.settings r.chain? addresses).flatMap s.writesOf) t := by
  have same := sameButOutput_listed r apart
  rw [perform_run_of_listed listed] at ran
  obtain ⟨result, can, like, wrote⟩ := of_scanListed save same.logApart ran
  rw [← same.settings] at result can wrote
  rw [show (perform r.listed s).2.writesOf = s.writesOf from funext same.asksLike.writesOf_eq] at wrote
  refine ⟨result, ?_, same.asksLike.trans like, (Wrote.of_sameButOutput same).trans wrote⟩
  exact can.of_asksLike same.symm.asksLike fun filed rows ready => ⟨rows, ready.of_sameButOutput same.symm⟩

end CommandLine

end AbiRecovery
