import AbiRecovery.Proofs.ScanOutcome
import AbiRecovery.Proofs.SilentActions
import AbiRecovery.Proofs.StoreLife

/-!
# What a batch accounts for

A batch is the scans of its pairs in their order, chain by chain, and what it prints is told by what they come to. Scans
do not look at what is printed between them. So a batch leaves what its scans leave, with a line for each of them and a
summary, or it breaks off with the first scan that fails (`Goes`). Code above the limit always fails a scan; and where
the store can be used, if it is, nothing else does.
-/
namespace AbiRecovery

open FileTree Tool Store

namespace Session

variable {s t : Session} {save : Bool} {chain address : Text} {pair : Text × Text}

/-- What a node replies for a pair, if it does, is not above the limit. -/
def WithinLimit (s : Session) (pair : Text × Text) : Prop :=
  ∀ code, s.reply? pair.1 pair.2 = some (.code code) → ¬s.IsBeyond code

theorem WithinLimit.answers (within : s.WithinLimit pair) : ∃ code?, s.answer? pair.1 (contract? pair.2) = .ok code? := by
  by_cases nothing : ∀ code, s.reply? pair.1 pair.2 ≠ some (.code code)
  · exact ⟨none, answer?_of_no_code nothing⟩
  · obtain ⟨code, replied⟩ := not_forall_not.mp nothing
    exact ⟨some code, answer?_of_code replied (within code replied)⟩

theorem WithinLimit.of_answer (answers : (s.answer? pair.1 (contract? pair.2)).isOk) : s.WithinLimit pair := by
  intro code replied beyond
  rw [answer?_of_isBeyond replied beyond] at answers
  cases answers

/-! ## Scans that go through -/

/-- What a scan that does not save comes to is told by the answer alone. -/
theorem scanAddress_unsaved (apart : s.LogApart) (chain address : Text) :
    ∃ t, perform (scanAddress chain address false) s =
        (((s.answer? chain (contract? address)).mapError .code).map (Option.map Abi.recovered), t) ∧
      SameButOutput (s.asked chain (contract? address)) t := by
  obtain ⟨s₁, fetched, logged⟩ := perform_fetchCode chain address s apart
  unfold scanAddress
  cases answer : s.answer? chain (contract? address) with
  | error fault =>
    rw [answer] at fetched
    exact ⟨s₁, perform_bind_error fetched, logged.toSameButOutput⟩
  | ok code? =>
    rw [answer] at fetched
    rw [perform_bind_ok fetched]
    cases code? with
    | none => exact ⟨s₁, rfl, logged.toSameButOutput⟩
    | some code =>
      obtain ⟨s₂, recovered, logged'⟩ := perform_recoverEntries code s₁ logged.logApart
      obtain ⟨s₃, told, logged''⟩ := (onlyLogs_log intakeLogger .info "address_scanned" _).return
        (some (Abi.recovered code)) s₂ logged'.logApart
      exact ⟨s₃, (perform_bind_ok recovered).trans told, ((logged.trans logged').trans logged'').toSameButOutput⟩

/-- Scans can be made: they do not save, or the store can be used. -/
structure MayScan (save : Bool) (s : Session) : Prop where
  apart : s.LogApart
  usable : save → ∃ filed rows, Ready filed rows s

/-- Where scans can be made, one goes through if its code is not above the limit; and then scans can still be made, to
which the nodes give the same answers. -/
theorem MayScan.scan (may : MayScan save s) {code? : Option Bytes}
    (answer : s.answer? chain (contract? address) = .ok code?) (named : save → chain.hasBytes) :
    ∃ found t, perform (scanAddress chain address save) s = (.ok found, t) ∧ AsksLike s t ∧ MayScan save t := by
  cases save with
  | false =>
    obtain ⟨t, ran, same⟩ := scanAddress_unsaved may.apart chain address
    rw [answer] at ran
    exact ⟨_, t, ran, (asksLike_asked s chain _).trans same.asksLike, same.logApart, nofun⟩
  | true =>
    obtain ⟨filed, rows, ready⟩ := may.usable rfl
    have canEnd : CanEnd s (chain, address) := by
      unfold CanEnd
      rw [answer]
      cases code? with
      | none => trivial
      | some code =>
        obtain ⟨contract, known⟩ := contract_of_answer? answer
        exact ⟨contract, known, hasBytes_contractKey.mpr (named rfl)⟩
    obtain ⟨found, t, ran, like, later⟩ := ready.scan canEnd
    exact ⟨found, t, ran, like, later.apart, fun _ => ⟨_, _, later⟩⟩

/-- A scan of code above the limit fails and leaves the store. -/
theorem scan_fails (apart : s.LogApart) {fault : CodeFault} (answer : s.answer? chain (contract? address) = .error fault)
    (save : Bool) :
    ∃ t, perform (scanAddress chain address save) s = (.error (.code fault), t) ∧ s.StoreUntouched t := by
  obtain ⟨t, fetched, logged⟩ := perform_fetchCode chain address s apart
  rw [answer] at fetched
  exact ⟨t, perform_bind_error fetched, (Quiet.of_asked logged.toSameButOutput).untouched⟩

end Session

namespace CommandLine

open Session

variable {s t u : Session} {save : Bool} {pair : Text × Text} {pairs before after : List (Text × Text)}
  {found : List (Option (List Abi.Entry))} {lines : List Text} {failure : Failure}

/-- The line for a pair tells that there is no code, or how many of the entries are functions and how many are not. -/
inductive TellsScan (pair : Text × Text) : Option (List Abi.Entry) → Text → Prop where
  | failed : TellsScan pair none (pair.1 ++ ":" ++ pair.2 ++ ": fetch failed")
  | scanned {entries : List Abi.Entry} {functions events : Nat} (counted : functions = entries.countP Abi.Entry.isFunction)
      (all : functions + events = entries.length) :
      TellsScan pair (some entries)
        (pair.1 ++ ":" ++ pair.2 ++ ": functions=" ++ toString functions ++ " events=" ++ toString events)

/-- Scans of pairs one after another lead from a session to another. They come to `found`, and `lines` tell so. -/
inductive Scanned (save : Bool) :
    Session → List (Text × Text) → List (Option (List Abi.Entry)) → List Text → Session → Prop where
  | nil {s : Session} : Scanned save s [] [] [] s
  | cons {s t u : Session} {pair : Text × Text} {pairs : List (Text × Text)} {found? : Option (List Abi.Entry)}
      {found : List (Option (List Abi.Entry))} {line : Text} {lines : List Text}
      (scan : perform (scanAddress pair.1 pair.2 save) s = (.ok found?, t)) (told : TellsScan pair found? line)
      (rest : Scanned save t pairs found lines u) : Scanned save s (pair :: pairs) (found? :: found) (line :: lines) u

/-- The last line of a batch: how many of the pairs had code. -/
def summaryLine (pairs : List (Text × Text)) (found : List (Option (List Abi.Entry))) : Text :=
  "scanned=" ++ toString (found.countP Option.isSome) ++ "/" ++ toString pairs.length

/-- How a batch goes, by the scans of its pairs: either all of them go through, or it breaks off with the first that
fails, as that one does. -/
inductive Goes (save : Bool) (s : Session) (pairs : List (Text × Text)) : Except Failure Ending × Session → Prop where
  | through {found : List (Option (List Abi.Entry))} {lines : List Text} {t : Session}
      (scanned : Scanned save s pairs found lines t) :
      Goes save s pairs (.ok (.finished 0), t.printing (lines ++ [summaryLine pairs found]))
  | broken {before after : List (Text × Text)} {pair : Text × Text} {found : List (Option (List Abi.Entry))}
      {lines : List Text} {t u : Session} {failure : Failure} (split : pairs = before ++ pair :: after)
      (scanned : Scanned save s before found lines t)
      (failed : perform (scanAddress pair.1 pair.2 save) t = (.error failure, u)) :
      Goes save s pairs (.error failure, u.printing lines)

/-! ## Scans one after another -/

theorem tellsScan_pairLine (pair : Text × Text) (found? : Option (List Abi.Entry)) :
    TellsScan pair found? (pairLine pair.1 pair.2 found?) := by
  cases found? with
  | none => exact .failed
  | some entries => exact .scanned rfl (Nat.add_sub_of_le List.countP_le_length)

/-- There is one line for each scan. -/
theorem TellsScan.eq_pairLine {found? : Option (List Abi.Entry)} {line : Text} (told : TellsScan pair found? line) :
    line = pairLine pair.1 pair.2 found? := by
  cases told with
  | failed => rfl
  | scanned counted all =>
    subst counted
    rw [Nat.eq_sub_of_add_eq' all]
    rfl

/-- Scans print nothing. -/
theorem Scanned.console (scanned : Scanned save s pairs found lines t) : t.console = s.console := by
  induction scanned with
  | nil => rfl
  | @cons s t u pair _ _ _ _ _ scan _ _ ih =>
    have silent := (silent_scanAddress pair.1 pair.2 save).console s
    rw [scan] at silent
    exact ih.trans silent

/-- Pairs are scanned one after another, or the scan of one of them fails after those before it. -/
theorem scanned_or_fails (save : Bool) (s : Session) (pairs : List (Text × Text)) :
    (∃ found lines t, Scanned save s pairs found lines t) ∨
      ∃ before pair after found lines t failure u, pairs = before ++ pair :: after ∧
        Scanned save s before found lines t ∧ perform (scanAddress pair.1 pair.2 save) t = (.error failure, u) := by
  induction pairs generalizing s with
  | nil => exact .inl ⟨[], [], s, .nil⟩
  | cons pair pairs ih =>
    cases scan : perform (scanAddress pair.1 pair.2 save) s with
    | mk result t =>
      cases result with
      | error failure => exact .inr ⟨[], pair, pairs, [], [], s, failure, t, rfl, .nil, scan⟩
      | ok found? =>
        have told := tellsScan_pairLine pair found?
        rcases ih t with ⟨found, lines, u, rest⟩ | ⟨before, last, after, found, lines, u, failure, v, rfl, rest, failed⟩
        · exact .inl ⟨_, _, u, .cons scan told rest⟩
        · exact .inr ⟨_, last, after, _, _, u, failure, v, rfl, .cons scan told rest, failed⟩

/-- Where scans can be made, all pairs are scanned whose code is not above the limit. -/
theorem scanned_of_answers (may : MayScan save s) (answers : ∀ pair ∈ pairs, ∃ code?, s.answer? pair.1 (contract? pair.2) = .ok code?)
    (named : save → ∀ pair ∈ pairs, pair.1.hasBytes) :
    ∃ found lines t, Scanned save s pairs found lines t ∧ AsksLike s t ∧ MayScan save t := by
  induction pairs generalizing s with
  | nil => exact ⟨[], [], s, .nil, .refl s, may⟩
  | cons pair pairs ih =>
    obtain ⟨code?, answer⟩ := answers pair List.mem_cons_self
    obtain ⟨found?, t, scan, like, may⟩ := may.scan answer fun saves => named saves pair List.mem_cons_self
    obtain ⟨found, lines, u, rest, like', may⟩ := ih may
      (fun other member => like.answer?_eq other.1 _ ▸ answers other (List.mem_cons_of_mem _ member))
      fun saves other member => named saves other (List.mem_cons_of_mem _ member)
    exact ⟨_, _, u, .cons scan (tellsScan_pairLine pair found?) rest, like.trans like', may⟩

/-! ## Lines between the scans -/

theorem printing_printing (s : Session) (shown lines : List Text) :
    (s.printing shown).printing lines = s.printing (shown ++ lines) := by
  simp [Session.printing, List.append_assoc]

/-- Pairs that are scanned one after another are in a batch too, which prints their lines. -/
theorem scanPairs_of_scanned (scanned : Scanned save s pairs found lines t) (n : Nat) (shown : List Text) :
    perform (scanPairs save n pairs) (s.printing shown) =
      (.ok (n + found.countP Option.isSome), t.printing (shown ++ lines)) := by
  -- The next scan starts behind the line of the one before, which it does not see.
  induction scanned generalizing n shown with
  | nil =>
    rw [List.append_nil]
    rfl
  | @cons s t u pair pairs found? found line lines scan told _ ih =>
    have scan' := (silent_scanAddress pair.1 pair.2 save).printing scan shown
    have printed : perform (print [line]) (t.printing shown) = (.ok ⟨⟩, t.printing (shown ++ [line])) :=
      congrArg (Prod.mk _) (printing_printing t shown [line])
    have counted : (if found?.isSome then n + 1 else n) + found.countP Option.isSome =
        n + (found? :: found).countP Option.isSome := by
      rw [List.countP_cons]
      split <;> omega
    rw [scanPairs, perform_bind_ok scan', ← told.eq_pairLine, perform_bind_ok printed, ih, List.append_assoc, counted]
    rfl

/-- A batch ends at the first scan that fails. -/
theorem scanPairs_of_fails (scanned : Scanned save s before found lines t)
    (failed : perform (scanAddress pair.1 pair.2 save) t = (.error failure, u)) (n : Nat) :
    perform (scanPairs save n (before ++ pair :: after)) s = (.error failure, u.printing lines) := by
  have first := scanPairs_of_scanned scanned n []
  have failed' := (silent_scanAddress pair.1 pair.2 save).printing failed lines
  have start : s.printing [] = s := by simp [Session.printing]
  rw [start] at first
  rw [scanPairs_append, perform_bind_ok first, scanPairs, List.nil_append]
  exact perform_bind_error failed'

/-! ## Batches -/

variable {r : BatchRequest} {addresses : List Text} {args : List Text}

theorem eq_of_perform_ofExcept {ε α : Type} {fault : ε → Failure} {result : Except ε α} {a : α}
    (ran : perform (ofExcept fault result) s = (.ok a, t)) : s = t := by
  rw [perform_ofExcept] at ran
  exact (Prod.mk.inj ran).2

/-- Reading a list of addresses changes nothing, unless the list is missing. -/
theorem eq_or_nil_of_loadAddresses {path : Text} (ran : perform (loadAddresses path) s = (.ok addresses, t)) :
    s = t ∨ addresses = [] := by
  unfold loadAddresses at ran
  rw [perform_bind_ok (perform_get s)] at ran
  obtain ⟨present, _, checked, ran⟩ := bind_ok_cases ran
  obtain rfl := eq_of_perform_ofExcept checked
  cases present with
  | false =>
    obtain ⟨_, _, _, ran⟩ := bind_ok_cases ran
    cases ran
    exact .inr rfl
  | true =>
    rw [if_neg (by decide)] at ran
    obtain ⟨_, _, read, ran⟩ := bind_ok_cases ran
    obtain rfl := eq_of_perform_ofExcept read
    obtain ⟨_, _, decoded, ran⟩ := bind_ok_cases ran
    obtain rfl := eq_of_perform_ofExcept decoded
    exact .inl (eq_of_perform_ofExcept ran)

theorem perform_listed (listed : (perform r.listed s).1 = .ok addresses) (some : addresses ≠ []) :
    perform r.listed s = (.ok addresses, s) := by
  obtain ⟨t, ran⟩ : ∃ t, perform r.listed s = (.ok addresses, t) := ⟨_, Prod.ext listed rfl⟩
  have steps := ran
  unfold BatchRequest.listed at steps
  obtain ⟨path, _, given, steps⟩ := bind_ok_cases steps
  obtain rfl := eq_of_perform_ofExcept given
  obtain ⟨loaded, _, load, steps⟩ := bind_ok_cases steps
  obtain ⟨limit, _, given, steps⟩ := bind_ok_cases steps
  obtain rfl := eq_of_perform_ofExcept given
  rw [perform_pure] at steps
  obtain ⟨taken, rfl⟩ := Prod.mk.inj steps
  rcases eq_or_nil_of_loadAddresses load with rfl | rfl
  · exact ran
  · exact absurd (Except.ok.inj taken) (by simpa [takeLimit] using some.symm)

/-- A batch with pairs is the scans of its pairs and the summary. -/
theorem perform_runBatch (accepted : BatchRequest.ofArguments args = .ok r) (listed : (perform r.listed s).1 = .ok addresses)
    (some : addresses ≠ []) (chains : s.settings.targetChains r.chain? ≠ []) :
    perform (runBatch args) s = perform (do
      let scanned ← scanPairs r.save 0 (batchPairs s.settings r.chain? addresses)
      print ["scanned=" ++ toString scanned ++ "/" ++ toString (batchPairs s.settings r.chain? addresses).length]
      return Ending.finished 0) s := by
  have pairs : ¬(batchPairs s.settings r.chain? addresses).isEmpty := by
    simp [batchPairs_isEmpty, some, chains]
  unfold runBatch
  rw [accepted]
  dsimp only
  rw [← bind_pure_comp, perform_bind, perform_run_of_listed listed, perform_listed listed some, perform_scanListed pairs,
    ← perform_bind, bind_assoc]
  simp only [bind_assoc, pure_bind]

theorem runBatch_of_scanned (accepted : BatchRequest.ofArguments args = .ok r)
    (listed : (perform r.listed s).1 = .ok addresses) (some : addresses ≠ [])
    (chains : s.settings.targetChains r.chain? ≠ [])
    (scanned : Scanned r.save s (batchPairs s.settings r.chain? addresses) found lines t) :
    perform (runBatch args) s =
      (.ok (.finished 0), t.printing (lines ++ [summaryLine (batchPairs s.settings r.chain? addresses) found])) := by
  have ran := scanPairs_of_scanned scanned 0 []
  have start : s.printing [] = s := by simp [Session.printing]
  rw [start, Nat.zero_add, List.nil_append] at ran
  rw [perform_runBatch accepted listed some chains, perform_bind_ok ran, ← printing_printing]
  rfl

theorem runBatch_of_fails (accepted : BatchRequest.ofArguments args = .ok r)
    (listed : (perform r.listed s).1 = .ok addresses) (some : addresses ≠ [])
    (chains : s.settings.targetChains r.chain? ≠ [])
    (split : batchPairs s.settings r.chain? addresses = before ++ pair :: after)
    (scanned : Scanned r.save s before found lines t)
    (failed : perform (scanAddress pair.1 pair.2 r.save) t = (.error failure, u)) :
    perform (runBatch args) s = (.error failure, u.printing lines) := by
  rw [perform_runBatch accepted listed some chains, split]
  exact perform_bind_error (scanPairs_of_fails scanned failed 0)

/-- A batch that does not save asks and tells, and nothing more. -/
theorem quiet_runBatch_unsaved (accepted : BatchRequest.ofArguments args = .ok r) (unsaved : r.save = false)
    (apart : s.LogApart) : Quiet s (perform (runBatch args) s).2 := by
  have prints (lines : List Text) : Keeps (Quiet s) (print lines) := fun t quiet =>
    quiet.trans (.of_sameButOutput (sameButOutput_print lines t quiet.logApart))
  have scan (chain address : Text) : Keeps (Quiet s) (scanAddress chain address false) := by
    intro t quiet
    obtain ⟨u, ran, same⟩ := scanAddress_unsaved quiet.logApart chain address
    rw [ran]
    exact quiet.trans (.of_asked same)
  have scans (n : Nat) (pairs : List (Text × Text)) : Keeps (Quiet s) (scanPairs false n pairs) := by
    induction pairs generalizing n with
    | nil => exact Keeps.pure n
    | cons pair pairs ih => exact (scan _ _).bind fun _ => (prints _).bind fun _ => ih _
  have reads : Keeps (Quiet s) r.listed := fun t quiet =>
    quiet.trans (.of_sameButOutput (sameButOutput_listed r quiet.logApart))
  have run : Keeps (Quiet s) r.run := by
    rw [BatchRequest.run_eq]
    refine reads.bind fun addresses => ?_
    unfold BatchRequest.scanListed
    rw [unsaved]
    split
    · exact (prints _).bind fun _ => Keeps.pure 1
    · refine Keeps.get.bind fun t => ?_
      split
      · exact (prints _).bind fun _ => Keeps.pure 1
      · exact (scans 0 _).bind fun _ => (prints _).bind fun _ => Keeps.pure 0
  unfold runBatch
  rw [accepted]
  exact run.map _ s (.of_sameButOutput (.refl apart))

/-- A batch accounts for its pairs of chains and addresses, chain by chain. Whatever the store is, it is told by the scans
of the pairs in their order: it prints a line for each and a summary, or breaks off with the first scan that fails
(`Goes`). If a batch does not save, or the store can be opened, written and opened again and the names of the chains have
bytes, then it goes through where no code is above the limit; and where some code is, it fails on the first, with the
lines of the pairs before, and the store as they leave it. A batch that does not save never writes the store. -/
theorem batch_accounts_for_each_pair (accepted : BatchRequest.ofArguments args = .ok r) (apart : s.LogApart) :
    (r.save = false → s.StoreUntouched (perform (runBatch args) s).2) ∧
    ∀ addresses, (perform r.listed s).1 = .ok addresses → addresses ≠ [] → s.settings.targetChains r.chain? ≠ [] →
      let pairs := batchPairs s.settings r.chain? addresses
      Goes r.save s pairs (perform (runBatch args) s) ∧
      ((r.save → s.StoreReopens ∧ ∀ chain ∈ s.settings.targetChains r.chain?, chain.hasBytes) →
        ((∀ pair ∈ pairs, s.WithinLimit pair) → ∃ found lines t, Scanned r.save s pairs found lines t ∧
          t.console = s.console ∧
          perform (runBatch args) s = (.ok (.finished 0), t.printing (lines ++ [summaryLine pairs found]))) ∧
        ∀ before pair after code, pairs = before ++ pair :: after → (∀ earlier ∈ before, s.WithinLimit earlier) →
          s.reply? pair.1 pair.2 = some (.code code) → s.IsBeyond code →
          ∃ found lines t u, Scanned r.save s before found lines t ∧ t.StoreUntouched u ∧ u.console = s.console ∧
            perform (runBatch args) s =
              (.error (.code (.tooLarge code.length s.settings.maxCodeBytes)), u.printing lines)) := by
  refine ⟨fun unsaved => (quiet_runBatch_unsaved accepted unsaved apart).untouched, ?_⟩
  intro addresses listed some chains pairs
  have may (usable : r.save → s.StoreReopens ∧ ∀ chain ∈ s.settings.targetChains r.chain?, chain.hasBytes) :
      MayScan r.save s := ⟨apart, fun saves => (usable saves).1.ready apart⟩
  have named (usable : r.save → s.StoreReopens ∧ ∀ chain ∈ s.settings.targetChains r.chain?, chain.hasBytes)
      (saves : r.save) (pair : Text × Text) (member : pair ∈ pairs) : pair.1.hasBytes :=
    (usable saves).2 pair.1 (mem_batchPairs.mp member).1
  refine ⟨?_, fun usable => ⟨fun within => ?_, fun before pair after code split within replied beyond => ?_⟩⟩
  · rcases scanned_or_fails r.save s pairs with ⟨found, lines, t, scanned⟩ | ⟨before, pair, after, found, lines, t, failure,
      u, split, scanned, failed⟩
    · rw [runBatch_of_scanned accepted listed some chains scanned]
      exact .through scanned
    · rw [runBatch_of_fails accepted listed some chains split scanned failed]
      exact .broken split scanned failed
  · obtain ⟨found, lines, t, scanned, -, -⟩ := scanned_of_answers (may usable) (fun pair member => (within pair member).answers)
      fun saves pair member => named usable saves pair member
    exact ⟨found, lines, t, scanned, scanned.console, runBatch_of_scanned accepted listed some chains scanned⟩
  · have first : ∀ earlier ∈ before, earlier ∈ pairs := fun earlier member => split ▸ List.mem_append_left _ member
    obtain ⟨found, lines, t, scanned, like, may⟩ := scanned_of_answers (may usable)
      (fun earlier member => (within earlier member).answers)
      fun saves earlier member => named usable saves earlier (first earlier member)
    have answer := answer?_of_isBeyond replied beyond
    rw [← like.answer?_eq] at answer
    obtain ⟨u, failed, untouched⟩ := scan_fails may.apart answer r.save
    have silent := (silent_scanAddress pair.1 pair.2 r.save).console t
    rw [failed] at silent
    exact ⟨found, lines, t, u, scanned, untouched, silent.trans scanned.console,
      runBatch_of_fails accepted listed some chains split scanned failed⟩

open Sample

set_option maxRecDepth 100000 in
/-- Two addresses on two chains, where nothing is above the limit; and a saving batch whose second address is. -/
theorem batch_accounts_for_two_chains :
    let settings := { withNode "ETH" with chains := ["BSC", "ETH"], nodes := [("ETH", "node"), ("BSC", "node")], maxCodeBytes := 33 }
    let s := withLists settings twoCodes [uniform 'b', "junk"] [uniform 'b', uniform 'a']
    let pairs : List (Text × Text) := [("BSC", uniform 'b'), ("BSC", "junk"), ("ETH", uniform 'b'), ("ETH", "junk")]
    s.StoreUntouched (perform (runBatch ["--file", "one", "--no-save"]) s).2 ∧
    (∃ found lines t, Scanned false s pairs found lines t ∧ t.console = s.console ∧
      perform (runBatch ["--file", "one", "--no-save"]) s =
        (.ok (.finished 0), t.printing (lines ++ [summaryLine pairs found]))) ∧
    ∃ found lines t u, Scanned true s [("BSC", uniform 'b')] found lines t ∧ t.StoreUntouched u ∧ u.console = s.console ∧
      perform (runBatch ["--file", "two"]) s = (.error (.code (.tooLarge 34 33)), u.printing lines) := by
  intro settings s pairs
  have apart : s.LogApart := logApart_start _ _ _ _
  have accepted : BatchRequest.ofArguments ["--file", "one", "--no-save"] = .ok ⟨none, some "one", some 20, false⟩ := by rfl
  have accepted' : BatchRequest.ofArguments ["--file", "two"] = .ok ⟨none, some "two", some 20, true⟩ := by rfl
  have listed : (perform (BatchRequest.listed ⟨none, some "one", some 20, false⟩) s).1 = .ok [uniform 'b', "junk"] :=
    ok_of_toOption (by decide +kernel)
  have listed' : (perform (BatchRequest.listed ⟨none, some "two", some 20, true⟩) s).1 = .ok [uniform 'b', uniform 'a'] :=
    ok_of_toOption (by decide +kernel)
  have reopens : s.StoreReopens := storeReopens_of_isOk (by decide +kernel)
  obtain ⟨untouched, accounts⟩ := batch_accounts_for_each_pair accepted apart
  obtain ⟨-, goes⟩ := accounts _ listed (by simp) (by decide)
  obtain ⟨-, accounts'⟩ := batch_accounts_for_each_pair accepted' apart
  obtain ⟨-, goes'⟩ := accounts' _ listed' (by simp) (by decide)
  refine ⟨untouched rfl, (goes nofun).1 ?_, ?_⟩
  · have answers : ∀ pair ∈ pairs, (s.answer? pair.1 (contract? pair.2)).isOk := by decide +kernel
    exact fun pair member => .of_answer (answers pair member)
  · refine (goes' fun _ => ⟨reopens, by decide⟩).2 [("BSC", uniform 'b')] ("BSC", uniform 'a')
      [("ETH", uniform 'b'), ("ETH", uniform 'a')] logging (by rfl) ?_ (by decide +kernel) (by decide)
    have answers : ∀ pair ∈ ([("BSC", uniform 'b')] : List (Text × Text)), (s.answer? pair.1 (contract? pair.2)).isOk := by decide +kernel
    exact fun pair member => .of_answer (answers pair member)

set_option maxRecDepth 100000 in
/-- A batch can break off although no code is above the limit: where the store can only be read, and on a chain whose name
has no bytes, although the store can be opened, written and opened again. And one that does not save can spoil the store,
if what it logs is written into the same file. -/
theorem batch_fails_at_the_store :
    let stored (chain path : Text) := withLists { withNode chain with storePath := path } twoCodes [uniform 'a'] []
    let made := (perform openStore (stored "ETH" "one.sqlite")).2
    let barred : Session := { made with settings := { made.settings with storePath := "file:one.sqlite?mode=ro" } }
    let half := stored halfName "one.sqlite"
    let logged := (perform setUpLog (stored "ETH" "logs/app.log")).2
    ((perform openStore barred).1.isOk ∧ (perform (batchOf none "one").listed barred).1.toOption = some [uniform 'a'] ∧
      barred.settings.targetChains none = [Text.ofString "ETH"] ∧
      barred.reply? "ETH" (uniform 'a') = some (.code logging) ∧ ¬barred.IsBeyond logging ∧
      (perform (runBatch ["--file", "one"]) barred).1.toOption = none) ∧
    (half.StoreReopens ∧ (perform (batchOf (some halfName) "one").listed half).1.toOption = some [uniform 'a'] ∧
      half.settings.targetChains (some halfName) = [halfName] ∧
      half.reply? halfName (uniform 'a') = some (.code logging) ∧ ¬half.IsBeyond logging ∧
      (perform (runBatch ["--chain", halfName, "--file", "one"]) half).1.toOption = none) ∧
    logged.storeRows? = some [] ∧
      (perform (runBatch ["--file", "one", "--no-save"]) logged).2.storeRows? = none := by
  intro stored made barred half logged
  refine ⟨?_, ⟨storeReopens_of_isOk (by decide +kernel), ?_⟩, ?_⟩
  all_goals decide +kernel

end CommandLine

end AbiRecovery
