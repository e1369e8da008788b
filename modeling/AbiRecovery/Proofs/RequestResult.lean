import AbiRecovery.Proofs.ListingReading
import AbiRecovery.Proofs.SilentActions
import AbiRecovery.Proofs.SourceReading

/-!
# The result of a request

With code that has been read a request goes on in one of three ways (`Request.GoesOn`): its result is kept, if that is
asked for, and printed; or it cannot be kept; or it cannot be printed when it has been kept. What is printed is told by the
command, the layout and the code, wherever the code comes from (`Command.resultLines`). What is kept are the entries of the
code, and the link of the contract if the code comes from one (`Request.KeepsOnly`).
-/
namespace AbiRecovery

open FileTree Session Tool Store

namespace CommandLine

variable {r : Request} {s t u : Session} {code : Bytes} {filed : Bool} {rows : Table}

/-- The indent of a layout. -/
def Layout.indent? : Layout → Option Int
  | .oneLine => none
  | .indented width? => width?

/-- An indent must be told, and be a size for which there is memory. -/
def Layout.Printable : Layout → Prop
  | .oneLine => True
  | .indented width? => ∃ width, width? = some width ∧ SizeLimit.isSize width ∧ width ≤ SizeLimit.memory

/-- A result can be printed: in the layout that is asked for, or for a listing with the history that is set. -/
def Request.CanPrint (r : Request) (s : Session) : Prop :=
  match r.command with
  | .abi | .selectors => r.layout.Printable
  | .listing => s.settings.historySize ≤ SizeLimit.greatest

/-- The lines that a command prints for code in a layout. -/
def Command.resultLines (command : Command) (layout : Layout) (code : Bytes) : List Text :=
  match command with
  | .abi => [(Abi.entriesJson (Abi.recovered code)).render ⟨true, layout.indent?⟩]
  | .selectors => [(Json.arr ((Program.scanned code).selectors.keys.map .str)).render ⟨true, layout.indent?⟩]
  | .listing => (decode code).map Instruction.line

/-- Whether a request keeps its result. -/
def Request.Saves (r : Request) : Prop := r.command = .abi ∧ r.save

/-- The name of the chain has bytes, if a contract is to be linked. -/
def Request.LinkHasBytes (r : Request) : Prop := ∀ chain address, r.contract? = some (chain, address) → chain.hasBytes

/-- Between the two sessions the entries of code are saved, and the contract is linked if there is one; and no other row
is written. -/
def Request.KeepsOnly (r : Request) (code : Bytes) (s t : Session) : Prop :=
  match r.contract? with
  | some (chain, address) => BothKept s t chain address code (Abi.recovered code)
  | none => FirstKept s t code (Abi.recovered code)

/-! ## Keeping -/

/-- Saves what is recovered from code, and links the contract of a request to it if there is one. -/
def Request.keepResult (r : Request) (code : Bytes) : Tool Unit := do
  saveEntries (codeHash code) (Abi.recovered code)
  match r.contract? with
  | some (chain, address) => linkContract chain address (codeHash code)
  | none => pure ⟨⟩

theorem Request.contract?_eq_some {chain address : Text} (linked : r.contract? = some (chain, address)) :
    r.source = .address (some address) ∧ r.chain? = some chain := by
  unfold Request.contract? at linked
  split at linked
  next address' chain' source chains =>
    split at linked
    · cases linked
    · cases linked
      exact ⟨source, chains⟩
  next => cases linked

/-- Only a contract that can be asked for is linked. -/
theorem Request.Delivers.contract {chain address : Text} (delivers : r.Delivers s code)
    (linked : r.contract? = some (chain, address)) : ∃ contract, Session.contract? address = some contract := by
  obtain ⟨source, chains⟩ := Request.contract?_eq_some linked
  cases delivers with
  | code source' _ => cases source.symm.trans source'
  | file source' _ _ => cases source.symm.trans source'
  | address source' chains' replied =>
    cases source.symm.trans source'
    cases known : Session.contract? address with
    | some contract => exact ⟨contract, rfl⟩
    | none =>
      rw [reply?_eq_none_iff.mpr (.inr (contract?_eq_none_iff.mp known))] at replied
      cases replied

theorem onlyFiles_keepResult (r : Request) (code : Bytes) : OnlyFiles (r.keepResult code) := by
  refine (onlyFiles_saveEntries _ _).bind fun _ => ?_
  cases r.contract? with
  | none => exact fun s => ⟨s.files, rfl⟩
  | some contract => exact onlyFiles_linkContract _ _ _

/-- The rows that a request writes for code. -/
def Request.resultRows (r : Request) (code : Bytes) : Table :=
  (codeKey (codeHash code), .entries (Abi.recovered code)) ::
    (r.contract?.bind fun linked => (Session.contract? linked.2).map fun contract =>
      (contractKey linked.1 contract, Value.hash (codeHash code))).toList

/-- Where the store can be used, a result is kept. -/
theorem perform_keepResult (ready : Ready filed rows s) (named : r.LinkHasBytes)
    (known : ∀ chain address, r.contract? = some (chain, address) → ∃ contract, Session.contract? address = some contract)
    (code : Bytes) :
    ∃ files, perform (r.keepResult code) s = (.ok ⟨⟩, { s with files }) ∧
      Ready filed (writtenRows filed rows (r.resultRows code)) { s with files } := by
  unfold Request.keepResult Request.resultRows
  unfold Request.LinkHasBytes at named
  cases linked : r.contract? with
  | none =>
    obtain ⟨files, saved, ready⟩ := ready.write (hasBytes_codeKey code) (.entries (Abi.recovered code))
    exact ⟨files, perform_bind_ok (show perform (saveEntries _ _) s = _ from saved), ready⟩
  | some contract =>
    obtain ⟨chain, address⟩ := contract
    obtain ⟨contract, spelled⟩ := known chain address linked
    obtain ⟨files, kept, ready⟩ := ready.keep spelled (hasBytes_contractKey.mpr (named chain address linked)) code
    refine ⟨files, kept, ?_⟩
    dsimp only [Option.bind_some]
    rw [spelled]
    exact ready

/-- Where the store is in a file, only the rows of the result have been written. -/
theorem keepsOnly_of_ready (ready : Ready true rows s) (later : Ready true (writtenRows true rows (r.resultRows code)) t)
    (named : r.LinkHasBytes)
    (known : ∀ chain address, r.contract? = some (chain, address) → ∃ contract, Session.contract? address = some contract) :
    r.KeepsOnly code s t := by
  unfold Request.KeepsOnly
  unfold Request.LinkHasBytes at named
  have others := otherRowsKept_of_ready ready later
  unfold Request.resultRows at later others
  cases linked : r.contract? with
  | none =>
    rw [linked] at later others
    exact ⟨later.entriesSaved ((Table.find?_put rows _ _ _).trans (if_pos rfl)), others⟩
  | some contract =>
    obtain ⟨chain, address⟩ := contract
    obtain ⟨contract, spelled⟩ := known chain address linked
    rw [linked] at later others
    dsimp only [Option.bind_some] at later others
    rw [spelled] at later others
    obtain ⟨first, second⟩ := find?_bothRows rows code chain contract (Abi.recovered code)
    refine ⟨later.entriesSaved first, later.contractLinked spelled (named chain address linked) second, fun other same => ?_⟩
    obtain rfl := Option.some.inj (spelled.symm.trans same)
    exact others

/-! ## Printing -/

theorem perform_printJson_of_printable (printable : r.layout.Printable) (value : Json) (s : Session) :
    perform (r.printJson value) s = (.ok ⟨⟩, s.printing [value.render ⟨true, r.layout.indent?⟩]) := by
  unfold Request.printJson
  unfold Layout.Printable at printable
  cases layout : r.layout with
  | oneLine => rfl
  | indented width? =>
    rw [layout] at printable
    obtain ⟨width, rfl, size, memory⟩ := printable
    have style : Json.Style.ofIndent true (some width) = .ok ⟨true, some width⟩ := by
      simp [Json.Style.ofIndent, size, Int.not_lt.mpr memory]
    show perform (ofExcept .size (Json.Style.ofIndent true (some width)) >>= _) s = _
    rw [style]
    rfl

theorem perform_printJson_of_not_printable (unprintable : ¬r.layout.Printable) (value : Json) (s : Session) :
    ∃ failure, perform (r.printJson value) s = (.error failure, s) := by
  unfold Request.printJson
  unfold Layout.Printable at unprintable
  cases layout : r.layout with
  | oneLine =>
    rw [layout] at unprintable
    exact absurd trivial unprintable
  | indented width? =>
    rw [layout] at unprintable
    cases width? with
    | none => exact ⟨.missingValue .indent, rfl⟩
    | some width =>
      have style : ∃ fault, Json.Style.ofIndent true (some width) = .error fault := by
        unfold Json.Style.ofIndent
        by_cases size : SizeLimit.isSize width
        · have memory : width > SizeLimit.memory := Int.not_le.mp fun memory => unprintable ⟨width, rfl, size, memory⟩
          exact ⟨.noMemory, by simp [size, memory]⟩
        · exact ⟨.noCount, by simp [size]⟩
      obtain ⟨fault, style⟩ := style
      refine ⟨.size fault, ?_⟩
      show perform (ofExcept .size (Json.Style.ofIndent true (some width)) >>= _) s = _
      rw [style]
      rfl

/-- The session after a result has been kept, if that is asked for. -/
inductive Request.Reaches (r : Request) (code : Bytes) (s : Session) : Session → Prop where
  | unsaved {t : Session} (only : ¬r.Saves) (unprinted : Unprinted s t) : r.Reaches code s t
  | saved {t u v : Session} (saves : r.Saves) (before : Unprinted s t)
      (kept : perform (r.keepResult code) t = (.ok ⟨⟩, u)) (after : Unprinted u v) : r.Reaches code s v

/-- How a request goes on with code: its result is printed, or cannot be printed, or could not be kept. -/
inductive Request.GoesOn (r : Request) (code : Bytes) (s : Session) : Except Failure Unit × Session → Prop where
  | printed {t : Session} (reached : r.Reaches code s t) (can : r.CanPrint s) :
      r.GoesOn code s (.ok ⟨⟩, t.printing (r.command.resultLines r.layout code))
  | unprinted {t : Session} {failure : Failure} (reached : r.Reaches code s t) (cannot : ¬r.CanPrint s) :
      r.GoesOn code s (.error failure, t)
  | unkept {t u : Session} {failure : Failure} (saves : r.Saves) (before : Unprinted s t)
      (failed : perform (r.keepResult code) t = (.error failure, u)) : r.GoesOn code s (.error failure, u)

theorem Request.Reaches.logApart (reached : r.Reaches code s t) : t.LogApart := by
  cases reached with
  | unsaved _ unprinted => exact unprinted.logApart
  | saved _ _ _ after => exact after.logApart

theorem console_keepResult (r : Request) (code : Bytes) (s : Session) :
    (perform (r.keepResult code) s).2.console = s.console := by
  obtain ⟨files, changed⟩ := onlyFiles_keepResult r code s
  rw [changed]

/-- Nothing is printed before the result. -/
theorem Request.Reaches.console (reached : r.Reaches code s t) : t.console = s.console := by
  cases reached with
  | unsaved _ unprinted => exact unprinted.console
  | @saved v u _ _ before kept after =>
    have same := console_keepResult r code v
    rw [kept] at same
    exact after.console.trans (same.trans before.console)

theorem goesOn_printJson {value : Json} (reached : r.Reaches code s t) (can : r.CanPrint s ↔ r.layout.Printable)
    (lines : r.command.resultLines r.layout code = [value.render ⟨true, r.layout.indent?⟩]) :
    r.GoesOn code s (perform (r.printJson value) t) := by
  by_cases printable : r.layout.Printable
  · rw [perform_printJson_of_printable printable, ← lines]
    exact .printed reached (can.mpr printable)
  · obtain ⟨failure, refused⟩ := perform_printJson_of_not_printable printable value t
    rw [refused]
    exact .unprinted reached fun holds => printable (can.mp holds)

theorem keepResult_bind (r : Request) (code : Bytes) (rest : Tool Unit) : (do r.keepResult code; rest) = (do
    saveEntries (codeHash code) (Abi.recovered code)
    match r.contract? with
    | some (chain, address) => do
      linkContract chain address (codeHash code)
      rest
    | none => rest) := by
  unfold Request.keepResult
  rw [bind_assoc]
  cases r.contract? with
  | none => simp only [pure_bind]
  | some contract => rfl

theorem goesOn_runAbi (command : r.command = .abi) (code : Bytes) (apart : s.LogApart) :
    r.GoesOn code s (perform (r.runAbi code) s) := by
  have can (t : Session) : r.CanPrint t ↔ r.layout.Printable := by
    unfold Request.CanPrint
    rw [command]
  have lines : r.command.resultLines r.layout code =
      [(Abi.entriesJson (Abi.recovered code)).render ⟨true, r.layout.indent?⟩] := by
    rw [command]
    rfl
  obtain ⟨t, recovered, logged⟩ := perform_recoverEntries code s apart
  have before := Unprinted.of_logged logged
  unfold Request.runAbi
  rw [perform_bind_ok recovered]
  by_cases save : r.save
  · have saves : r.Saves := ⟨command, save⟩
    have kept_apart := logApart_of_onlyFiles (onlyFiles_keepResult r code) before.logApart
    rw [if_pos save]
    -- The saving and the link are one action here, which is kept or fails as a whole.
    have goes_on : r.GoesOn code s (perform (do
        r.keepResult code
        log runLogger .info "abi_saved" [("code_hash", .str (codeHash code)), ("entries", .int (Abi.recovered code).length)]
        r.printJson (Abi.entriesJson (Abi.recovered code))) t) := by
      rw [perform_bind]
      cases kept : perform (r.keepResult code) t with
      | mk result u =>
        rw [kept] at kept_apart
        cases result with
        | error failure => exact .unkept saves before kept
        | ok _ =>
          obtain ⟨v, noted, logged'⟩ := onlyLogs_log runLogger .info "abi_saved" _ u kept_apart
          dsimp only
          rw [perform_bind_ok noted]
          exact goesOn_printJson (.saved saves before kept (.of_logged logged')) (can s) lines
    rw [keepResult_bind] at goes_on
    exact goes_on
  · rw [if_neg save]
    exact goesOn_printJson (.unsaved (fun saves => save saves.2) before) (can s) lines

theorem goesOn_runSelectors (command : r.command = .selectors) (code : Bytes) (apart : s.LogApart) :
    r.GoesOn code s (perform (r.runSelectors code) s) := by
  have can : r.CanPrint s ↔ r.layout.Printable := by
    unfold Request.CanPrint
    rw [command]
  have lines : r.command.resultLines r.layout code =
      [(Json.arr ((Program.scanned code).selectors.keys.map .str)).render ⟨true, r.layout.indent?⟩] := by
    rw [command]
    rfl
  have only : ¬r.Saves := fun saves => nomatch command.symm.trans saves.1
  unfold Request.runSelectors
  rw [Abi.selectorsOf_eq, perform_bind_ok (perform_ofExcept _ _ _)]
  exact goesOn_printJson (.unsaved only (.refl apart)) can lines

theorem goesOn_runListing (command : r.command = .listing) (code : Bytes) (apart : s.LogApart) :
    r.GoesOn code s (perform (Request.runListing code) s) := by
  have can : r.CanPrint s ↔ s.settings.historySize ≤ SizeLimit.greatest := by
    unfold Request.CanPrint
    rw [command]
  have reached : r.Reaches code s s := .unsaved (fun saves => nomatch command.symm.trans saves.1) (.refl apart)
  unfold Request.runListing
  rw [perform_bind_ok (perform_get s)]
  by_cases size : s.settings.historySize ≤ SizeLimit.greatest
  · have capacity : Cursor.capacityFor s.settings.historySize = .ok (max s.settings.historySize 1).toNat := if_pos size
    have lines : r.command.resultLines r.layout code = (decode code).map Instruction.line := by
      rw [command]
      rfl
    rw [capacity, perform_bind_ok (perform_ofExcept _ _ _), listing_eq (Cursor.pos_of_capacityFor capacity),
      perform_bind_ok (perform_ofExcept _ _ _), ← lines]
    exact .printed reached (can.mpr size)
  · have refused : Cursor.capacityFor s.settings.historySize = .error .noSize := if_neg size
    rw [refused, perform_bind_error (perform_ofExcept _ _ _)]
    exact .unprinted reached fun holds => size (can.mp holds)

theorem goesOn_runOn (r : Request) (code : Bytes) (apart : s.LogApart) : r.GoesOn code s (perform (r.runOn code) s) := by
  unfold Request.runOn
  cases command : r.command with
  | abi => exact goesOn_runAbi command code apart
  | selectors => exact goesOn_runSelectors command code apart
  | listing => exact goesOn_runListing command code apart

end CommandLine

end AbiRecovery
