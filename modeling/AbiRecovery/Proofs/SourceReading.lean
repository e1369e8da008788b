import AbiRecovery.Proofs.CodeFile
import AbiRecovery.Proofs.SavePaths
import AbiRecovery.Proofs.ScanOutcome

/-!
# Reading the code of a request

A request reads its code in one of four ways, told by its source: code is delivered, which may be above the limit; a text
or a file delivers none, which is a failure to read; an address has none; or a value is missing without which nothing can
be read. Reading prints nothing and writes nothing but the log.
-/
namespace AbiRecovery

open FileTree Session Tool

namespace Session

variable {s t u : Session}

/-- Between the two sessions questions have been asked, and something has been logged, but nothing printed. -/
structure Unprinted (s t : Session) : Prop where
  quiet : Quiet s t
  console : t.console = s.console

theorem Unprinted.of_logged (logged : Logged s t) : Unprinted s t := ⟨.of_sameButOutput logged.toSameButOutput, logged.console⟩

theorem Unprinted.refl (apart : s.LogApart) : Unprinted s s := .of_logged (.refl apart)

theorem Unprinted.trans (first : Unprinted s t) (second : Unprinted t u) : Unprinted s u :=
  ⟨first.quiet.trans second.quiet, second.console.trans first.console⟩

theorem Unprinted.logApart (unprinted : Unprinted s t) : t.LogApart := unprinted.quiet.logApart

theorem Unprinted.settings (unprinted : Unprinted s t) : t.settings = s.settings := by
  obtain ⟨_, _, same⟩ := unprinted.quiet
  exact same.settings.symm

theorem Unprinted.of_asked {chain : Text} {contract? : Option Address} (logged : Logged (s.asked chain contract?) t) :
    Unprinted s t := by
  obtain ⟨_, _, asked⟩ := s.asked_eq chain contract?
  exact ⟨.of_asked logged.toSameButOutput, logged.console.trans (by rw [asked])⟩

end Session

namespace CommandLine

variable {r : Request} {s : Session} {code : Bytes}

/-- The code that the source of a request tells: that of a text, of the content of a file, or of a contract. -/
inductive Request.Delivers (r : Request) (s : Session) : Bytes → Prop where
  | code {text : Text} {code : Bytes} (source : r.source = .code (some text))
      (denoted : (CodeInput.text text).code = .ok code) : r.Delivers s code
  | file {path : Text} {content code : Bytes} (source : r.source = .file (some path))
      (held : s.files.read (Location.ofText path) = .ok content) (denoted : (CodeInput.ofFile content).code = .ok code) :
      r.Delivers s code
  | address {chain address : Text} {code : Bytes} (source : r.source = .address (some address))
      (chains : r.chain? = some chain) (replied : s.reply? chain address = some (.code code)) : r.Delivers s code

/-- Reading the source fails: it tells code above the limit, or it is a text or a file and tells none. -/
def Request.FailsToRead (r : Request) (s : Session) : Prop :=
  (∃ code, r.Delivers s code ∧ s.IsBeyond code) ∨
    (∀ code, ¬r.Delivers s code) ∧ ((∃ text?, r.source = .code text?) ∨ ∃ path, r.source = .file (some path))

/-- There is no code at the address of a request. -/
def Request.FindsNoCode (r : Request) (s : Session) : Prop :=
  (∀ code, ¬r.Delivers s code) ∧ (∃ address?, r.source = .address address?) ∧ ∃ chain, r.chain? = some chain

/-- The path of a file is missing, or the chain of an address. -/
def Request.LacksValue (r : Request) : Prop :=
  r.source = .file none ∨ (∃ address?, r.source = .address address?) ∧ r.chain? = none

theorem Request.reading_cases (r : Request) (s : Session) :
    (∃ code, r.Delivers s code ∧ ¬s.IsBeyond code) ∨ r.FailsToRead s ∨ r.FindsNoCode s ∨ r.LacksValue := by
  by_cases delivered : ∃ code, r.Delivers s code
  · obtain ⟨code, delivers⟩ := delivered
    by_cases beyond : s.IsBeyond code
    · exact .inr (.inl (.inl ⟨code, delivers, beyond⟩))
    · exact .inl ⟨code, delivers, beyond⟩
  · have none : ∀ code, ¬r.Delivers s code := fun code delivers => delivered ⟨code, delivers⟩
    cases source : r.source with
    | code text? => exact .inr (.inl (.inr ⟨none, .inl ⟨text?, source⟩⟩))
    | file path? =>
      cases path? with
      | some path => exact .inr (.inl (.inr ⟨none, .inr ⟨path, source⟩⟩))
      | none => exact .inr (.inr (.inr (.inl source)))
    | address address? =>
      cases chain : r.chain? with
      | some chain' => exact .inr (.inr (.inl ⟨none, ⟨address?, source⟩, chain', chain⟩))
      | none => exact .inr (.inr (.inr (.inr ⟨⟨address?, source⟩, chain⟩)))

/-- A source tells one code. -/
theorem Request.Delivers.unique {other : Bytes} (delivers : r.Delivers s code) (delivers' : r.Delivers s other) :
    other = code := by
  cases delivers with
  | code source denoted =>
    cases delivers' with
    | code source' denoted' =>
      cases source.symm.trans source'
      exact Except.ok.inj (denoted'.symm.trans denoted)
    | file source' _ _ => cases source.symm.trans source'
    | address source' _ _ => cases source.symm.trans source'
  | file source held denoted =>
    cases delivers' with
    | code source' _ => cases source.symm.trans source'
    | file source' held' denoted' =>
      cases source.symm.trans source'
      cases held.symm.trans held'
      exact Except.ok.inj (denoted'.symm.trans denoted)
    | address source' _ _ => cases source.symm.trans source'
  | address source chains replied =>
    cases delivers' with
    | code source' _ => cases source.symm.trans source'
    | file source' _ _ => cases source.symm.trans source'
    | address source' chains' replied' =>
      cases source.symm.trans source'
      cases chains.symm.trans chains'
      cases replied.symm.trans replied'
      rfl

/-- Code within the limit is read, and nothing stands in the way. -/
theorem Request.Delivers.reads (delivers : r.Delivers s code) (within : ¬s.IsBeyond code) :
    ¬r.FailsToRead s ∧ ¬r.FindsNoCode s ∧ ¬r.LacksValue := by
  refine ⟨?_, fun nothing => nothing.1 code delivers, ?_⟩
  · rintro (⟨other, delivers', beyond⟩ | ⟨none, -⟩)
    · exact within (delivers.unique delivers' ▸ beyond)
    · exact none code delivers
  · rintro (source | ⟨⟨address?, source⟩, chains⟩)
    · cases delivers with
      | code source' _ => cases source.symm.trans source'
      | file source' _ _ => cases source.symm.trans source'
      | address source' _ _ => cases source.symm.trans source'
    · cases delivers with
      | code source' _ => cases source.symm.trans source'
      | file source' _ _ => cases source.symm.trans source'
      | address _ chains' _ => cases chains.symm.trans chains'

/-! ## What reading comes to -/

theorem perform_map_ofExcept {ε α β : Type} (f : α → β) (failure : ε → Failure) (result : Except ε α) (s : Session) :
    perform (f <$> Tool.ofExcept failure result) s = ((f <$> result).mapError failure, s) := by
  rw [perform_map, perform_ofExcept]
  cases result <;> rfl

theorem perform_readCode_text {text? : Option Text} (source : r.source = .code text?) (s : Session) :
    perform r.readCode s = ((some <$> (codeInput text?).load s.settings.maxCodeBytes).mapError .code, s) := by
  unfold Request.readCode
  rw [source]
  dsimp only
  rw [perform_bind_ok (perform_get s), perform_map_ofExcept]

theorem perform_readCode_file {path : Text} (source : r.source = .file (some path)) {content : Bytes}
    (held : s.files.read (Location.ofText path) = .ok content) :
    perform r.readCode s =
      ((some <$> (CodeInput.ofFile content).load s.settings.maxCodeBytes).mapError .code, s) := by
  unfold Request.readCode
  rw [source]
  show perform (some <$> codeFromFile path) s = _
  rw [perform_map, perform_codeFromFile held]
  cases (CodeInput.ofFile content).load s.settings.maxCodeBytes <;> rfl

theorem perform_readCode_unread {path : Text} (source : r.source = .file (some path)) {fault : FileFault}
    (unread : s.files.read (Location.ofText path) = .error fault) :
    perform r.readCode s = (.error (.file fault), s) := by
  unfold Request.readCode
  rw [source]
  show perform (some <$> codeFromFile path) s = _
  rw [perform_map]
  unfold codeFromFile
  rw [perform_bind_ok (perform_get s), unread, perform_bind_error (perform_ofExcept _ _ _)]

/-- The code at an address of a chain is fetched whatever the case of the chain's name. -/
theorem perform_readCode_address {chain address : Text} (source : r.source = .address (some address))
    (chains : r.chain? = some chain) (apart : s.LogApart) :
    ∃ t, perform r.readCode s = ((s.answer? chain (Session.contract? address)).mapError .code, t) ∧ Unprinted s t := by
  obtain ⟨t, fetched, logged⟩ := perform_fetchCode (Text.upper chain) address s apart
  rw [(asked_upper ..).2] at fetched
  refine ⟨t, ?_, .of_asked logged⟩
  unfold Request.readCode
  rw [source, chains]
  exact fetched

/-- Code that is delivered is read, within the limit. -/
theorem perform_readCode_of_delivers (delivers : r.Delivers s code) (apart : s.LogApart) :
    ∃ t, perform r.readCode s = ((some <$> CodeInput.withinLimit s.settings.maxCodeBytes code).mapError .code, t) ∧
      Unprinted s t := by
  cases delivers with
  | @code text _ source denoted =>
    refine ⟨s, ?_, .refl apart⟩
    rw [perform_readCode_text source]
    unfold CodeInput.load
    rw [show (codeInput (some text)).code = .ok code from denoted]
    rfl
  | file source held denoted =>
    refine ⟨s, ?_, .refl apart⟩
    rw [perform_readCode_file source held]
    unfold CodeInput.load
    rw [denoted]
    rfl
  | @address chain address _ source chains replied =>
    obtain ⟨t, ran, unprinted⟩ := perform_readCode_address source chains apart
    rw [answer?_eq, replied] at ran
    exact ⟨t, ran, unprinted⟩

theorem perform_readCode_of_within (delivers : r.Delivers s code) (within : ¬s.IsBeyond code) (apart : s.LogApart) :
    ∃ t, perform r.readCode s = (.ok (some code), t) ∧ Unprinted s t := by
  have taken : CodeInput.withinLimit s.settings.maxCodeBytes code = .ok code := if_neg (by simpa [IsBeyond] using within)
  have read := perform_readCode_of_delivers delivers apart
  rw [taken] at read
  exact read

/-- A failure to read is reported. -/
theorem perform_readCode_of_fails (fails : r.FailsToRead s) (apart : s.LogApart) :
    ∃ failure t, isReadFailure failure ∧ perform r.readCode s = (.error failure, t) ∧ Unprinted s t := by
  rcases fails with ⟨code, delivers, beyond⟩ | ⟨none, source⟩
  · have refused : CodeInput.withinLimit s.settings.maxCodeBytes code =
        .error (.tooLarge code.length s.settings.maxCodeBytes) := if_pos (by simpa [IsBeyond] using beyond)
    obtain ⟨t, read, unprinted⟩ := perform_readCode_of_delivers delivers apart
    rw [refused] at read
    exact ⟨_, t, rfl, read, unprinted⟩
  · have unloaded (input : CodeInput) (denotes : ∀ code, input.code ≠ .ok code) :
        ∃ fault, input.load s.settings.maxCodeBytes = .error fault := by
      unfold CodeInput.load
      cases denoted : input.code with
      | error fault => exact ⟨fault, rfl⟩
      | ok code => exact absurd denoted (denotes code)
    rcases source with ⟨text?, source⟩ | ⟨path, source⟩
    · obtain ⟨fault, refused⟩ := unloaded (codeInput text?) fun code denoted => by
        cases text? with
        | none => cases denoted
        | some text => exact none code (.code source denoted)
      exact ⟨.code fault, s, rfl, by rw [perform_readCode_text source, refused]; rfl, .refl apart⟩
    · cases held : s.files.read (Location.ofText path) with
      | error fault => exact ⟨.file fault, s, rfl, perform_readCode_unread source held, .refl apart⟩
      | ok content =>
        obtain ⟨fault, refused⟩ := unloaded _ fun code denoted => none code (.file source held denoted)
        exact ⟨.code fault, s, rfl, by rw [perform_readCode_file source held, refused]; rfl, .refl apart⟩

/-- Where there is no code at an address, nothing is read. -/
theorem perform_readCode_of_no_code (nothing : r.FindsNoCode s) (apart : s.LogApart) :
    ∃ t, perform r.readCode s = (.ok none, t) ∧ Unprinted s t := by
  obtain ⟨no_code, ⟨address?, source⟩, chain, chains⟩ := nothing
  cases address? with
  | some address =>
    obtain ⟨t, ran, unprinted⟩ := perform_readCode_address source chains apart
    rw [answer?_of_no_code fun code replied => no_code code (.address source chains replied)] at ran
    exact ⟨t, ran, unprinted⟩
  | none =>
    obtain ⟨t, ran, logged⟩ :=
      perform_fetchCodeOf (Text.upper chain) (shown none) (.error ⟨"TypeError", MissingValue.address.message⟩) s apart
    have answer : s.answer? (Text.upper chain) none = .ok none := by
      unfold answer?
      cases s.settings.chain? (Text.upper chain) <;> rfl
    rw [show (Except.error _ : Except FetchFault Address).toOption = none from rfl, answer] at ran
    refine ⟨t, ?_, .of_asked logged⟩
    unfold Request.readCode
    rw [source, chains]
    exact ran

theorem perform_readCode_of_lacks (lacks : r.LacksValue) (s : Session) :
    ∃ what, perform r.readCode s = (.error (.missingValue what), s) := by
  rcases lacks with source | ⟨⟨address?, source⟩, chains⟩
  · refine ⟨.path, ?_⟩
    unfold Request.readCode
    rw [source]
    rfl
  · refine ⟨.chain, ?_⟩
    unfold Request.readCode
    rw [source, chains]
    rfl

end CommandLine

end AbiRecovery
