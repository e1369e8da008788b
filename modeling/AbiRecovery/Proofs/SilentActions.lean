import AbiRecovery.Proofs.Fetching

/-!
# Silent actions

Only the command line prints. Fetching, recovering, saving and logging neither print nor look at what has been printed, so
they come to the same whatever it is, and leave it as it is (`Silent`).
-/
namespace AbiRecovery

namespace Session

/-- The session with other printed lines. -/
abbrev withConsole (s : Session) (console : Console) : Session := { s with console }

/-- The session after lines have been printed. -/
def printing (s : Session) (lines : List Text) : Session := s.withConsole { s.console with out := s.console.out ++ lines }

end Session

namespace Tool

open Session

variable {α β : Type}

/-- An action that neither prints nor looks at what has been printed. -/
def Silent (x : Tool α) : Prop :=
  ∀ (s : Session) (console : Console),
    perform x (s.withConsole console) = ((perform x s).1, (perform x s).2.withConsole console)

/-- Nothing is printed by a silent action. -/
theorem Silent.console {x : Tool α} (silent : Silent x) (s : Session) : (perform x s).2.console = s.console := by
  have same := silent s s.console
  exact (congrArg (fun reached => reached.2.console) same)

theorem Silent.printing {x : Tool α} (silent : Silent x) {s t : Session} {result : Except Failure α}
    (ran : perform x s = (result, t)) (lines : List Text) : perform x (s.printing lines) = (result, t.printing lines) := by
  have console : t.console = s.console := by
    have same := silent.console s
    rwa [ran] at same
  have same := silent s { s.console with out := s.console.out ++ lines }
  rw [ran] at same
  unfold Session.printing
  rw [same, console]

theorem silent_pure (a : α) : Silent (pure a) := fun _ _ => rfl

theorem silent_modify {f : Session → Session} (same : ∀ s console, f (s.withConsole console) = (f s).withConsole console) :
    Silent (modify f) :=
  fun s console => congrArg (Prod.mk _) (same s console)

theorem Silent.bind {x : Tool α} {f : α → Tool β} (first : Silent x) (rest : ∀ a, Silent (f a)) : Silent (x >>= f) := by
  intro s console
  rw [perform_bind, perform_bind, first s console]
  cases perform x s with
  | mk result t =>
    cases result with
    | error failure => rfl
    | ok a => exact rest a t console

/-- What a silent action reads of a session does not depend on what has been printed. -/
theorem silent_get_bind {f : Session → Tool β} (same : ∀ s console, f (s.withConsole console) = f s)
    (rest : ∀ s, Silent (f s)) : Silent (get >>= f) := by
  intro s console
  rw [perform_bind_ok (perform_get _), perform_bind_ok (perform_get s), same]
  exact rest s s console

theorem silent_forM {items : List α} {f : α → Tool PUnit} (each : ∀ a, Silent (f a)) : Silent (items.forM f) := by
  induction items with
  | nil => exact silent_pure _
  | cons a items ih => exact (each a).bind fun _ => ih

theorem silent_ofExcept {ε : Type} (failure : ε → Failure) (result : Except ε α) : Silent (ofExcept failure result) := by
  intro s console
  rw [perform_ofExcept, perform_ofExcept]

theorem silent_onFiles (change : FileTree.Change α) : Silent (onFiles change) := by
  intro s console
  rw [perform_onFiles, perform_onFiles]

/-! ## The actions of the program -/

theorem silent_log (logger : Text) (level : Log.Level) (message : Text) (extras : List (Text × Json)) :
    Silent (log logger level message extras) := by
  have written (r : Log.Record) (line : Text) (sink : Log.Sink) : Silent (writeTo r line sink) := by
    cases sink with
    | stream => exact silent_modify fun _ _ => rfl
    | removed => exact silent_pure _
    | file =>
      unfold writeTo
      cases Text.encodeUtf8 (Text.unlines [line]) with
      | ok bytes => exact silent_modify fun _ _ => rfl
      | error fault => exact silent_pure _
  refine Silent.bind (silent_get_bind (fun _ _ => rfl) fun _ => silent_pure _) fun r => ?_
  refine silent_get_bind (fun _ _ => rfl) fun s => ?_
  split
  · exact silent_forM fun sink => written r _ sink
  · exact silent_pure _

theorem silent_clientFor (chain : Chain) : Silent (clientFor chain) := by
  intro s console
  have connected : (s.withConsole console).connected chain = (s.connected chain).withConsole console := by
    unfold Session.connected
    dsimp only
    split <;> rfl
  rw [perform_clientFor, perform_clientFor, connected]
  rfl

theorem silent_fetchCodeOf (chain : Text) (shown : Json) (contract : Except FetchFault Address) :
    Silent (fetchCodeOf chain shown contract) := by
  have failed (fault : FetchFault) : Silent (do
      log intakeLogger .warning "code_fetch_failed" [("chain", .str chain), ("address", shown), ("error", .str fault.text)]
      return (none : Option Bytes)) :=
    (silent_log _ _ _ _).bind fun _ => silent_pure _
  refine silent_get_bind (fun _ _ => rfl) fun s => ?_
  split
  · exact (silent_log _ _ _ _).bind fun _ => silent_pure _
  · refine (silent_clientFor _).bind fun client => ?_
    cases contract with
    | error fault => exact failed fault
    | ok contract =>
      refine (silent_modify fun _ _ => rfl).bind fun _ => ?_
      split
      · exact failed _
      · rw [← bind_pure_comp]
        exact (silent_ofExcept _ _).bind fun code => silent_pure _

theorem silent_fetchCode (chain address : Text) : Silent (fetchCode chain address) := silent_fetchCodeOf _ _ _

theorem silent_recoverEntries (code : Bytes) : Silent (recoverEntries code) := by
  refine (silent_ofExcept _ _).bind fun program => (silent_forM fun entry => silent_log _ _ _ _).bind fun _ => ?_
  exact (silent_log _ _ _ _).bind fun _ => silent_pure _

theorem silent_openStore : Silent openStore := by
  intro s console
  rw [perform_openStore, perform_openStore]
  exact silent_onFiles _ s console

theorem silent_writeStore (opened : OpenStore) (key : Text) (value : Store.Value) : Silent (writeStore opened key value) := by
  intro s console
  rw [perform_writeStore, perform_writeStore]
  cases Text.encodeUtf8 key with
  | error fault => rfl
  | ok bytes => exact silent_onFiles _ s console

theorem silent_saveEntries (hash : Text) (entries : List Abi.Entry) : Silent (saveEntries hash entries) :=
  silent_openStore.bind fun _ => silent_writeStore _ _ _

theorem silent_linkContract (chain address hash : Text) : Silent (linkContract chain address hash) :=
  silent_openStore.bind fun _ => (silent_ofExcept _ _).bind fun _ => silent_writeStore _ _ _

theorem silent_scanAddress (chain address : Text) (save : Bool) : Silent (scanAddress chain address save) := by
  refine (silent_fetchCode chain address).bind fun code? => ?_
  cases code? with
  | none => exact silent_pure _
  | some code =>
    refine (silent_recoverEntries code).bind fun entries => ?_
    have told : Silent (do
        log intakeLogger .info "address_scanned"
          [("chain", .str (Text.upper chain)), ("address", .str address), ("entries", .int entries.length),
            ("code_bytes", .int code.length)]
        return some entries) :=
      (silent_log _ _ _ _).bind fun _ => silent_pure _
    cases save with
    | false => exact told
    | true => exact (silent_saveEntries _ _).bind fun _ => (silent_linkContract _ _ _).bind fun _ => told

end Tool

end AbiRecovery
