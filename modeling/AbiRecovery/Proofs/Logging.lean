import AbiRecovery.Proofs.Recovery
import AbiRecovery.Proofs.SessionOutput

/-!
# What logging does

Logging goes through, whatever is logged, and does two things: records come to the stream, and lines that begin like an
object come to the log file. What both of them keep is kept by everything that is logged (`KeptByLog.ensures_log`), also
where the log is written into the file of the store.
-/
namespace AbiRecovery

open Tool

theorem Json.render_obj (style : Json.Style) (members : List (Text × Json)) :
    ∃ rest, (Json.obj members).render style = .char '\x7b' :: rest := by
  unfold render
  cases members with
  | nil => exact ⟨_, by rw [write]⟩
  | cons entry members => exact ⟨_, by rw [write]; rfl⟩

theorem Log.Record.isLine_of_format {r : Record} {host : Host} {line : Text} {bytes : Bytes}
    (formatted : r.format host = .ok line) (encoded : Text.encodeUtf8 (Text.unlines [line]) = .ok bytes) : IsLine bytes := by
  obtain ⟨rest, rfl⟩ : ∃ rest, line = .char '\x7b' :: rest := by
    unfold format Record.line at formatted
    cases told : timestamp host.zone r.created with
    | error fault => rw [told] at formatted; cases formatted
    | ok time =>
      rw [told] at formatted
      cases refused : r.writeFault? host.nesting with
      | some fault => rw [refused] at formatted; cases formatted
      | none =>
        rw [refused] at formatted
        cases formatted
        exact Json.render_obj style _
  unfold Text.encodeUtf8 at encoded
  split at encoded
  · cases encoded
  · cases encoded
    rfl

/-- A property of sessions that is kept when something is logged. -/
structure KeptByLog (kept : Session → Prop) : Prop where
  stream (s : Session) (records : List Log.Record) : kept s → kept { s with book := { s.book with stream := records } }
  file (s : Session) {line : Bytes} : Log.IsLine line → kept s → kept { s with files := s.files.append logFile line }

namespace KeptByLog

variable {kept : Session → Prop}

theorem ensures_log (logs : KeptByLog kept) (logger : Text) (level : Log.Level) (message : Text)
    (extras : List (Text × Json)) :
    Ensures kept (log logger level message extras) (fun _ => kept) (fun _ => False) := by
  have recorded : Ensures kept (record logger level message extras) (fun _ => kept) (fun _ => False) := fun _ start => start
  refine recorded.bind fun r => Ensures.get_bind fun s start => ?_
  cases formatted : r.format s.host with
  | error fault => exact Ensures.pure (by rintro _ rfl; exact start)
  | ok line =>
    have written (sink : Log.Sink) : Ensures kept (writeTo r line sink) (fun _ => kept) (fun _ => False) := by
      cases sink with
      | stream => exact Ensures.modify fun t => logs.stream t _
      | removed => exact Ensures.pure fun _ => id
      | file =>
        unfold writeTo
        cases encoded : Text.encodeUtf8 (Text.unlines [line]) with
        | ok bytes => exact Ensures.modify fun t => logs.file t (r.isLine_of_format formatted encoded)
        | error fault => exact Ensures.pure fun _ => id
    exact (Ensures.forM written).weaken (by rintro _ rfl; exact start) (fun _ _ => id) fun _ => id

theorem keeps_log (logs : KeptByLog kept) (logger : Text) (level : Log.Level) (message : Text)
    (extras : List (Text × Json)) : Keeps kept (log logger level message extras) :=
  Keeps.of_ensures ((logs.ensures_log _ _ _ _).weaken (fun _ => id) (fun _ _ => id) fun _ => False.elim)

/-- Recovering goes through as well, and gives the entries of the code. -/
theorem ensures_recoverEntries (logs : KeptByLog kept) (code : Bytes) :
    Ensures kept (recoverEntries code) (fun entries s => entries = Abi.recovered code ∧ kept s) (fun _ => False) := by
  have scanned : Ensures kept (ofExcept .lookback (Program.ofCode code))
      (fun program s => program = Program.scanned code ∧ kept s) (fun _ => False) := by
    rw [ofCode_eq]
    exact fun s start => ⟨rfl, start⟩
  refine scanned.bind fun program => ?_
  have counted (entries : List Abi.Entry) (extras : List (Text × Json)) :
      Ensures kept (do log scanLogger .debug "disasm_done" extras; return entries)
        (fun told s => told = entries ∧ kept s) (fun _ => False) :=
    (logs.ensures_log _ _ _ _).bind fun _ => Ensures.pure fun _ start => ⟨rfl, start⟩
  rintro s ⟨rfl, start⟩
  exact ((Ensures.forM fun entry => logs.ensures_log _ _ _ _).bind fun _ => counted _ _) s start

theorem keeps_recoverEntries (logs : KeptByLog kept) (code : Bytes) : Keeps kept (recoverEntries code) :=
  Keeps.of_ensures ((logs.ensures_recoverEntries code).weaken (fun _ => id) (fun _ _ => And.right) fun _ => False.elim)

end KeptByLog

end AbiRecovery
