import AbiRecovery.Proofs.StoreItem
import AbiRecovery.Session.AddressList
import AbiRecovery.Session.Contract

/-!
# Sessions that differ in their output

What has been logged and printed does not count for what a session does with its store, unless the log is
written into the file of the store itself. So two sessions that are the same but for their output fetch, save and
link alike, and an action that only logs can be left out.
-/
namespace AbiRecovery

open FileTree

/-- Whether some logger writes into the log file. -/
def Log.Book.WritesFile (book : Log.Book) : Prop :=
  ∃ key, ∃ handler ∈ (book.logger key).handlers, handler.sink = .file

namespace Session

/-- The path of the store. -/
def storePath (s : Session) : Location := Location.ofText s.settings.storePath

/-- The location into which the log is written. -/
def LogsAt (s : Session) (l : Location) : Prop := l = Tool.logFile ∧ s.book.WritesFile

/-- The log is not written into the file of the store. -/
def LogApart (s : Session) : Prop := ∀ place, storePlace? s.storePath = some place → ¬s.LogsAt place

/-- Before the first action no log is written into any file. -/
theorem logApart_start (settings : Settings) (files : FileTree) (network : Network) (clock : Int) :
    (Session.start settings files network clock).LogApart := by
  rintro place - ⟨-, key, handler, member, -⟩
  have none : (Log.Book.empty.logger key).handlers = [] := by
    unfold Log.Book.logger Log.Book.empty OrderedMap.get? OrderedMap.get?
    split <;> rfl
  have member : handler ∈ (Log.Book.empty.logger key).handlers := member
  rw [none] at member
  cases member

/-- Two sessions that are the same but for what has been logged and printed. -/
structure SameButOutput (s t : Session) : Prop where
  settings : s.settings = t.settings
  network : s.network = t.network
  clients : s.clients = t.clients
  calls : s.calls = t.calls
  loggers : s.book.loggers = t.book.loggers
  files : Agree s.LogsAt s.files t.files
  apart : s.LogApart

theorem logsAt_eq {s t : Session} (loggers : s.book.loggers = t.book.loggers) : s.LogsAt = t.LogsAt := by
  unfold LogsAt Log.Book.WritesFile Log.Book.logger
  rw [loggers]

namespace SameButOutput

variable {s t u : Session}

theorem refl (apart : s.LogApart) : SameButOutput s s := ⟨rfl, rfl, rfl, rfl, rfl, Agree.refl _, apart⟩

theorem logApart (same : SameButOutput s t) : t.LogApart := by
  have apart := same.apart
  unfold LogApart storePath at apart ⊢
  rw [← logsAt_eq same.loggers, ← same.settings]
  exact apart

theorem symm (same : SameButOutput s t) : SameButOutput t s where
  settings := same.settings.symm
  network := same.network.symm
  clients := same.clients.symm
  calls := same.calls.symm
  loggers := same.loggers.symm
  files := logsAt_eq same.loggers ▸ same.files.symm
  apart := same.logApart

theorem trans (first : SameButOutput s t) (second : SameButOutput t u) : SameButOutput s u where
  settings := first.settings.trans second.settings
  network := first.network.trans second.network
  clients := first.clients.trans second.clients
  calls := first.calls.trans second.calls
  loggers := first.loggers.trans second.loggers
  files := first.files.trans (logsAt_eq first.loggers ▸ second.files)
  apart := first.apart

end SameButOutput

/-- The second session is the first one after something has been logged. -/
structure Logged (s t : Session) : Prop extends SameButOutput s t where
  console : t.console = s.console

namespace Logged

variable {s t u : Session}

theorem refl (apart : s.LogApart) : Logged s s := ⟨.refl apart, rfl⟩

theorem trans (first : Logged s t) (second : Logged t u) : Logged s u :=
  ⟨first.toSameButOutput.trans second.toSameButOutput, second.console.trans first.console⟩

end Logged

end Session

namespace FileTree

theorem eq_ok_of_mapError {ε ε' α : Type} {f : ε → ε'} {x : Except ε α} {a : α} (mapped : x.mapError f = .ok a) :
    x = .ok a := by
  cases x with
  | error e => cases mapped
  | ok b => cases mapped; rfl

theorem resolve_logFile {t : FileTree} {l : Location} (found : t.resolve Tool.logFile = .ok l) : l = Tool.logFile := by
  have walked : t.follow [] Tool.logFile = .ok l := by
    refine eq_ok_of_mapError (f := fun cause => (⟨cause, Tool.logFile⟩ : FileFault)) ?_
    rw [← found]
    rfl
  unfold Tool.logFile at walked
  rw [follow, itemAt?_of_isBase t (by decide)] at walked
  simp only [] at walked
  rw [if_neg (by decide), if_neg (by decide), follow] at walked
  split at walked
  · rw [if_neg (by decide), if_neg (by decide), follow] at walked
    exact (Except.ok.inj walked).symm
  · cases walked
  · cases walked

/-- Adding to the log file changes no other item, and the log file stays a file. -/
theorem agree_append {apart : Location → Prop} (log : apart Tool.logFile) (t : FileTree) (bytes : Bytes) :
    Agree apart t (t.append Tool.logFile bytes) := by
  unfold append find?
  cases found : t.resolve Tool.logFile with
  | error fault => exact Agree.refl t
  | ok l =>
    obtain rfl := resolve_logFile found
    simp only [Functor.map, Except.map]
    cases item : t.itemAt? Tool.logFile with
    | none => exact Agree.refl t
    | some a =>
      cases a with
      | directory => exact Agree.refl t
      | file _ | store _ => exact Agree.update item rfl log

/-- The log file does not stand beside a store. -/
theorem beside_ne_logFile {here : Location} {ending : Text} (known : ending ∈ endings) :
    beside here ending ≠ Tool.logFile := by
  unfold beside
  intro same
  have last : here.getLastD "" ++ ending = "app.log" := by
    have last := congrArg List.getLast? same
    simpa [Tool.logFile] using last
  have suffix : ending <:+ ("app.log" : Text) := ⟨_, last⟩
  exact absurd suffix ((by decide : ∀ ending ∈ endings, ¬ending <:+ ("app.log" : Text)) ending known)

end FileTree

namespace Tool

open Session

@[simp]
theorem perform_ofExcept {ε α : Type} (failure : ε → Failure) (result : Except ε α) (s : Session) :
    perform (ofExcept failure result) s = (result.mapError failure, s) := by
  cases result <;> rfl

theorem matches_ofExcept {ε α : Type} {states : Session → Session → Prop} (failure : ε → Failure)
    (result : Except ε α) : Matches states Eq (ofExcept failure result) (ofExcept failure result) := by
  cases result with
  | error fault => exact Matches.throw
  | ok value => exact Matches.pure rfl

theorem keeps_ofExcept {ε α : Type} {kept : Session → Prop} (failure : ε → Failure) (result : Except ε α) :
    Keeps kept (ofExcept failure result) := by
  intro s start
  rw [perform_ofExcept]
  exact start

/-- Reading a list of addresses keeps what a line at the terminal keeps. -/
theorem keeps_loadAddresses {kept : Session → Prop} (prints : ∀ line, Keeps kept (printError line)) (file : Text) :
    Keeps kept (loadAddresses file) := by
  refine Keeps.get.bind fun s => (keeps_ofExcept _ _).bind fun present => ?_
  cases present with
  | false => exact (prints _).bind fun _ => Keeps.pure []
  | true =>
    exact (keeps_ofExcept _ _).bind fun _ => (keeps_ofExcept _ _).bind fun _ => keeps_ofExcept _ _

/-- An action that does nothing but log. -/
def OnlyLogs (x : Tool Unit) : Prop :=
  ∀ s : Session, s.LogApart → ∃ s', perform x s = (.ok ⟨⟩, s') ∧ Logged s s'

theorem onlyLogs_pure : OnlyLogs (pure ⟨⟩) := fun s apart => ⟨s, rfl, .refl apart⟩

theorem OnlyLogs.bind {x y : Tool Unit} (first : OnlyLogs x) (rest : OnlyLogs y) : OnlyLogs (x >>= fun _ => y) := by
  intro s apart
  obtain ⟨s₁, ran, logged⟩ := first s apart
  obtain ⟨s₂, ran', logged'⟩ := rest s₁ logged.logApart
  exact ⟨s₂, by rw [perform_bind_ok ran, ran'], logged.trans logged'⟩

/-- What is logged first changes nothing that comes after it. -/
theorem OnlyLogs.return {α : Type} {x : Tool Unit} (logs : OnlyLogs x) (a : α) (s : Session) (apart : s.LogApart) :
    ∃ s', perform (x >>= fun _ => pure a) s = (.ok a, s') ∧ Logged s s' := by
  obtain ⟨s', ran, logged⟩ := logs s apart
  exact ⟨s', perform_bind_ok ran, logged⟩

/-- A record goes to the sinks of its logger, one after another. -/
theorem onlyLogs_writeTo (r : Log.Record) (line : Text) (sinks : List Log.Sink) (s : Session) (apart : s.LogApart)
    (known : .file ∈ sinks → s.book.WritesFile) :
    ∃ s', perform (sinks.forM (writeTo r line)) s = (.ok ⟨⟩, s') ∧ Logged s s' := by
  induction sinks generalizing s with
  | nil => exact ⟨s, rfl, .refl apart⟩
  | cons sink sinks ih =>
    have first : ∃ s₁, perform (writeTo r line sink) s = (.ok ⟨⟩, s₁) ∧ Logged s s₁ := by
      cases sink with
      | stream => exact ⟨_, rfl, ⟨rfl, rfl, rfl, rfl, rfl, Agree.refl _, apart⟩, rfl⟩
      | removed => exact ⟨s, rfl, .refl apart⟩
      | file =>
        unfold writeTo
        cases Text.encodeUtf8 (Text.unlines [line]) with
        | error fault => exact ⟨s, rfl, .refl apart⟩
        | ok bytes =>
          have log : s.LogsAt logFile := ⟨rfl, known List.mem_cons_self⟩
          have appended := agree_append log s.files bytes
          exact ⟨_, rfl, ⟨rfl, rfl, rfl, rfl, rfl, appended, apart⟩, rfl⟩
    obtain ⟨s₁, ran, logged⟩ := first
    obtain ⟨s₂, ran', logged'⟩ := ih s₁ logged.logApart fun file => by
      have writes := known (List.mem_cons_of_mem _ file)
      unfold Log.Book.WritesFile Log.Book.logger at writes ⊢
      rw [← logged.loggers]
      exact writes
    exact ⟨s₂, (perform_bind_ok ran).trans ran', logged.trans logged'⟩

theorem writesFile_of_mem_sinks {book : Log.Book} {key : Text} {level : Log.Level}
    (file : .file ∈ book.sinks key level) : book.WritesFile := by
  unfold Log.Book.sinks at file
  split at file
  · obtain ⟨handler, kept, sink⟩ := List.mem_map.mp file
    exact ⟨key, handler, (List.mem_filter.mp kept).1, sink⟩
  · cases file

/-- Logging goes through, whatever is logged, and changes nothing but the log. -/
theorem onlyLogs_log (logger : Text) (level : Log.Level) (message : Text) (extras : List (Text × Json)) :
    OnlyLogs (log logger level message extras) := by
  intro s apart
  unfold log
  rw [perform_bind_ok (show perform (record logger level message extras) s = (.ok _, s) from rfl)]
  unfold write
  rw [perform_bind_ok (perform_get s)]
  split
  · exact onlyLogs_writeTo _ _ _ s apart writesFile_of_mem_sinks
  · exact onlyLogs_pure s apart

theorem onlyLogs_forM {α : Type} {f : α → Tool Unit} (each : ∀ a, OnlyLogs (f a)) (items : List α) :
    OnlyLogs (items.forM f) := by
  induction items with
  | nil => exact onlyLogs_pure
  | cons a items ih => exact (each a).bind ih

/-- Printing changes nothing but what has been printed. -/
theorem sameButOutput_print (lines : List Text) (s : Session) (apart : s.LogApart) :
    SameButOutput s (perform (print lines) s).2 :=
  ⟨rfl, rfl, rfl, rfl, rfl, Agree.refl _, apart⟩

end Tool

end AbiRecovery
