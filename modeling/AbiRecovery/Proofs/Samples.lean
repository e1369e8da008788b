import AbiRecovery.CommandLine.Run
import AbiRecovery.Proofs.HexText
import AbiRecovery.Proofs.KeccakRounds

/-!
# Samples

Addresses, codes, nodes and sessions that serve as instances of results about all of them. One chain has a node, and the
node tells two contracts apart by the first digit of their addresses.
-/
namespace AbiRecovery

open Store

namespace Sample

/-- An address with the same digit forty times. -/
def uniform (digit : Char) : Text := Text.ofChars ('0' :: 'x' :: List.replicate 40 digit)

/-- Code that logs a constant. -/
def logging : Bytes := 0x7F :: List.replicate 32 0x11 ++ [0xA1]

/-- A node with one code for the addresses that begin with a certain digit, and another for all others. -/
def twoCodes : Network := ⟨fun _ contract => .code (if contract.digits.head? = some 'a' then logging else [0x00])⟩

set_option maxRecDepth 100000 in
theorem codeHash_logging_ne : Tool.codeHash logging ≠ Tool.codeHash [0x00] := by
  intro same
  have digests := Hex.encodeMarked_injective same
  rw [← Keccak.evaluatedHash_eq, ← Keccak.evaluatedHash_eq] at digests
  exact absurd digests (by decide +kernel)

def withNode (chain : Text) : Settings := { Settings.ofEnvironment [] with nodes := [(chain, "node")] }

/-- The name of a chain that has no bytes: half of a surrogate pair. -/
def halfName : Text := [.half ⟨0x4FF, by decide⟩]

def withFile (s : Session) (name : Text) (content : Bytes) : Session := { s with files := s.files.add [name] (.file content) }

/-- A session with a node for a chain, which begins without files. -/
def withStore (chain path : Text) : Session := .start { withNode chain with storePath := path } .empty twoCodes 0

/-- A session with two lists of addresses in files. -/
def withLists (settings : Settings) (network : Network) (one two : List Text) : Session :=
  let content (addresses : List Text) : Bytes := addresses.flatMap fun address => address.flatMap Text.Symbol.utf8 ++ [0x0A]
  withFile (withFile (.start settings .empty network 0) "one" (content one)) "two" (content two)

/-- A saving batch of a list in a file. -/
def batchOf (chain? : Option Text) (file : Text) : CommandLine.BatchRequest := ⟨chain?, some file, some 20, true⟩

/-- How many rows there are in the file of the log, if it is a store. -/
def rowsInLog? (s : Session) : Option Nat :=
  match s.files.itemAt? Tool.logFile with
  | some (.store file) => some file.rows.length
  | _ => none

theorem ok_of_toOption {ε α : Type} {x : Except ε α} {a : α} (value : x.toOption = some a) : x = .ok a := by
  cases x with
  | error fault => cases value
  | ok b => exact congrArg Except.ok (Option.some.inj value)

theorem exists_row_of_values {rows? : Option Table} {value : Value}
    (values : (rows?.map fun rows => rows.map Prod.snd) = some [value]) : ∃ key, rows? = some [(key, value)] := by
  obtain ⟨rows, rfl, only⟩ := Option.map_eq_some_iff.mp values
  obtain ⟨⟨key, _⟩, rfl, rfl⟩ := List.map_eq_singleton_iff.mp only
  exact ⟨key, rfl⟩

end Sample

end AbiRecovery
