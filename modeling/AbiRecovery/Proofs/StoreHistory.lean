import AbiRecovery.Proofs.Action
import AbiRecovery.Proofs.StoreKeys
import AbiRecovery.Session.Store

/-!
# The history of a store

What the calls to a store have saved and linked since it was emptied last: the latest entries for each hash, the latest
hash for each contract, and the order of the latest saves. The rows that the calls write tell just that.
-/
namespace AbiRecovery

open Tool Store

/-- The list without repetitions, of which the first of each stays, and without some of its items. -/
theorem filter_eraseDups {α : Type} [BEq α] [LawfulBEq α] (p : α → Bool) (l : List α) :
    l.eraseDups.filter p = (l.filter p).eraseDups := by
  match l with
  | [] => rfl
  | a :: l =>
    have rest := filter_eraseDups p (l.filter fun b => !b == a)
    rw [List.eraseDups_cons, List.filter_cons, List.filter_cons, rest, List.filter_filter]
    split
    · rw [List.eraseDups_cons, List.filter_filter]
      simp only [Bool.and_comm]
    next dropped =>
      congr 1
      refine List.filter_congr fun b _ => ?_
      cases same : b == a with
      | true => simpa [eq_of_beq same] using dropped
      | false => simp
termination_by l.length
decreasing_by
  exact Nat.lt_succ_of_le (List.length_filter_le _ _)

namespace Session

/-- A call to the store. -/
inductive StoreCall where
  | save (hash : Text) (entries : List Abi.Entry)
  | link (chain address hash : Text)
  | reset (confirmed : Bool)
  | load (hash : Text)
  | seen (hash : Text)
  | list
  | linked (chain address : Text)

namespace StoreCall

/-- What a call does, whatever it answers. -/
def action : StoreCall → Tool Unit
  | save hash entries => saveEntries hash entries
  | link chain address hash => linkContract chain address hash
  | reset confirmed => resetStore confirmed
  | load hash => discard (savedEntries hash)
  | seen hash => discard (isSaved hash)
  | list => discard allSaved
  | linked chain address => discard (linkedHash chain address)

/-- The session after a call. -/
def after (s : Session) (call : StoreCall) : Session := (perform call.action s).2

/-- Whether a call is a reset that is confirmed. -/
def empties : StoreCall → Bool
  | reset confirmed => confirmed
  | _ => false

/-- The hash and the entries that a call saves, if the hash can be a key. -/
def saves? : StoreCall → Option (Text × List Abi.Entry)
  | save hash entries => if (codeKey hash).hasBytes then some (hash, entries) else none
  | _ => none

/-- The hash that a call links the contract at an address of a chain to. The name of the chain may be in any case, and
the address in any spelling of its bytes. -/
def linksTo? (chain : Text) (address : Address) : StoreCall → Option Text
  | link chain' text hash =>
    match Address.ofText text with
    | .ok address' => if Text.upper chain' = Text.upper chain ∧ address'.bytes = address.bytes then some hash else none
    | .error _ => none
  | _ => none

/-- Whether a call only asks, or is refused: a reset that is not confirmed, a link from what is no address, and what
would need a key without bytes. -/
def changesNothing : StoreCall → Bool
  | save hash _ => !(codeKey hash).hasBytes
  | link chain text _ =>
    match Address.ofText text with
    | .ok address => !(contractKey chain address).hasBytes
    | .error _ => true
  | reset confirmed => !confirmed
  | load _ | seen _ | list | linked _ _ => true

/-- The row that a call writes. -/
def row? : StoreCall → Option (Text × Value)
  | save hash entries => if (codeKey hash).hasBytes then some (codeKey hash, .entries entries) else none
  | link chain text hash =>
    match Address.ofText text with
    | .ok address =>
      if (contractKey chain address).hasBytes then some (contractKey chain address, .hash hash) else none
    | .error _ => none
  | _ => none

/-- The rows after a call. -/
def rowsAfter (rows : Table) (call : StoreCall) : Table :=
  if call.empties then []
  else match call.row? with
    | some (key, value) => rows.put key value
    | none => rows

theorem rowsAfter_save (rows : Table) (hash : Text) (entries : List Abi.Entry) :
    (save hash entries).rowsAfter rows =
      if (codeKey hash).hasBytes then rows.put (codeKey hash) (.entries entries) else rows := by
  cases bytes : (codeKey hash).hasBytes <;> simp [rowsAfter, empties, row?, bytes]

theorem rowsAfter_link (rows : Table) (chain hash : Text) {text : Text} {address : Address}
    (read : Address.ofText text = .ok address) :
    (link chain text hash).rowsAfter rows =
      if (contractKey chain address).hasBytes then rows.put (contractKey chain address) (.hash hash) else rows := by
  cases bytes : (contractKey chain address).hasBytes <;> simp [rowsAfter, empties, row?, read, bytes]

theorem rowsAfter_notLinked (rows : Table) (chain hash : Text) {text : Text} {fault : AddressFault}
    (read : Address.ofText text = .error fault) : (link chain text hash).rowsAfter rows = rows := by
  simp [rowsAfter, empties, row?, read]

theorem rowsAfter_of_changesNothing {call : StoreCall} (nothing : call.changesNothing) (rows : Table) :
    rowsAfter rows call = rows := by
  cases call with
  | save hash entries => rw [rowsAfter_save, if_neg (by simpa [changesNothing] using nothing)]
  | link chain text hash =>
    cases read : Address.ofText text with
    | error fault => exact rowsAfter_notLinked rows chain hash read
    | ok address => rw [rowsAfter_link rows chain hash read, if_neg (by simpa [changesNothing, read] using nothing)]
  | reset confirmed =>
    obtain rfl : confirmed = false := by simpa [changesNothing] using nothing
    rfl
  | load _ | seen _ | list | linked _ _ => rfl

end StoreCall

/-- The session after calls. -/
def afterCalls (s : Session) (calls : List StoreCall) : Session := calls.foldl StoreCall.after s

/-- The calls since the latest confirmed reset, the latest first. -/
def sinceReset (calls : List StoreCall) : List StoreCall := calls.reverse.takeWhile fun call => !call.empties

/-- The entries that have been saved last for a hash since the latest confirmed reset. -/
def latestSave (calls : List StoreCall) (hash : Text) : Option (List Abi.Entry) :=
  (sinceReset calls).findSome? fun call => (call.saves?.filter (·.1 = hash)).map Prod.snd

/-- The hash that a contract has been linked to last since the latest confirmed reset. -/
def latestLink (calls : List StoreCall) (chain : Text) (address : Address) : Option Text :=
  (sinceReset calls).findSome? (StoreCall.linksTo? chain address)

/-- The hashes for which entries have been saved since the latest confirmed reset, each once, in the order of the latest
saves. -/
def savedHashes (calls : List StoreCall) : List Text :=
  ((sinceReset calls).filterMap fun call => call.saves?.map Prod.fst).eraseDups.reverse

theorem sinceReset_concat (calls : List StoreCall) (call : StoreCall) :
    sinceReset (calls ++ [call]) = if call.empties then [] else call :: sinceReset calls := by
  unfold sinceReset
  rw [List.reverse_append, List.reverse_singleton, List.singleton_append, List.takeWhile_cons]
  cases call.empties <;> rfl

section Concat

variable {calls : List StoreCall} {call : StoreCall}

theorem latestSave_concat (kept : call.empties = false) (hash : Text) :
    latestSave (calls ++ [call]) hash = ((call.saves?.filter (·.1 = hash)).map Prod.snd).or (latestSave calls hash) := by
  unfold latestSave
  rw [sinceReset_concat, if_neg (by simp [kept]), List.findSome?_cons]
  cases (call.saves?.filter (·.1 = hash)).map Prod.snd <;> rfl

theorem latestLink_concat (kept : call.empties = false) (chain : Text) (address : Address) :
    latestLink (calls ++ [call]) chain address = (call.linksTo? chain address).or (latestLink calls chain address) := by
  unfold latestLink
  rw [sinceReset_concat, if_neg (by simp [kept]), List.findSome?_cons]
  cases call.linksTo? chain address <;> rfl

theorem savedHashes_concat (kept : call.empties = false) :
    savedHashes (calls ++ [call]) = match call.saves? with
      | some (hash, _) => (savedHashes calls).filter (fun other => !other == hash) ++ [hash]
      | none => savedHashes calls := by
  unfold savedHashes
  rw [sinceReset_concat, if_neg (by simp [kept]), List.filterMap_cons]
  cases call.saves? with
  | none => rfl
  | some saved =>
    obtain ⟨hash, entries⟩ := saved
    simp only [Option.map_some]
    rw [List.eraseDups_cons, List.reverse_cons, ← filter_eraseDups, List.filter_reverse]

end Concat

end Session

namespace Store.Table

theorem savedRow?_codeKey (hash : Text) (value : Value) : savedRow? (codeKey hash, value) = some (hash, value.toJson) := rfl

theorem saved_put_contractKey (t : Table) (chain : Text) (address : Address) (value : Value) :
    (t.put (contractKey chain address) value).saved = t.saved := by
  have others : (t.filter fun row => row.1 ≠ contractKey chain address).filterMap savedRow? = t.filterMap savedRow? := by
    rw [List.filterMap_filter]
    congr 1
    funext ⟨key, value⟩
    split
    · rfl
    next same =>
      obtain rfl : key = contractKey chain address := by simpa using same
      rfl
  unfold saved put
  rw [List.filterMap_append, others]
  exact List.append_nil _

theorem saved_put_codeKey (t : Table) (hash : Text) (value : Value) :
    (t.put (codeKey hash) value).saved = t.saved.filter (fun row => !row.1 == hash) ++ [(hash, value.toJson)] := by
  have others : (t.filter fun row => row.1 ≠ codeKey hash).filterMap savedRow? =
      (t.filterMap savedRow?).filter fun row => !row.1 == hash := by
    rw [List.filterMap_filter, List.filter_filterMap]
    congr 1
    funext ⟨key, value⟩
    by_cases code : codeMark.isPrefixOf key
    · obtain ⟨hash', rfl⟩ : ∃ hash', codeMark ++ hash' = key := List.isPrefixOf_iff_prefix.mp code
      have row : savedRow? (codeMark ++ hash', value) = some (hash', value.toJson) := savedRow?_codeKey hash' value
      rw [row]
      by_cases same : hash' = hash
      · simp [same, codeKey, Option.filter]
      · simp [same, codeKey, Option.filter]
    · have row : savedRow? (key, value) = none := if_neg code
      rw [row]
      simp
  unfold saved put
  rw [List.filterMap_append, others]
  rfl

end Store.Table

namespace Session

/-- A table that tells what calls have saved and linked since the latest confirmed reset. -/
structure Tells (calls : List StoreCall) (rows : Table) : Prop where
  entries : ∀ hash, rows.find? (codeKey hash) = (latestSave calls hash).map .entries
  links : ∀ chain address, address.Proper → (contractKey chain address).hasBytes →
    rows.find? (contractKey chain address) = (latestLink calls chain address).map .hash
  hashes : rows.saved.map Prod.fst = savedHashes calls
  listed : ∀ row ∈ rows.saved, (latestSave calls row.1).map Abi.entriesJson = some row.2

theorem linksTo?_of_ofText {text : Text} {address address' : Address} (read : Address.ofText text = .ok address)
    (proper : address'.Proper) (chain chain' hash : Text) :
    (StoreCall.link chain text hash).linksTo? chain' address' =
      if Text.upper chain = Text.upper chain' ∧ address = address' then some hash else none := by
  have same : address.bytes = address'.bytes ↔ address = address' :=
    ⟨Address.eq_of_bytes_eq (Address.proper_of_ofText read) proper, congrArg Address.bytes⟩
  unfold StoreCall.linksTo?
  dsimp only
  rw [read]
  simp only [same]

namespace Tells

variable {calls : List StoreCall} {rows : Table}

theorem nil : Tells [] [] := ⟨fun _ => rfl, fun _ _ _ _ => rfl, rfl, nofun⟩

theorem reset {call : StoreCall} (empties : call.empties) : Tells (calls ++ [call]) [] := by
  have nothing : sinceReset (calls ++ [call]) = [] := by rw [sinceReset_concat, if_pos empties]
  constructor
  case entries => intro hash; unfold latestSave; rw [nothing]; rfl
  case links => intro chain address _ _; unfold latestLink; rw [nothing]; rfl
  case hashes => unfold savedHashes; rw [nothing]; rfl
  case listed => nofun

/-- A call that saves nothing and links no contract that could be found. -/
theorem skip (tells : Tells calls rows) {call : StoreCall} (kept : call.empties = false) (saves : call.saves? = none)
    (links : ∀ chain address, address.Proper → (contractKey chain address).hasBytes → call.linksTo? chain address = none) :
    Tells (calls ++ [call]) rows := by
  constructor
  case entries => intro hash; rw [latestSave_concat kept, saves]; exact tells.entries hash
  case links =>
    intro chain address proper bytes
    rw [latestLink_concat kept, links chain address proper bytes]
    exact tells.links chain address proper bytes
  case hashes => rw [savedHashes_concat kept, saves]; exact tells.hashes
  case listed => intro row member; rw [latestSave_concat kept, saves]; exact tells.listed row member

theorem save (tells : Tells calls rows) (hash : Text) (entries : List Abi.Entry) (bytes : (codeKey hash).hasBytes) :
    Tells (calls ++ [.save hash entries]) (rows.put (codeKey hash) (.entries entries)) := by
  have saves : (StoreCall.save hash entries).saves? = some (hash, entries) := if_pos bytes
  have latest (hash' : Text) : latestSave (calls ++ [.save hash entries]) hash' =
      if hash = hash' then some entries else latestSave calls hash' := by
    rw [latestSave_concat rfl, saves]
    by_cases same : hash = hash' <;> simp [Option.filter, same]
  constructor
  case entries =>
    intro hash'
    rw [Table.find?_put, latest, tells.entries]
    by_cases same : hash = hash'
    · rw [if_pos (congrArg codeKey same), if_pos same]
      rfl
    · rw [if_neg fun keys => same (codeKey_injective keys), if_neg same]
  case links =>
    intro chain address proper bytes
    rw [Table.find?_put, if_neg (codeKey_ne_contractKey hash chain address), latestLink_concat rfl]
    exact tells.links chain address proper bytes
  case hashes =>
    rw [savedHashes_concat rfl, saves, Table.saved_put_codeKey, ← tells.hashes, List.map_append]
    dsimp only
    rw [List.filter_map]
    rfl
  case listed =>
    intro row member
    rw [Table.saved_put_codeKey] at member
    rw [latest]
    rcases List.mem_append.mp member with old | new
    · obtain ⟨old, other⟩ := List.mem_filter.mp old
      rw [if_neg fun same => by simp [same] at other]
      exact tells.listed row old
    · obtain rfl := List.mem_singleton.mp new
      rw [if_pos rfl]
      rfl

theorem link (tells : Tells calls rows) (chain hash : Text) {text : Text} {address : Address}
    (read : Address.ofText text = .ok address) :
    Tells (calls ++ [.link chain text hash]) (rows.put (contractKey chain address) (.hash hash)) := by
  constructor
  case entries =>
    intro hash'
    rw [Table.find?_put, if_neg (Ne.symm (codeKey_ne_contractKey hash' chain address)), latestSave_concat rfl]
    exact tells.entries hash'
  case links =>
    intro chain' address' proper bytes
    rw [Table.find?_put, latestLink_concat rfl, tells.links chain' address' proper bytes,
      linksTo?_of_ofText read proper]
    simp only [contractKey_eq_iff (Address.proper_of_ofText read) proper]
    split <;> rfl
  case hashes =>
    rw [savedHashes_concat rfl, Table.saved_put_contractKey]
    exact tells.hashes
  case listed =>
    intro row member
    rw [Table.saved_put_contractKey] at member
    rw [latestSave_concat rfl]
    exact tells.listed row member

/-- A call keeps the rows telling what the calls have done. -/
theorem step (tells : Tells calls rows) (call : StoreCall) : Tells (calls ++ [call]) (call.rowsAfter rows) := by
  cases call with
  | save hash entries =>
    rw [StoreCall.rowsAfter_save]
    split
    next bytes => exact tells.save hash entries bytes
    next without => exact tells.skip rfl (if_neg without) fun _ _ _ _ => rfl
  | link chain text hash =>
    cases read : Address.ofText text with
    | error fault =>
      rw [StoreCall.rowsAfter_notLinked rows chain hash read]
      exact tells.skip rfl rfl fun _ _ _ _ => by simp [StoreCall.linksTo?, read]
    | ok address =>
      rw [StoreCall.rowsAfter_link rows chain hash read]
      split
      next => exact tells.link chain hash read
      next without =>
        refine tells.skip rfl rfl fun chain' address' proper bytes => ?_
        rw [linksTo?_of_ofText read proper, if_neg]
        -- The contract that is linked cannot be found either, since it has the same key.
        rintro ⟨names, rfl⟩
        exact without ((contractKey_eq_iff proper proper).mpr ⟨names, rfl⟩ ▸ bytes)
  | reset confirmed =>
    cases confirmed with
    | true => exact reset rfl
    | false => exact tells.skip rfl rfl fun _ _ _ _ => rfl
  | load _ | seen _ | list | linked _ _ => exact tells.skip rfl rfl fun _ _ _ _ => rfl

end Tells

end Session

end AbiRecovery
