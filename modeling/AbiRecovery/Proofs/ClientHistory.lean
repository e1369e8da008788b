import AbiRecovery.Proofs.NodeTraffic

/-!
# One connection for each chain

A process fetches code, scans, and carries out requests and batches, while its settings and all that is outside of it
change. Whatever its history is, its connections and its questions are told by the fetches that have been attempted
(`Traffic.Accounts`): the first fetch that finds a chain makes the connection to it, all questions about the chain go over
that connection, and one question is asked for each fetch that finds its chain and has a contract. One fetch keeps this
account, so any number of fetches does; and every action is a list of fetches.
-/
namespace AbiRecovery

open Tool

/-- What a node is asked in a fetch: the name of the chain in upper case, and the contract. Nothing is asked if no chain is
found, or there is no contract. -/
def Fetch.question? (f : Fetch) : Option (Text × Address) :=
  if f.found?.isSome then f.contract?.map fun contract => (Text.upper f.chain, contract) else none

theorem Fetch.question?_of_found {f : Fetch} {found : Chain} (known : f.found? = some found) :
    f.question? = f.contract?.map fun contract => (found.name, contract) := by
  rw [question?, known, if_pos Option.isSome_some, name_of_found known]

/-- A call that asks a question over the connection to its chain. -/
structure Call.Asks (call : Call) (clients : OrderedMap Text Client) (question : Text × Address) : Prop where
  address : call.address = question.2
  client : OrderedMap.get? clients question.1 = some call.client

/-- Connections that come later do not matter to a call. -/
theorem Call.Asks.later {call : Call} {clients clients' : OrderedMap Text Client} {question : Text × Address}
    (asks : call.Asks clients question) (kept : clients <+: clients') : call.Asks clients' question where
  address := asks.address
  client := by
    obtain ⟨back, rfl⟩ := kept
    rw [OrderedMap.get?_append, asks.client, Option.some_or]

namespace Traffic

/-- The connections and the questions are those of a list of fetches. -/
structure Accounts (t : Traffic) (fetches : List Fetch) : Prop where
  /-- There is one connection for each name. -/
  distinct : t.clients.keys.Nodup
  /-- It has been made by the first fetch that found the chain, as the settings were then. -/
  made : ∀ name, OrderedMap.get? t.clients name = fetches.findSome? (·.clientFor? name)
  /-- Each fetch that found its chain and had a contract has asked once, over the connection to that chain. -/
  asked : List.Forall₂ (fun question call => call.Asks t.clients question) (fetches.filterMap Fetch.question?) t.calls

/-- With a list of fetches more, connections and questions have been added and none taken back, and the questions are those of the
fetches. -/
structure Grows (t : Traffic) (fetches : List Fetch) (t' : Traffic) : Prop where
  connected : t.clients <+: t'.clients
  asked : ∃ calls, t'.calls = t.calls ++ calls ∧
    List.Forall₂ (fun question call => call.Asks t'.clients question) (fetches.filterMap Fetch.question?) calls

variable {t t' t'' : Traffic} {fetches more : List Fetch}

/-! ## One fetch -/

/-- A fetch adds at most one connection, after those that there are. -/
theorem clients_prefix_fetch (t : Traffic) (f : Fetch) : t.clients <+: (t.fetch f).clients := by
  unfold fetch
  split
  · exact List.prefix_refl _
  next found _ =>
    split
    · exact List.prefix_refl _
    next new =>
      have absent : found.name ∉ t.clients.keys := by
        rw [← OrderedMap.contains_iff_mem_keys, OrderedMap.contains, new]
        exact Bool.false_ne_true
      have added := OrderedMap.insert_append absent [] (f.newClient found)
      rw [List.append_nil] at added
      exact ⟨_, added.symm⟩

theorem nodup_keys_fetch (distinct : t.clients.keys.Nodup) (f : Fetch) : (t.fetch f).clients.keys.Nodup := by
  unfold fetch
  split
  · exact distinct
  · split
    · exact distinct
    · exact OrderedMap.nodup_keys_insert distinct _ _

/-- A fetch asks what it has to ask, over the connection that there is then. -/
theorem grows_fetch (t : Traffic) (f : Fetch) : t.Grows [f] (t.fetch f) := by
  refine ⟨t.clients_prefix_fetch f, ?_⟩
  have questions : [f].filterMap Fetch.question? = f.question?.toList := by
    cases known : f.question? <;> simp [known]
  rw [questions]
  cases known : f.found? with
  | none =>
    unfold fetch Fetch.question?
    rw [known]
    exact ⟨[], (List.append_nil _).symm, .nil⟩
  | some found =>
    rw [Fetch.question?_of_found known]
    unfold fetch
    rw [known]
    dsimp only
    cases kept : OrderedMap.get? t.clients found.name with
    | some client =>
      refine ⟨_, rfl, ?_⟩
      cases f.contract? with
      | none => exact .nil
      | some contract => exact .cons ⟨rfl, kept⟩ .nil
    | none =>
      refine ⟨_, rfl, ?_⟩
      cases f.contract? with
      | none => exact .nil
      | some contract => exact .cons ⟨rfl, by rw [OrderedMap.get?_insert, if_pos rfl]⟩ .nil

/-! ## Any number of fetches -/

theorem Grows.refl (t : Traffic) : t.Grows [] t := ⟨List.prefix_refl _, [], (List.append_nil _).symm, .nil⟩

theorem Grows.trans (first : t.Grows fetches t') (second : t'.Grows more t'') : t.Grows (fetches ++ more) t'' := by
  obtain ⟨front, calls, asks⟩ := first.asked
  obtain ⟨back, calls', asks'⟩ := second.asked
  refine ⟨first.connected.trans second.connected, front ++ back, ?_, ?_⟩
  · rw [calls', calls, List.append_assoc]
  · rw [List.filterMap_append]
    exact List.rel_append (asks.imp fun _ _ asked => Call.Asks.later asked second.connected) asks'

theorem grows_foldl (t : Traffic) (fetches : List Fetch) : t.Grows fetches (fetches.foldl fetch t) := by
  induction fetches generalizing t with
  | nil => exact .refl t
  | cons f fetches ih => exact (t.grows_fetch f).trans (ih (t.fetch f))

/-- The connection that was there stays, and else the first one that is told to be made is made. -/
theorem get?_foldl (t : Traffic) (fetches : List Fetch) (name : Text) :
    OrderedMap.get? (fetches.foldl fetch t).clients name =
      (OrderedMap.get? t.clients name).or (fetches.findSome? (·.clientFor? name)) := by
  induction fetches generalizing t with
  | nil => exact Option.or_none.symm
  | cons f fetches ih =>
    rw [List.foldl_cons, ih, get?_fetch, Option.or_assoc, List.findSome?_cons]
    cases f.clientFor? name <;> rfl

theorem nodup_keys_foldl (t : Traffic) (distinct : t.clients.keys.Nodup) (fetches : List Fetch) :
    (fetches.foldl fetch t).clients.keys.Nodup := by
  induction fetches generalizing t with
  | nil => exact distinct
  | cons f fetches ih => exact ih _ (nodup_keys_fetch distinct f)

/-- Fetches from the beginning account for all connections and questions. -/
theorem accounts_foldl (fetches : List Fetch) : (fetches.foldl fetch ⟨[], []⟩).Accounts fetches where
  distinct := nodup_keys_foldl ⟨[], []⟩ List.nodup_nil fetches
  made := get?_foldl ⟨[], []⟩ fetches
  asked := by
    obtain ⟨calls, same, asks⟩ := (grows_foldl ⟨[], []⟩ fetches).asked
    rw [same]
    exact asks

end Traffic

namespace Session

/-- A step in the life of a process: it fetches code in one of four ways, or its settings and what is outside of it change. -/
inductive NodeUse where
  | change (settings : Settings) (files : FileTree) (network : Network) (clock : Int)
  | fetch (chain address : Text)
  | scan (chain address : Text) (save : Bool)
  | request (args : List Text)
  | batch (args : List Text)

namespace NodeUse

/-- The session after a step. -/
def after (s : Session) : NodeUse → Session
  | .change settings files network clock => { s with settings, files, network, clock }
  | .fetch chain address => (perform (fetchCode chain address) s).2
  | .scan chain address save => (perform (scanAddress chain address save) s).2
  | .request args => (perform (CommandLine.run args) s).2
  | .batch args => (perform (CommandLine.runBatch args) s).2

/-- The fetches of a step. -/
def fetches (s : Session) : NodeUse → List Fetch
  | .change .. => []
  | .fetch chain address | .scan chain address _ => [⟨s.settings, chain, contract? address⟩]
  | .request args => match CommandLine.Request.ofArguments args with
    | .ok r => r.fetches s.settings
    | .error _ => []
  | .batch args => match CommandLine.BatchRequest.ofArguments args with
    | .ok r => r.fetches s
    | .error _ => []

/-- A step does with nodes what its fetches do. -/
theorem traffic_after (s : Session) (use : NodeUse) :
    (use.after s).traffic = (use.fetches s).foldl Traffic.fetch s.traffic := by
  cases use with
  | change settings files network clock => rfl
  | fetch chain address =>
    exact (Ensures.iff_ends.mp (ensures_fetchCode chain address) s (.refl s)).traffic
  | scan chain address save =>
    exact (Ensures.iff_ends.mp (ensures_scanAddress chain address save) s (.refl s)).traffic
  | request args =>
    unfold after fetches CommandLine.run
    dsimp only
    cases CommandLine.Request.ofArguments args with
    | error refusal => cases refusal <;> rfl
    | ok r =>
      have ran := Ensures.iff_ends.mp (CommandLine.ensures_run r) s (.refl s)
      exact (Keeps.bind_ends ran fun n => Keeps.pure (CommandLine.Ending.finished n)).traffic
  | batch args =>
    unfold after fetches CommandLine.runBatch
    dsimp only
    cases CommandLine.BatchRequest.ofArguments args with
    | error refusal => cases refusal <;> rfl
    | ok r =>
      have ran := CommandLine.fetched_runBatchRequest r s
      exact (Keeps.bind_ends ran fun n => Keeps.pure (CommandLine.Ending.finished n)).traffic

end NodeUse

/-- The session after steps one after another. -/
def afterUses (s : Session) (uses : List NodeUse) : Session := uses.foldl NodeUse.after s

/-- The fetches of steps one after another. -/
def fetchesIn (s : Session) : List NodeUse → List Fetch
  | [] => []
  | use :: uses => use.fetches s ++ fetchesIn (use.after s) uses

theorem traffic_afterUses (s : Session) (uses : List NodeUse) :
    (s.afterUses uses).traffic = (s.fetchesIn uses).foldl Traffic.fetch s.traffic := by
  induction uses generalizing s with
  | nil => rfl
  | cons use uses ih =>
    rw [fetchesIn, List.foldl_append, ← use.traffic_after]
    exact ih (use.after s)

/-- In the whole life of a process at most one connection is made to each chain, by the first fetch that finds a node for it, with
the address and the time limit in the settings then; later settings change nothing about it. A node is asked once in every
fetch that finds a node for its chain and has an address, in whatever way the code is fetched and however the chain is
spelled, over the connection to the chain. So it goes on from every moment, and nothing is taken back. -/
theorem one_client_per_chain (s : Session) (uses : List NodeUse) :
    let start := { s with clients := [], calls := [] }
    let reached := start.afterUses uses
    reached.traffic.Accounts (start.fetchesIn uses) ∧
      ∀ more, reached.traffic.Grows (reached.fetchesIn more) (reached.afterUses more).traffic := by
  intro start reached
  constructor
  · rw [start.traffic_afterUses uses]
    exact Traffic.accounts_foldl _
  · intro more
    rw [reached.traffic_afterUses more]
    exact reached.traffic.grows_foldl _

/-- A connection is made also for a text that is no address, and it stays when there is another node. -/
example :
    let settings (uri : Text) := { Settings.ofEnvironment [] with nodes := [("ETH", uri)] }
    let s := Session.start (settings "old") .empty ⟨fun _ _ => .code []⟩ 0
    (s.afterUses [.fetch "eth" "no address", .change (settings "new") .empty ⟨fun _ _ => .failure ""⟩ 1,
      .fetch "Eth" "0x0000000000000000000000000000000000000000"]).calls.map Call.uri = ["old"] := by
  decide +kernel

end Session

end AbiRecovery
