import AbiRecovery.Proofs.NodeTraffic

/-!
# Listing chains and looking them up

The names of chains are raised to upper case where they are read, where the address of a node is read, and where a chain is
looked up, but not where the chains are listed. Raising twice is raising once, so the chains that are listed are those that
are found. The addresses of the nodes may be read again, from another environment and any number of times: the names stay,
and the last environment tells the addresses.
-/
namespace AbiRecovery

open Tool

namespace OrderedMap

variable {κ ν : Type} [DecidableEq κ]

/-- Where the keys tell the values, it does not matter how often a key is listed. -/
theorem get?_ofList_filterMap (value? : κ → Option ν) (keys : List κ) (key : κ) :
    get? (ofList (keys.filterMap fun k => (value? k).map fun value => (k, value))) key =
      if key ∈ keys then value? key else none := by
  induction keys using List.reverseRecOn with
  | nil => rfl
  | append_singleton keys last ih =>
    rw [List.filterMap_append]
    cases own : value? last with
    | none =>
      by_cases same : key = last
      · subst same
        simp [own, ih]
      · simp [own, ih, same]
    | some value =>
      rw [show List.filterMap (fun k => (value? k).map fun value => (k, value)) [last] = [(last, value)] by simp [own],
        ofList_concat, get?_insert, ih]
      by_cases same : last = key
      · subst same
        simp [own]
      · simp [same, Ne.symm same]

end OrderedMap

namespace Environment

/-- The names of the chains: the items of the list that are not blank, without the blanks around them, in upper case. -/
def chainNames (env : Environment) : List Text :=
  (((Text.splitAt ',' ((OrderedMap.get? env "CHAINS").getD "ETH")).map Text.trim).filter (· ≠ [])).map Text.upper

/-- The chain with a name, if the variable with its node is set and not empty. -/
def chain? (env : Environment) (name : Text) : Option Chain :=
  ((OrderedMap.get? env ("RPC_URI_" ++ name)).filter (· ≠ [])).map fun uri => ⟨name, uri⟩

theorem list_chains (env : Environment) : env.list "CHAINS" "ETH" = env.chainNames := by
  have nonempty (name : Text) : (!List.isEmpty name) = decide (name ≠ []) := by cases name <;> rfl
  unfold list items text value? chainNames
  simp only [nonempty]
  cases OrderedMap.get? env "CHAINS" <;> rfl

theorem upper_of_mem_chainNames {env : Environment} {name : Text} (member : name ∈ env.chainNames) :
    Text.upper name = name := by
  obtain ⟨item, -, rfl⟩ := List.mem_map.mp member
  exact Text.upper_upper item

theorem name_of_chain? {env : Environment} {name : Text} {chain : Chain} (known : env.chain? name = some chain) :
    chain.name = name := by
  obtain ⟨uri, -, rfl⟩ := Option.map_eq_some_iff.mp known
  rfl

end Environment

namespace Settings

/-- What is listed and what is found are the chains of a list of names that have a node in an environment. -/
structure ListsAndFinds (s : Settings) (names : List Text) (env : Environment) : Prop where
  chains : s.chains = names
  /-- No address of a node comes from anywhere else. -/
  nodes : ∀ name uri, OrderedMap.get? s.nodes name = some uri ↔ name ∈ names ∧ env.chain? name = some ⟨name, uri⟩
  listed : s.enabledChains = names.filterMap env.chain?
  found : ∀ name chain, s.chain? name = some chain ↔ chain ∈ s.enabledChains ∧ chain.name = Text.upper name
  /-- Every chain that is to be visited is found when code is fetched, and a new connection leads to its own node. -/
  fetched : ∀ name ∈ s.targetChains none, ∃ chain ∈ s.enabledChains, chain.name = name ∧ s.chain? name = some chain ∧
    ∀ (session : Session) (address : Text),
      OrderedMap.get? (perform (fetchCode name address) { session with settings := s }).2.clients name =
        some ((OrderedMap.get? session.clients name).getD ⟨chain.uri, s.nodeTimeout⟩)

variable {s : Settings} {env : Environment} {names : List Text}

theorem get?_nodesFor (raised : ∀ name ∈ names, Text.upper name = name) (name : Text) :
    OrderedMap.get? (nodesFor env names) name = if name ∈ names then (env.chain? name).map Chain.uri else none := by
  unfold nodesFor
  rw [OrderedMap.get?_ofList_filterMap]
  split
  next member =>
    unfold nodeUri? nodeVariable Environment.chain?
    rw [raised name member]
    cases OrderedMap.get? env ("RPC_URI_" ++ name) with
    | none => rfl
    | some uri => cases uri <;> rfl
  next => rfl

/-- A name finds its chain just if it is one of the names. -/
theorem exactChain?_eq (nodes : s.nodes = nodesFor env names) (raised : ∀ name ∈ names, Text.upper name = name) (name : Text) :
    s.exactChain? name = if name ∈ names then env.chain? name else none := by
  unfold exactChain?
  rw [nodes, get?_nodesFor raised]
  split
  next =>
    unfold Environment.chain?
    cases OrderedMap.get? env ("RPC_URI_" ++ name) with
    | none => rfl
    | some uri => cases uri <;> rfl
  next => rfl

/-- Fetching from a chain that is found uses the connection that there is, or one to its own node. -/
theorem get?_clients_fetchCode {name : Text} {chain : Chain} (known : s.chain? name = some chain)
    (raised : Text.upper name = name) (session : Session) (address : Text) :
    OrderedMap.get? (perform (fetchCode name address) { session with settings := s }).2.clients name =
      some ((OrderedMap.get? session.clients name).getD ⟨chain.uri, s.nodeTimeout⟩) := by
  have fetched := Ensures.iff_ends.mp (ensures_fetchCode name address) { session with settings := s } (.refl _)
  have clients := congrArg Traffic.clients fetched.traffic
  rw [List.nil_append, List.foldl_cons, List.foldl_nil] at clients
  refine (congrArg (OrderedMap.get? · name) clients).trans ?_
  rw [Traffic.get?_fetch]
  unfold Fetch.clientFor? Fetch.found? Fetch.newClient
  rw [if_pos raised, known]
  show (OrderedMap.get? session.clients name).or _ = _
  cases OrderedMap.get? session.clients name <;> rfl

/-- Settings whose nodes have been read for names in upper case list and find the same chains. -/
theorem ListsAndFinds.of_nodesFor (chains : s.chains = names) (nodes : s.nodes = nodesFor env names)
    (raised : ∀ name ∈ names, Text.upper name = name) : s.ListsAndFinds names env := by
  have exact := exactChain?_eq nodes raised
  have listed : s.enabledChains = names.filterMap env.chain? := by
    unfold enabledChains
    rw [chains]
    exact List.filterMap_congr fun name member => by rw [exact, if_pos member]
  have found (name : Text) (chain : Chain) :
      s.chain? name = some chain ↔ chain ∈ s.enabledChains ∧ chain.name = Text.upper name := by
    rw [listed, List.mem_filterMap]
    unfold chain?
    rw [exact]
    constructor
    · intro known
      obtain ⟨member, known⟩ := Option.ite_none_right_eq_some.mp known
      exact ⟨⟨_, member, known⟩, Environment.name_of_chain? known⟩
    · rintro ⟨⟨other, member, known⟩, named⟩
      obtain rfl : Text.upper name = other := named.symm.trans (Environment.name_of_chain? known)
      rw [if_pos member, known]
  refine ⟨chains, fun name uri => ?_, listed, found, fun name target => ?_⟩
  · rw [nodes, get?_nodesFor raised, Option.ite_none_right_eq_some]
    refine and_congr_right fun _ => ?_
    constructor
    · intro known
      obtain ⟨chain, here, rfl⟩ := Option.map_eq_some_iff.mp known
      rw [here, ← Environment.name_of_chain? here]
    · intro known
      rw [known]
      rfl
  · obtain ⟨chain, member, rfl⟩ := List.mem_map.mp target
    have raised : Text.upper chain.name = chain.name := by
      obtain ⟨name, named, known⟩ := List.mem_filterMap.mp (listed ▸ member)
      rw [Environment.name_of_chain? known]
      exact raised name named
    have known := (found chain.name chain).mpr ⟨member, raised.symm⟩
    exact ⟨chain, member, rfl, known, get?_clients_fetchCode known raised⟩

/-- Reading the nodes again and again keeps the names and forgets all environments but the last. -/
theorem foldl_reloadNodes (env : Environment) (later : List Environment) :
    (later.foldl reloadNodes (ofEnvironment env)).chains = env.chainNames ∧
      (later.foldl reloadNodes (ofEnvironment env)).nodes = nodesFor (later.getLast?.getD env) env.chainNames := by
  induction later using List.reverseRecOn with
  | nil => exact ⟨env.list_chains, congrArg (nodesFor env) env.list_chains⟩
  | append_singleton later last ih =>
    rw [List.foldl_append, List.foldl_cons, List.foldl_nil, List.getLast?_concat]
    exact ⟨ih.1, congrArg (nodesFor last) ih.1⟩

/-- In every environment the chains that are listed are those that are found, each with the address in its own variable;
and so it stays when the nodes are read again, any number of times, with the names of the first environment and the
addresses of the last. -/
theorem listed_chains_are_found (env : Environment) (later : List Environment) :
    (later.foldl reloadNodes (ofEnvironment env)).ListsAndFinds env.chainNames (later.getLast?.getD env) := by
  obtain ⟨chains, nodes⟩ := foldl_reloadNodes env later
  exact .of_nodesFor chains nodes fun _ => Environment.upper_of_mem_chainNames

/-- Of names that are listed twice, blank, or without a node. -/
example :
    (ofEnvironment [("CHAINS", " eth,,Bsc, eth,arb"), ("RPC_URI_ETH", "node"), ("RPC_URI_BSC", "")]).enabledChains =
      [⟨"ETH", "node"⟩, ⟨"ETH", "node"⟩] := by
  decide +kernel

end Settings

end AbiRecovery
