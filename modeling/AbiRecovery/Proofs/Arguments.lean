import AbiRecovery.CommandLine.Request

/-!
# Reading a command line that saves

The command line that asks for the contract at an address of a chain to be scanned and saved, if it is accepted,
is read as just that request, whatever the address and the chain are. With its values joined to their options it is
always accepted, unless one of them is two dashes, which are no value there.
-/
namespace AbiRecovery.CommandLine

theorem noSwitch_eq_operand {arg text : Text} (read : noSwitch arg = .operand text) : text = arg := by
  unfold noSwitch at read
  split at read
  · exact (Item.operand.inj read).symm
  · cases read

theorem exactItem?_ne_operand (switches : List Switch) (stem text : Text) (attached : Option Text) :
    exactItem? switches stem attached ≠ some (.operand text) := by
  unfold exactItem?
  split
  · simp
  · split
    · simp
    · simp

theorem abbreviatedItem_eq_operand {switches : List Switch} {arg text : Text}
    (read : abbreviatedItem switches arg = .ok (.operand text)) : text = arg := by
  unfold abbreviatedItem at read
  dsimp only at read
  split at read
  · cases read
  · cases read
  · exact noSwitch_eq_operand (Except.ok.inj read)
  · cases read

/-- What is taken for an operand is the argument itself. -/
theorem classify_eq_operand {switches : List Switch} {arg text : Text}
    (read : classify switches arg = .ok (.operand text)) : text = arg := by
  unfold classify at read
  split at read
  · split at read
    next item found =>
      rw [Except.ok.inj read] at found
      exact (exactItem?_ne_operand _ _ _ _ found).elim
    next =>
      dsimp only at read
      split at read
      next item _ found =>
        rw [Except.ok.inj read] at found
        exact (exactItem?_ne_operand _ _ _ _ found).elim
      next =>
        split at read
        · cases read
        · split at read
          · exact abbreviatedItem_eq_operand read
          · split at read
            · cases read
            · exact noSwitch_eq_operand (Except.ok.inj read)
  · exact (Item.operand.inj (Except.ok.inj read)).symm

/-- An option that takes a text is followed by one. -/
theorem takeAll_switch {g : Grammar} {given : List (Text × Value)} {left : Bool} {name : Text} {item : Item}
    {items : List Item} {result : OrderedMap Text Value}
    (read : g.takeAll given left (.switch ⟨name, .text⟩ none :: item :: items) = .ok result) :
    ∃ text, item = .operand text := by
  cases item with
  | operand text => exact ⟨text, rfl⟩
  | _ => simp [Grammar.takeAll] at read

/-- An option that takes a text takes the next argument, which is not two dashes. -/
theorem read_text_option {g : Grammar} {given result : OrderedMap Text Value} {left : Bool} {name value : Text}
    {rest : List Text} (dashes : classify g.switches "--" = .ok .separator)
    (option : classify g.switches name = .ok (.switch ⟨name, .text⟩ none))
    (read : (classifyAll g.switches (name :: value :: rest) >>= g.takeAll given left) = .ok result) :
    ∃ given', g.take given name (.text value) = .ok given' ∧
      (classifyAll g.switches rest >>= g.takeAll given' left) = .ok result := by
  simp only [classifyAll, option, bind, Except.bind, pure, Except.pure, reduceCtorEq, if_false] at read
  cases kind : classify g.switches value with
  | error refusal => rw [kind] at read; cases read
  | ok item =>
    rw [kind] at read
    dsimp only at read
    by_cases separator : item = .separator
    · subst separator
      simp [Grammar.takeAll] at read
    · rw [if_neg separator] at read
      cases classified : classifyAll g.switches rest with
      | error refusal => rw [classified] at read; cases read
      | ok items =>
        rw [classified] at read
        obtain ⟨text, rfl⟩ := takeAll_switch read
        obtain rfl := classify_eq_operand kind
        have other : text ≠ "--" := by
          rintro rfl
          rw [dashes] at kind
          cases kind
        simp only [Grammar.takeAll, Takes.value, if_neg other, bind, Except.bind] at read
        cases taken : g.take given name (.text text) with
        | error refusal => rw [taken] at read; cases read
        | ok given' =>
          rw [taken] at read
          exact ⟨given', rfl, read⟩

variable {address chain : Text}

/-- The options of the command line that saves. -/
theorem given_saving {given : OrderedMap Text Value}
    (read : Command.abi.grammar.read ["--address", address, "--chain", chain, "--save"] = .ok given) :
    given = [(Text.ofString "--address", .text address), (Text.ofString "--chain", .text chain),
      (Text.ofString "--save", .nothing)] := by
  obtain ⟨given₁, taken, read⟩ := read_text_option (by rfl) (by rfl) read
  obtain rfl : [(Text.ofString "--address", Value.text address)] = given₁ := Except.ok.inj taken
  obtain ⟨given₂, taken, read⟩ := read_text_option (by rfl) (by rfl) read
  obtain rfl : [(Text.ofString "--address", Value.text address), (Text.ofString "--chain", .text chain)] = given₂ :=
    Except.ok.inj taken
  exact (Except.ok.inj read).symm

/-- The request of the command line that saves. -/
theorem ofArguments_saving {r : Request}
    (accepted : Request.ofArguments ["abi", "--address", address, "--chain", chain, "--save"] = .ok r) :
    r = ⟨.abi, .address (some address), some chain, true, .oneLine⟩ := by
  unfold Request.ofArguments at accepted
  have cut : cutCommand false ["abi", "--address", address, "--chain", chain, "--save"] =
      .ok (false, "abi", ["--address", address, "--chain", chain, "--save"]) := by rfl
  have known : Command.ofName? "abi" = some .abi := by decide
  simp only [cut, known, bind, Except.bind] at accepted
  cases read : Command.abi.grammar.read ["--address", address, "--chain", chain, "--save"] with
  | error refusal => rw [read] at accepted; cases accepted
  | ok given =>
    rw [read, given_saving read] at accepted
    exact (Except.ok.inj accepted).symm

/-- The same options, joined to their values by equals signs. -/
theorem given_joined (address_given : address ≠ "--") (chain_given : chain ≠ "--") :
    Command.abi.grammar.read ["--address=" ++ address, "--chain=" ++ chain, "--save"] =
      .ok [(Text.ofString "--address", .text address), (Text.ofString "--chain", .text chain),
        (Text.ofString "--save", .nothing)] := by
  have items : classifyAll Command.abi.grammar.switches ["--address=" ++ address, "--chain=" ++ chain, "--save"] =
      .ok [.switch ⟨"--address", .text⟩ (some address), .switch ⟨"--chain", .text⟩ (some chain),
        .switch ⟨"--save", .nothing⟩ none] := by rfl
  unfold Grammar.read
  rw [items]
  simp only [bind, Except.bind, Grammar.takeAll, Takes.value, if_neg address_given, if_neg chain_given]
  rfl

/-- The command line that saves is accepted with any values but two dashes, if they are joined to their options. -/
theorem ofArguments_joined (address_given : address ≠ "--") (chain_given : chain ≠ "--") :
    Request.ofArguments ["abi", "--address=" ++ address, "--chain=" ++ chain, "--save"] =
      .ok ⟨.abi, .address (some address), some chain, true, .oneLine⟩ := by
  have cut : cutCommand false ["abi", "--address=" ++ address, "--chain=" ++ chain, "--save"] =
      .ok (false, "abi", ["--address=" ++ address, "--chain=" ++ chain, "--save"]) := by rfl
  have known : Command.ofName? "abi" = some .abi := by decide
  unfold Request.ofArguments
  simp only [cut, known, bind, Except.bind, given_joined address_given chain_given]
  rfl

end AbiRecovery.CommandLine
