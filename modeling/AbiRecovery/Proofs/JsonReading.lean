import AbiRecovery.Proofs.JsonWord

/-!
# What the JSON reader takes

A text that holds a value is read as that value (`read_of_holds`), so it holds no other one. What has been read before a
token is finished lies in the lexical state alone, and what comes after a token finds the reader between tokens; so each
part of a text is read in front of any rest. A word ends only with what follows it, which therefore must not go on with
it.
-/
namespace AbiRecovery.Json

open Text

variable {P : Progress} {stack : List Frame} {acc t rest meant : Text} {value : Json}

/-- What comes of a text from a state on. -/
def ReadState.outcome (state : ReadState) (t : Text) : Except ReadFault Json := (t.foldl ReadState.step state).finish

open ReadState

/-- One symbol, by what it does to the lexical state. -/
theorem outcome_cons {lexical next : Lexical} {symbol : Text.Symbol} {tokens : List Token}
    (stepped : lexical.step symbol = (next, tokens)) :
    outcome ⟨lexical, P⟩ (symbol :: t) = outcome ⟨next, tokens.foldl Progress.step P⟩ t := by
  unfold outcome
  rw [List.foldl_cons, ReadState.step, stepped]

/-- After a fault nothing changes any more. -/
theorem outcome_failed (lexical : Lexical) (stack : List Frame) (fault : ReadFault) (t : Text) :
    outcome ⟨lexical, ⟨stack, .failed fault⟩⟩ t = .error fault := by
  have kept (tokens : List Token) (stack : List Frame) :
      ∃ stack', tokens.foldl Progress.step ⟨stack, .failed fault⟩ = ⟨stack', .failed fault⟩ := by
    induction tokens generalizing stack with
    | nil => exact ⟨stack, rfl⟩
    | cons token tokens ih => exact ih []
  induction t generalizing lexical stack with
  | nil =>
    obtain ⟨stack', same⟩ := kept lexical.finish stack
    unfold outcome ReadState.finish
    rw [List.foldl_nil, same]
  | cons symbol t ih =>
    obtain ⟨stack', same⟩ := kept (lexical.step symbol).2 stack
    have stepped : lexical.step symbol = ((lexical.step symbol).1, (lexical.step symbol).2) := rfl
    rw [outcome_cons stepped, same, ih]

/-! ## Blanks and words -/

/-- Blanks between tokens are skipped. -/
theorem outcome_blanks {gap : Text} (blank : AllTokenBlank gap) :
    outcome ⟨.between, P⟩ (gap ++ rest) = outcome ⟨.between, P⟩ rest := by
  induction gap with
  | nil => rfl
  | cons symbol gap ih =>
    obtain ⟨first, others⟩ := List.forall_mem_cons.mp blank
    cases symbol with
    | half place => cases first
    | char c =>
      have skipped : Lexical.between.step (.char c) = (.between, []) := if_pos first
      rw [List.cons_append, outcome_cons skipped]
      exact ih others

/-- Whether what follows a word does not go on with it. -/
def Follows (rest : Text) : Prop := ∀ c, rest.head? = some (.char c) → endsWord c

theorem follows_cons {c : Char} (ends : endsWord c) (rest : Text) : Follows (.char c :: rest) := by
  intro c' first
  obtain rfl := Text.Symbol.char.inj (Option.some.inj first)
  exact ends

theorem follows_nil : Follows [] := nofun

/-- Every text begins with characters of a word, perhaps none, up to what does not go on with it. -/
theorem exists_word (t : Text) :
    ∃ cs rest, t = ofChars cs ++ rest ∧ (∀ c ∈ cs, endsWord c = false) ∧ Follows rest := by
  induction t with
  | nil => exact ⟨[], [], rfl, nofun, follows_nil⟩
  | cons symbol t ih =>
    cases symbol with
    | half place => exact ⟨[], .half place :: t, rfl, nofun, nofun⟩
    | char c =>
      by_cases ends : endsWord c
      · exact ⟨[], .char c :: t, rfl, nofun, follows_cons ends t⟩
      · obtain ⟨cs, rest, rfl, inside, follows⟩ := ih
        exact ⟨c :: cs, rest, rfl, List.forall_mem_cons.mpr ⟨Bool.eq_false_iff.mpr ends, inside⟩, follows⟩

/-- A word that has begun is one token together with what goes on with it. -/
theorem outcome_word_from {begun cs : List Char} (inside : ∀ c ∈ cs, endsWord c = false) (follows : Follows rest) :
    outcome ⟨.word begun, P⟩ (ofChars cs ++ rest) =
      outcome ⟨.between, P.step (wordToken (begun.reverse ++ cs))⟩ rest := by
  induction cs generalizing begun with
  | nil =>
    rw [List.append_nil]
    cases rest with
    | nil => rfl
    | cons symbol rest =>
      cases symbol with
      | half place =>
        have stepped : Lexical.step (.word begun) (.half place) =
            (.between, [wordToken begun.reverse, .fault .malformed]) := rfl
        have between : Lexical.between.step (.half place) = (.between, [.fault .malformed]) := rfl
        show outcome _ (.half place :: rest) = _
        rw [outcome_cons stepped, outcome_cons between]
        rfl
      | char c =>
        have ends : (isTokenBlank c || c = '"' || (punctuation? c).isSome) = true := follows c rfl
        have stepped : Lexical.step (.word begun) (.char c) =
            ((betweenStep c).1, wordToken begun.reverse :: (betweenStep c).2) := if_pos ends
        show outcome _ (.char c :: rest) = _
        rw [outcome_cons stepped]
        rfl
  | cons c cs ih =>
    obtain ⟨first, others⟩ := List.forall_mem_cons.mp inside
    have stepped : Lexical.step (.word begun) (.char c) = (.word (c :: begun), []) :=
      if_neg (Bool.eq_false_iff.mp first)
    show outcome _ (.char c :: (ofChars cs ++ rest)) = _
    rw [outcome_cons stepped, List.foldl_nil, ih others, List.reverse_cons, ← List.append_cons]

/-- A word is one token. -/
theorem outcome_word {cs : List Char} (nonempty : cs ≠ []) (inside : ∀ c ∈ cs, endsWord c = false)
    (follows : Follows rest) :
    outcome ⟨.between, P⟩ (ofChars cs ++ rest) = outcome ⟨.between, P.step (wordToken cs)⟩ rest := by
  obtain ⟨c, cs, rfl⟩ := List.exists_cons_of_ne_nil nonempty
  obtain ⟨first, others⟩ := List.forall_mem_cons.mp inside
  obtain ⟨⟨blank, quote⟩, mark⟩ : (isTokenBlank c = false ∧ ¬c = '"') ∧ punctuation? c = none := by
    simpa [endsWord] using first
  have stepped : Lexical.between.step (.char c) = (.word [c], []) := by
    show betweenStep c = _
    unfold betweenStep
    rw [blank, mark, if_neg Bool.false_ne_true, if_neg quote]
  show outcome _ (.char c :: (ofChars cs ++ rest)) = _
  rw [outcome_cons stepped]
  exact outcome_word_from others follows

/-! ## Strings -/

/-- The digits of a numeric escape are read one by one. -/
theorem outcome_code {digits : List Char} {high : Option Nat} {begun missing : Nat} (hex : ∀ c ∈ digits, Hex.isDigit c)
    (width : digits.length = missing + 1) :
    outcome ⟨.code acc high begun (missing + 1), P⟩ (ofChars digits ++ rest) =
      outcome ⟨finishCode acc high
        (digits.foldl (fun number digit => 16 * number + (hexValue? digit).getD 0) begun), P⟩ rest := by
  induction digits generalizing begun missing with
  | nil => cases width
  | cons c digits ih =>
    obtain ⟨first, others⟩ := List.forall_mem_cons.mp hex
    obtain ⟨digit, known⟩ := Option.isSome_iff_exists.mp first
    have stepped : Lexical.step (.code acc high begun (missing + 1)) (.char c) =
        if missing + 1 = 1 then (finishCode acc high (16 * begun + digit), [])
        else (.code acc high (16 * begun + digit) missing, []) := by
      show codeStep acc high begun (missing + 1) c = _
      unfold codeStep
      rw [known]
      rfl
    show outcome _ (.char c :: (ofChars digits ++ rest)) = _
    rw [List.foldl_cons, known, Option.getD_some]
    cases missing with
    | zero =>
      obtain rfl := List.eq_nil_of_length_eq_zero (Nat.succ.inj width)
      rw [outcome_cons stepped]
      rfl
    | succ missing =>
      rw [outcome_cons stepped]
      exact ih others (Nat.succ.inj width)

/-- The four digits of a numeric escape finish it. -/
theorem outcome_unit {digits : List Char} {unit : Nat} (number : IsUnit digits unit) (high : Option Nat) :
    outcome ⟨.code acc high 0 4, P⟩ (ofChars digits ++ rest) = outcome ⟨finishCode acc high unit, P⟩ rest := by
  rw [outcome_code number.hex number.width, ← number.value]
  rfl

/-- A numeric escape inside a string. -/
theorem outcome_numericSpelling {digits : List Char} {unit : Nat} (number : IsUnit digits unit) :
    outcome ⟨.text acc, P⟩ (numericSpelling digits ++ rest) = outcome ⟨unpaired acc unit, P⟩ rest :=
  outcome_unit number none

/-- A numeric escape after one that may begin a pair. -/
theorem outcome_numericSpelling_pair {digits : List Char} {unit high : Nat} (number : IsUnit digits unit) :
    outcome ⟨.pair acc high, P⟩ (numericSpelling digits ++ rest) = outcome ⟨finishCode acc (some high) unit, P⟩ rest :=
  outcome_unit number (some high)

theorem finishCode_of_isLow {high low : Nat} (ends : IsLow low) :
    finishCode acc (some high) low = .text (.char (pairedChar high low) :: acc) := by
  unfold finishCode
  exact if_pos (by simpa [IsLow] using ends)

theorem finishCode_of_not_isLow {high unit : Nat} (other : ¬IsLow unit) :
    finishCode acc (some high) unit = unpaired (.ofNat high :: acc) unit := by
  unfold finishCode
  exact if_neg (by simpa [IsLow] using other)

/-- A letter after a backslash is a character. -/
theorem step_of_short {letter c : Char} (known : (letter, c) ∈ shortEscapes) (acc : Text) :
    Lexical.step (.escape acc) (.char letter) = (.text (.char c :: acc), []) ∧
      ∀ unit, Lexical.step (.pairEscape acc unit) (.char letter) = (.text (.char c :: .ofNat unit :: acc), []) := by
  have each : ∀ entry ∈ shortEscapes, entry.1 ≠ 'u' ∧ escapedChar? entry.1 = some entry.2 := by decide
  obtain ⟨other, escaped⟩ := each _ known
  have stepped (acc : Text) : escapeStep acc letter = (.text (.char c :: acc), []) := by
    unfold escapeStep
    rw [if_neg other, escaped]
  exact ⟨stepped acc, fun unit => (if_neg other).trans (stepped _)⟩

/-- After an escape that may begin a pair, and is not followed by one that ends it, a string goes on as after any other
symbol. -/
theorem outcome_pair {unit : Nat} (spelled : SpellsText t meant) (single : ¬BeginsLow t) :
    outcome ⟨.pair acc unit, P⟩ (t ++ .char '"' :: rest) =
      outcome ⟨.text (.ofNat unit :: acc), P⟩ (t ++ .char '"' :: rest) := by
  cases spelled with
  | nil => rfl
  | plain unquoted unescaped visible spelled =>
    rw [List.cons_append]
    exact outcome_cons (if_neg unescaped)
  | short known spelled =>
    show outcome ⟨.pairEscape acc unit, P⟩ (.char _ :: _) = outcome ⟨.escape (.ofNat unit :: acc), P⟩ (.char _ :: _)
    rw [outcome_cons ((step_of_short known acc).2 unit), outcome_cons (step_of_short known (.ofNat unit :: acc)).1]
  | unit number _ spelled =>
    have other : ¬IsLow _ := fun low => single ⟨_, _, _, number, low, rfl⟩
    rw [List.append_assoc, outcome_numericSpelling_pair number, outcome_numericSpelling number,
      finishCode_of_not_isLow other]
  | pair first begins second ends spelled =>
    have other : ¬IsLow _ := fun low => absurd begins.2 (Nat.not_lt_of_le low.1)
    rw [List.append_assoc, outcome_numericSpelling_pair first, outcome_numericSpelling first,
      finishCode_of_not_isLow other]

/-- What stands between quotes is read as the text that it means. -/
theorem outcome_text (spelled : SpellsText t meant) (acc : Text) :
    outcome ⟨.text acc, P⟩ (t ++ .char '"' :: rest) =
      outcome ⟨.between, P.step (.text (acc.reverse ++ meant))⟩ rest := by
  induction spelled generalizing acc with
  | nil =>
    rw [List.append_nil]
    rfl
  | @plain symbol t meant unquoted unescaped visible spelled ih =>
    have stepped : Lexical.step (.text acc) symbol = (.text (symbol :: acc), []) := by
      show textStep acc symbol = _
      unfold textStep
      rw [if_neg unquoted, if_neg unescaped, if_neg (Nat.not_lt_of_le visible)]
    rw [List.cons_append, outcome_cons stepped, List.foldl_nil, ih, List.reverse_cons, ← List.append_cons]
  | @short letter c t meant known spelled ih =>
    show outcome ⟨.escape acc, P⟩ (.char letter :: (t ++ .char '"' :: rest)) = _
    rw [outcome_cons (step_of_short known acc).1, List.foldl_nil, ih, List.reverse_cons, ← List.append_cons]
  | @unit digits unit t meant number single spelled ih =>
    rw [List.append_assoc, outcome_numericSpelling number]
    have goes_on : outcome ⟨unpaired acc unit, P⟩ (t ++ .char '"' :: rest) =
        outcome ⟨.text (.ofNat unit :: acc), P⟩ (t ++ .char '"' :: rest) := by
      unfold unpaired
      split
      next high => exact outcome_pair spelled (single (by simpa [IsHigh] using high))
      next => rfl
    rw [goes_on, ih, List.reverse_cons, ← List.append_cons]
  | @pair digits digits' high low t meant first begins second ends spelled ih =>
    have high_first : unpaired acc high = .pair acc high := if_pos (by simpa [IsHigh] using begins)
    rw [List.append_assoc, List.append_assoc, outcome_numericSpelling first, high_first,
      outcome_numericSpelling_pair second, finishCode_of_isLow ends, ih, List.reverse_cons, ← List.append_cons]

/-- A string in quotes is one token. -/
theorem outcome_quoted (spelled : SpellsText t meant) :
    outcome ⟨.between, P⟩ (.char '"' :: (t ++ .char '"' :: rest)) = outcome ⟨.between, P.step (.text meant)⟩ rest :=
  outcome_text spelled []

/-! ## Values -/

/-- What comes next where a value may begin. -/
def TakesValue (e : Expected) : Prop := e = .value ∨ e = .firstItem

/-- What comes next where a key may begin. -/
def TakesKey (e : Expected) : Prop := e = .key ∨ e = .firstKey

variable {e : Expected}

/-- A blank ends a word. -/
theorem Follows.blanks {gap : Text} (follows : Follows rest) (blank : AllTokenBlank gap) : Follows (gap ++ rest) := by
  cases gap with
  | nil => exact follows
  | cons symbol gap =>
    have first : symbol.isIn isTokenBlank := blank _ List.mem_cons_self
    cases symbol with
    | half place => cases first
    | char c => exact follows_cons (by simp only [endsWord, Bool.or_eq_true]; exact Or.inl (Or.inl first)) _

/-- A token where a value may begin begins one, unless it ends the array that has just been opened. -/
theorem step_of_takesValue (takes : TakesValue e) (token : Token) (opens : token ≠ .closeArray) :
    Progress.step ⟨stack, e⟩ token = Progress.begin stack token := by
  rcases takes with rfl | rfl
  · rfl
  · cases token with
    | closeArray => exact absurd rfl opens
    | _ => rfl

theorem outcome_openArray (takes : TakesValue e) :
    outcome ⟨.between, ⟨stack, e⟩⟩ (.char '[' :: t) = outcome ⟨.between, ⟨.array [] :: stack, .firstItem⟩⟩ t := by
  show outcome ⟨.between, Progress.step ⟨stack, e⟩ .openArray⟩ t = _
  rw [step_of_takesValue takes .openArray nofun]
  rfl

theorem outcome_openObject (takes : TakesValue e) :
    outcome ⟨.between, ⟨stack, e⟩⟩ (.char '\x7b' :: t) = outcome ⟨.between, ⟨.object [] none :: stack, .firstKey⟩⟩ t := by
  show outcome ⟨.between, Progress.step ⟨stack, e⟩ .openObject⟩ t = _
  rw [step_of_takesValue takes .openObject nofun]
  rfl

theorem step_key {done : List (Text × Json)} (takes : TakesKey e) :
    Progress.step ⟨.object done none :: stack, e⟩ (.text meant) = ⟨.object done (some meant) :: stack, .colon⟩ := by
  rcases takes with rfl | rfl <;> rfl

/-- A word that is a value is read as that value. -/
theorem outcome_scalar {cs : List Char} (nonempty : cs ≠ []) (inside : ∀ c ∈ cs, endsWord c = false)
    (meant : wordToken cs = .scalar value) (takes : TakesValue e) (follows : Follows rest) :
    outcome ⟨.between, ⟨stack, e⟩⟩ (ofChars cs ++ rest) = outcome ⟨.between, Progress.complete stack value⟩ rest := by
  rw [outcome_word nonempty inside follows, meant, step_of_takesValue takes (.scalar value) nofun]
  rfl

/-- A name that stands for a value is read as that value. -/
theorem outcome_named {name : String} (known : name ∈ namedWords) (meant : wordToken name.toList = .scalar value)
    (takes : TakesValue e) (follows : Follows rest) :
    outcome ⟨.between, ⟨stack, e⟩⟩ (ofString name ++ rest) = outcome ⟨.between, Progress.complete stack value⟩ rest := by
  have nonempty : ∀ name ∈ namedWords, name.toList ≠ [] := by decide
  exact outcome_scalar (nonempty name known) (endsWord_of_mem_name known) meant takes follows

/-- The key of a member, with the blanks around it, and the colon. -/
theorem outcome_key {front back : Text} {done : List (Text × Json)} (before : AllTokenBlank front)
    (inside : SpellsText t meant) (after : AllTokenBlank back) (takes : TakesKey e) :
    outcome ⟨.between, ⟨.object done none :: stack, e⟩⟩
        (front ++ .char '"' :: (t ++ .char '"' :: (back ++ .char ':' :: rest))) =
      outcome ⟨.between, ⟨.object done (some meant) :: stack, .value⟩⟩ rest := by
  rw [outcome_blanks before, outcome_quoted inside, step_key takes, outcome_blanks after]
  rfl

mutual

/-- A value is read as that value, in front of what does not go on with it. -/
theorem outcome_spells {t rest : Text} {value : Json} {stack : List Frame} {e : Expected} (spelled : Spells t value)
    (takes : TakesValue e) (follows : Follows rest) :
    outcome ⟨.between, ⟨stack, e⟩⟩ (t ++ rest) = outcome ⟨.between, Progress.complete stack value⟩ rest := by
  match spelled with
  | .null => exact outcome_named (by decide) rfl takes follows
  | .yes => exact outcome_named (by decide) rfl takes follows
  | .no => exact outcome_named (by decide) rfl takes follows
  | .int short =>
    exact outcome_scalar (toList_toString_ne_nil _) (endsWord_of_mem_toString _) (wordToken_toString short) takes follows
  | .str inside =>
    rw [List.cons_append, List.append_assoc, List.singleton_append, outcome_quoted inside,
      step_of_takesValue takes (.text _) nofun]
    rfl
  | .emptyArray blank =>
    rw [List.cons_append, List.append_assoc, List.singleton_append, outcome_openArray takes, outcome_blanks blank]
    rfl
  | .array inside =>
    rw [List.cons_append, List.append_assoc, List.singleton_append, outcome_openArray takes, outcome_items inside (Or.inr rfl)]
    rfl
  | .emptyObject blank =>
    rw [List.cons_append, List.append_assoc, List.singleton_append, outcome_openObject takes, outcome_blanks blank]
    rfl
  | .object inside distinct =>
    rw [List.cons_append, List.append_assoc, List.singleton_append, outcome_openObject takes,
      outcome_members inside (Or.inr rfl), List.reverse_nil, List.nil_append, OrderedMap.ofList_of_nodup distinct]
termination_by structural spelled

theorem outcome_holds {t rest : Text} {value : Json} {stack : List Frame} {e : Expected} (held : Holds t value)
    (takes : TakesValue e) (follows : Follows rest) :
    outcome ⟨.between, ⟨stack, e⟩⟩ (t ++ rest) = outcome ⟨.between, Progress.complete stack value⟩ rest := by
  match held with
  | .framed before inside after =>
    rw [List.append_assoc, List.append_assoc, outcome_blanks before, outcome_spells inside takes (follows.blanks after),
      outcome_blanks after]
termination_by structural held

theorem outcome_items {t rest : Text} {items done : List Json} {stack : List Frame} {e : Expected}
    (held : HoldsItems t items) (takes : TakesValue e) :
    outcome ⟨.between, ⟨.array done :: stack, e⟩⟩ (t ++ .char ']' :: rest) =
      outcome ⟨.between, Progress.complete stack (.arr (done.reverse ++ items))⟩ rest := by
  match held with
  | @HoldsItems.last _ item only =>
    rw [outcome_holds only takes (follows_cons rfl _)]
    show outcome ⟨.between, Progress.complete stack (.arr (item :: done).reverse)⟩ rest = _
    rw [List.reverse_cons]
  | @HoldsItems.more _ _ item _ first others =>
    rw [List.append_assoc, List.cons_append, outcome_holds first takes (follows_cons rfl _)]
    show outcome ⟨.between, ⟨.array (item :: done) :: stack, .value⟩⟩ _ = _
    rw [outcome_items others (Or.inl rfl), List.reverse_cons, ← List.append_cons]
termination_by structural held

theorem outcome_member {t rest : Text} {entry : Text × Json} {done : List (Text × Json)} {stack : List Frame}
    {e : Expected} (held : HoldsMember t entry) (takes : TakesKey e) (follows : Follows rest) :
    outcome ⟨.between, ⟨.object done none :: stack, e⟩⟩ (t ++ rest) =
      outcome ⟨.between, ⟨.object (entry :: done) none :: stack, .separator⟩⟩ rest := by
  match held with
  | .named before inside after held =>
    simp only [List.append_assoc, List.cons_append]
    rw [outcome_key before inside after takes, outcome_holds held (Or.inl rfl) follows]
    rfl
termination_by structural held

theorem outcome_members {t rest : Text} {members done : List (Text × Json)} {stack : List Frame} {e : Expected}
    (held : HoldsMembers t members) (takes : TakesKey e) :
    outcome ⟨.between, ⟨.object done none :: stack, e⟩⟩ (t ++ .char '\x7d' :: rest) =
      outcome ⟨.between, Progress.complete stack (.obj (OrderedMap.ofList (done.reverse ++ members)))⟩ rest := by
  match held with
  | .last only =>
    rw [outcome_member only takes (follows_cons rfl _), ← List.reverse_cons]
    rfl
  | @HoldsMembers.more _ _ entry _ first others =>
    rw [List.append_assoc, List.cons_append, outcome_member first takes (follows_cons rfl _)]
    show outcome ⟨.between, ⟨.object (entry :: done) none :: stack, .key⟩⟩ _ = _
    rw [outcome_members others (Or.inl rfl), List.reverse_cons, ← List.append_cons]
termination_by structural held

end

/-- A text that holds a value is read as that value. -/
theorem read_of_holds (held : Holds t value) : read t = .ok value := by
  have whole : read (t ++ []) = outcome ⟨.between, Progress.complete [] value⟩ [] :=
    outcome_holds held (Or.inl rfl) follows_nil
  rw [List.append_nil] at whole
  exact whole

end AbiRecovery.Json
