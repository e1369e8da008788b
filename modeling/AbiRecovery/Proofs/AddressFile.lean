import AbiRecovery.Proofs.AddressRows
import AbiRecovery.Proofs.EncodedText
import AbiRecovery.Proofs.JsonPrinting
import AbiRecovery.Proofs.Samples

/-!
# Addresses in a file

A file of addresses is one of two kinds, rows or a JSON array of strings, and which of them it is is not said. Either way
the list that it means is loaded, whatever blanks are in the file, if its first item has the mark of hexadecimal digits
(`loadAddresses_of_lists`): rows are then no JSON, since a number ends before the mark does.
-/
namespace AbiRecovery

open Text

/-- Which texts mean a list of items. -/
inductive AddressList.Lists (t : Text) (items : List Text) : Prop where
  | rows {rows : List Text} (rowed : InRows t rows) (padded : Padded rows items)
  | array {values : List Text} (held : Json.Holds t (.arr (values.map .str))) (padded : Padded values items)

/-- Whether a text begins with the mark of hexadecimal digits. -/
def Text.IsMarked (t : Text) : Prop := ∃ rest, t = .char '0' :: .char 'x' :: rest ∨ t = .char '0' :: .char 'X' :: rest

/-! ## Line ends -/

namespace Text

variable {front t : Text} {symbol : Symbol}

/-- What is not blank is no part of a line end. -/
theorem unifyLineEnds_append_cons (kept : symbol.isIn isBlank = false) (front t : Text) :
    unifyLineEnds (front ++ symbol :: t) = unifyLineEnds front ++ symbol :: unifyLineEnds t := by
  have other : symbol ≠ .char '\r' ∧ symbol ≠ .char '\n' := by
    constructor <;> rintro rfl <;> cases kept
  have alone (symbol' : Symbol) (t : Text) (single : ∀ rest, symbol' = .char '\r' → t = .char '\n' :: rest → False) :
      unifyLineEnds (symbol' :: t) = (if symbol' = .char '\r' then .char '\n' else symbol') :: unifyLineEnds t := by
    rw [unifyLineEnds]
    exact single
  induction front using unifyLineEnds.induct with
  | case1 =>
    rw [List.nil_append, alone symbol t fun _ same _ => other.1 same, if_neg other.1]
    rfl
  | case2 rest ih =>
    rw [List.cons_append, List.cons_append, unifyLineEnds, ih]
    rfl
  | case3 first rest single ih =>
    have single' : ∀ rest', first = .char '\r' → rest ++ symbol :: t = .char '\n' :: rest' → False := by
      intro rest' same begins
      cases rest with
      | nil => exact other.2 (List.cons.inj begins).1
      | cons next rest => exact single rest same (by rw [(List.cons.inj begins).1])
    rw [List.cons_append, alone first _ single', ih, alone first rest single]
    rfl

theorem allBlank_unifyLineEnds (blank : front.AllBlank) : (unifyLineEnds front).AllBlank := by
  induction front using unifyLineEnds.induct with
  | case1 => exact blank
  | case2 rest ih =>
    obtain ⟨_, _, others⟩ : _ ∧ _ ∧ Text.AllBlank rest := by simpa [Text.AllBlank] using blank
    rw [unifyLineEnds]
    exact List.forall_mem_cons.mpr ⟨rfl, ih others⟩
  | case3 first rest single ih =>
    obtain ⟨own, others⟩ := List.forall_mem_cons.mp blank
    rw [unifyLineEnds]
    · refine List.forall_mem_cons.mpr ⟨?_, ih others⟩
      split
      · rfl
      · exact own
    · exact single

/-- What stands between the first and the last symbol that are not blank stays when the blanks are taken away. -/
theorem trim_unifyLineEnds {front inner back : Text} {first last : Symbol} (before : front.AllBlank)
    (first_kept : first.isIn isBlank = false) (last_kept : last.isIn isBlank = false) (after : back.AllBlank) :
    trim (unifyLineEnds (front ++ (first :: (inner ++ [last]) ++ back))) = unifyLineEnds (first :: (inner ++ [last])) := by
  have core : unifyLineEnds (first :: (inner ++ [last])) = first :: (unifyLineEnds inner ++ [last]) := by
    have whole := unifyLineEnds_append_cons first_kept [] (inner ++ [last])
    rwa [unifyLineEnds_append_cons last_kept inner []] at whole
  have compact : Compact (first :: (unifyLineEnds inner ++ [last])) := by
    refine ⟨List.cons_ne_nil _ _, ?_, ?_⟩
    · intro symbol found
      obtain rfl := Option.some.inj found
      exact first_kept
    · intro symbol found
      rw [← List.cons_append, List.getLast?_concat] at found
      obtain rfl := Option.some.inj found
      exact last_kept
  have framed : unifyLineEnds (front ++ (first :: (inner ++ [last]) ++ back)) =
      unifyLineEnds front ++ (first :: (unifyLineEnds inner ++ [last]) ++ unifyLineEnds back) := by
    rw [List.cons_append, List.append_assoc, List.singleton_append, unifyLineEnds_append_cons first_kept,
      unifyLineEnds_append_cons last_kept]
    simp
  rw [framed, core, trim_append_left (allBlank_unifyLineEnds before), trim_append_right (allBlank_unifyLineEnds after),
    compact.trim_eq]

end Text

namespace Json

open ReadState

variable {t : Text}

/-- Either symbol of a line end does the same anywhere, and another one after it does nothing. -/
theorem step_lineEnd (lexical : Lexical) :
    ∃ tokens, lexical.step (.char '\n') = (.between, tokens) ∧ lexical.step (.char '\r') = (.between, tokens) := by
  cases lexical <;> exact ⟨_, rfl, rfl⟩

/-- How lines end makes no difference to the reader. -/
theorem read_unifyLineEnds (t : Text) : read (unifyLineEnds t) = read t := by
  have any_state (lexical : Lexical) (P : Progress) :
      outcome ⟨lexical, P⟩ (unifyLineEnds t) = outcome ⟨lexical, P⟩ t := by
    induction t using unifyLineEnds.induct generalizing lexical P with
    | case1 => rfl
    | case2 rest ih =>
      obtain ⟨tokens, feed, carriage⟩ := step_lineEnd lexical
      have skipped : Lexical.between.step (.char '\n') = (.between, []) := rfl
      rw [unifyLineEnds, outcome_cons feed, ih, outcome_cons carriage, outcome_cons skipped]
      rfl
    | case3 symbol rest single ih =>
      obtain ⟨tokens, feed, carriage⟩ := step_lineEnd lexical
      rw [unifyLineEnds]
      · split
        next same =>
          subst same
          rw [outcome_cons feed, outcome_cons carriage, ih]
        next =>
          have stepped : lexical.step symbol = ((lexical.step symbol).1, (lexical.step symbol).2) := rfl
          rw [outcome_cons stepped, outcome_cons stepped, ih]
      · exact single
  exact any_state .between ⟨[], .value⟩

/-- A word that goes on after a leading zero with the letter of the mark is no number. -/
theorem wordToken_of_mark {letter : Char} (mark : letter = 'x' ∨ letter = 'X') (cs : List Char) :
    wordToken ('0' :: letter :: cs) = .fault .malformed := by
  have digit : '0'.isDigit := by decide
  rw [wordToken_of_unnamed fun name known => (unnamed_of_isDigit digit (letter :: cs) name known).1]
  rcases mark with rfl | rfl <;> rfl

/-- What begins with the mark of hexadecimal digits is no JSON text. -/
theorem read_of_isMarked (marked : t.IsMarked) : read t = .error .malformed := by
  obtain ⟨letter, mark, u, rfl⟩ : ∃ letter, (letter = 'x' ∨ letter = 'X') ∧ ∃ u, t = .char '0' :: .char letter :: u := by
    obtain ⟨u, rfl | rfl⟩ := marked
    · exact ⟨'x', Or.inl rfl, u, rfl⟩
    · exact ⟨'X', Or.inr rfl, u, rfl⟩
  obtain ⟨cs, rest, rfl, inside, follows⟩ := exists_word u
  have letter_inside : endsWord letter = false := by
    rcases mark with rfl | rfl <;> decide
  have inside' : ∀ c ∈ '0' :: letter :: cs, endsWord c = false :=
    List.forall_mem_cons.mpr ⟨by decide, List.forall_mem_cons.mpr ⟨letter_inside, inside⟩⟩
  show outcome ⟨.between, ⟨[], .value⟩⟩ (ofChars ('0' :: letter :: cs) ++ rest) = _
  rw [outcome_word (List.cons_ne_nil _ _) inside' follows, wordToken_of_mark mark]
  exact outcome_failed _ _ _ _

/-- What spells an array stands between brackets. -/
theorem exists_inner_of_spells {items : List Json} (spelled : Spells t (.arr items)) :
    ∃ inner, t = .char '[' :: (inner ++ [.char ']']) := by
  cases spelled with
  | @emptyArray gap blank => exact ⟨gap, rfl⟩
  | @array inner items inside => exact ⟨inner, rfl⟩

theorem allBlank_of_allTokenBlank {gap : Text} (blank : AllTokenBlank gap) : gap.AllBlank := by
  have each : ∀ c, isTokenBlank c → isBlank c := by
    intro c blank
    simp only [isTokenBlank, Bool.or_eq_true, decide_eq_true_eq] at blank
    rcases blank with ((rfl | rfl) | rfl) | rfl <;> rfl
  intro symbol member
  have own := blank symbol member
  cases symbol with
  | char c => exact each c own
  | half place => cases own

/-- An array is read from a text that holds it, without the blanks around it and however its lines end. -/
theorem read_trim_of_holds {items : List Json} (held : Holds t (.arr items)) :
    read (trim (unifyLineEnds t)) = .ok (.arr items) := by
  cases held with
  | framed before spelled after =>
    obtain ⟨inner, rfl⟩ := exists_inner_of_spells spelled
    rw [trim_unifyLineEnds (allBlank_of_allTokenBlank before) (by decide) (by decide) (allBlank_of_allTokenBlank after),
      read_unifyLineEnds]
    exact read_of_holds spelled.holds

end Json

namespace AddressList

variable {t core : Text} {items values rows : List Text}

/-- Rows of which the first that is not blank begins with the mark are no JSON text. -/
theorem read_of_inRows (rowed : InRows t rows) (padded : Padded rows (core :: items)) (marked : core.IsMarked) :
    Json.read (trim (unifyLineEnds t)) = .error .malformed := by
  obtain ⟨front, rest, before, rfl⟩ := exists_front_of_inRows rowed padded
  refine Json.read_of_isMarked ?_
  have begins {letter : Char} (kept : (Symbol.char letter).isIn isBlank = false) (u : Text) :
      ∃ v, trim (unifyLineEnds (front ++ .char '0' :: .char letter :: u)) = .char '0' :: .char letter :: v := by
    have zero_kept : (Symbol.char '0').isIn isBlank = false := by decide
    have after_zero : unifyLineEnds (.char letter :: u) = .char letter :: unifyLineEnds u :=
      unifyLineEnds_append_cons kept [] u
    rw [unifyLineEnds_append_cons zero_kept, after_zero, trim_append_left (allBlank_unifyLineEnds before),
      trim_cons zero_kept, rdropWhile_cons kept]
    exact ⟨_, rfl⟩
  have x_kept : (Symbol.char 'x').isIn isBlank = false := by decide
  have X_kept : (Symbol.char 'X').isIn isBlank = false := by decide
  obtain ⟨u, rfl | rfl⟩ := marked
  · obtain ⟨v, same⟩ := begins x_kept (u ++ rest)
    exact ⟨v, Or.inl same⟩
  · obtain ⟨v, same⟩ := begins X_kept (u ++ rest)
    exact ⟨v, Or.inr same⟩

/-- The list that a text means is read from it. -/
theorem ofText_of_lists (listed : Lists t (core :: items)) (compact : ∀ item ∈ core :: items, item.Compact)
    (marked : core.IsMarked) : ofText (unifyLineEnds t) = .ok (core :: items) := by
  unfold ofText
  dsimp only
  cases listed with
  | @rows rows rowed padded =>
    rw [read_of_inRows rowed padded marked]
    dsimp only
    rw [ofLines, nonBlank_lines_trim, nonBlank_lines_unifyLineEnds, nonBlank_lines_of_inRows rowed,
      nonBlank_of_padded padded compact]
  | @array values held padded =>
    have plain : (values.map Json.str).map Json.plain = values := by
      rw [List.map_map]
      exact List.map_id _
    rw [Json.read_trim_of_holds held]
    dsimp only
    rw [plain, nonBlank_of_padded padded compact]

end AddressList

namespace Tool

variable {s : Session} {path t : Text} {content : Bytes} {core : Text} {items : List Text}

theorem isPresent_of_read {files : FileTree} {location : Location} (held : files.read location = .ok content) :
    files.isPresent location = .ok true := by
  unfold FileTree.read at held
  unfold FileTree.isPresent
  split at held
  · cases held
  next found =>
    rw [found]
    rfl
  · cases held

/-- The addresses in a file that is there are those in its text. -/
theorem perform_loadAddresses (held : s.files.read (Location.ofText path) = .ok content)
    (encoded : encodeUtf8 t = .ok content) :
    perform (loadAddresses path) s = ((AddressList.ofText (unifyLineEnds t)).mapError .longInteger, s) := by
  unfold loadAddresses
  rw [perform_bind_ok (perform_get s)]
  dsimp only
  rw [isPresent_of_read held, perform_bind_ok (perform_ofExcept _ _ _), if_neg (by decide), held,
    perform_bind_ok (perform_ofExcept _ _ _), decodeUtf8_of_encodeUtf8 encoded,
    perform_bind_ok (perform_ofExcept _ _ _), perform_ofExcept]

/-- From a file that means a list, in rows or as a JSON array, the list is loaded: no item is lost, doubled, moved or changed,
and nothing else happens. -/
theorem loadAddresses_of_lists (listed : AddressList.Lists t (core :: items))
    (compact : ∀ item ∈ core :: items, item.Compact) (marked : core.IsMarked)
    (encoded : encodeUtf8 t = .ok content) (held : s.files.read (Location.ofText path) = .ok content) :
    perform (loadAddresses path) s = (.ok (core :: items), s) := by
  rw [perform_loadAddresses held encoded, AddressList.ofText_of_lists listed compact marked]
  rfl

open Sample

/-- Two items in rows, with blanks around them and line ends of both kinds. -/
def rowsContent : Bytes := [0x09, 0x0D, 0x0A, 0x20, 0x30, 0x78, 0x41, 0x20, 0x0A, 0x30, 0x62, 0x0D, 0x0A]

/-- The same items in a JSON array, with an empty one more and an escaped line end. -/
def arrayContent : Bytes :=
  [0x0A, 0x5B, 0x22, 0x22, 0x2C, 0x20, 0x22, 0x20, 0x30, 0x78, 0x41, 0x5C, 0x6E, 0x22, 0x2C, 0x20, 0x22, 0x30, 0x62, 0x22,
    0x5D]

/-- A session with both files. -/
def withBothKinds : Session :=
  withFile (withFile (.start (Settings.ofEnvironment []) .empty ⟨fun _ _ => .code []⟩ 0) "rows" rowsContent) "array"
    arrayContent

theorem loadAddresses_of_lists_of_two :
    perform (loadAddresses "rows") withBothKinds = (.ok ["0xA", "0b"], withBothKinds) ∧
      perform (loadAddresses "array") withBothKinds = (.ok ["0xA", "0b"], withBothKinds) := by
  have compact : ∀ item ∈ ([Text.ofString "0xA", Text.ofString "0b"] : List Text), item.Compact :=
    List.forall_mem_cons.mpr ⟨⟨by decide, by decide, by decide⟩,
      List.forall_mem_cons.mpr ⟨⟨by decide, by decide, by decide⟩, nofun⟩⟩
  have marked : Text.IsMarked "0xA" := ⟨"A", Or.inl rfl⟩
  constructor
  · have rowed : InRows (ofString "\t\r\n 0xA \n0b\r\n") ["\t", " 0xA ", "0b", ""] :=
      @InRows.pair "\t" _ _ (by decide) (@InRows.feed " 0xA " _ _ (by decide)
        (@InRows.pair "0b" _ _ (by decide) (.last (by decide))))
    have padded : Padded ["\t", " 0xA ", "0b", ""] ["0xA", "0b"] :=
      .blank (by decide) (@Padded.item " " "0xA" " " _ _ (by decide) (by decide)
        (@Padded.item "" "0b" "" _ _ (by decide) (by decide) (.blank (by decide) .nil)))
    have encoded : encodeUtf8 "\t\r\n 0xA \n0b\r\n" = .ok rowsContent := by decide
    exact loadAddresses_of_lists (.rows rowed padded) compact marked encoded (by rfl)
  · have known : Json.Exact (.arr ([ofString "", " 0xA\n", "0b"].map .str)) :=
      .arr (List.forall_mem_map.mpr fun _ _ => .str)
    have blank : Json.AllTokenBlank [.char '\n'] := List.forall_mem_cons.mpr ⟨rfl, nofun⟩
    have spelled := (Json.render_of_exact known).2.1.holds.blanks blank
    have encoded : encodeUtf8 ([.char '\n'] ++ Json.render .oneLine (.arr ([ofString "", " 0xA\n", "0b"].map .str))) =
        .ok arrayContent := by
      decide
    have padded : Padded ["", " 0xA\n", "0b"] ["0xA", "0b"] :=
      .blank (by decide) (@Padded.item " " "0xA" "\n" _ _ (by decide) (by decide)
        (@Padded.item "" "0b" "" _ _ (by decide) (by decide) .nil))
    exact loadAddresses_of_lists (.array spelled padded) compact marked encoded (by rfl)

end Tool

end AbiRecovery
