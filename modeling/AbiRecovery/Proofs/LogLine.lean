import AbiRecovery.Log.Record
import AbiRecovery.Proofs.Calendar
import AbiRecovery.Proofs.JsonDump

/-!
# Lines of log records

A record that a host can write is one line without control characters, which holds one object (`line_holds_items`), and
any other has no line. The members are told without a map: the first ones in their order, with what the writer gave under
the names of three of them, then what else the writer gave and is shown. So whatever the writer gives, it ends no line and
changes no member but those of its own names.
-/
namespace AbiRecovery.Log.Record

open Json

/-- The names of first members under which the writer may give another value. -/
def replacedNames : List Text := ["ts", "level", "logger"]

/-- The value under the name of a first member: what the writer gave under that name, else the record's own. -/
def valueOf (r : Record) (name : Text) (own : Json) : Json := (OrderedMap.get? r.extras name).getD own

/-- The first members, the one of an exception last. -/
def firstItems (r : Record) (time : Text) : List (Text × Json) :=
  ("ts", r.valueOf "ts" (.str time)) :: ("level", r.valueOf "level" (.str r.level.name)) ::
    ("logger", r.valueOf "logger" (.str r.logger)) :: ("msg", .str r.message) ::
    (r.exception?.map fun exception => (Text.ofString "exc_info", Json.str exception.report)).toList

/-- Whether an extra comes after the first members. -/
def isFurther (name : Text) : Bool := !hiddenNames.contains name && !replacedNames.contains name

/-- The members of the object that the line of a record holds, in order. -/
def items (r : Record) (time : Text) : List (Text × Json) :=
  r.firstItems time ++ r.extras.filter fun extra => isFurther extra.1

/-! ## The members -/

variable {r : Record} {time : Text}

theorem mem_keys_head {name : Text} :
    name ∈ OrderedMap.keys (r.head time) ↔
      name ∈ replacedNames ∨ name = "msg" ∨ r.exception?.isSome ∧ name = "exc_info" := by
  unfold OrderedMap.keys head replacedNames
  cases r.exception? <;> simp [or_assoc]

theorem nodup_keys_head : (OrderedMap.keys (r.head time)).Nodup := by
  have names : (["ts", "level", "logger", "msg", "exc_info"].map Text.ofString).Nodup := by decide
  unfold OrderedMap.keys head
  cases r.exception? with
  | none => exact names.sublist (List.sublist_append_left _ [Text.ofString "exc_info"])
  | some text => exact names

/-- What is shown and is not the name of a first member comes after these. -/
theorem not_contains_head_and (name : Text) :
    (!OrderedMap.contains (r.head time) name && !hiddenNames.contains name) = isFurther name := by
  unfold isFurther
  cases hidden : hiddenNames.contains name with
  | true => simp
  | false =>
    have own : name ≠ "msg" ∧ name ≠ "exc_info" := by
      constructor <;> rintro rfl <;> exact absurd hidden (by decide)
    have same : OrderedMap.contains (r.head time) name = replacedNames.contains name := by
      rw [Bool.eq_iff_iff, OrderedMap.contains_iff_mem_keys, mem_keys_head, List.contains_iff_mem]
      simp [own]
    simp [same]

/-- What replaces the value of a member is what the writer gave, if it is shown. -/
theorem get?_shown (name : Text) :
    OrderedMap.get? (r.extras.filter fun extra => !hiddenNames.contains extra.1) name =
      if hiddenNames.contains name then none else OrderedMap.get? r.extras name := by
  rw [OrderedMap.get?_filter r.extras (fun name => !hiddenNames.contains name) name]
  cases hiddenNames.contains name <;> rfl

/-- The first members with what replaces their values. -/
theorem map_head :
    (r.head time).map (fun entry => (entry.1,
        (OrderedMap.get? (r.extras.filter fun extra => !hiddenNames.contains extra.1) entry.1).getD entry.2)) =
      r.firstItems time := by
  simp only [get?_shown]
  unfold head firstItems valueOf
  cases r.exception? <;> rfl

/-- The members of a record are the first ones with what replaces them, and the further ones. -/
theorem members_eq_items (once : (r.extras.map Prod.fst).Nodup) : r.members time = r.items time := by
  have shown_once := once.sublist ((List.filter_sublist (p := fun extra => !hiddenNames.contains extra.1)).map Prod.fst)
  have further : ∀ extra ∈ r.extras,
      (!OrderedMap.contains (r.head time) extra.1 && !hiddenNames.contains extra.1) = isFurther extra.1 :=
    fun extra _ => not_contains_head_and extra.1
  unfold members items
  rw [OrderedMap.foldl_insert nodup_keys_head shown_once, map_head, List.filter_filter, List.filter_congr further]

/-- No two members have one name. -/
theorem nodup_items (once : (r.extras.map Prod.fst).Nodup) : ((r.items time).map Prod.fst).Nodup := by
  rw [← members_eq_items once]
  unfold members
  generalize r.extras.filter _ = extras
  have kept : (OrderedMap.keys (r.head time)).Nodup := nodup_keys_head
  generalize r.head time = first at kept ⊢
  induction extras generalizing first with
  | nil => exact kept
  | cons extra extras ih => exact ih _ (OrderedMap.nodup_keys_insert kept extra.1 extra.2)

/-- What holds of every text and of what the writer gave and is shown holds of all members, and not otherwise. -/
theorem forall_mem_items (once : (r.extras.map Prod.fst).Nodup) {p : Json → Prop} (text : ∀ t, p (.str t)) :
    (∀ entry ∈ r.items time, p entry.2) ↔ ∀ extra ∈ r.extras, hiddenNames.contains extra.1 = false → p extra.2 := by
  have replaced (name : Text) (own : Text) (given : ∀ extra ∈ r.extras, extra.1 = name → p extra.2) :
      p (r.valueOf name (.str own)) := by
    unfold valueOf
    cases found : OrderedMap.get? r.extras name with
    | none => exact text own
    | some value => exact given _ (OrderedMap.mem_of_get? found) rfl
  constructor
  · rintro each ⟨name, value⟩ given shown
    by_cases first : name ∈ replacedNames
    · have found : ∀ own, r.valueOf name own = value := fun own => by
        rw [valueOf, OrderedMap.get?_of_mem once given, Option.getD_some]
      simp only [replacedNames, List.mem_cons, List.not_mem_nil, or_false] at first
      obtain ⟨ts, level, logger, -⟩ : p (r.valueOf "ts" (.str time)) ∧ p (r.valueOf "level" (.str r.level.name)) ∧
          p (r.valueOf "logger" (.str r.logger)) ∧ _ := by
        simpa only [items, firstItems, List.cons_append, List.forall_mem_cons] using each
      rcases first with rfl | rfl | rfl
      · exact found _ ▸ ts
      · exact found _ ▸ level
      · exact found _ ▸ logger
    · have further : isFurther name = true := by
        unfold isFurther
        rw [shown]
        simpa using first
      exact each (name, value) (List.mem_append_right _ (List.mem_filter.mpr ⟨given, further⟩))
  · intro each
    have own (name : Text) (shown : hiddenNames.contains name = false) (own : Text) : p (r.valueOf name (.str own)) :=
      replaced name own fun extra given same => each extra given (same ▸ shown)
    refine List.forall_mem_append.mpr ⟨?_, fun extra member => ?_⟩
    · unfold firstItems
      simp only [List.forall_mem_cons]
      refine ⟨own _ (by decide) _, own _ (by decide) _, own _ (by decide) _, text _, ?_⟩
      intro entry member
      obtain ⟨exception, _, rfl⟩ := Option.map_eq_some_iff.mp (Option.mem_toList.mp member)
      exact text _
    · obtain ⟨given, further⟩ := List.mem_filter.mp member
      have seen : (!hiddenNames.contains extra.1) = true := (Bool.and_eq_true _ _ ▸ further).1
      exact each extra given (Bool.not_eq_true' _ ▸ seen)

/-! ## The line -/

/-- A record that a host can write: its time has a text there, its level is not too long to be told, and neither are the
numbers that are shown, and no shown value stands too deep in containers. -/
structure Writable (r : Record) (host : Host) : Prop where
  time : host.zone.Tells r.created
  level : IsShort r.level
  values : ∀ extra ∈ r.extras, hiddenNames.contains extra.1 = false → Exact extra.2 ∧ depth extra.2 ≤ host.nesting

theorem line_of_timestamp {zone : Zone} {clock : String} (shown : timestamp zone r.created = .ok clock) :
    r.line zone = .ok ((Json.obj (r.members clock)).render .oneLine) := by
  unfold line
  rw [shown]
  rfl

theorem writeFault?_eq_none_iff_shown (once : (r.extras.map Prod.fst).Nodup)
    (each : ∀ extra ∈ r.extras, Whole extra.2) (room : Nat) :
    r.writeFault? room = none ↔ IsShort r.level ∧
      ∀ extra ∈ r.extras, hiddenNames.contains extra.1 = false → Exact extra.2 ∧ depth extra.2 ≤ room := by
  have values : membersFault? room (r.members "") = none ↔
      ∀ extra ∈ r.extras, hiddenNames.contains extra.1 = false → Exact extra.2 ∧ depth extra.2 ≤ room := by
    rw [members_eq_items once, membersFault?_eq_none_iff,
      forall_mem_items (p := fun value => Json.writeFault? room value = none) once fun t => by rw [Json.writeFault?]]
    exact forall₂_congr fun extra given => imp_congr_right fun _ => Json.writeFault?_eq_none_iff (each extra given)
  unfold Record.writeFault?
  cases long : Text.isLong r.level with
  | true => exact iff_of_false (by simp) fun fits => absurd (isLong_eq_false_iff.mpr fits.1) (by simp [long])
  | false => exact values.trans (iff_and_self.mpr fun _ => isLong_eq_false_iff.mp long)

/-- A record that the host can write is one line, which has no control character and holds the members of the record and
nothing else; any other record has no line. -/
theorem line_holds_items (host : Host) (once : (r.extras.map Prod.fst).Nodup) (each : ∀ extra ∈ r.extras, Whole extra.2) :
    (r.Writable host →
      ∃ clock line, timestamp host.zone r.created = .ok clock ∧ r.format host = .ok line ∧ Visible line ∧
        Spells line (.obj (r.items clock)) ∧ read line = .ok (.obj (r.items clock)) ∧
        ((r.items clock).map Prod.fst).Nodup) ∧
      (¬r.Writable host → ∃ fault, r.format host = .error fault) := by
  have written := writeFault?_eq_none_iff_shown once each host.nesting
  constructor
  · intro writable
    obtain ⟨clock, shown⟩ := timestamp_of_tells writable.time
    have accepted : r.writeFault? host.nesting = none := written.mpr ⟨writable.level, writable.values⟩
    have values : ∀ entry ∈ r.items clock, Exact entry.2 :=
      (forall_mem_items once fun _ => .str).mpr fun extra given seen => (writable.values extra given seen).1
    obtain ⟨visible, spelled, held⟩ := render_of_exact (.obj values (nodup_items once))
    refine ⟨clock, _, shown, ?_, visible, spelled, held, nodup_items once⟩
    rw [format, line_of_timestamp shown, accepted, members_eq_items once]
    rfl
  · intro unwritable
    by_cases told : host.zone.Tells r.created
    · obtain ⟨clock, shown⟩ := timestamp_of_tells told
      have refused : r.writeFault? host.nesting ≠ none := fun accepted =>
        have ⟨level, values⟩ := written.mp accepted
        unwritable ⟨told, level, values⟩
      obtain ⟨fault, known⟩ := Option.ne_none_iff_exists'.mp refused
      refine ⟨.value fault, ?_⟩
      rw [format, line_of_timestamp shown, known]
      rfl
    · obtain ⟨fault, none_shown⟩ := timestamp_of_not_tells told
      refine ⟨.time fault, ?_⟩
      unfold format line
      rw [none_shown]
      rfl

/-- A record with a line end and a quote in the message, a time that the writer gives, an extra that is hidden and one with
values in it. -/
def quotedRecord : Record :=
  ⟨Level.info, "abiscan", "a\n\"b", [("ts", .str "x\x00"), ("taskName", .null),
    ("found", .obj [("n", .arr [.int (-7), .bool true])])], some ⟨"Traceback:\nValueError"⟩, 0⟩

/-- A host one hour ahead of UTC, where two containers can be written inside each other. -/
def hourAhead : Host := ⟨⟨fun _ => 3600⟩, 2⟩

theorem line_holds_items_of_quoted :
    ∃ line, quotedRecord.format hourAhead = .ok line ∧ Visible line ∧
      read line = .ok (.obj [("ts", .str "x\x00"), ("level", .str "INFO"), ("logger", .str "abiscan"),
        ("msg", .str "a\n\"b"), ("exc_info", .str "Traceback:\nValueError"),
        ("found", .obj [("n", .arr [.int (-7), .bool true])])]) := by
  have inner : Exact (.arr [.int (-7), .bool true]) :=
    .arr (List.forall_mem_cons.mpr ⟨.int (by unfold IsShort; decide), List.forall_mem_cons.mpr ⟨.bool, nofun⟩⟩)
  have outer : Exact (.obj [("n", .arr [.int (-7), .bool true])]) :=
    .obj (List.forall_mem_cons.mpr ⟨inner, nofun⟩) (by decide)
  have whole : ∀ extra ∈ quotedRecord.extras, Whole extra.2 := by
    have inner : Whole (.arr [.int (-7), .bool true]) :=
      .arr (List.forall_mem_cons.mpr ⟨.int, List.forall_mem_cons.mpr ⟨.bool, nofun⟩⟩)
    have outer : Whole (.obj [("n", .arr [.int (-7), .bool true])]) :=
      .obj (List.forall_mem_cons.mpr ⟨inner, nofun⟩) (by decide)
    exact List.forall_mem_cons.mpr ⟨.str, List.forall_mem_cons.mpr ⟨.null, List.forall_mem_cons.mpr ⟨outer, nofun⟩⟩⟩
  have writable : quotedRecord.Writable hourAhead := by
    refine ⟨⟨by decide, by decide, by decide⟩, by unfold IsShort; decide, ?_⟩
    exact List.forall_mem_cons.mpr ⟨fun _ => ⟨.str, by decide⟩, List.forall_mem_cons.mpr ⟨nofun,
      List.forall_mem_cons.mpr ⟨fun _ => ⟨outer, by decide⟩, nofun⟩⟩⟩
  obtain ⟨clock, line, _, made, visible, _, held, _⟩ :=
    (line_holds_items (r := quotedRecord) hourAhead (by decide) whole).1 writable
  exact ⟨line, made, visible, held⟩

/-- A record of the start of 1970 with one extra. -/
def recordOf (value : Json) : Record := ⟨Level.info, "abiscan", "t", [("n", value)], none, 0⟩

theorem format_recordOf {value : Json} {room : Nat} {fault : WriteFault} (refused : value.writeFault? room = some fault) :
    (recordOf value).format ⟨.utc, room⟩ = .error (.value fault) := by
  obtain ⟨clock, shown⟩ : ∃ clock, timestamp .utc (recordOf value).created = .ok clock :=
    timestamp_of_tells (show Zone.utc.Tells 0 from ⟨by decide, by decide, by decide⟩)
  have members : (recordOf value).members "" = [(("ts" : Text), .str ""), ("level", .str "INFO"),
    ("logger", .str "abiscan"), ("msg", .str "t"), ("n", value)] := rfl
  have known : (recordOf value).writeFault? room = some fault := by
    have level : Text.isLong (recordOf value).level = false :=
      isLong_eq_false_iff.mpr (show IsShort 20 by unfold IsShort; decide)
    rw [Record.writeFault?, level, members]
    simp [membersFault?, Json.writeFault?, refused]
  rw [format, line_of_timestamp shown, known]
  rfl

/-- An array in an array and so on. -/
def nested : Nat → Json
  | 0 => .arr []
  | n + 1 => .arr [nested n]

theorem writeFault?_nested (n : Nat) : (nested n).writeFault? n = some .tooDeep := by
  induction n with
  | zero => rw [nested, Json.writeFault?]
  | succ n ih => rw [nested, Json.writeFault?, itemsFault?, ih, Option.some_or]

/-- There is no line for a time in the year 3168875820, for a number with one digit too many and, however much room there
is for containers inside each other, for one container more. -/
theorem line_lost :
    Record.format ⟨Level.info, "abiscan", "t", [], none, 100000000000000000⟩ .plain = .error (.time .date) ∧
      (recordOf (.int Text.leastLong)).format .plain = .error (.value .longInteger) ∧
      ∀ room, (recordOf (nested room)).format ⟨.utc, room⟩ = .error (.value .tooDeep) := by
  refine ⟨rfl, format_recordOf ?_, fun room => format_recordOf (writeFault?_nested room)⟩
  have long : Text.isLong Text.leastLong = true := decide_eq_true (by rw [Int.natAbs_natCast])
  rw [Json.writeFault?, long]
  rfl

end AbiRecovery.Log.Record
