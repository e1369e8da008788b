import Std.Data.HashMap

/-!
# Maps that remember the order of insertion

The entries stand in the order in which their keys first came. Inserting an existing key changes the
value in place.
-/
namespace AbiRecovery

/-- A finite map as the list of its entries, oldest key first. -/
abbrev OrderedMap (κ ν : Type) : Type := List (κ × ν)

namespace OrderedMap

variable {κ ν : Type} [DecidableEq κ]

/-- Sets the value of a key; a new key comes last. -/
def insert : OrderedMap κ ν → κ → ν → OrderedMap κ ν
  | [], key, value => [(key, value)]
  | (k, v) :: rest, key, value =>
    if k = key then (k, value) :: rest else (k, v) :: insert rest key value

def get? : OrderedMap κ ν → κ → Option ν
  | [], _ => none
  | (k, v) :: rest, key => if k = key then some v else get? rest key

def contains (m : OrderedMap κ ν) (key : κ) : Bool := (m.get? key).isSome

def erase (m : OrderedMap κ ν) (key : κ) : OrderedMap κ ν := List.filter (fun entry => entry.1 ≠ key) m

/-- Inserts pairs from left to right: of several pairs with one key the first gives the place and the
last the value. -/
def ofList (pairs : List (κ × ν)) : OrderedMap κ ν :=
  pairs.foldl (fun m pair => insert m pair.1 pair.2) []

def keys (m : OrderedMap κ ν) : List κ := m.map Prod.fst

/-- The map arranged for look-up by hash. Of several entries with one key the first counts. -/
def index [Hashable κ] (m : OrderedMap κ ν) : Std.HashMap κ ν :=
  m.foldr (fun entry arranged => arranged.insert entry.1 entry.2) ∅

/-- Looking a key up in the arranged map is reading it from the map. -/
@[simp]
theorem getElem?_index [Hashable κ] (m : OrderedMap κ ν) (key : κ) : m.index[key]? = m.get? key := by
  induction m with
  | nil => simp [index, get?]
  | cons entry rest ih =>
    obtain ⟨k, v⟩ := entry
    have step : index ((k, v) :: rest) = (index rest).insert k v := rfl
    rw [step, Std.HashMap.getElem?_insert, ih]
    simp [get?]

/-- A key stands in the arranged map when it has a value. -/
@[simp]
theorem contains_index [Hashable κ] (m : OrderedMap κ ν) (key : κ) :
    m.index.contains key = m.contains key := by
  rw [Std.HashMap.contains_eq_isSome_getElem?, getElem?_index, contains]

/-- Reading after a write: the written key has the new value, every other key its old one. -/
theorem get?_insert (m : OrderedMap κ ν) (key k : κ) (value : ν) :
    (m.insert key value).get? k = if key = k then some value else m.get? k := by
  induction m with
  | nil => rfl
  | cons entry rest ih =>
    obtain ⟨k', v⟩ := entry
    by_cases h : k' = key
    · subst h
      by_cases hk : k' = k <;> simp [insert, get?, hk]
    · by_cases hk : k' = k
      · subst hk
        simp [insert, get?, h, Ne.symm h]
      · simp [insert, get?, h, hk, ih]

/-- Of two maps one after the other the front one is read first. -/
theorem get?_append (front back : OrderedMap κ ν) (key : κ) :
    get? (front ++ back) key = (front.get? key).or (back.get? key) := by
  induction front with
  | nil => rfl
  | cons entry rest ih =>
    obtain ⟨k, v⟩ := entry
    rw [List.cons_append]
    by_cases same : k = key
    · simp [get?, same]
    · simp [get?, same, ih]

/-- A key that is not in front is looked for, and put, behind. -/
theorem insert_append {front : OrderedMap κ ν} {key : κ} (absent : key ∉ front.keys) (back : OrderedMap κ ν) (value : ν) :
    insert (front ++ back) key value = front ++ back.insert key value := by
  induction front with
  | nil => rfl
  | cons entry rest ih =>
    obtain ⟨k, v⟩ := entry
    have parts : ¬key = k ∧ key ∉ keys rest := by simpa [keys] using absent
    rw [List.cons_append, insert, if_neg (Ne.symm parts.1), ih parts.2]
    rfl

/-- Reading what is left of a map: the keys that are kept have their values. -/
theorem get?_filter (m : OrderedMap κ ν) (kept : κ → Bool) (key : κ) :
    get? (m.filter fun entry => kept entry.1) key = if kept key then m.get? key else none := by
  induction m with
  | nil => simp [get?]
  | cons entry rest ih =>
    obtain ⟨k, v⟩ := entry
    by_cases same : k = key
    · subst same
      by_cases stays : kept k
      · simp [stays, get?]
      · simp [stays, ih]
    · by_cases stays : kept k
      · simp [stays, get?, same, ih]
      · simp [stays, get?, same, ih]

/-- Reading after a removal: the removed key has no value, every other key its old one. -/
theorem get?_erase (m : OrderedMap κ ν) (key k : κ) :
    (m.erase key).get? k = if key = k then none else m.get? k := by
  have left := get?_filter m (fun k => k ≠ key) k
  by_cases removed : key = k
  · simpa [erase, removed] using left
  · simpa [erase, removed, Ne.symm removed] using left

/-- Inserting pairs from left to right inserts the last one last. -/
theorem ofList_concat (pairs : List (κ × ν)) (key : κ) (value : ν) :
    ofList (pairs ++ [(key, value)]) = (ofList pairs).insert key value := by
  unfold ofList
  rw [List.foldl_append]
  rfl

/-- Only a map of no pairs is empty. -/
theorem isEmpty_ofList (pairs : List (κ × ν)) : List.isEmpty (ofList pairs) = pairs.isEmpty := by
  rcases List.eq_nil_or_concat pairs with rfl | ⟨before, ⟨key, value⟩, rfl⟩
  · rfl
  · rw [List.concat_eq_append, ofList_concat]
    cases ofList before with
    | nil => simp [insert]
    | cons entry rest =>
      obtain ⟨k, v⟩ := entry
      by_cases h : k = key <;> simp [insert, h]

/-- What is read is an entry. -/
theorem mem_of_get? {m : OrderedMap κ ν} {key : κ} {value : ν} (found : m.get? key = some value) :
    (key, value) ∈ m := by
  induction m with
  | nil => cases found
  | cons entry rest ih =>
    obtain ⟨k, v⟩ := entry
    by_cases h : k = key
    · subst h
      have same : v = value := by simpa [get?] using found
      exact List.mem_cons.mpr (Or.inl (by rw [same]))
    · have later : get? rest key = some value := by simpa [get?, h] using found
      exact List.mem_cons_of_mem _ (ih later)

/-- With distinct keys every entry is read. -/
theorem get?_of_mem {m : OrderedMap κ ν} {key : κ} {value : ν} (distinct : m.keys.Nodup)
    (member : (key, value) ∈ m) : m.get? key = some value := by
  induction m with
  | nil => cases member
  | cons entry rest ih =>
    obtain ⟨k, v⟩ := entry
    have parts := List.nodup_cons.mp distinct
    rcases List.mem_cons.mp member with first | later
    · cases first
      simp [get?]
    · have different : k ≠ key := by
        rintro rfl
        exact parts.1 (List.mem_map.mpr ⟨_, later, rfl⟩)
      simp [get?, different, ih parts.2 later]

/-- A new key comes last; the keys of a map stay in their order. -/
theorem keys_insert (m : OrderedMap κ ν) (key : κ) (value : ν) :
    (m.insert key value).keys = if key ∈ m.keys then m.keys else m.keys ++ [key] := by
  induction m with
  | nil => simp [insert, keys]
  | cons entry rest ih =>
    obtain ⟨k, v⟩ := entry
    unfold keys at ih ⊢
    by_cases h : k = key
    · subst h
      simp [insert]
    · by_cases member : key ∈ rest.map Prod.fst
      · simp [insert, h, Ne.symm h, ih, member]
      · simp [insert, h, Ne.symm h, ih, member]

theorem contains_iff_mem_keys {m : OrderedMap κ ν} {key : κ} : m.contains key ↔ key ∈ m.keys := by
  unfold contains keys
  induction m with
  | nil => simp [get?]
  | cons entry rest ih =>
    obtain ⟨k, v⟩ := entry
    by_cases same : k = key
    · simp [get?, same]
    · simp [get?, same, Ne.symm same, ih]

theorem nodup_keys_insert {m : OrderedMap κ ν} (distinct : m.keys.Nodup) (key : κ) (value : ν) :
    (m.insert key value).keys.Nodup := by
  rw [keys_insert]
  split
  · exact distinct
  next absent =>
    refine List.nodup_append.mpr ⟨distinct, List.nodup_cons.mpr ⟨List.not_mem_nil, List.nodup_nil⟩, ?_⟩
    intro k member last single
    rw [List.mem_singleton.mp single]
    rintro rfl
    exact absent member

/-- A key that is there gets its value in place; one that is not comes last. -/
theorem insert_eq {m : OrderedMap κ ν} (distinct : m.keys.Nodup) (key : κ) (value : ν) :
    m.insert key value = m.map (fun entry => (entry.1, if entry.1 = key then value else entry.2)) ++
      [(key, value)].filter fun pair => !m.contains pair.1 := by
  induction m with
  | nil => rfl
  | cons entry rest ih =>
    obtain ⟨k, v⟩ := entry
    obtain ⟨absent, distinct⟩ := List.nodup_cons.mp distinct
    by_cases same : k = key
    · subst same
      have others : ∀ entry ∈ rest, (entry.1, if entry.1 = k then value else entry.2) = id entry := by
        rintro ⟨k', v'⟩ member
        have other : k' ≠ k := by
          rintro rfl
          exact absent (List.mem_map.mpr ⟨_, member, rfl⟩)
        simp [other]
      rw [insert, if_pos rfl, List.map_cons, List.map_congr_left others, List.map_id]
      simp [contains, get?]
    · rw [insert, if_neg same, ih distinct]
      simp [List.filter_cons, contains, get?, same]

/-- Inserting pairs with distinct keys changes what is there in place; the other pairs come last, in their order. -/
theorem foldl_insert {m : OrderedMap κ ν} {pairs : List (κ × ν)} (distinct : m.keys.Nodup)
    (once : (pairs.map Prod.fst).Nodup) :
    pairs.foldl (fun m pair => insert m pair.1 pair.2) m =
      m.map (fun entry => (entry.1, (get? pairs entry.1).getD entry.2)) ++
        pairs.filter fun pair => !m.contains pair.1 := by
  induction pairs generalizing m with
  | nil => simp [get?]
  | cons pair pairs ih =>
    obtain ⟨key, value⟩ := pair
    obtain ⟨absent, once⟩ := List.nodup_cons.mp once
    have unread : get? pairs key = none := by
      cases found : get? pairs key with
      | none => rfl
      | some value => exact absurd (List.mem_map.mpr ⟨_, mem_of_get? found, rfl⟩) absent
    have replaced : ∀ entry ∈ m, ((fun entry : κ × ν => (entry.1, (get? pairs entry.1).getD entry.2)) ∘
        fun entry => (entry.1, if entry.1 = key then value else entry.2)) entry =
          (entry.1, (get? ((key, value) :: pairs) entry.1).getD entry.2) := by
      intro entry _
      by_cases same : entry.1 = key
      · simp [get?, same, unread]
      · simp [get?, same, Ne.symm same]
    have kept : ∀ pair ∈ pairs, (!(m.insert key value).contains pair.1) = !m.contains pair.1 := by
      rintro pair member
      have other : key ≠ pair.1 := by
        rintro rfl
        exact absent (List.mem_map.mpr ⟨_, member, rfl⟩)
      unfold contains
      rw [get?_insert, if_neg other]
    rw [List.foldl_cons, ih (nodup_keys_insert distinct key value) once, List.filter_congr kept, insert_eq distinct,
      List.map_append, List.map_map, List.map_congr_left replaced, List.append_assoc]
    by_cases known : m.contains key
    · simp [known]
    · simp [known, unread]

/-- Pairs with distinct keys are their own map. -/
theorem ofList_of_nodup {pairs : List (κ × ν)} (once : (pairs.map Prod.fst).Nodup) : ofList pairs = pairs := by
  exact (foldl_insert (m := []) List.nodup_nil once).trans (List.filter_eq_self.mpr fun _ _ => rfl)

end OrderedMap

end AbiRecovery
