import AbiRecovery.FileTree.Store

/-!
# Settling a file

A file of which it has been noted that writes go straight into it says so on its first page, and when it is read
again there is nothing left to note.
-/
namespace AbiRecovery

namespace Database

theorem byteAt_eq (bytes : ByteArray) (place : Nat) :
    byteAt bytes place = ((bytes.data.toList[place]?).getD 0).toNat := by
  unfold byteAt
  split
  next inside =>
    rw [List.getElem?_eq_getElem (by simpa using inside)]
    rfl
  next outside =>
    rw [List.getElem?_eq_none (by simpa using Nat.le_of_not_lt outside)]
    rfl

theorem data_overwrite (bytes part : ByteArray) (place : Nat) :
    (overwrite bytes place part).data.toList =
      bytes.data.toList.take place ++ part.data.toList ++ bytes.data.toList.drop (place + part.size) := by
  have size : part.size = part.data.size := rfl
  unfold overwrite ByteArray.copySlice
  simp only [size, Nat.zero_add, Nat.sub_zero, Nat.min_self, Array.toList_append, Array.toList_extract,
    List.extract_eq_take_drop, List.drop_zero, ← Array.length_toList, List.take_length, ← List.length_drop]

theorem size_overwrite {bytes part : ByteArray} {place : Nat} (inside : place + part.size ≤ bytes.size) :
    (overwrite bytes place part).size = bytes.size := by
  have length := congrArg List.length (data_overwrite bytes part place)
  have size (b : ByteArray) : b.size = b.data.size := rfl
  simp only [List.length_append, List.length_take, List.length_drop, Array.length_toList, ← size] at length
  omega

/-- Bytes in front of what is written over stay. -/
theorem byteAt_overwrite_before {bytes part : ByteArray} {place i : Nat} (before : i < place) (inside : place ≤ bytes.size) :
    byteAt (overwrite bytes place part) i = byteAt bytes i := by
  have short : i < (bytes.data.toList.take place).length := by
    rw [List.length_take, Array.length_toList]
    exact Nat.lt_min.mpr ⟨before, Nat.lt_of_lt_of_le before inside⟩
  rw [byteAt_eq, byteAt_eq, data_overwrite, List.append_assoc, List.getElem?_append_left short,
    List.getElem?_take_of_lt before]

theorem size_fixed (width number : Nat) : (fixed width number).size = width := by
  unfold fixed ByteArray.size
  simp

/-- A byte that is written stands where it is written. -/
theorem byteAt_putNumber_one {bytes : ByteArray} {place : Nat} (inside : place < bytes.size) :
    byteAt (putNumber 1 bytes place 1) place = 1 := by
  have length : (bytes.data.toList.take place).length = place := by
    rw [List.length_take, Array.length_toList]
    exact Nat.min_eq_left (Nat.le_of_lt inside)
  unfold putNumber
  rw [byteAt_eq, data_overwrite, List.append_assoc, List.getElem?_append_right (Nat.le_of_eq length), length,
    Nat.sub_self]
  rfl

theorem putNumber_eq (width : Nat) (bytes : ByteArray) (place number : Nat) (inside : place + width ≤ bytes.size) :
    (putNumber width bytes place number).size = bytes.size ∧
      ∀ i < place, byteAt (putNumber width bytes place number) i = byteAt bytes i := by
  have inside' : place + (fixed width number).size ≤ bytes.size := by
    rw [size_fixed]
    exact inside
  exact ⟨size_overwrite inside', fun i before => byteAt_overwrite_before before (by omega)⟩

/-- A first page that says that writes go straight into the file. -/
structure SaysSettled (page : ByteArray) : Prop where
  room : descriptionSize ≤ page.size
  write : byteAt page Place.writeVersion = 1
  read : byteAt page Place.readVersion = 1

/-- What is noted further back on the page changes nothing about that. -/
theorem SaysSettled.putNumber {page : ByteArray} (tells : SaysSettled page) {place : Nat} (number : Nat)
    (back : Place.readVersion < place) (inside : place + 4 ≤ descriptionSize) :
    SaysSettled (putNumber 4 page place number) := by
  obtain ⟨size, same⟩ := putNumber_eq 4 page place number (Nat.le_trans inside tells.room)
  exact ⟨size ▸ tells.room, (same _ (Nat.lt_trans (by decide) back)).trans tells.write, (same _ back).trans tells.read⟩

/-- The first page of a draft says that writes go straight into the file. -/
def DraftSettled (d : Draft) : Prop := ∃ page, d.image.pages[0]? = some page ∧ SaysSettled page

theorem page_one {i : Image} {page : ByteArray} (first : i.pages[0]? = some page) : i.page 1 = page := by
  unfold Image.page
  rw [if_neg (by decide), Array.getD_eq_getD_getElem?, first]
  rfl

/-- An edit after which the first page still says so. -/
def KeepsSettled {α : Type} (x : Edit α) : Prop := ∀ d, DraftSettled d → DraftSettled (x.run d).2

theorem KeepsSettled.bind {α β : Type} {x : Edit α} {f : α → Edit β} (first : KeepsSettled x)
    (rest : ∀ a, KeepsSettled (f a)) : KeepsSettled (x >>= f) :=
  fun d settled => rest _ _ (first d settled)

theorem keepsSettled_get : KeepsSettled (get : Edit Draft) := fun _ settled => settled

theorem keepsSettled_numberOn (number place : Nat) : KeepsSettled (Edit.numberOn number place) := fun _ settled => settled

theorem keepsSettled_writeNumber {place : Nat} (number : Nat) (back : Place.readVersion < place)
    (inside : place + 4 ≤ descriptionSize) : KeepsSettled (Edit.writeNumber 1 place number) := by
  rintro d ⟨page, first, tells⟩
  refine ⟨Database.putNumber 4 page place number, ?_, tells.putNumber number back inside⟩
  show (d.image.pages.setIfInBounds 0 (Database.putNumber 4 (d.image.page 1) place number))[0]? = _
  rw [page_one first, Array.getElem?_setIfInBounds_self, if_pos]
  exact (Array.getElem?_eq_some_iff.mp first).1

theorem keepsSettled_countChange : KeepsSettled Edit.countChange :=
  (keepsSettled_numberOn _ _).bind fun _ =>
    (keepsSettled_writeNumber _ (by decide) (by decide)).bind fun _ =>
    (keepsSettled_writeNumber _ (by decide) (by decide)).bind fun _ =>
    (keepsSettled_writeNumber _ (by decide) (by decide)).bind fun _ =>
    keepsSettled_get.bind fun _ => keepsSettled_writeNumber _ (by decide) (by decide)

/-- A file of which that has been noted says so. -/
theorem settled_says {i : Image} {page : ByteArray} (first : i.pages[0]? = some page)
    (room : descriptionSize ≤ page.size) : ∃ page', i.settled.pages[0]? = some page' ∧ SaysSettled page' := by
  have inside : Place.writeVersion + 1 ≤ page.size := Nat.le_trans (by decide) room
  obtain ⟨size, -⟩ := putNumber_eq 1 page Place.writeVersion 1 inside
  have inside' : Place.readVersion + 1 ≤ (putNumber 1 page Place.writeVersion 1).size :=
    size ▸ Nat.le_trans (by decide) room
  obtain ⟨size', same⟩ := putNumber_eq 1 (putNumber 1 page Place.writeVersion 1) Place.readVersion 1 inside'
  have tells : SaysSettled (putNumber 1 (putNumber 1 page Place.writeVersion 1) Place.readVersion 1) :=
    { room := by rw [size', size]; exact room
      write := (same _ (by decide)).trans (byteAt_putNumber_one inside)
      read := byteAt_putNumber_one inside' }
  have begun : DraftSettled ((Edit.setBytes 1 (putNumber 1 (putNumber 1 (i.page 1) Place.writeVersion 1)
      Place.readVersion 1)).run ⟨i, []⟩).2 := by
    rw [page_one first]
    refine ⟨_, ?_, tells⟩
    show (i.pages.setIfInBounds 0 _)[0]? = _
    rw [Array.getElem?_setIfInBounds_self, if_pos (Array.getElem?_eq_some_iff.mp first).1]
  have ended := keepsSettled_countChange _ begun
  unfold Image.settled Image.edited Edit.settle
  exact ended

theorem toList_loop_eq (bytes : ByteArray) (i : Nat) (front : List UInt8) :
    ByteArray.toList.loop bytes i front = front.reverse ++ bytes.data.toList.drop i := by
  induction i, front using ByteArray.toList.loop.induct bytes with
  | case1 i front inside ih =>
    have inside' : i < bytes.data.toList.length := inside
    have get : bytes.get! i = bytes.data.toList[i] := by
      rw [Array.getElem_toList]
      exact getElem!_pos bytes.data i inside
    rw [ByteArray.toList.loop, if_pos inside, ih, List.drop_eq_getElem_cons inside', get, List.reverse_cons,
      List.append_assoc]
    rfl
  | case2 i front outside =>
    rw [ByteArray.toList.loop, if_neg outside, List.drop_eq_nil_of_le (Nat.le_of_not_lt outside), List.append_nil]

theorem toList_eq (bytes : ByteArray) : bytes.toList = bytes.data.toList := toList_loop_eq bytes 0 []

theorem head?_magic : magic.head? = some 0x53 := by decide +kernel

/-- What does not begin like a database is none. -/
theorem Image.ofFile_of_head? {content : Bytes} (other : content.head? ≠ magic.head?) :
    Image.ofFile content = .error .otherFormat := by
  obtain ⟨others, spelled⟩ := List.head?_eq_some_iff.mp head?_magic
  have first : byteAt ⟨content.toArray⟩ 0 ≠ (0x53 : UInt8).toNat := by
    rw [byteAt_eq]
    cases content with
    | nil => decide
    | cons byte content => exact fun same => other (by rw [head?_magic]; exact congrArg some (UInt8.toNat_inj.mp same))
  unfold Image.ofFile
  dsimp only
  rw [spelled, List.zipIdx_cons, List.all_cons, decide_eq_false first]
  simp only [Bool.false_and, Bool.false_eq_true, if_false]

theorem Image.ofFile_nil : Image.ofFile [] = .error .otherFormat :=
  Image.ofFile_of_head? (by rw [head?_magic]; nofun)

/-- The first of the pages into which bytes are cut begins like the bytes. -/
theorem cut_first {bytes : ByteArray} (nonempty : 0 < bytes.size) (pageSize : Nat) (positive : 0 < pageSize) :
    ∃ page, (cut pageSize bytes)[0]? = some page ∧ pageSize ≤ page.size ∧
      ∀ place < pageSize, byteAt page place = byteAt bytes place := by
  have count : 0 < (bytes.size + pageSize - 1) / pageSize := Nat.div_pos (by omega) positive
  refine ⟨part bytes 0 pageSize ++ zeros (pageSize - (part bytes 0 pageSize).size), ?_, ?_, fun place inside => ?_⟩
  · unfold cut
    rw [Array.getElem?_map, Array.getElem?_range, if_pos count]
    simp only [Option.map_some, Nat.zero_mul]
  · rw [ByteArray.size_append]
    have padding : (zeros (pageSize - (part bytes 0 pageSize).size)).size = pageSize - (part bytes 0 pageSize).size :=
      Array.size_replicate
    omega
  · have front : (part bytes 0 pageSize).data.toList = bytes.data.toList.take pageSize := by
      unfold part
      rw [ByteArray.data_extract, Nat.zero_add, Array.toList_extract, List.extract_eq_take_drop, List.drop_zero,
        Nat.sub_zero]
    rw [byteAt_eq, byteAt_eq, ByteArray.data_append, Array.toList_append, front]
    by_cases there : place < bytes.data.toList.length
    · rw [List.getElem?_append_left (by rw [List.length_take]; exact Nat.lt_min.mpr ⟨inside, there⟩),
        List.getElem?_take_of_lt inside]
    · have outside := Nat.le_of_not_lt there
      rw [List.getElem?_eq_none outside, List.getElem?_append_right (by rw [List.length_take]; omega)]
      unfold zeros
      rw [Array.toList_replicate, List.getElem?_replicate]
      split <;> rfl

/-- The first page of a file that is read begins like the file. -/
theorem Image.ofFile_first {file : Bytes} {i : Image} (read : Image.ofFile file = .ok i) :
    ∃ page, i.pages[0]? = some page ∧ 480 ≤ page.size ∧
      ∀ place < 480, byteAt page place = byteAt ⟨file.toArray⟩ place := by
  have nonempty : 0 < (⟨file.toArray⟩ : ByteArray).size := by
    refine Nat.pos_of_ne_zero fun empty => ?_
    have nil : file = [] := List.eq_nil_of_length_eq_zero empty
    rw [nil, Image.ofFile_nil] at read
    cases read
  unfold Image.ofFile at read
  dsimp only at read
  split at read
  next => cases read
  next pageSize told =>
    split at read
    · cases read
    · split at read
      · cases read
      next large =>
        split at read
        · cases read
        · obtain rfl := Except.ok.inj read
          obtain ⟨page, first, size, same⟩ := cut_first nonempty pageSize (by omega)
          refine ⟨page, ?_, by omega, fun place inside => same place (by omega)⟩
          have some_page : 0 < (toldPages? ⟨file.toArray⟩).getD (cut pageSize ⟨file.toArray⟩).size := by
            cases pages : toldPages? ⟨file.toArray⟩ with
            | none => exact (Array.getElem?_eq_some_iff.mp first).1
            | some count =>
              unfold toldPages? at pages
              dsimp only at pages
              split at pages
              next told =>
                have nonzero := (Bool.and_eq_true_iff.mp told).1
                cases pages
                exact Nat.pos_of_ne_zero (of_decide_eq_true nonzero)
              next => cases pages
          rw [Array.getElem?_extract, if_pos, Nat.zero_add]
          · exact first
          · have inside := (Array.getElem?_eq_some_iff.mp first).1
            omega

end Database

namespace FileTree

open Database

theorem settledBytes_nil : settledBytes [] = [] := by
  unfold settledBytes
  rw [Image.ofFile_nil]

/-- Bytes that are settled when they are read stay as they are. -/
theorem settledBytes_eq_self {content : Bytes} (settled : ∀ i, Image.ofFile content = .ok i → i.isSettled) :
    settledBytes content = content := by
  unfold settledBytes
  split
  next image read => rw [if_pos (settled image read)]
  next => rfl

/-- A file of which it has been noted that writes go straight into it is read as one that says so. -/
theorem isSettled_of_settled {content : Bytes} {i i' : Image} (read : Image.ofFile content = .ok i)
    (again : Image.ofFile i.settled.bytes = .ok i') : i'.isSettled := by
  obtain ⟨page, first, size, -⟩ := Image.ofFile_first read
  obtain ⟨page', first', tells⟩ := settled_says first (Nat.le_trans (by decide) size)
  obtain ⟨page'', first'', -, same⟩ := Image.ofFile_first again
  have front : ∀ place < descriptionSize, byteAt page'' place = byteAt page' place := by
    intro place inside
    rw [same place (Nat.lt_trans inside (by decide)), byteAt_eq, byteAt_eq]
    unfold Image.bytes
    obtain ⟨rest, pages⟩ : ∃ rest, i.settled.pages.toList = page' :: rest := by
      refine List.head?_eq_some_iff.mp ?_
      rw [List.head?_eq_getElem?, Array.getElem?_toList]
      exact first'
    rw [pages, List.flatMap_cons, toList_eq, List.getElem?_append_left]
    have room : place < page'.size := Nat.lt_of_lt_of_le inside tells.room
    simpa using room
  unfold Image.isSettled
  rw [page_one first'', front _ (by decide), front _ (by decide), tells.write, tells.read]
  rfl

/-- Settling twice is settling once. -/
theorem settledBytes_settledBytes (content : Bytes) : settledBytes (settledBytes content) = settledBytes content := by
  cases read : Image.ofFile content with
  | error fault =>
    have same : settledBytes content = content := settledBytes_eq_self fun i ok => by rw [read] at ok; cases ok
    rw [same, same]
  | ok i =>
    by_cases before : i.isSettled
    · have same : settledBytes content = content := settledBytes_eq_self fun i' ok => by
        rw [read] at ok
        exact Except.ok.inj ok ▸ before
      rw [same, same]
    · have changed : settledBytes content = i.settled.bytes := by
        unfold settledBytes
        rw [read]
        exact if_neg before
      rw [changed]
      exact settledBytes_eq_self fun _ again => isSettled_of_settled read again

end FileTree

end AbiRecovery
