import AbiRecovery.Proofs.CodeFile
import AbiRecovery.Session.AddressList

/-!
# Addresses one a line

Which list is left of a text of rows does not depend on which blanks stand around the rows and between them, nor on how
the rows end (`nonBlank_lines_of_inRows`). A line that is broken at two symbols instead of one is an empty line more, which
is dropped; so symbols can be looked at one by one.
-/
namespace AbiRecovery

namespace Text

/-- Whether a text is not empty and neither begins nor ends with a blank. -/
structure Compact (t : Text) : Prop where
  nonempty : t ≠ []
  first : ∀ symbol ∈ t.head?, symbol.isIn isBlank = false
  last : ∀ symbol ∈ t.getLast?, symbol.isIn isBlank = false

/-- Whether a text is one row, without what ends a line. -/
def OnOneLine (t : Text) : Prop := ∀ symbol ∈ t, symbol.isIn endsLine = false

instance (t : Text) : Decidable t.OnOneLine := inferInstanceAs (Decidable (∀ symbol ∈ t, _))

/-- A text by its rows, each but the last with a line feed after it, or a carriage return and a line feed. -/
inductive InRows : Text → List Text → Prop where
  | last {row : Text} (inside : row.OnOneLine) : InRows row [row]
  | feed {row t : Text} {rows : List Text} (inside : row.OnOneLine) (others : InRows t rows) :
      InRows (row ++ .char '\n' :: t) (row :: rows)
  | pair {row t : Text} {rows : List Text} (inside : row.OnOneLine) (others : InRows t rows) :
      InRows (row ++ .char '\r' :: .char '\n' :: t) (row :: rows)

/-- Which texts mean a list: each of its items has blanks around it or none, and other texts between are blank. -/
inductive Padded : List Text → List Text → Prop where
  | nil : Padded [] []
  | blank {t : Text} {texts items : List Text} (only : t.AllBlank) (others : Padded texts items) : Padded (t :: texts) items
  | item {front core back : Text} {texts items : List Text} (before : front.AllBlank) (after : back.AllBlank)
      (others : Padded texts items) : Padded ((front ++ core ++ back) :: texts) (core :: items)

/-! ## Blanks around a text -/

variable {front core back t : Text} {symbol : Symbol}

theorem trim_append_left (before : front.AllBlank) (t : Text) : trim (front ++ t) = trim t := by
  unfold trim trimOf
  rw [List.dropWhile_append_of_pos before]

theorem AllBlank.reverse (blank : t.AllBlank) : Text.AllBlank t.reverse :=
  fun symbol member => blank symbol (List.mem_reverse.mp member)

theorem trim_append_right (after : back.AllBlank) (t : Text) : trim (t ++ back) = trim t := by
  unfold trim trimOf
  rw [List.dropWhile_append]
  split
  next nothing =>
    rw [List.isEmpty_iff.mp nothing, List.dropWhile_eq_nil_iff.mpr after]
  next => rw [List.reverse_append, List.dropWhile_append_of_pos after.reverse]

theorem rdropWhile_cons (kept : symbol.isIn isBlank = false) (t : Text) :
    (symbol :: t).rdropWhile (Symbol.isIn isBlank) = symbol :: t.rdropWhile (Symbol.isIn isBlank) := by
  have single : [symbol].dropWhile (Symbol.isIn isBlank) = [symbol] :=
    List.dropWhile_cons_of_neg (by rw [kept]; exact Bool.false_ne_true)
  unfold List.rdropWhile
  rw [List.reverse_cons, List.dropWhile_append, single]
  split
  next nothing => rw [List.isEmpty_iff.mp nothing]; rfl
  next => rw [List.reverse_append]; rfl

/-- What begins with a symbol that is not blank keeps it. -/
theorem trim_cons (kept : symbol.isIn isBlank = false) (t : Text) :
    trim (symbol :: t) = symbol :: t.rdropWhile (Symbol.isIn isBlank) := by
  have started : (symbol :: t).dropWhile (Symbol.isIn isBlank) = symbol :: t :=
    List.dropWhile_cons_of_neg (by rw [kept]; exact Bool.false_ne_true)
  unfold trim trimOf
  rw [started]
  exact rdropWhile_cons kept t

theorem Compact.trim_eq (compact : core.Compact) : trim core = core := by
  obtain ⟨symbol, rest, rfl⟩ := List.exists_cons_of_ne_nil compact.nonempty
  have kept := compact.first symbol rfl
  rw [trim_cons kept, ← rdropWhile_cons kept, List.rdropWhile_eq_self_iff]
  intro nonempty
  rw [compact.last _ (List.getLast?_eq_some_getLast nonempty)]
  exact Bool.false_ne_true

end Text

namespace AddressList

open Text

/-! ## What is left of texts -/

variable {t front core back current : Text} {texts rows items : List Text}

theorem nonBlank_append (texts others : List Text) : nonBlank (texts ++ others) = nonBlank texts ++ nonBlank others := by
  unfold nonBlank
  rw [List.map_append, List.filter_append]

theorem nonBlank_cons (t : Text) (texts : List Text) : nonBlank (t :: texts) = nonBlank [t] ++ nonBlank texts :=
  nonBlank_append [t] texts

/-- Only what a text is without the blanks around it counts. -/
theorem nonBlank_congr {t u : Text} (same : trim t = trim u) : nonBlank [t] = nonBlank [u] := by
  unfold nonBlank
  rw [List.map_singleton, same, List.map_singleton]

theorem nonBlank_of_allBlank (blank : t.AllBlank) : nonBlank [t] = [] := by
  unfold nonBlank
  rw [List.map_singleton, trim_eq_nil_iff.mpr blank]
  rfl

theorem nonBlank_of_compact (compact : core.Compact) : nonBlank [core] = [core] := by
  unfold nonBlank
  rw [List.map_singleton, compact.trim_eq]
  exact List.filter_eq_self.mpr fun _ member => by
    rw [List.mem_singleton.mp member, List.isEmpty_eq_false_iff.mpr compact.nonempty]
    rfl

/-- The list that padded texts mean is left of them. -/
theorem nonBlank_of_padded (padded : Padded texts items) (compact : ∀ item ∈ items, item.Compact) : nonBlank texts = items := by
  induction padded with
  | nil => rfl
  | @blank t texts items only others ih => rw [nonBlank_cons, nonBlank_of_allBlank only, ih compact, List.nil_append]
  | @item front core back texts items before after others ih =>
    obtain ⟨first, rest⟩ := List.forall_mem_cons.mp compact
    have same : trim (front ++ core ++ back) = trim core := by
      rw [trim_append_right after, trim_append_left before]
    rw [nonBlank_cons, nonBlank_congr same, nonBlank_of_compact first, ih rest]
    rfl

/-! ## What is left of lines -/

theorem nonBlank_linesFrom_nil (current : Text) : nonBlank (linesFrom current []) = nonBlank [current.reverse] := by
  unfold linesFrom
  split
  next nothing =>
    rw [List.isEmpty_iff.mp nothing]
    rfl
  next => rfl

/-- One symbol: it ends the line that has begun, or goes on with it. -/
theorem nonBlank_linesFrom_cons (current : Text) (symbol : Symbol) (t : Text) :
    nonBlank (linesFrom current (symbol :: t)) =
      if symbol.isIn endsLine then nonBlank [current.reverse] ++ nonBlank t.lines
      else nonBlank (linesFrom (symbol :: current) t) := by
  by_cases two : symbol = .char '\r' ∧ ∃ rest, t = .char '\n' :: rest
  · obtain ⟨rfl, rest, rfl⟩ := two
    have ends : (Symbol.char '\r').isIn endsLine = true := rfl
    have after : nonBlank (lines (.char '\n' :: rest)) = nonBlank (lines rest) := nonBlank_cons [] (lines rest)
    rw [if_pos ends, after, linesFrom]
    exact nonBlank_cons current.reverse (lines rest)
  · have one : linesFrom current (symbol :: t) =
        if symbol.isIn endsLine then current.reverse :: linesFrom [] t else linesFrom (symbol :: current) t := by
      rw [linesFrom]
      rintro rest rfl rfl
      exact two ⟨rfl, rest, rfl⟩
    rw [one]
    split
    · rw [nonBlank_cons]
      rfl
    · rfl

/-- Blanks after the last line begin no item. -/
theorem nonBlank_linesFrom_append (after : back.AllBlank) (current t : Text) :
    nonBlank (linesFrom current (t ++ back)) = nonBlank (linesFrom current t) := by
  induction t generalizing current with
  | nil =>
    rw [List.nil_append, nonBlank_linesFrom_nil]
    induction back generalizing current with
    | nil => exact nonBlank_linesFrom_nil current
    | cons symbol back ih =>
      obtain ⟨first, rest⟩ := List.forall_mem_cons.mp after
      rw [nonBlank_linesFrom_cons]
      split
      · have nothing : nonBlank (lines back) = [] := ih rest []
        rw [nothing, List.append_nil]
      · have blank : Text.AllBlank [symbol] := List.forall_mem_cons.mpr ⟨first, nofun⟩
        rw [ih rest, List.reverse_cons]
        exact nonBlank_congr (trim_append_right blank current.reverse)
  | cons symbol t ih =>
    have others : nonBlank (lines (t ++ back)) = nonBlank (lines t) := ih []
    rw [List.cons_append, nonBlank_linesFrom_cons, nonBlank_linesFrom_cons, others, ih]

/-- Blanks at the beginning of a line do not count. -/
theorem nonBlank_linesFrom_blank (before : front.AllBlank) (current t : Text) :
    nonBlank (linesFrom (current ++ front) t) = nonBlank (linesFrom current t) := by
  have line (current : Text) : nonBlank [(current ++ front).reverse] = nonBlank [current.reverse] := by
    rw [List.reverse_append]
    exact nonBlank_congr (trim_append_left before.reverse current.reverse)
  induction t generalizing current with
  | nil => rw [nonBlank_linesFrom_nil, nonBlank_linesFrom_nil, line]
  | cons symbol t ih => rw [nonBlank_linesFrom_cons, nonBlank_linesFrom_cons, line, ← List.cons_append, ih]

/-- Blanks before the first line that counts end no item. -/
theorem nonBlank_lines_append (before : front.AllBlank) (t : Text) :
    nonBlank (lines (front ++ t)) = nonBlank t.lines := by
  have any_line (current : Text) (begun : current.AllBlank) :
      nonBlank (linesFrom current (front ++ t)) = nonBlank t.lines := by
    induction front generalizing current with
    | nil => exact nonBlank_linesFrom_blank begun [] t
    | cons symbol front ih =>
      obtain ⟨first, rest⟩ := List.forall_mem_cons.mp before
      rw [List.cons_append, nonBlank_linesFrom_cons]
      split
      · rw [nonBlank_of_allBlank begun.reverse, List.nil_append]
        exact ih rest [] nofun
      · exact ih rest (symbol :: current) (List.forall_mem_cons.mpr ⟨first, begun⟩)
  exact any_line [] nofun

/-- The blanks around a text do not count. -/
theorem nonBlank_lines_trim (t : Text) : nonBlank (lines (trim t)) = nonBlank t.lines := by
  obtain ⟨front, back, before, after, whole⟩ := exists_frame_trim t
  have framed : nonBlank (lines (front ++ trim t ++ back)) = nonBlank (lines (trim t)) := by
    rw [List.append_assoc, nonBlank_lines_append before]
    exact nonBlank_linesFrom_append after [] (trim t)
  rw [← framed, ← whole]

/-- Lines that end in one way instead of another are the same. -/
theorem nonBlank_lines_unifyLineEnds (t : Text) : nonBlank (lines (unifyLineEnds t)) = nonBlank t.lines := by
  have any_line (current : Text) : nonBlank (linesFrom current (unifyLineEnds t)) = nonBlank (linesFrom current t) := by
    induction t using unifyLineEnds.induct generalizing current with
    | case1 => rfl
    | case2 rest ih =>
      have ends : (Symbol.char '\n').isIn endsLine = true := rfl
      have others : nonBlank (lines (unifyLineEnds rest)) = nonBlank (lines rest) := ih []
      rw [unifyLineEnds, nonBlank_linesFrom_cons, if_pos ends, others, linesFrom]
      exact (nonBlank_cons current.reverse (lines rest)).symm
    | case3 symbol rest single ih =>
      have others : nonBlank (lines (unifyLineEnds rest)) = nonBlank (lines rest) := ih []
      rw [unifyLineEnds, nonBlank_linesFrom_cons, nonBlank_linesFrom_cons, others]
      · split
        next same =>
          subst same
          rfl
        next => rw [ih]
      · exact single
  exact any_line []

/-- A row goes on with the line that has begun. -/
theorem nonBlank_linesFrom_row {row : Text} (inside : row.OnOneLine) (current t : Text) :
    nonBlank (linesFrom current (row ++ t)) = nonBlank (linesFrom (row.reverse ++ current) t) := by
  induction row generalizing current with
  | nil => rfl
  | cons symbol row ih =>
    obtain ⟨first, rest⟩ := List.forall_mem_cons.mp inside
    rw [List.cons_append, nonBlank_linesFrom_cons, if_neg (Bool.eq_false_iff.mp first), ih rest, List.reverse_cons,
      List.append_assoc, List.singleton_append]

/-- What is left of the lines of a text is what is left of its rows. -/
theorem nonBlank_lines_of_inRows (rowed : InRows t rows) : nonBlank t.lines = nonBlank rows := by
  have row_end {row : Text} (inside : row.OnOneLine) {c : Char} (ends : endsLine c) (t : Text) :
      nonBlank (lines (row ++ .char c :: t)) = nonBlank [row] ++ nonBlank t.lines := by
    unfold lines
    rw [nonBlank_linesFrom_row inside, nonBlank_linesFrom_cons, List.append_nil, List.reverse_reverse]
    exact if_pos ends
  induction rowed with
  | @last row inside =>
    have whole := nonBlank_linesFrom_row inside [] []
    rwa [List.append_nil, List.append_nil, nonBlank_linesFrom_nil, List.reverse_reverse] at whole
  | @feed row t rows inside others ih => rw [row_end inside rfl, ih, ← nonBlank_cons]
  | @pair row t rows inside others ih =>
    have empty_row : nonBlank (lines (.char '\n' :: t)) = nonBlank t.lines := nonBlank_cons [] (lines t)
    rw [row_end inside rfl, empty_row, ih, ← nonBlank_cons]

/-- Only blanks stand before the first item. -/
theorem exists_front_of_inRows (rowed : InRows t rows) (padded : Padded rows (core :: items)) :
    ∃ front rest, Text.AllBlank front ∧ t = front ++ (core ++ rest) := by
  induction rowed with
  | last inside =>
    cases padded with
    | blank _ others => cases others
    | @item front _ back _ _ before _ _ => exact ⟨front, back, before, List.append_assoc _ _ _⟩
  | @feed row t rows inside others ih =>
    cases padded with
    | blank only padded =>
      obtain ⟨front, rest, before, rfl⟩ := ih padded
      refine ⟨row ++ .char '\n' :: front, rest, ?_, by simp⟩
      exact List.forall_mem_append.mpr ⟨only, List.forall_mem_cons.mpr ⟨by decide, before⟩⟩
    | @item front _ back _ _ before _ _ => exact ⟨front, back ++ .char '\n' :: t, before, by simp⟩
  | @pair row t rows inside others ih =>
    cases padded with
    | blank only padded =>
      obtain ⟨front, rest, before, rfl⟩ := ih padded
      refine ⟨row ++ .char '\r' :: .char '\n' :: front, rest, ?_, by simp⟩
      exact List.forall_mem_append.mpr
        ⟨only, List.forall_mem_cons.mpr ⟨by decide, List.forall_mem_cons.mpr ⟨by decide, before⟩⟩⟩
    | @item front _ back _ _ before _ _ => exact ⟨front, back ++ .char '\r' :: .char '\n' :: t, before, by simp⟩

end AddressList

end AbiRecovery
