import ChangeFeed.Proofs.Json.Grammar
import ChangeFeed.Proofs.Rows.Lines
import Mathlib.Data.List.Induction
/-!
# Marks — a row stays an ordered map however often it is marked

A row may be marked any number of times and in any columns. `Marked` says
which columns it then has and what they hold, and one more mark keeps it: the
column stays where it is, or becomes the last. The line of the row reads as
that map wherever any text does. For a tree that was itself read this leaves
out one case: the tree has no columns and the first mark is of the key that
the reader reserves for numbers.
-/


namespace ChangeFeed

/-- **A mark** of a row in some column. -/
structure Mark where
  column : Text
  isDeleted : Bool
deriving Repr, DecidableEq

namespace Mark

/-- What the column then holds. -/
def value (mark : Mark) : Json := .string (RowFormat.signText mark.isDeleted)

/-- The last mark of a column. -/
def last? (column : Text) (marks : List Mark) : Option Mark :=
  marks.reverse.find? fun mark => mark.column = column

/-- The columns that are not among the names, in order of the first mark. -/
def newColumns (names : List Text) (marks : List Mark) : List Text :=
  ((marks.map column).removeAll names).eraseDups

variable {column : Text} {names : List Text} {marks : List Mark}

theorem last?_concat (mark : Mark) :
    last? column (marks ++ [mark]) =
      if mark.column = column then some mark else last? column marks := by
  rw [last?, List.reverse_concat, List.find?_cons]
  by_cases hcolumn : mark.column = column
  · simp [hcolumn]
  · simp [hcolumn, last?]

theorem head?_newColumns_nil (mark : Mark) :
    (newColumns [] (mark :: marks)).head? = some mark.column := by
  rw [newColumns, List.removeAll_nil, List.map_cons, List.eraseDups_cons, List.head?_cons]

/-- One more mark adds its column at the end, if it is new. -/
theorem newColumns_concat (mark : Mark) :
    newColumns names (marks ++ [mark]) =
      if mark.column ∈ names ++ newColumns names marks then newColumns names marks
      else newColumns names marks ++ [mark.column] := by
  have hsplit : ((marks ++ [mark]).map column).removeAll names =
      (marks.map column).removeAll names ++ [mark.column].removeAll names := by
    rw [List.map_append]
    exact List.filter_append ..
  rw [newColumns, hsplit, List.eraseDups_append, newColumns]
  generalize (marks.map column).removeAll names = earlier
  by_cases hold : mark.column ∈ names
  · simp [hold, List.removeAll]
  · by_cases hmarked : mark.column ∈ earlier
    · simp [hold, List.mem_eraseDups, hmarked, List.removeAll]
    · simp [hold, List.mem_eraseDups, hmarked, List.removeAll, List.eraseDups_cons]

end Mark

namespace Row

/-- Marks the row in turn. -/
def markAll (marks : List Mark) (row : Row) : Row :=
  marks.foldl (fun row mark => row.mark mark.column mark.isDeleted) row

/-- The columns of an image; no image has none. -/
def columnsOf (image : Option Json) : Members := image.elim [] Json.members

/-- **A row that marks have made of columns**: the new columns stand behind
the old ones, and a column that was marked holds what its last mark says. -/
structure Marked (columns : Members) (marks : List Mark) (row : Row) : Prop where
  names : row.names = columns.keys ++ Mark.newColumns columns.keys marks
  nodup : columns.keys.Nodup → row.names.Nodup
  get? : ∀ column,
    row.get? column = ((Mark.last? column marks).map Mark.value).or (columns.find? column)

variable {columns : Members} {marks : List Mark} {row : Row} {image : Option Json}

/-- A row without marks has the columns of its image. -/
theorem columns_of_ofImage (h : ofImage image = .ok row) : row.columns = columnsOf image := by
  unfold ofImage at h
  split at h <;> cases h <;> rfl

theorem marked_nil : Marked row.columns [] row where
  names := (List.append_nil row.columns.keys).symm
  nodup := id
  get? _ := rfl

/-- **One more mark.** -/
theorem Marked.mark (h : Marked columns marks row) (mark : Mark) :
    Marked columns (marks ++ [mark]) (row.mark mark.column mark.isDeleted) where
  names := by
    have hkeys : row.columns.keys = columns.keys ++ Mark.newColumns columns.keys marks := h.names
    rw [Row.names, Row.mark, Members.keys_put, hkeys, Mark.newColumns_concat]
    split
    · rfl
    · rw [List.append_assoc]
  nodup hnodup := Members.nodup_keys_put (h.nodup hnodup)
  get? column := by
    rw [Row.get?, Row.mark, Members.find?_put, Mark.last?_concat]
    split
    · rfl
    · exact h.get? column

/-- **However often a row is marked.** -/
theorem marked_markAll (marks : List Mark) (row : Row) :
    Marked row.columns marks (row.markAll marks) := by
  -- at the end of the list, where the mark stands that counts
  induction marks using List.reverseRecOn with
  | nil => exact marked_nil
  | append_singleton marks mark ih =>
    rw [markAll, List.foldl_append]
    exact ih.mark mark

/-- Marks keep a row readable. Only the first of them can come before all
columns. -/
theorem readable_markAll {room : Nat} (h : (Json.object row.columns).Readable (room + 1))
    (hfirst : row.columns = [] → ∀ mark ∈ marks.head?, mark.column ≠ Json.numeralKey) :
    (Json.object (row.markAll marks).columns).Readable (room + 1) := by
  induction marks generalizing row with
  | nil => exact h
  | cons mark rest ih =>
    -- behind the first mark the row has a column
    have hmark : row.columns = [] → mark.column ≠ Json.numeralKey :=
      fun hnone => hfirst hnone mark rfl
    exact ih (readable_mark h hmark) fun hnone =>
      absurd hnone (Members.put_ne_nil mark.column _ row.columns)

/-- The columns of a tree that was read are readable. -/
theorem readable_columnsOf
    (himage : ∀ value ∈ image, ∃ text, Json.read? text = some value)
    (h : ofImage image = .ok row) : (Json.object row.columns).Readable Json.maxDepth := by
  have hempty : (Json.object []).Readable Json.maxDepth := .object Members.keyed_nil nofun
  unfold ofImage at h
  split at h
  case h_1 =>
    cases h
    exact hempty
  case h_2 =>
    cases h
    exact hempty
  case h_3 columns =>
    cases h
    obtain ⟨text, hread⟩ := himage _ rfl
    exact Json.readable_of_read? hread
  case h_4 => cases h

/-- A line reads as its row if any text does. -/
theorem read?_line {text : Text} (h : Json.read? text = some (.object row.columns)) :
    Json.read? row.line = some (.object row.columns) :=
  Json.read?_write (Json.readable_of_read? h)

/-- **Whether the line of a marked row reads as the row.** -/
theorem read?_line_markAll_iff (h : (Json.object row.columns).Readable Json.maxDepth) :
    Json.read? (row.markAll marks).line = some (.object (row.markAll marks).columns) ↔
      (row.columns = [] → ∀ mark ∈ marks.head?, mark.column ≠ Json.numeralKey) := by
  constructor
  · -- what is read never begins with the reserved key
    rintro hread hnone mark hmark hkey
    obtain ⟨rest, rfl⟩ := List.head?_eq_some_iff.1 hmark
    have hfirst := (Json.readable_of_read? hread).of_object.1.first
    have hnames := (marked_markAll (mark :: rest) row).names
    refine hfirst ?_
    show (row.markAll (mark :: rest)).names.head? = _
    rw [hnames, hnone, ← hkey]
    exact Mark.head?_newColumns_nil mark
  · exact fun hfirst => Json.read?_write (readable_markAll h hfirst)

/-- **Marks keep a row an ordered map**, whatever it was made of. No name is
repeated where the tree repeats none, and a tree that was read does not. -/
theorem marks_keep_map (hrow : ofImage image = .ok row) (marks : List Mark) :
    let marked := row.markAll marks
    Marked (columnsOf image) marks marked ∧ marked.size = marked.names.length ∧
      (marked.isEmpty = true ↔ marked.size = 0) ∧
      (∀ text, Json.read? text = some (.object marked.columns) →
        Json.read? marked.line = some (.object marked.columns)) ∧
      ((∀ value ∈ image, ∃ text, Json.read? text = some value) → marked.names.Nodup ∧
        (Json.read? marked.line = some (.object marked.columns) ↔
          (columnsOf image = [] → ∀ mark ∈ marks.head?, mark.column ≠ Json.numeralKey))) := by
  intro marked
  have hmarked : Marked row.columns marks marked := marked_markAll marks row
  have hempty : marked.isEmpty = true ↔ marked.size = 0 :=
    List.isEmpty_iff.trans List.length_eq_zero_iff.symm
  refine ⟨?_, (List.length_map Prod.fst).symm, hempty, fun text => read?_line, fun himage => ?_⟩
  · rwa [← columns_of_ofImage hrow]
  · have hcolumns := readable_columnsOf himage hrow
    rw [← columns_of_ofImage hrow]
    exact ⟨hmarked.nodup hcolumns.of_object.1.nodup, read?_line_markAll_iff hcolumns⟩

/-- A column of the tree is marked where it is, a new one twice, and the last
time counts. -/
theorem marks_keep_map_twice :
    let tree : Json := .object [(defaultSignColumn, .null), ("id".toList, .number ['7'])]
    let marks : List Mark :=
      [⟨"gone".toList, true⟩, ⟨defaultSignColumn, true⟩, ⟨"gone".toList, false⟩]
    ∃ row, ofImage (some tree) = .ok row ∧
      (∃ text, Json.read? text = some tree) ∧
      (row.markAll marks).names = [defaultSignColumn, "id".toList, "gone".toList] ∧
      (row.markAll marks).names.Nodup ∧
      (row.markAll marks).get? "gone".toList = some (.string ['0']) ∧
      Json.read? (row.markAll marks).line = some (.object
        [(defaultSignColumn, .string ['1']), ("id".toList, .number ['7']),
          ("gone".toList, .string ['0'])]) := by
  intro tree marks
  have htext : Json.read? tree.write = some tree := rfl
  have hrow : ofImage (some tree) = .ok ⟨tree.members⟩ := rfl
  obtain ⟨hmarked, -, -, -, hread⟩ := marks_keep_map hrow marks
  have himage : ∀ value ∈ some tree, ∃ text, Json.read? text = some value := by
    rintro value ⟨⟩
    exact ⟨_, htext⟩
  obtain ⟨hnodup, hline⟩ := hread himage
  exact ⟨_, hrow, ⟨_, htext⟩, hmarked.names, hnodup, hmarked.get? _, hline.2 nofun⟩

/-- **Rows that their lines do not stand for.** One without columns whose
first mark is of the reserved key is read as a number. And what a tree holds
that was never read may not be as the reader spells it. -/
theorem not_marks_keep_map_reserved :
    let marks : List Mark := [⟨Json.numeralKey, false⟩]
    let tree : Json := .object [(['n'], .number "1e16".toList)]
    (∃ row, ofImage none = .ok row ∧
      Json.read? (row.markAll marks).line = some (.number ['0']) ∧
      Json.read? (row.markAll marks).line ≠ some (.object (row.markAll marks).columns)) ∧
    ∃ row, ofImage (some tree) = .ok row ∧
      Json.read? (row.markAll []).line = some (.object [(['n'], .number "1e+16".toList)]) ∧
      Json.read? (row.markAll []).line ≠ some (.object (row.markAll []).columns) := by
  intro marks tree
  have hnumber : Json.read? (Json.object [(Json.numeralKey, .string ['0'])]).write =
      some (.number ['0']) := rfl
  have htree : Json.read? tree.write = some (.object [(['n'], .number "1e+16".toList)]) := rfl
  refine ⟨⟨_, rfl, hnumber, fun h => ?_⟩, ⟨_, rfl, htree, fun h => ?_⟩⟩
  · cases hnumber.symm.trans h
  · cases htree.symm.trans h

end Row

end ChangeFeed
