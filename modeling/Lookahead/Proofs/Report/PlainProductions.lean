import Lookahead.Proofs.Report.Visible
import Lookahead.Proofs.Text.Separated
import Mathlib.Order.Bounds.Basic

/-!
Productions as plain text stand in columns and can be read in one way only. The first line tells how wide the
left sides are, and with that width every line falls into its left side, its separator and its names.
-/

namespace Lookahead

open Text

namespace ProductionsRow

/-- The productions of a row, where only the first one has the left side before it. -/
def entries : ProductionsRow → List (Option String × List String)
  | ⟨_, []⟩ => []
  | ⟨left, right :: rest⟩ => (some left, right) :: rest.map (none, ·)

def separator (label : Option String) : String := if label.isSome then " -> " else "  | "

theorem length_separator (label : Option String) : (separator label).toList.length = 4 := by
  unfold separator
  split <;> decide

def entryLine (width : Nat) (entry : Option String × List String) : String :=
  alignRight width (entry.1.getD "") ++ separator entry.1 ++ " ".intercalate entry.2

theorem plainLines_eq (width : Nat) (row : ProductionsRow) :
    row.plainLines width = row.entries.map (entryLine width) := by
  obtain ⟨left, rights⟩ := row
  cases rights with
  | nil => rfl
  | cons right rest =>
    rw [plainLines, List.mapIdx_cons, entries, List.map_cons, List.map_map]
    refine congrArg₂ List.cons rfl (List.ext_getElem (by simp) fun i inside inside' => ?_)
    simp [entryLine, separator]

theorem plain_eq (width : Nat) (row : ProductionsRow) :
    row.plain width = "\n".intercalate (row.entries.map (entryLine width)) := by
  rw [plain, plainLines_eq]

theorem toList_alignRight (width : Nat) (name : String) :
    (alignRight width name).toList = List.replicate (width - name.length) ' ' ++ name.toList := by
  simp [alignRight]

/-- Blanks, a word and what follows the blank after it. -/
theorem padded_inj {n n' : Nat} {word word' after after' : List Char} (shown : word ≠ [])
    (shown' : word' ≠ []) (free : ' ' ∉ word) (free' : ' ' ∉ word')
    (same : List.replicate n ' ' ++ word ++ ' ' :: after = List.replicate n' ' ' ++ word' ++ ' ' :: after') :
    n = n' ∧ word = word' := by
  induction n generalizing n' with
  | zero =>
    cases n' with
    | zero => exact ⟨rfl, (before_mark_inj free free' same).1⟩
    | succ m =>
      cases word with
      | nil => contradiction
      | cons c rest => exact absurd (List.cons.inj same).1.symm (List.ne_of_not_mem_cons free)
  | succ n ih =>
    cases n' with
    | zero =>
      cases word' with
      | nil => contradiction
      | cons c rest => exact absurd (List.cons.inj same).1 (List.ne_of_not_mem_cons free')
    | succ m =>
      obtain ⟨rfl, words⟩ := ih (List.cons.inj same).2
      exact ⟨rfl, words⟩

/-- What makes the line of a production readable: the column leaves room for the left side, and no name has
white space in it. -/
structure Printable (width : Nat) (entry : Option String × List String) : Prop where
  fits : (entry.1.getD "").length ≤ width
  label : ∀ left, entry.1 = some left → isBlank left = false
  names : ∀ name ∈ entry.2, isBlank name = false

variable {width : Nat} {entry entry' : Option String × List String}

theorem toList_entryLine (width : Nat) (entry : Option String × List String) :
    (entryLine width entry).toList =
      List.replicate (width - (entry.1.getD "").length) ' ' ++ (entry.1.getD "").toList ++
        (separator entry.1).toList ++ (" ".intercalate entry.2).toList := by
  rw [entryLine, String.toList_append, String.toList_append, toList_alignRight]

theorem length_alignRight {name : String} (fits : name.length ≤ width) :
    (alignRight width name).toList.length = width := by
  rw [toList_alignRight, List.length_append, List.length_replicate, String.length_toList]
  omega

theorem Printable.newline_not_mem (printable : Printable width entry) :
    '\n' ∉ (entryLine width entry).toList := by
  have label : '\n' ∉ (entry.1.getD "").toList := by
    cases found : entry.1 with
    | none => simp
    | some left => exact not_mem_of_visible (printable.label left found) (by decide)
  have sign : '\n' ∉ (separator entry.1).toList := by
    unfold separator
    split <;> decide
  have names : '\n' ∉ (" ".intercalate entry.2).toList :=
    not_mem_toList_intercalate (by decide) fun name member => not_mem_of_visible (printable.names name member)
      (by decide)
  rw [toList_entryLine]
  simp only [List.mem_append, not_or]
  exact ⟨⟨⟨by simp, label⟩, sign⟩, names⟩

theorem alignRight_inj {left left' : String} (visible : isBlank left = false)
    (visible' : isBlank left' = false) (same : alignRight width left = alignRight width left') :
    left = left' := by
  rw [← String.toList_inj, toList_alignRight, toList_alignRight] at same
  have blank : isWhiteSpace ' ' = true := by decide
  obtain ⟨-, words⟩ := padded_inj (isBlank_eq_false_iff.1 visible).1 (isBlank_eq_false_iff.1 visible').1
    (not_mem_of_visible visible blank) (not_mem_of_visible visible' blank)
    (congrArg (· ++ [' ']) same)
  exact String.toList_inj.1 words

theorem entryLine_inj (printable : Printable width entry) (printable' : Printable width entry')
    (same : entryLine width entry = entryLine width entry') : entry = entry' := by
  rw [← String.toList_inj, entryLine, entryLine, String.toList_append, String.toList_append,
    String.toList_append, String.toList_append, List.append_assoc, List.append_assoc] at same
  obtain ⟨before, after⟩ := List.append_inj same
    ((length_alignRight printable.fits).trans (length_alignRight printable'.fits).symm)
  obtain ⟨signs, rights⟩ := List.append_inj after
    ((length_separator entry.1).trans (length_separator entry'.1).symm)
  have right : entry.2 = entry'.2 :=
    names_of_intercalate (show " ".toList = [] ++ [' '] from rfl) List.not_mem_nil (by decide)
      printable.names printable'.names (String.toList_inj.1 rights)
  refine Prod.ext ?_ right
  rw [String.toList_inj] at before signs
  -- the separators tell whether there is a left side
  cases found : entry.1 with
  | none =>
    cases found' : entry'.1 with
    | none => rfl
    | some left' => simp [found, found', separator] at signs
  | some left =>
    cases found' : entry'.1 with
    | none => simp [found, found', separator] at signs
    | some left' =>
      rw [found, found'] at before
      exact congrArg some (alignRight_inj (printable.label left found) (printable'.label left' found') before)

/-- The first line of a report ends its column with a left side, whatever the width is. -/
theorem width_of_entryLine {width' : Nat} {left left' : String} {right right' : List String}
    (printable : Printable width (some left, right)) (printable' : Printable width' (some left', right'))
    (same : entryLine width (some left, right) = entryLine width' (some left', right')) :
    width = width' := by
  have visible := printable.label left rfl
  have visible' := printable'.label left' rfl
  have blank : isWhiteSpace ' ' = true := by decide
  have sign (left : String) : (separator (some left)).toList = ' ' :: "-> ".toList := by
    change " -> ".toList = _
    decide
  rw [← String.toList_inj, toList_entryLine, toList_entryLine, sign, sign, List.append_assoc,
    List.append_assoc _ (' ' :: _)] at same
  obtain ⟨padding, words⟩ := padded_inj (isBlank_eq_false_iff.1 visible).1 (isBlank_eq_false_iff.1 visible').1
    (not_mem_of_visible visible blank) (not_mem_of_visible visible' blank) same
  have fits : left.length ≤ width := printable.fits
  have fits' : left'.length ≤ width' := printable'.fits
  have lengths : left.length = left'.length := by
    rw [← String.length_toList, ← String.length_toList]
    exact congrArg List.length words
  simp only [Option.getD_some] at padding
  omega

theorem mem_entries {row : ProductionsRow} (member : entry ∈ row.entries) :
    (∀ left, entry.1 = some left → left = row.left) ∧ entry.2 ∈ row.rights := by
  obtain ⟨left, rights⟩ := row
  cases rights with
  | nil => simp [entries] at member
  | cons right rest =>
    rcases List.mem_cons.1 member with rfl | later
    · simp
    · obtain ⟨other, inside, rfl⟩ := List.mem_map.1 later
      simp [inside]

theorem Visible.printable {row : ProductionsRow} (visible : row.Visible) (fits : row.left.length ≤ width)
    (member : entry ∈ row.entries) : Printable width entry := by
  obtain ⟨label, right⟩ := mem_entries member
  refine ⟨?_, ?_, visible.names _ right⟩
  · cases found : entry.1 with
    | none => simp
    | some left => simpa [label left found] using fits
  · intro left found
    exact label left found ▸ visible.left

/-- Rows begin where a left side stands. -/
theorem continued_inj {rest rest' : List (List String)} {rows rows' : List ProductionsRow}
    (same : rest.map (none, ·) ++ rows.flatMap entries = rest'.map (none, ·) ++ rows'.flatMap entries) :
    rest = rest' ∧ rows.flatMap entries = rows'.flatMap entries := by
  have begins (rows : List ProductionsRow) (right : List String) (later : List (Option String × List String)) :
      rows.flatMap entries ≠ (none, right) :: later := by
    induction rows with
    | nil => simp
    | cons row rows ih =>
      obtain ⟨left, rights⟩ := row
      cases rights with
      | nil => simpa [entries] using ih
      | cons first rest => simp [entries]
  induction rest generalizing rest' with
  | nil =>
    cases rest' with
    | nil => exact ⟨rfl, same⟩
    | cons right' rest' => exact absurd same (begins rows right' _)
  | cons right rest ih =>
    cases rest' with
    | nil => exact absurd same.symm (begins rows' right _)
    | cons right' rest' =>
      obtain ⟨first, later⟩ := List.cons.inj same
      obtain ⟨rfl, rows_eq⟩ := ih later
      exact ⟨congrArg (· :: rest) (Prod.mk.inj first).2, rows_eq⟩

theorem flatMap_entries_inj {rows rows' : List ProductionsRow} (productive : ∀ row ∈ rows, row.rights ≠ [])
    (productive' : ∀ row ∈ rows', row.rights ≠ [])
    (same : rows.flatMap entries = rows'.flatMap entries) : rows = rows' := by
  have entries_ne_nil {row : ProductionsRow} (productive : row.rights ≠ []) : row.entries ≠ [] := by
    obtain ⟨left, rights⟩ := row
    cases rights with
    | nil => contradiction
    | cons right rest => exact List.cons_ne_nil _ _
  induction rows generalizing rows' with
  | nil =>
    cases rows' with
    | nil => rfl
    | cons row' rest' =>
      have filled := entries_ne_nil (productive' row' List.mem_cons_self)
      exact absurd (List.append_eq_nil_iff.1 same.symm).1 filled
  | cons row rest ih =>
    cases rows' with
    | nil =>
      have filled := entries_ne_nil (productive row List.mem_cons_self)
      exact absurd (List.append_eq_nil_iff.1 same).1 filled
    | cons row' rest' =>
      obtain ⟨left, rights⟩ := row
      obtain ⟨left', rights'⟩ := row'
      rw [List.forall_mem_cons] at productive productive'
      obtain ⟨right, others, rfl⟩ := List.exists_cons_of_ne_nil productive.1
      obtain ⟨right', others', rfl⟩ := List.exists_cons_of_ne_nil productive'.1
      obtain ⟨first, later⟩ := List.cons.inj same
      obtain ⟨label, rfl⟩ := Prod.mk.inj first
      obtain ⟨rfl, rows_eq⟩ := continued_inj later
      rw [ih productive.2 productive'.2 rows_eq, Option.some.inj label]

end ProductionsRow

namespace ProductionsReport

open ProductionsRow

variable {report report' : ProductionsReport}

/-- All productions in the order of the report. -/
def entries (report : ProductionsReport) : List (Option String × List String) :=
  report.rows.flatMap ProductionsRow.entries

theorem isGreatest_width (filled : report.rows ≠ []) :
    IsGreatest {n | ∃ left ∈ report.rows.map (·.left), left.length = n} report.width := by
  have widths : report.rows.map (·.left.length) ≠ [] := by simpa using filled
  have greatest : (report.rows.map (·.left.length)).max? = some report.width := by
    obtain ⟨n, found⟩ := Option.isSome_iff_exists.1 (List.isSome_max?_of_ne_nil widths)
    rw [width, List.foldl_max, found, Option.getD_some, Nat.zero_max]
  obtain ⟨member, above⟩ := List.max?_eq_some_iff.1 greatest
  constructor
  · obtain ⟨row, listed, same⟩ := List.mem_map.1 member
    exact ⟨row.left, List.mem_map_of_mem listed, same⟩
  · rintro n ⟨left, listed, rfl⟩
    obtain ⟨row, inside, rfl⟩ := List.mem_map.1 listed
    exact above _ (List.mem_map_of_mem inside)

theorem Visible.printable (visible : report.Visible) :
    ∀ entry ∈ report.entries, Printable report.width entry := by
  intro entry member
  obtain ⟨row, listed, inside⟩ := List.mem_flatMap.1 member
  have fits := (isGreatest_width visible.filled).2 ⟨row.left, List.mem_map_of_mem listed, rfl⟩
  exact (visible.rows row listed).printable fits inside

/-- The first line of a report has a left side. -/
theorem Visible.exists_first (visible : report.Visible) :
    ∃ left right later, report.entries = (some left, right) :: later := by
  obtain ⟨⟨left, rights⟩, rest, rows⟩ := List.exists_cons_of_ne_nil visible.filled
  have productive := (visible.rows ⟨left, rights⟩ (rows ▸ List.mem_cons_self)).productive
  obtain ⟨right, others, rfl⟩ := List.exists_cons_of_ne_nil productive
  rw [entries, rows]
  exact ⟨left, right, _, rfl⟩

theorem plain_eq (visible : report.Visible) :
    report.plain = "\n".intercalate (report.entries.map (entryLine report.width)) := by
  have filled : ∀ row ∈ report.rows,
      row.entries.map (fun entry => (entryLine report.width entry).toList) ≠ [] := by
    rintro ⟨left, rights⟩ listed
    obtain ⟨right, others, rfl⟩ := List.exists_cons_of_ne_nil (visible.rows _ listed).productive
    exact List.cons_ne_nil _ _
  have row_lines (row : ProductionsRow) : (row.plain report.width).toList = "\n".toList.intercalate
      (row.entries.map fun entry => (entryLine report.width entry).toList) := by
    rw [ProductionsRow.plain_eq, String.toList_intercalate, List.map_map]
    rfl
  rw [← String.toList_inj, plain, String.toList_intercalate, String.toList_intercalate, List.map_map,
    List.map_map, entries, List.map_flatMap]
  refine .trans ?_ (intercalate_flatMap filled).symm
  exact congrArg _ (List.map_congr_left fun row _ => row_lines row)

theorem rows_of_plain (visible : report.Visible) (visible' : report'.Visible)
    (same : report.plain = report'.plain) : report.rows = report'.rows := by
  have printable := visible.printable
  have printable' := visible'.printable
  obtain ⟨left, right, later, begins⟩ := visible.exists_first
  obtain ⟨left', right', later', begins'⟩ := visible'.exists_first
  have filled : report.entries.map (entryLine report.width) ≠ [] := by simp [begins]
  have filled' : report'.entries.map (entryLine report'.width) ≠ [] := by simp [begins']
  rw [plain_eq visible, plain_eq visible'] at same
  have lines := lines_of_intercalate filled filled'
    (List.forall_mem_map.2 fun entry member => (printable entry member).newline_not_mem)
    (List.forall_mem_map.2 fun entry member => (printable' entry member).newline_not_mem) same
  have width : report.width = report'.width := by
    rw [begins, begins'] at lines
    rw [begins] at printable
    rw [begins'] at printable'
    exact width_of_entryLine (printable _ List.mem_cons_self) (printable' _ List.mem_cons_self)
      (List.cons.inj lines).1
  rw [width] at lines printable
  have entries : report.entries.map id = report'.entries.map id := by
    refine map_eq_map_of_inj ?_ lines
    intro entry member entry' member' printed
    exact entryLine_inj (printable entry member) (printable' entry' member') printed
  rw [List.map_id, List.map_id] at entries
  exact flatMap_entries_inj (fun row listed => (visible.rows row listed).productive)
    (fun row listed => (visible'.rows row listed).productive) entries

/-- The line of a production: the left side ends before the column, if it stands on this line, and the
separator begins there. -/
def SeparatesAt (column : Nat) (entry : Option String × List String) (line : List Char) : Prop :=
  ∃ padding, padding + (entry.1.getD "").length = column ∧
    line = List.replicate padding ' ' ++ (entry.1.getD "").toList ++
      (if entry.1.isSome then " -> " else "  | ").toList ++ (" ".intercalate entry.2).toList

theorem separatesAt_lines (visible : report.Visible) :
    List.Forall₂ (SeparatesAt report.width) report.entries (report.plain.toList.splitOn '\n') := by
  have printable := visible.printable
  obtain ⟨left, right, later, begins⟩ := visible.exists_first
  have lines : report.plain.toList.splitOn '\n' =
      report.entries.map fun entry => (entryLine report.width entry).toList := by
    rw [plain_eq visible, String.toList_intercalate, List.map_map]
    refine List.splitOn_intercalate '\n' ?_ (by simp [begins])
    exact List.forall_mem_map.2 fun entry member => (printable entry member).newline_not_mem
  rw [lines, List.forall₂_map_right_iff, List.forall₂_same]
  intro entry member
  have fits := (printable entry member).fits
  refine ⟨report.width - (entry.1.getD "").length, by omega, ?_⟩
  rw [toList_entryLine]
  rfl

end ProductionsReport

namespace Grammar

variable {rules rules' : List Rule} {start start' epsilon epsilon' : String}

/-- All separators stand in the column after the widest left side, and two grammars have the same plain text of
their productions only if all rows agree. -/
theorem plain_productions_readable {g g' : Grammar} (accepted : build rules start epsilon = .ok g)
    (accepted' : build rules' start' epsilon' = .ok g') :
    ∃ report report', g.productionsReport? = some report ∧ g'.productionsReport? = some report' ∧
      IsGreatest {n | ∃ left ∈ g.nonTerminals.map (·.name), left.length = n} report.width ∧
      List.Forall₂ (ProductionsReport.SeparatesAt report.width) report.entries
        (report.plain.toList.splitOn '\n') ∧
      (report.plain = report'.plain → report.rows = report'.rows) := by
  obtain ⟨report, shown, visible, -, lefts⟩ := exists_visible_productionsReport accepted
  obtain ⟨report', shown', visible', -, -⟩ := exists_visible_productionsReport accepted'
  exact ⟨report, report', shown, shown', lefts ▸ ProductionsReport.isGreatest_width visible.filled,
    ProductionsReport.separatesAt_lines visible, ProductionsReport.rows_of_plain visible visible'⟩

/-- Names that look like separators, an empty production, and rules grouped in two ways, which gives the
terminals other indices. -/
theorem plain_productions_readable_signs : ∃ g g' report report',
    build [⟨"|", [["->", "x"], [], ["y"]]⟩, ⟨"->", [["z", "|"]]⟩] "|" "ε" = .ok g ∧
    build [⟨"|", [["->", "x"], []]⟩, ⟨"->", [["z", "|"]]⟩, ⟨"|", [["y"]]⟩] "|" "ε" = .ok g' ∧
    g.productionsReport? = some report ∧ g'.productionsReport? = some report' ∧
    report.plain = " | -> -> x\n    | \n    | y\n-> -> z |" ∧ report'.plain = report.plain ∧
    List.Forall₂ (ProductionsReport.SeparatesAt report.width) report.entries
      (report.plain.toList.splitOn '\n') ∧
    report.rows = report'.rows := by
  have accepted : build [⟨"|", [["->", "x"], [], ["y"]]⟩, ⟨"->", [["z", "|"]]⟩] "|" "ε" =
      .ok ⟨"ε", [⟨"|", [[3, 4], [], [5]]⟩, ⟨"->", [[6, 2]]⟩], ["x", "y", "z"], 2⟩ := rfl
  have accepted' : build [⟨"|", [["->", "x"], []]⟩, ⟨"->", [["z", "|"]]⟩, ⟨"|", [["y"]]⟩] "|" "ε" =
      .ok ⟨"ε", [⟨"|", [[3, 4], [], [6]]⟩, ⟨"->", [[5, 2]]⟩], ["x", "z", "y"], 2⟩ := rfl
  obtain ⟨report, report', shown, shown', -, aligned, readable⟩ :=
    plain_productions_readable accepted accepted'
  have text : (productionsReport? ⟨"ε", [⟨"|", [[3, 4], [], [5]]⟩, ⟨"->", [[6, 2]]⟩], ["x", "y", "z"], 2⟩).map
      ProductionsReport.plain = some " | -> -> x\n    | \n    | y\n-> -> z |" := by decide +kernel
  have text' : (productionsReport? ⟨"ε", [⟨"|", [[3, 4], [], [6]]⟩, ⟨"->", [[5, 2]]⟩], ["x", "z", "y"],
      2⟩).map ProductionsReport.plain = some " | -> -> x\n    | \n    | y\n-> -> z |" := by decide +kernel
  rw [shown, Option.map_some, Option.some.injEq] at text
  rw [shown', Option.map_some, Option.some.injEq, ← text] at text'
  exact ⟨_, _, report, report', accepted, accepted', shown, shown', text, text', aligned,
    readable text'.symm⟩

end Grammar

end Lookahead
