import Lookahead.Proofs.Report.Visible
import Lookahead.Proofs.Text.Separated

/-!
Sets as plain text can be read in one way only. Names are printed as they are and may look like the
punctuation around them, but they hold no white space, and every separator ends with a space or a line
break.
-/

namespace Lookahead

open Text

namespace SetsReport

theorem toList_plainRow (name : String) (names : List String) : (plainRow name names).toList =
    name.toList ++ [':'] ++ ' ' :: '\x7b' :: ((", ".intercalate names).toList ++ ['\x7d']) := by
  simp [plainRow]

theorem plainRow_inj {name name' : String} {names names' : List String} (visible : isBlank name = false)
    (visible' : isBlank name' = false) (listed : ∀ name ∈ names, isBlank name = false)
    (listed' : ∀ name ∈ names', isBlank name = false) (same : plainRow name names = plainRow name' names') :
    name = name' ∧ names = names' := by
  have free {name : String} (visible : isBlank name = false) : ' ' ∉ name.toList ++ [':'] := by
    simp [not_mem_of_visible visible (by decide : isWhiteSpace ' ' = true)]
  rw [← String.toList_inj, toList_plainRow, toList_plainRow] at same
  obtain ⟨left, right⟩ := before_mark_inj (free visible) (free visible') same
  have inside := List.append_cancel_right (List.cons.inj right).2
  refine ⟨String.toList_inj.1 (List.append_cancel_right left), ?_⟩
  have ends : ", ".toList = [','] ++ [' '] := rfl
  exact names_of_intercalate ends (by decide) (by decide) listed listed' (String.toList_inj.1 inside)

theorem newline_not_mem_plainRow {name : String} {names : List String} (visible : isBlank name = false)
    (listed : ∀ name ∈ names, isBlank name = false) : '\n' ∉ (plainRow name names).toList := by
  have free {name : String} (visible : isBlank name = false) : '\n' ∉ name.toList :=
    not_mem_of_visible visible (by decide)
  have inside : '\n' ∉ (", ".intercalate names).toList :=
    not_mem_toList_intercalate (by decide) fun name member => free (listed name member)
  rw [toList_plainRow]
  simp only [List.mem_append, List.mem_cons, List.not_mem_nil, or_false, not_or]
  exact ⟨⟨free visible, by decide⟩, by decide, by decide, inside, by decide⟩

theorem plainRow_ne_empty (name : String) (names : List String) : plainRow name names ≠ "" := by
  rw [Ne, ← String.toList_inj, toList_plainRow]
  simp

/-- The block of FIRST sets, with the terminals after the nonterminals. -/
def firstLines (report : SetsReport) : List String :=
  report.nonTerminals.map (fun row => plainRow row.name row.first) ++
    report.terminals.map (fun row => plainRow row.name row.first)

def followLines (report : SetsReport) : List String :=
  report.nonTerminals.map fun row => plainRow row.name row.follow

/-- The blocks stand under their titles, with an empty line between them. -/
theorem plain_eq (report : SetsReport) : report.plain = "\n".intercalate
    ("FIRST sets:" :: report.firstLines ++ "" :: "FOLLOW sets:" :: report.followLines) := rfl

variable {report report' : SetsReport}

theorem newline_not_mem_lines (visible : report.Visible) :
    ∀ line ∈ "FIRST sets:" :: report.firstLines ++ "" :: "FOLLOW sets:" :: report.followLines,
      '\n' ∉ line.toList := by
  simp only [firstLines, followLines, List.forall_mem_append, List.forall_mem_cons, List.forall_mem_map,
    List.cons_append]
  refine ⟨by decide, ⟨fun row listed => ?_, fun row listed => ?_⟩, by decide, by decide,
    fun row listed => ?_⟩
  · have row_visible := visible.nonTerminals row listed
    exact newline_not_mem_plainRow row_visible.name row_visible.first
  · have row_visible := visible.terminals row listed
    exact newline_not_mem_plainRow row_visible.name row_visible.first
  · have row_visible := visible.nonTerminals row listed
    exact newline_not_mem_plainRow row_visible.name row_visible.follow

theorem empty_not_mem_firstLines (report : SetsReport) : "" ∉ report.firstLines := by
  simp [firstLines, plainRow_ne_empty]

/-- There are as many nonterminals as lines in the second block, so the border between nonterminals and
terminals in the first one is known. -/
theorem rows_of_lines (visible : report.Visible) (visible' : report'.Visible)
    (first : report.firstLines = report'.firstLines) (follow : report.followLines = report'.followLines) :
    (report.nonTerminals.map fun row => (row.name, row.first, row.follow)) =
        (report'.nonTerminals.map fun row => (row.name, row.first, row.follow)) ∧
      report.terminals = report'.terminals := by
  have count : report.nonTerminals.length = report'.nonTerminals.length := by
    simpa [followLines] using congrArg List.length follow
  obtain ⟨nonTerminals, terminals⟩ := List.append_inj first (by simpa using count)
  constructor
  · have both := congrArg₂ List.zip nonTerminals follow
    rw [followLines, followLines, List.zip_map', List.zip_map'] at both
    refine map_eq_map_of_inj ?_ both
    intro row listed row' listed' printed
    have row_visible := visible.nonTerminals row listed
    have row_visible' := visible'.nonTerminals row' listed'
    obtain ⟨printed_first, printed_follow⟩ := Prod.mk.inj printed
    obtain ⟨name, first⟩ := plainRow_inj row_visible.name row_visible'.name row_visible.first
      row_visible'.first printed_first
    obtain ⟨-, follow⟩ := plainRow_inj row_visible.name row_visible'.name row_visible.follow
      row_visible'.follow printed_follow
    rw [name, first, follow]
  · rw [← List.map_id report.terminals, ← List.map_id report'.terminals]
    refine map_eq_map_of_inj ?_ terminals
    intro row listed row' listed' printed
    have row_visible := visible.terminals row listed
    have row_visible' := visible'.terminals row' listed'
    obtain ⟨name, first⟩ := plainRow_inj row_visible.name row_visible'.name row_visible.first
      row_visible'.first printed
    cases row
    cases row'
    cases name
    cases first
    rfl

theorem rows_of_plain (visible : report.Visible) (visible' : report'.Visible)
    (same : report.plain = report'.plain) :
    (report.nonTerminals.map fun row => (row.name, row.first, row.follow)) =
        (report'.nonTerminals.map fun row => (row.name, row.first, row.follow)) ∧
      report.terminals = report'.terminals := by
  rw [plain_eq, plain_eq] at same
  have lines := lines_of_intercalate (List.cons_ne_nil _ _) (List.cons_ne_nil _ _)
    (newline_not_mem_lines visible) (newline_not_mem_lines visible') same
  obtain ⟨first, follow⟩ := before_mark_inj (empty_not_mem_firstLines report)
    (empty_not_mem_firstLines report') (List.cons.inj lines).2
  exact rows_of_lines visible visible' first (List.cons.inj follow).2

end SetsReport

namespace Grammar

variable {rules rules' : List Rule} {start start' epsilon epsilon' : String}

/-- Two grammars have the same plain text of their sets only if all symbols and all listed names agree. -/
theorem plain_sets_readable {g g' : Grammar} (accepted : build rules start epsilon = .ok g)
    (accepted' : build rules' start' epsilon' = .ok g') :
    ∃ report report', g.ownReport? = some report ∧ g'.ownReport? = some report' ∧
      (report.plain = report'.plain →
        (report.nonTerminals.map fun row => (row.name, row.first, row.follow)) =
            (report'.nonTerminals.map fun row => (row.name, row.first, row.follow)) ∧
          report.terminals = report'.terminals) := by
  obtain ⟨report, shown, visible, -⟩ := exists_visible_ownReport accepted
  obtain ⟨report', shown', visible', -⟩ := exists_visible_ownReport accepted'
  exact ⟨report, report', shown, shown', SetsReport.rows_of_plain visible visible'⟩

/-- Terminals that look like the punctuation around them, the empty text among the names of a set, and two
grammars that differ in a production only. -/
theorem plain_sets_readable_punctuation : ∃ g g' report report',
    build [⟨"S", [[",", "A", "\x7d:"]]⟩, ⟨"A", [[":"], ["\x7b"]]⟩] "S" "\x7b" = .ok g ∧
    build [⟨"S", [[",", "A", "\x7d:"], [",", "\x7d:"]]⟩, ⟨"A", [[":"], []]⟩] "S" "\x7b" = .ok g' ∧
    g.ownReport? = some report ∧ g'.ownReport? = some report' ∧
    report.plain = "FIRST sets:\nS: \x7b,\x7d\nA: \x7b:, \x7b\x7d\n,: \x7b,\x7d\n\x7d:: \x7b\x7d:\x7d\n" ++
      ":: \x7b:\x7d\n\nFOLLOW sets:\nS: \x7b$\x7d\nA: \x7b\x7d:\x7d" ∧
    report'.plain = report.plain ∧
    (report.nonTerminals.map fun row => (row.name, row.first, row.follow)) =
      (report'.nonTerminals.map fun row => (row.name, row.first, row.follow)) ∧
    report.terminals = report'.terminals := by
  have accepted : build [⟨"S", [[",", "A", "\x7d:"]]⟩, ⟨"A", [[":"], ["\x7b"]]⟩] "S" "\x7b" =
      .ok ⟨"\x7b", [⟨"S", [[4, 3, 5]]⟩, ⟨"A", [[6], [0]]⟩], [",", "\x7d:", ":"], 2⟩ := rfl
  have accepted' : build [⟨"S", [[",", "A", "\x7d:"], [",", "\x7d:"]]⟩, ⟨"A", [[":"], []]⟩] "S" "\x7b" =
      .ok ⟨"\x7b", [⟨"S", [[4, 3, 5], [4, 5]]⟩, ⟨"A", [[6], []]⟩], [",", "\x7d:", ":"], 2⟩ := rfl
  obtain ⟨report, report', shown, shown', readable⟩ := plain_sets_readable accepted accepted'
  have text : (ownReport? ⟨"\x7b", [⟨"S", [[4, 3, 5]]⟩, ⟨"A", [[6], [0]]⟩], [",", "\x7d:", ":"], 2⟩).map
      SetsReport.plain = some ("FIRST sets:\nS: \x7b,\x7d\nA: \x7b:, \x7b\x7d\n,: \x7b,\x7d\n" ++
        "\x7d:: \x7b\x7d:\x7d\n:: \x7b:\x7d\n\nFOLLOW sets:\nS: \x7b$\x7d\nA: \x7b\x7d:\x7d") := by
    decide +kernel
  have text' : (ownReport? ⟨"\x7b", [⟨"S", [[4, 3, 5], [4, 5]]⟩, ⟨"A", [[6], []]⟩],
      [",", "\x7d:", ":"], 2⟩).map SetsReport.plain = (ownReport? ⟨"\x7b", [⟨"S", [[4, 3, 5]]⟩,
        ⟨"A", [[6], [0]]⟩], [",", "\x7d:", ":"], 2⟩).map SetsReport.plain := by
    decide +kernel
  rw [shown, shown', Option.map_some, Option.map_some, Option.some.injEq] at text'
  rw [shown, Option.map_some, Option.some.injEq] at text
  exact ⟨_, _, report, report', accepted, accepted', shown, shown', text, text', readable text'.symm⟩

end Grammar

end Lookahead
