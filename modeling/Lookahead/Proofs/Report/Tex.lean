import Lookahead.Proofs.Report.Visible
import Lookahead.Proofs.Text.Separated
import Lookahead.Proofs.Text.Tex

/-!
Reports for TeX can be read in one way only, up to the name of the empty text, which is printed as a sign of its
own. Cells hold no white space, and no cell is one of the words that stand between cells.
-/

namespace Lookahead

open Text

/-- A name, or nothing in place of the name of the empty text. -/
def unlessEpsilon (epsilon name : String) : Option String := if name = epsilon then none else some name

/-- A row with nothing in place of the empty text. -/
def ProductionsRow.marked (epsilon : String) (row : ProductionsRow) : String × List (List (Option String)) :=
  (row.left, row.rights.map (·.map (unlessEpsilon epsilon)))

def NonTerminalRow.marked (epsilon : String) (row : NonTerminalRow) :
    String × Bool × List (Option String) × List (Option String) :=
  (row.name, row.nullable, row.first.map (unlessEpsilon epsilon), row.follow.map (unlessEpsilon epsilon))

def TerminalRow.marked (epsilon : String) (row : TerminalRow) : String × List (Option String) :=
  (row.name, row.first.map (unlessEpsilon epsilon))

section Cells

/-- What may stand in a cell, so that the words between cells are not mistaken for it. -/
structure IsCell (cell : List Char) : Prop where
  filled : cell ≠ []
  dark : ∀ c, isWhiteSpace c = true → c ∉ cell
  ne_ampersand : cell ≠ ['&']
  ne_backslash : cell ≠ ['\\']
  ne_mid : cell ≠ "\\mid".toList

theorem IsCell.splitOn {cell : List Char} (isCell : IsCell cell) : cell.splitOn ' ' = [cell] :=
  List.splitOn_eq_singleton (isCell.dark ' ' (by decide))

theorem isCell_texCharacters {name : String} (visible : isBlank name = false) :
    IsCell (texCharacters name.toList) := by
  refine ⟨texCharacters_ne_nil (isBlank_eq_false_iff.1 visible).1, ?_, ?_, ?_, ?_⟩
  · intro c white member
    exact not_mem_of_visible visible white (white_mem_texCharacters white member)
  · exact texCharacters_ne (by decide) (by rintro c ⟨⟩; decide) _
  · exact texCharacters_ne (by decide) (by rintro c ⟨⟩) _
  · exact texCharacters_ne (by decide) (by rintro c ⟨⟩; decide) _

/-- What the empty text may be printed as. -/
structure IsEpsilonSign (sign : String) : Prop where
  isCell : IsCell sign.toList
  apart : ∀ text, texCharacters text ≠ sign.toList

theorem isEpsilonSign_display : IsEpsilonSign "\\epsilon" := by
  refine ⟨⟨by decide, ?_, by decide, by decide, by decide⟩, ?_⟩
  · exact fun c white => not_mem_of_dark (by decide) white
  · exact texCharacters_ne (by decide) (by rintro c ⟨⟩; decide)

theorem isEpsilonSign_inline : IsEpsilonSign "$\\epsilon$" := by
  refine ⟨⟨by decide, ?_, by decide, by decide, by decide⟩, ?_⟩
  · exact fun c white => not_mem_of_dark (by decide) white
  · exact texCharacters_ne (by decide) (by rintro c ⟨⟩; decide)

variable {sign epsilon epsilon' : String}

/-- A name as it is printed. -/
def texSymbol (sign epsilon name : String) : List Char :=
  if name = epsilon then sign.toList else texCharacters name.toList

theorem toList_texSymbol (sign epsilon name : String) :
    (if name = epsilon then sign else tex name).toList = texSymbol sign epsilon name := by
  rw [apply_ite String.toList, toList_tex, texSymbol]

theorem isCell_texSymbol (isSign : IsEpsilonSign sign) {name : String} (visible : isBlank name = false) :
    IsCell (texSymbol sign epsilon name) := by
  unfold texSymbol
  split
  · exact isSign.isCell
  · exact isCell_texCharacters visible

theorem texSymbol_inj (isSign : IsEpsilonSign sign) {name name' : String}
    (same : texSymbol sign epsilon name = texSymbol sign epsilon' name') :
    unlessEpsilon epsilon name = unlessEpsilon epsilon' name' := by
  unfold texSymbol at same
  unfold unlessEpsilon
  by_cases empty : name = epsilon <;> by_cases empty' : name' = epsilon'
  · rw [if_pos empty, if_pos empty']
  · rw [if_pos empty, if_neg empty'] at same
    exact absurd same.symm (isSign.apart _)
  · rw [if_neg empty, if_pos empty'] at same
    exact absurd same (isSign.apart _)
  · rw [if_neg empty, if_neg empty'] at same ⊢
    rw [String.toList_inj.1 (texCharacters_inj same)]

theorem space_not_mem_texCharacters {name : String} (visible : isBlank name = false) :
    ' ' ∉ texCharacters name.toList :=
  (isCell_texCharacters visible).dark ' ' (by decide)

theorem isCell_of_mem_map (isSign : IsEpsilonSign sign) (epsilon : String) {names : List String}
    (visible : ∀ name ∈ names, isBlank name = false) :
    ∀ cell ∈ names.map (texSymbol sign epsilon), IsCell cell :=
  List.forall_mem_map.2 fun name member => isCell_texSymbol isSign (visible name member)

theorem map_unlessEpsilon_eq (isSign : IsEpsilonSign sign) {names names' : List String}
    (same : names.map (texSymbol sign epsilon) = names'.map (texSymbol sign epsilon')) :
    names.map (unlessEpsilon epsilon) = names'.map (unlessEpsilon epsilon') :=
  map_eq_map_of_inj (fun _ _ _ _ => texSymbol_inj isSign) same

end Cells

namespace ProductionsRow

/-- A right side, printed. -/
def texRight (epsilon : String) (right : List String) : List Char :=
  (' ' :: (['\\'] ++ [' '])).intercalate (right.map (texSymbol "\\epsilon" epsilon))

theorem toList_tex (epsilon : String) (row : ProductionsRow) : (row.tex epsilon).toList =
    texCharacters row.left.toList ++ ' ' :: ("& \\rightarrow & ".toList ++
      (' ' :: ("\\mid".toList ++ [' '])).intercalate (row.rights.map (texRight epsilon))) := by
  have rights : (row.rights.map fun right => (" \\ ".intercalate (right.map fun name =>
      if name = epsilon then "\\epsilon" else Text.tex name)).toList) = row.rights.map (texRight epsilon) := by
    refine List.map_congr_left fun right _ => ?_
    rw [String.toList_intercalate, List.map_map]
    exact congrArg _ (List.map_congr_left fun name _ => toList_texSymbol _ epsilon name)
  rw [tex, String.toList_append, String.toList_append, Text.toList_tex, String.toList_intercalate,
    List.map_map, List.append_assoc]
  exact congrArg (_ ++ ·) (congrArg (" & \\rightarrow & ".toList ++ " \\mid ".toList.intercalate ·) rights)

variable {epsilon epsilon' : String} {right right' : List String}

theorem texRight_inj (visible : ∀ name ∈ right, isBlank name = false)
    (visible' : ∀ name ∈ right', isBlank name = false) (same : texRight epsilon right = texRight epsilon' right') :
    right.map (unlessEpsilon epsilon) = right'.map (unlessEpsilon epsilon') := by
  have cells := isCell_of_mem_map isEpsilonSign_display epsilon visible
  have cells' := isCell_of_mem_map isEpsilonSign_display epsilon' visible'
  -- a backslash on its own stands between cells only
  have free {cells : List (List Char)} (all : ∀ cell ∈ cells, IsCell cell) :
      ∀ cell ∈ cells, ['\\'] ∉ cell.splitOn ' ' := by
    intro cell member
    rw [(all cell member).splitOn, List.mem_singleton]
    exact (all cell member).ne_backslash.symm
  refine map_unlessEpsilon_eq isEpsilonSign_display ?_
  refine eq_of_intercalate_of_shown (fun cell member => (cells cell member).filled)
    (fun cell member => (cells' cell member).filled) (fun filled filled' => ?_) same
  exact intercalate_word_inj (by decide) filled filled' (free cells) (free cells') same

theorem mid_not_mem_texRight (visible : ∀ name ∈ right, isBlank name = false) :
    "\\mid".toList ∉ (texRight epsilon right).splitOn ' ' := by
  have cells := isCell_of_mem_map isEpsilonSign_display epsilon visible
  intro member
  by_cases empty : right = []
  · subst empty
    rw [texRight, List.map_nil, List.intercalate_nil, List.splitOn_nil, List.mem_singleton] at member
    exact absurd member (by decide)
  · rcases mem_splitOn_intercalate_word (by decide) (by simpa using empty) member
      with between | ⟨cell, listed, inside⟩
    · exact absurd between (by decide)
    · rw [(cells cell listed).splitOn, List.mem_singleton] at inside
      exact (cells cell listed).ne_mid inside.symm

variable {row row' : ProductionsRow}

theorem tex_inj (visible : row.Visible) (visible' : row'.Visible) (same : row.tex epsilon = row'.tex epsilon') :
    row.marked epsilon = row'.marked epsilon' := by
  have filled {row : ProductionsRow} (epsilon : String) (visible : row.Visible) :
      row.rights.map (texRight epsilon) ≠ [] := by
    simpa using visible.productive
  have apart {row : ProductionsRow} (epsilon : String) (visible : row.Visible) :
      ∀ text ∈ row.rights.map (texRight epsilon), "\\mid".toList ∉ text.splitOn ' ' :=
    List.forall_mem_map.2 fun right given => mid_not_mem_texRight (visible.names right given)
  rw [← String.toList_inj, toList_tex, toList_tex] at same
  obtain ⟨left, after⟩ := before_mark_inj (space_not_mem_texCharacters visible.left)
    (space_not_mem_texCharacters visible'.left) same
  have rights := intercalate_word_inj (by decide) (filled epsilon visible) (filled epsilon' visible')
    (apart epsilon visible) (apart epsilon' visible') (List.append_cancel_left after)
  refine Prod.ext (String.toList_inj.1 (texCharacters_inj left)) (map_eq_map_of_inj ?_ rights)
  intro right given right' given' printed
  exact texRight_inj (visible.names right given) (visible'.names right' given') printed

theorem newline_not_mem_texRight (visible : ∀ name ∈ right, isBlank name = false) :
    '\n' ∉ texRight epsilon right := by
  have cells := isCell_of_mem_map isEpsilonSign_display epsilon visible
  exact not_mem_intercalate (by decide) fun cell listed => (cells cell listed).dark _ (by decide)

theorem Visible.newline_not_mem_tex (visible : row.Visible) (epsilon : String) :
    '\n' ∉ (row.tex epsilon).toList := by
  have rights : '\n' ∉ (' ' :: ("\\mid".toList ++ [' '])).intercalate (row.rights.map (texRight epsilon)) :=
    not_mem_intercalate (by decide) (List.forall_mem_map.2 fun right given =>
      newline_not_mem_texRight (visible.names right given))
  rw [toList_tex]
  simp only [List.mem_append, List.mem_cons, not_or]
  exact ⟨(isCell_texCharacters visible.left).dark _ (by decide), by decide, by decide, rights⟩

end ProductionsRow

namespace ProductionsReport

variable {report report' : ProductionsReport}

theorem toList_tex (report : ProductionsReport) : report.tex.toList = ("\\\\".toList ++ ['\n']).intercalate
    ("\\[\\begin\x7barray\x7d\x7bcll\x7d".toList ::
      (report.rows.map fun row => (row.tex report.epsilon).toList) ++ ["\\end\x7barray\x7d\\]".toList]) := by
  rw [tex, String.toList_intercalate, List.map_append, List.map_cons, List.map_map]
  rfl

/-- The rows stand between a first and a last line. -/
theorem rows_of_tex (visible : report.Visible) (visible' : report'.Visible) (same : report.tex = report'.tex) :
    report.rows.map (·.marked report.epsilon) = report'.rows.map (·.marked report'.epsilon) := by
  have free {report : ProductionsReport} (visible : report.Visible) :
      ∀ line ∈ "\\[\\begin\x7barray\x7d\x7bcll\x7d".toList ::
        (report.rows.map fun row => (row.tex report.epsilon).toList) ++ ["\\end\x7barray\x7d\\]".toList],
      '\n' ∉ line := by
    simp only [List.cons_append, List.forall_mem_cons, List.forall_mem_append, List.forall_mem_map]
    refine ⟨by decide, ?_, by decide, by simp⟩
    exact fun row listed => (visible.rows row listed).newline_not_mem_tex report.epsilon
  rw [← String.toList_inj, toList_tex, toList_tex] at same
  have lines := intercalate_inj (by decide) (List.cons_ne_nil _ _) (List.cons_ne_nil _ _) (free visible)
    (free visible') same
  have rows := List.append_cancel_right (List.cons.inj lines).2
  refine map_eq_map_of_inj ?_ rows
  intro row listed row' listed' printed
  exact ProductionsRow.tex_inj (visible.rows row listed) (visible'.rows row' listed') (String.toList_inj.1 printed)

end ProductionsReport

namespace SetsReport

variable {epsilon epsilon' : String} {names names' : List String}

theorem toList_texCell (epsilon : String) (names : List String) : (texCell epsilon names).toList =
    (['\\'] ++ [' ']).intercalate (names.map (texSymbol "$\\epsilon$" epsilon)) := by
  rw [texCell, String.toList_intercalate, List.map_map]
  exact congrArg _ (List.map_congr_left fun name _ => toList_texSymbol _ epsilon name)

theorem texCell_inj (visible : ∀ name ∈ names, isBlank name = false)
    (visible' : ∀ name ∈ names', isBlank name = false) (same : texCell epsilon names = texCell epsilon' names') :
    names.map (unlessEpsilon epsilon) = names'.map (unlessEpsilon epsilon') := by
  have cells := isCell_of_mem_map isEpsilonSign_inline epsilon visible
  have cells' := isCell_of_mem_map isEpsilonSign_inline epsilon' visible'
  have space : isWhiteSpace ' ' = true := by decide
  rw [← String.toList_inj, toList_texCell, toList_texCell] at same
  refine map_unlessEpsilon_eq isEpsilonSign_inline ?_
  exact intercalate_inj_of_shown (by decide) (fun cell member => (cells cell member).filled)
    (fun cell member => (cells' cell member).filled) (fun cell member => (cells cell member).dark _ space)
    (fun cell member => (cells' cell member).dark _ space) same

/-- A word of a cell is a name, or ends with a backslash. -/
theorem ampersand_not_mem_texCell (visible : ∀ name ∈ names, isBlank name = false) (epsilon : String) :
    ['&'] ∉ (texCell epsilon names).toList.splitOn ' ' := by
  have cells := isCell_of_mem_map isEpsilonSign_inline epsilon visible
  rw [toList_texCell]
  intro member
  rcases mem_splitOn_intercalate (by decide) (fun cell listed => (cells cell listed).dark _ (by decide)) member
    with empty | ⟨cell, listed, whole | ended⟩
  · exact absurd empty (by decide)
  · exact (cells cell listed).ne_ampersand whole.symm
  · have last : ['&'] = ['\\'] := List.append_inj_right' (show [] ++ ['&'] = cell ++ ['\\'] from ended) rfl
    exact absurd last (by decide)

theorem newline_not_mem_texCell (visible : ∀ name ∈ names, isBlank name = false) (epsilon : String) :
    '\n' ∉ (texCell epsilon names).toList := by
  have cells := isCell_of_mem_map isEpsilonSign_inline epsilon visible
  rw [toList_texCell]
  exact not_mem_intercalate (by decide) fun cell listed => (cells cell listed).dark _ (by decide)

theorem toList_texTerminal (epsilon : String) (row : TerminalRow) : (texTerminal epsilon row).toList =
    texCharacters row.name.toList ++ ' ' :: ("& ".toList ++ (texCell epsilon row.first).toList) := by
  rw [texTerminal, String.toList_append, String.toList_append, Text.toList_tex, List.append_assoc]
  rfl

theorem toList_texNonTerminal (epsilon : String) (row : NonTerminalRow) : (texNonTerminal epsilon row).toList =
    texCharacters row.name.toList ++ ' ' :: ("& ".toList ++
      ((if row.nullable then "true" else "false").toList ++ ' ' :: ("& ".toList ++
        ((texCell epsilon row.first).toList ++ ' ' :: (['&'] ++ ' ' ::
          (texCell epsilon row.follow).toList))))) := by
  simp only [texNonTerminal, String.toList_append, Text.toList_tex, List.append_assoc]
  rfl

theorem texTerminal_inj {row row' : TerminalRow} (visible : row.Visible) (visible' : row'.Visible)
    (same : texTerminal epsilon row = texTerminal epsilon' row') : row.marked epsilon = row'.marked epsilon' := by
  rw [← String.toList_inj, toList_texTerminal, toList_texTerminal] at same
  obtain ⟨name, after⟩ := before_mark_inj (space_not_mem_texCharacters visible.name)
    (space_not_mem_texCharacters visible'.name) same
  have first := String.toList_inj.1 (List.append_cancel_left after)
  exact Prod.ext (String.toList_inj.1 (texCharacters_inj name)) (texCell_inj visible.first visible'.first first)

theorem texNonTerminal_inj {row row' : NonTerminalRow} (visible : row.Visible) (visible' : row'.Visible)
    (same : texNonTerminal epsilon row = texNonTerminal epsilon' row') :
    row.marked epsilon = row'.marked epsilon' := by
  rw [← String.toList_inj, toList_texNonTerminal, toList_texNonTerminal] at same
  obtain ⟨name, after⟩ := before_mark_inj (space_not_mem_texCharacters visible.name)
    (space_not_mem_texCharacters visible'.name) same
  obtain ⟨nullable, sets⟩ := before_mark_inj (by split <;> decide) (by split <;> decide)
    (List.append_cancel_left after)
  obtain ⟨first, follow⟩ := before_word_inj (by decide) (ampersand_not_mem_texCell visible.first epsilon)
    (ampersand_not_mem_texCell visible'.first epsilon') (List.append_cancel_left sets)
  have same_nullable : row.nullable = row'.nullable := by
    revert nullable
    cases row.nullable <;> cases row'.nullable <;> decide
  have same_first := texCell_inj visible.first visible'.first (String.toList_inj.1 first)
  have same_follow := texCell_inj visible.follow visible'.follow (String.toList_inj.1 follow)
  simp only [NonTerminalRow.marked, Prod.mk.injEq]
  exact ⟨String.toList_inj.1 (texCharacters_inj name), same_nullable, same_first, same_follow⟩

theorem newline_not_mem_texTerminal {row : TerminalRow} (visible : row.Visible) (epsilon : String) :
    '\n' ∉ (texTerminal epsilon row).toList := by
  rw [toList_texTerminal]
  simp only [List.mem_append, List.mem_cons, not_or]
  exact ⟨(isCell_texCharacters visible.name).dark _ (by decide), by decide, by decide,
    newline_not_mem_texCell visible.first epsilon⟩

theorem newline_not_mem_texNonTerminal {row : NonTerminalRow} (visible : row.Visible) (epsilon : String) :
    '\n' ∉ (texNonTerminal epsilon row).toList := by
  rw [toList_texNonTerminal]
  simp only [List.mem_append, List.mem_cons, List.not_mem_nil, or_false, not_or]
  exact ⟨(isCell_texCharacters visible.name).dark _ (by decide), by decide, by decide,
    by split <;> decide, by decide, by decide, newline_not_mem_texCell visible.first epsilon, by decide,
    by decide, by decide, newline_not_mem_texCell visible.follow epsilon⟩

variable {report report' : SetsReport}

/-- The rows of the first table, without their ends. -/
def nonTerminalLines (report : SetsReport) : List (List Char) :=
  report.nonTerminals.map fun row => (texNonTerminal report.epsilon row).toList

/-- The rows of the second table, without their ends. -/
def terminalLines (report : SetsReport) : List (List Char) :=
  report.terminals.map fun row => (texTerminal report.epsilon row).toList

/-- After the rows of a table its last line, and after the first table the second one. -/
theorem toList_tex (report : SetsReport) : report.tex.toList =
    "\\begin\x7btabular\x7d\x7bc|c|c|c\x7d\nSymbol & Nullable & First & Follow\\\\\\hline\n".toList ++
      ((("\\\\".toList ++ ['\n']).intercalate report.nonTerminalLines ++ "\\\\".toList) ++
        '\n' :: ("\\end\x7btabular\x7d".toList ++ '\n' ::
          ("\n\\begin\x7btabular\x7d\x7bc|c\x7d\n".toList ++ ("Symbol & First\\\\\\hline\n".toList ++
            (("\\\\".toList ++ ['\n']).intercalate report.terminalLines ++
              "\\\\\n\\end\x7btabular\x7d".toList))))) := by
  have border : "\\\\\n\\end\x7btabular\x7d\n\n\\begin\x7btabular\x7d\x7bc|c\x7d\n".toList = "\\\\".toList ++
      '\n' :: ("\\end\x7btabular\x7d".toList ++ '\n' :: "\n\\begin\x7btabular\x7d\x7bc|c\x7d\n".toList) := by
    decide +kernel
  have ending : "\\\\\n".toList = "\\\\".toList ++ ['\n'] := by decide
  unfold tex
  simp only [String.toList_append, String.toList_intercalate, List.map_map, Function.comp_def, border, ending,
    nonTerminalLines, terminalLines, List.append_assoc, List.cons_append]

theorem Visible.nonTerminalLines (visible : report.Visible) :
    report.nonTerminalLines ≠ [] ∧ ∀ line ∈ report.nonTerminalLines, '\n' ∉ line := by
  refine ⟨by simpa [SetsReport.nonTerminalLines] using visible.filled, ?_⟩
  exact List.forall_mem_map.2 fun row listed =>
    newline_not_mem_texNonTerminal (visible.nonTerminals row listed) report.epsilon

theorem Visible.terminalLines (visible : report.Visible) :
    (∀ line ∈ report.terminalLines, line ≠ []) ∧ ∀ line ∈ report.terminalLines, '\n' ∉ line := by
  refine ⟨List.forall_mem_map.2 fun row listed => ?_, List.forall_mem_map.2 fun row listed => ?_⟩
  · rw [toList_texTerminal]
    simp
  · exact newline_not_mem_texTerminal (visible.terminals row listed) report.epsilon

/-- Every line of a table ends with a row end, except the last one. -/
theorem end_not_mem_lines (visible : report.Visible) : "\\end\x7btabular\x7d".toList ∉
    (("\\\\".toList ++ ['\n']).intercalate report.nonTerminalLines ++ "\\\\".toList).splitOn '\n' := by
  rw [splitOn_intercalate_append (by decide) visible.nonTerminalLines.1 visible.nonTerminalLines.2]
  intro member
  obtain ⟨line, -, same⟩ := List.mem_map.1 member
  have ends := congrArg List.getLast? same
  rw [List.getLast?_append, show "\\\\".toList.getLast? = some '\\' by decide, Option.some_or] at ends
  exact absurd ends (by decide)

theorem rows_of_tex (visible : report.Visible) (visible' : report'.Visible) (same : report.tex = report'.tex) :
    report.nonTerminals.map (·.marked report.epsilon) = report'.nonTerminals.map (·.marked report'.epsilon) ∧
      report.terminals.map (·.marked report.epsilon) = report'.terminals.map (·.marked report'.epsilon) := by
  rw [← String.toList_inj, toList_tex, toList_tex] at same
  obtain ⟨first, second⟩ := before_word_inj (by decide) (end_not_mem_lines visible) (end_not_mem_lines visible')
    (List.append_cancel_left same)
  have nonTerminals : report.nonTerminalLines = report'.nonTerminalLines :=
    intercalate_inj (by decide) visible.nonTerminalLines.1 visible'.nonTerminalLines.1
      visible.nonTerminalLines.2 visible'.nonTerminalLines.2 (List.append_cancel_right first)
  have terminals : report.terminalLines = report'.terminalLines :=
    intercalate_inj_of_shown (by decide) visible.terminalLines.1 visible'.terminalLines.1
      visible.terminalLines.2 visible'.terminalLines.2
      (List.append_cancel_right (List.append_cancel_left (List.append_cancel_left second)))
  constructor
  · refine map_eq_map_of_inj ?_ nonTerminals
    intro row listed row' listed' printed
    exact texNonTerminal_inj (visible.nonTerminals row listed) (visible'.nonTerminals row' listed')
      (String.toList_inj.1 printed)
  · refine map_eq_map_of_inj ?_ terminals
    intro row listed row' listed' printed
    exact texTerminal_inj (visible.terminals row listed) (visible'.terminals row' listed')
      (String.toList_inj.1 printed)

end SetsReport

namespace Grammar

variable {rules rules' : List Rule} {start start' epsilon epsilon' : String}

/-- The name of the empty text is that of its index only. -/
theorem name?_eq_epsilon_iff {g : Grammar} (accepted : build rules start epsilon = .ok g) (i : Nat) :
    g.name? i = some g.epsilon ↔ i = epsilonIndex := by
  have first : g.indexOf? g.epsilon = some epsilonIndex := if_pos rfl
  rw [← indexOf?_eq_some_iff (nodup_names_of_build accepted), first, Option.some_inj, eq_comm]

/-- Two grammars have the same TeX texts only if their rows agree, where each of them may have a name of its own
for the empty text. -/
theorem tex_readable {g g' : Grammar} (accepted : build rules start epsilon = .ok g)
    (accepted' : build rules' start' epsilon' = .ok g') :
    (∀ i, g.name? i = some g.epsilon ↔ i = epsilonIndex) ∧
    (∀ i, g'.name? i = some g'.epsilon ↔ i = epsilonIndex) ∧
    (∃ report report', g.productionsReport? = some report ∧ g'.productionsReport? = some report' ∧
      (report.tex = report'.tex →
        report.rows.map (·.marked g.epsilon) = report'.rows.map (·.marked g'.epsilon))) ∧
    ∃ report report', g.ownReport? = some report ∧ g'.ownReport? = some report' ∧
      (report.tex = report'.tex →
        report.nonTerminals.map (·.marked g.epsilon) = report'.nonTerminals.map (·.marked g'.epsilon) ∧
          report.terminals.map (·.marked g.epsilon) = report'.terminals.map (·.marked g'.epsilon)) := by
  refine ⟨name?_eq_epsilon_iff accepted, name?_eq_epsilon_iff accepted', ?_, ?_⟩
  · obtain ⟨report, shown, visible, sign, -⟩ := exists_visible_productionsReport accepted
    obtain ⟨report', shown', visible', sign', -⟩ := exists_visible_productionsReport accepted'
    rw [← sign, ← sign']
    exact ⟨report, report', shown, shown', ProductionsReport.rows_of_tex visible visible'⟩
  · obtain ⟨report, shown, visible, sign⟩ := exists_visible_ownReport accepted
    obtain ⟨report', shown', visible', sign'⟩ := exists_visible_ownReport accepted'
    rw [← sign, ← sign']
    exact ⟨report, report', shown, shown', SetsReport.rows_of_tex visible visible'⟩

/-- Terminals that look like the signs around them, and two names of the empty text, one of which TeX would read
as a comment. -/
theorem tex_readable_names : ∃ g g' report report' sets sets',
    build [⟨"S", [["&", "A"]]⟩, ⟨"A", [["--", "\\"], ["ε"]]⟩] "S" "ε" = .ok g ∧
    build [⟨"S", [["&", "A"]]⟩, ⟨"A", [["--", "\\"], ["%"]]⟩] "S" "%" = .ok g' ∧
    g.productionsReport? = some report ∧ g'.productionsReport? = some report' ∧
    report.tex = "\\[\\begin\x7barray\x7d\x7bcll\x7d\\\\\nS & \\rightarrow & \\& \\ A\\\\\n" ++
      "A & \\rightarrow & -\x7b\x7d- \\ \\textbackslash\x7b\x7d \\mid \\epsilon\\\\\n\\end\x7barray\x7d\\]" ∧
    report.tex = report'.tex ∧
    report.rows.map (·.marked g.epsilon) = report'.rows.map (·.marked g'.epsilon) ∧
    g.ownReport? = some sets ∧ g'.ownReport? = some sets' ∧ sets.tex = sets'.tex ∧
    sets.nonTerminals.map (·.marked g.epsilon) = sets'.nonTerminals.map (·.marked g'.epsilon) ∧
    sets.terminals.map (·.marked g.epsilon) = sets'.terminals.map (·.marked g'.epsilon) := by
  have accepted : build [⟨"S", [["&", "A"]]⟩, ⟨"A", [["--", "\\"], ["ε"]]⟩] "S" "ε" =
      .ok ⟨"ε", [⟨"S", [[4, 3]]⟩, ⟨"A", [[5, 6], [0]]⟩], ["&", "--", "\\"], 2⟩ := rfl
  have accepted' : build [⟨"S", [["&", "A"]]⟩, ⟨"A", [["--", "\\"], ["%"]]⟩] "S" "%" =
      .ok ⟨"%", [⟨"S", [[4, 3]]⟩, ⟨"A", [[5, 6], [0]]⟩], ["&", "--", "\\"], 2⟩ := rfl
  obtain ⟨-, -, ⟨report, report', shown, shown', readable⟩, sets, sets', found, found', sets_readable⟩ :=
    tex_readable accepted accepted'
  have text : (productionsReport? ⟨"ε", [⟨"S", [[4, 3]]⟩, ⟨"A", [[5, 6], [0]]⟩], ["&", "--", "\\"], 2⟩).map
      ProductionsReport.tex = some ("\\[\\begin\x7barray\x7d\x7bcll\x7d\\\\\nS & \\rightarrow & \\& \\ A\\\\\n" ++
        "A & \\rightarrow & -\x7b\x7d- \\ \\textbackslash\x7b\x7d \\mid \\epsilon\\\\\n\\end\x7barray\x7d\\]") := by
    decide +kernel
  have same : (productionsReport? ⟨"ε", [⟨"S", [[4, 3]]⟩, ⟨"A", [[5, 6], [0]]⟩], ["&", "--", "\\"], 2⟩).map
      ProductionsReport.tex = (productionsReport? ⟨"%", [⟨"S", [[4, 3]]⟩, ⟨"A", [[5, 6], [0]]⟩],
        ["&", "--", "\\"], 2⟩).map ProductionsReport.tex := by
    decide +kernel
  have same_sets : (ownReport? ⟨"ε", [⟨"S", [[4, 3]]⟩, ⟨"A", [[5, 6], [0]]⟩], ["&", "--", "\\"], 2⟩).map
      SetsReport.tex = (ownReport? ⟨"%", [⟨"S", [[4, 3]]⟩, ⟨"A", [[5, 6], [0]]⟩],
        ["&", "--", "\\"], 2⟩).map SetsReport.tex := by
    decide +kernel
  rw [shown, Option.map_some, Option.some.injEq] at text
  rw [shown, shown', Option.map_some, Option.map_some, Option.some.injEq] at same
  rw [found, found', Option.map_some, Option.map_some, Option.some.injEq] at same_sets
  obtain ⟨nonTerminals, terminals⟩ := sets_readable same_sets
  exact ⟨_, _, report, report', sets, sets', accepted, accepted', shown, shown', text, same, readable same,
    found, found', same_sets, nonTerminals, terminals⟩

end Grammar

end Lookahead
