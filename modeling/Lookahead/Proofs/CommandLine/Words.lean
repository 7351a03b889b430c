import Lookahead.CommandLine

/-!
The words of a command line in three parts: the names of outputs, the options after them, and what is
left. What a line asks for depends on these parts alone.
-/

namespace Lookahead.CommandLine

/-- The words that are output names where these are looked for. -/
def outputNames : List String := ["prod", "ff"]

/-- The words that are options where options are looked for. -/
def options : List String := ["-h", "--help", "-l", "-j"]

section Words

variable (words : List String)

/-- The longest run of output names that the line begins with. -/
def outputPart : List String := words.takeWhile (· ∈ outputNames)

/-- The longest run of options after that. -/
def optionPart : List String := (words.dropWhile (· ∈ outputNames)).takeWhile (· ∈ options)

/-- Whatever is left. Here a word may also be the name of an output, or an option. -/
def filePart : List String := (words.dropWhile (· ∈ outputNames)).dropWhile (· ∈ options)

/-- Words after the file are a call for help as well. -/
def WantsHelp : Prop :=
  "-h" ∈ optionPart words ∨ "--help" ∈ optionPart words ∨ 2 ≤ (filePart words).length

instance : Decidable (WantsHelp words) := inferInstanceAs (Decidable (_ ∨ _ ∨ _))

def chosen : List String := if outputPart words = [] then ["ff"] else outputPart words

def namedFormat? (word : String) : Option Format :=
  if word = "-l" then some .tex else if word = "-j" then some .json else none

/-- The last option that names a format decides. -/
def formatOf : Format := ((optionPart words).filterMap namedFormat?).getLastD .plain

end Words

def outputOf (word : String) : Output := if word = "prod" then .productions else .sets

theorem takeOutputs_eq (words : List String) : takeOutputs words =
    ((outputPart words).map outputOf, words.dropWhile (· ∈ outputNames)) := by
  unfold outputPart
  induction words with
  | nil => rfl
  | cons word rest ih =>
    by_cases productions : word = "prod"
    · simp [takeOutputs, outputNames, outputOf, productions, ih]
    by_cases sets : word = "ff"
    · simp [takeOutputs, outputNames, outputOf, sets, ih]
    · simp [takeOutputs, outputNames, productions, sets]

theorem takeOptions_eq (format : Format) (words : List String) : takeOptions format words =
    let taken := words.takeWhile (· ∈ options)
    if "-h" ∈ taken ∨ "--help" ∈ taken then none
    else some ((taken.filterMap namedFormat?).getLastD format, words.dropWhile (· ∈ options)) := by
  -- the format at hand is the last one that was named, so it is another one for the rest
  induction words generalizing format with
  | nil => simp [takeOptions]
  | cons word rest ih =>
    by_cases option : word ∈ options
    · rw [List.takeWhile_cons_of_pos (by simpa using option), List.dropWhile_cons_of_pos (by simpa using option)]
      simp only [options, List.mem_cons, List.not_mem_nil, or_false] at option
      rcases option with rfl | rfl | rfl | rfl
      · simp [takeOptions]
      · simp [takeOptions]
      · simp [takeOptions, ih, namedFormat?, List.getLast?_cons]
      · simp [takeOptions, ih, namedFormat?, List.getLast?_cons]
    · rw [List.takeWhile_cons_of_neg (by simpa using option), List.dropWhile_cons_of_neg (by simpa using option)]
      simp only [options, List.mem_cons, List.not_mem_nil, or_false, not_or] at option
      simp [takeOptions, option]

variable (words : List String)

theorem takeOptions_words : takeOptions .plain (words.dropWhile (· ∈ outputNames)) =
    if "-h" ∈ optionPart words ∨ "--help" ∈ optionPart words then none
    else some (formatOf words, filePart words) := takeOptions_eq _ _

theorem chosen_outputs : (if ((outputPart words).map outputOf).isEmpty then [.sets]
    else (outputPart words).map outputOf) = (chosen words).map outputOf := by
  unfold chosen
  cases outputPart words with
  | nil => rfl
  | cons => rfl

variable {words}

theorem parse_help (wanted : WantsHelp words) : parse words = .help := by
  simp only [parse, takeOutputs_eq, takeOptions_words]
  by_cases asked : "-h" ∈ optionPart words ∨ "--help" ∈ optionPart words
  · rw [if_pos asked]
  · have several : 2 ≤ (filePart words).length := (or_assoc.2 wanted).resolve_left asked
    rw [if_neg asked]
    match filePart words, several with
    | _ :: _ :: _, _ => rfl

theorem parse_print (unwanted : ¬ WantsHelp words) :
    parse words = .print ((chosen words).map outputOf) (formatOf words) (filePart words).head? := by
  obtain ⟨asked, few⟩ := not_or.1 (mt or_assoc.1 unwanted)
  simp only [parse, takeOutputs_eq, takeOptions_words, chosen_outputs, if_neg asked]
  match filePart words, few with
  | [], _ => rfl
  | [_], _ => rfl
  | _ :: _ :: _, few => exact absurd (Nat.le_add_left 2 _) few

end Lookahead.CommandLine
