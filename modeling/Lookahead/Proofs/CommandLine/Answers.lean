import Lookahead.Proofs.CommandLine
import Lookahead.Proofs.Report.Visible

/-!
What a command line is answered with, for all words and all files. Whatever fails does so before anything
is printed.
-/

namespace Lookahead

def ProductionsReport.textIn (report : ProductionsReport) : CommandLine.Format → String
  | .plain => report.plain
  | .tex => report.tex
  | .json => report.json

def SetsReport.textIn (report : SetsReport) : CommandLine.Format → String
  | .plain => report.plain
  | .tex => report.tex
  | .json => report.json

theorem Definition.exists_build {d : Definition} {g : Grammar} (accepted : d.build = .ok g) :
    ∃ start, Grammar.build d.rules start d.epsilon = .ok g := by
  unfold build at accepted
  split at accepted
  · contradiction
  · exact ⟨_, accepted⟩

theorem exists_build_of_readGrammar {document : String} {g : Grammar}
    (accepted : readGrammar document = .ok g) : ∃ d : Definition, d.build = .ok g := by
  unfold readGrammar at accepted
  cases read : Definition.read document with
  | error rejection => simp [read, bind, Except.bind] at accepted
  | ok d => exact ⟨d, by simpa [read, bind, Except.bind] using accepted⟩

namespace CommandLine

/-- The name of an output, and what is printed for it. -/
inductive Shows (g : Grammar) (format : Format) : String → String → Prop
  | productions {report : ProductionsReport} (found : g.productionsReport? = some report) :
    Shows g format "prod" (report.textIn format)
  | sets {report : SetsReport} (found : g.ownReport? = some report) :
    Shows g format "ff" (report.textIn format)

/-- Where the grammar comes from. -/
inductive Supplies (readFile : String → Except ReadFailure String) : List String → Grammar → Prop
  | builtIn {g : Grammar} (accepted : builtIn.build = .ok g) : Supplies readFile [] g
  | file {file document : String} {g : Grammar} (stored : readFile file = .ok document)
    (accepted : readGrammar document = .ok g) : Supplies readFile [file] g

/-- The answers to a line, each with its condition. -/
inductive Answers (readFile : String → Except ReadFailure String) (words : List String) : Outcome → Prop
  | help (wanted : WantsHelp words) : Answers readFile words ⟨0, printed helpLines, ""⟩
  | unreadable {file : String} {failure : ReadFailure} (unwanted : ¬ WantsHelp words)
    (given : filePart words = [file]) (failed : readFile file = .error failure) :
    Answers readFile words ⟨1, "", "cannot read " ++ file ++ ": " ++ failure.reason ++ "\n"⟩
  | rejected {file document : String} {rejection : Rejection} (unwanted : ¬ WantsHelp words)
    (given : filePart words = [file]) (stored : readFile file = .ok document)
    (turnedDown : readGrammar document = .error rejection) :
    Answers readFile words ⟨1, "", rejection.message ++ "\n"⟩
  | reports {g : Grammar} {texts : List String} (unwanted : ¬ WantsHelp words)
    (supplied : Supplies readFile (filePart words) g)
    (shown : List.Forall₂ (Shows g (formatOf words)) (chosen words) texts) :
    Answers readFile words ⟨0, printed texts, ""⟩

section Answer

variable {readFile : String → Except ReadFailure String} {words : List String} {g : Grammar}
  {format : Format}

theorem Shows.render?_outputOf {word text : String} (shows : Shows g format word text) :
    render? g format (outputOf word) = some text := by
  cases shows with
  | productions found =>
    simp only [render?, outputOf, found]
    cases format <;> rfl
  | sets found =>
    simp only [render?, outputOf, found]
    cases format <;> rfl

theorem mapM_render? {texts : List String} (shown : List.Forall₂ (Shows g format) words texts) :
    (words.map outputOf).mapM (render? g format) = some texts := by
  induction shown with
  | nil => rfl
  | cons first _ ih =>
    rw [List.map_cons, List.mapM_cons, first.render?_outputOf, ih]
    rfl

theorem exists_shows {d : Definition} (accepted : d.build = .ok g) {word : String} (named : word ∈ outputNames) :
    ∃ text, Shows g format word text := by
  obtain ⟨start, built⟩ := Definition.exists_build accepted
  simp only [outputNames, List.mem_cons, List.not_mem_nil, or_false] at named
  rcases named with rfl | rfl
  · obtain ⟨report, found, -⟩ := Grammar.exists_visible_productionsReport built
    exact ⟨_, .productions found⟩
  · obtain ⟨report, found, -⟩ := Grammar.exists_visible_ownReport built
    exact ⟨_, .sets found⟩

theorem mem_outputNames_of_mem_chosen {word : String} (member : word ∈ chosen words) : word ∈ outputNames := by
  unfold chosen at member
  split at member
  · rw [List.mem_singleton.1 member]
    decide
  · exact of_decide_eq_true (List.mem_takeWhile_imp (p := (· ∈ outputNames)) member)

theorem Supplies.exists_build {part : List String} (supplied : Supplies readFile part g) :
    ∃ d : Definition, d.build = .ok g := by
  cases supplied with
  | builtIn accepted => exact ⟨_, accepted⟩
  | file _ accepted => exact exists_build_of_readGrammar accepted

theorem Supplies.load_eq {part : List String} (supplied : Supplies readFile part g) :
    load readFile part.head? = .ok g := by
  cases supplied with
  | builtIn accepted => simp [load, accepted, Except.mapError, bind, Except.bind, pure, Except.pure]
  | file stored accepted =>
    rw [List.head?_cons, load_file stored, accepted]
    rfl

theorem Supplies.exists_reports (supplied : Supplies readFile (filePart words) g)
    (unwanted : ¬ WantsHelp words) : ∃ outcome, Answers readFile words outcome := by
  obtain ⟨d, accepted⟩ := supplied.exists_build
  have each : ∀ word ∈ chosen words, ∃ text,
      render? g (formatOf words) (outputOf word) = some text ∧ Shows g (formatOf words) word text := by
    intro word member
    obtain ⟨text, shows⟩ := exists_shows accepted (mem_outputNames_of_mem_chosen member)
    exact ⟨text, shows.render?_outputOf, shows⟩
  obtain ⟨texts, -, shown⟩ := Grammar.exists_mapM_eq_some each
  exact ⟨_, .reports unwanted supplied shown⟩

theorem exists_answer (readFile : String → Except ReadFailure String) (words : List String) :
    ∃ outcome, Answers readFile words outcome := by
  by_cases wanted : WantsHelp words
  · exact ⟨_, .help wanted⟩
  have few : ¬ 2 ≤ (filePart words).length := fun several => wanted (.inr (.inr several))
  match part : filePart words, few with
  | [], _ =>
    have accepted : ∃ g, builtIn.build = .ok g := ⟨_, rfl⟩
    obtain ⟨g, accepted⟩ := accepted
    have supplied : Supplies readFile (filePart words) g := part ▸ .builtIn accepted
    exact supplied.exists_reports wanted
  | [file], _ =>
    cases stored : readFile file with
    | error failure => exact ⟨_, .unreadable wanted part stored⟩
    | ok document =>
      cases result : readGrammar document with
      | error rejection => exact ⟨_, .rejected wanted part stored result⟩
      | ok g =>
        have supplied : Supplies readFile (filePart words) g := part ▸ .file stored result
        exact supplied.exists_reports wanted
  | _ :: _ :: _, few => exact absurd (Nat.le_add_left 2 _) few

theorem Answers.run_eq {outcome : Outcome} (answers : Answers readFile words outcome) :
    run? words readFile = some outcome := by
  cases answers with
  | help wanted =>
    rw [run?, parse_help wanted]
    rfl
  | unreadable unwanted given failed =>
    rw [run?, parse_print unwanted, given]
    simp [execute?, load, failed, Except.mapError, bind, Except.bind, LoadFailure.message, printed]
  | rejected unwanted given stored turnedDown =>
    rw [run?, parse_print unwanted, given]
    exact execute?_rejected stored turnedDown _ _
  | reports unwanted supplied shown =>
    rw [run?, parse_print unwanted, execute?, supplied.load_eq]
    simp [mapM_render? shown]

/-- Every line is answered, and with nothing but what its words and the file call for. -/
theorem run_iff_answers (words : List String) (readFile : String → Except ReadFailure String) :
    (∃ outcome, run? words readFile = some outcome) ∧
    ∀ outcome, run? words readFile = some outcome ↔ Answers readFile words outcome := by
  obtain ⟨answer, answers⟩ := exists_answer readFile words
  refine ⟨⟨answer, answers.run_eq⟩, fun outcome => ⟨?_, Answers.run_eq⟩⟩
  intro run
  obtain rfl : answer = outcome := Option.some.inj (answers.run_eq.symm.trans run)
  exact answers

/-- In `prod -l -j prod` the last word is a file. With one more word before it, the line asks for help. -/
theorem run_iff_answers_output_as_file :
    run? ["prod", "-l", "-j", "prod"] (fun _ => .error .noSuchFile) =
      some ⟨1, "", "cannot read prod: No such file or directory (os error 2)\n"⟩ ∧
    run? ["prod", "-l", "-j", "ff", "prod"] (fun _ => .error .noSuchFile) = some ⟨0, printed helpLines, ""⟩ ∧
    ∃ report, run? ["prod", "prod", "-l", "-j"] (fun _ => .error .noSuchFile) =
      some ⟨0, ProductionsReport.json report ++ "\n" ++ report.json ++ "\n", ""⟩ := by
  have failed : Answers (fun _ => .error .noSuchFile) ["prod", "-l", "-j", "prod"]
      ⟨1, "", "cannot read " ++ "prod" ++ ": " ++ ReadFailure.noSuchFile.reason ++ "\n"⟩ :=
    .unreadable (by decide) rfl rfl
  have help : Answers (fun _ => .error .noSuchFile) ["prod", "-l", "-j", "ff", "prod"]
      ⟨0, printed helpLines, ""⟩ := .help (by decide)
  obtain ⟨g, accepted⟩ : ∃ g, builtIn.build = .ok g := ⟨_, rfl⟩
  obtain ⟨start, built⟩ := Definition.exists_build accepted
  obtain ⟨report, found, -⟩ := Grammar.exists_visible_productionsReport built
  have twice : List.Forall₂ (Shows g (formatOf ["prod", "prod", "-l", "-j"]))
      (chosen ["prod", "prod", "-l", "-j"]) [report.json, report.json] :=
    .cons (.productions found) (.cons (.productions found) .nil)
  have reported : Answers (fun _ => .error .noSuchFile) ["prod", "prod", "-l", "-j"]
      ⟨0, printed [report.json, report.json], ""⟩ := .reports (by decide) (.builtIn accepted) twice
  refine ⟨((run_iff_answers _ _).2 _).2 failed, ((run_iff_answers _ _).2 _).2 help, report, ?_⟩
  rw [((run_iff_answers _ _).2 _).2 reported]
  simp [printed, String.append_assoc]

end Answer

end CommandLine

end Lookahead
