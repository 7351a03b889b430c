import Lookahead.Proofs.Analysis
import Lookahead.Proofs.CommandLine.Words

/-!
The command line against the analysis of documents. Where it is asked for the sets of a file as JSON, it
prints what the analysis of the file's text gives, or the message of the rejection where there is none.
-/

namespace Lookahead

theorem exists_ownReport_of_readGrammar {document : String} {g : Grammar}
    (accepted : readGrammar document = .ok g) : ∃ report, g.ownReport? = some report := by
  have agrees := agrees_readTables document
  rw [accepted] at agrees
  generalize readTables document = tables at agrees
  cases agrees with
  | ok holds =>
    obtain ⟨-, wellFormed, distinct⟩ := holds
    obtain ⟨report, found, -⟩ := Grammar.exists_ownReport wellFormed distinct
    exact ⟨report, found⟩

namespace CommandLine

variable {readFile : String → Except ReadFailure String} {file document : String}

theorem parts_json {words : List String} (plain : file ∉ options)
    (asked : words = ["-j", file] ∨ words = ["ff", "-j", file]) :
    chosen words = ["ff"] ∧ optionPart words = ["-j"] ∧ filePart words = [file] := by
  have option : "-j" ∈ options := by decide
  rcases asked with rfl | rfl
  · refine ⟨rfl, ?_, ?_⟩
    · simp [optionPart, outputNames, option, plain]
    · simp [filePart, outputNames, option, plain]
  · refine ⟨rfl, ?_, ?_⟩
    · simp [optionPart, outputNames, option, plain]
    · simp [filePart, outputNames, option, plain]

theorem parse_json {words : List String} (plain : file ∉ options)
    (asked : words = ["-j", file] ∨ words = ["ff", "-j", file]) :
    parse words = .print [.sets] .json (some file) := by
  obtain ⟨outputs, option, rest⟩ := parts_json plain asked
  have unwanted : ¬ WantsHelp words := by simp [WantsHelp, option, rest]
  rw [parse_print unwanted, outputs, formatOf, option, rest]
  rfl

/-- A file that can be read is turned down just where its text is. -/
theorem load_file (stored : readFile file = .ok document) :
    load readFile (some file) = (readGrammar document).mapError .rejected := by
  rw [load, readGrammar, stored]
  cases read : Definition.read document with
  | error rejection => simp [Except.mapError, bind, Except.bind, read]
  | ok d => simp [Except.mapError, bind, Except.bind, read]

theorem execute?_rejected {rejection : Rejection} (stored : readFile file = .ok document)
    (rejected : readGrammar document = .error rejection) (outputs : List Output) (format : Format) :
    execute? readFile (.print outputs format (some file)) = some ⟨1, "", rejection.message ++ "\n"⟩ := by
  rw [execute?, load_file stored, rejected]
  simp [Except.mapError, LoadFailure.message, printed]

theorem execute?_accepted {g : Grammar} {report : SetsReport} (stored : readFile file = .ok document)
    (accepted : readGrammar document = .ok g) (found : g.ownReport? = some report) :
    execute? readFile (.print [.sets] .json (some file)) = some ⟨0, report.json ++ "\n", ""⟩ := by
  rw [execute?, load_file stored, accepted]
  simp [Except.mapError, render?, found, printed]

/-- A line that asks for the sets as JSON and the analysis of the file's text agree: in what they print, and
in what they turn down and why. -/
theorem run_json_eq_analyse (readFile : String → Except ReadFailure String) (document : String)
    {words : List String} (stored : readFile file = .ok document) (plain : file ∉ options)
    (asked : words = ["-j", file] ∨ words = ["ff", "-j", file]) :
    ∃ text, analyse? document = some text ∧
      match readGrammar document with
      | .ok _ => run? words readFile = some ⟨0, text ++ "\n", ""⟩
      | .error _ => ∃ message, Json.read? text = some (.object [("error", .text message)]) ∧
          run? words readFile = some ⟨1, "", message ++ "\n"⟩ := by
  rw [analyse?, run?, parse_json plain asked]
  cases result : readGrammar document with
  | ok g =>
    obtain ⟨report, found⟩ := exists_ownReport_of_readGrammar result
    refine ⟨report.json, ?_, execute?_accepted stored result found⟩
    simp only [found, Option.map_some]
  | error rejection =>
    refine ⟨_, rfl, rejection.message, ?_, execute?_rejected stored result _ _⟩
    exact Json.read?_render (fitsIn_error rejection.message)

/-- `S → S a | b` is accepted. The same rules with a quote and a blank in the left side are turned down, and the
message has the quote as it is. -/
theorem run_json_eq_analyse_quoted :
    (∃ text, analyse? (Definition.write ⟨[⟨"S", [["S", "a"], ["b"]]⟩], none, "ε"⟩) = some text ∧
      run? ["-j", "grammar.json"]
          (fun _ => .ok (Definition.write ⟨[⟨"S", [["S", "a"], ["b"]]⟩], none, "ε"⟩)) =
        some ⟨0, text ++ "\n", ""⟩) ∧
    ∃ text message, analyse? (Definition.write ⟨[⟨"\" ", [["\" ", "a"], ["b"]]⟩], none, "ε"⟩) = some text ∧
      Json.read? text = some (.object [("error", .text message)]) ∧
      run? ["ff", "-j", "grammar.json"]
          (fun _ => .ok (Definition.write ⟨[⟨"\" ", [["\" ", "a"], ["b"]]⟩], none, "ε"⟩)) =
        some ⟨1, "", message ++ "\n"⟩ := by
  constructor
  · have accepted :
        (readGrammar (Definition.write ⟨[⟨"S", [["S", "a"], ["b"]]⟩], none, "ε"⟩)).toOption.isSome := by
      decide +kernel
    obtain ⟨text, analysed, agree⟩ := run_json_eq_analyse (fun _ => .ok _) _ rfl
      (show "grammar.json" ∉ _ by decide) (.inl rfl)
    refine ⟨text, analysed, ?_⟩
    generalize readGrammar _ = result at accepted agree
    cases result with
    | ok g => exact agree
    | error rejection => exact absurd accepted Bool.false_ne_true
  · have rejected :
        (readGrammar (Definition.write ⟨[⟨"\" ", [["\" ", "a"], ["b"]]⟩], none, "ε"⟩)).toOption = none := by
      decide +kernel
    obtain ⟨text, analysed, agree⟩ := run_json_eq_analyse (fun _ => .ok _) _ rfl
      (show "grammar.json" ∉ _ by decide) (.inr rfl)
    generalize readGrammar _ = result at rejected agree
    cases result with
    | ok g => exact absurd rejected (Option.some_ne_none g)
    | error rejection =>
      obtain ⟨message, spelled, run⟩ := agree
      exact ⟨text, message, analysed, spelled, run⟩

end CommandLine

end Lookahead
