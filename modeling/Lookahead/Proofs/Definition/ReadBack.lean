import Lookahead.Analysis
import Lookahead.Proofs.Json.ReadBack

/-!
A definition that is written down and read again is the same, whatever its strings are and whether or not it makes
a grammar.
-/

namespace Lookahead

open Json

namespace Json

theorem reads_string (s : String) : Reads string (.text s) s := by
  intro rest
  rw [text_characters_append]
  change (characterList (s.toList.flatMap escaped ++ '\"' :: rest)).map _ = _
  rw [characterList_flatMap_escaped]
  simp only [Except.map, String.ofList_toList]

theorem reads_optionalString_text (s : String) : Reads optionalString (.text s) (some s) := by
  intro rest
  have whole := reads_string s rest
  rw [text_characters_append] at whole ⊢
  change (string ('\"' :: (s.toList.flatMap escaped ++ '\"' :: rest))).map _ = _
  rw [whole]
  rfl

theorem reads_optionalString_null : Reads optionalString .null none := fun _ => rfl

end Json

variable {value : Json}

namespace Rule

theorem Draft.read_left {draft : Draft} (absent : draft.left = none) {left : String}
    (reads : Reads string value left) (rest : List Char) :
    draft.read "lhs" (':' :: (value.characters ++ rest)) = .ok ({ draft with left := some left }, rest) := by
  rw [Draft.read, if_pos rfl, absent, memberValue_characters reads]
  rfl

theorem Draft.read_rights {draft : Draft} (absent : draft.rights = none) {rights : List (List String)}
    (reads : Reads readRights value rights) (rest : List Char) :
    draft.read "rhs" (':' :: (value.characters ++ rest)) = .ok ({ draft with rights := some rights }, rest) := by
  rw [Draft.read, if_neg (by decide), if_pos rfl, absent, memberValue_characters reads]
  rfl

theorem reads_readRights (rights : List (List String)) :
    Reads readRights (.array (rights.map fun right => .array (right.map .text))) rights :=
  reads_list _ fun _ _ => reads_list string_progresses fun token _ => reads_string token

theorem reads_toJson (rule : Rule) : Reads Rule.read rule.toJson rule := by
  refine reads_record fun rest => ?_
  have takes : Takes Draft.read {} _ _ := .more (Draft.read_left rfl (reads_string rule.left))
    (.more (Draft.read_rights rfl (reads_readRights rule.rights)) (.none _))
  rw [ofMembers, members_memberCharacters takes]

end Rule

namespace Definition

theorem Draft.read_rules {draft : Draft} (absent : draft.rules = none) {rules : List Rule}
    (reads : Reads readRules value rules) (rest : List Char) :
    draft.read "rules" (':' :: (value.characters ++ rest)) = .ok ({ draft with rules := some rules }, rest) := by
  rw [Draft.read, if_pos rfl, absent, memberValue_characters reads]
  rfl

theorem Draft.read_start {draft : Draft} (absent : draft.start = none) {start : Option String}
    (reads : Reads optionalString value start) (rest : List Char) :
    draft.read "start" (':' :: (value.characters ++ rest)) = .ok ({ draft with start := some start }, rest) := by
  rw [Draft.read, if_neg (by decide), if_pos rfl, absent, memberValue_characters reads]
  rfl

theorem Draft.read_epsilon {draft : Draft} (absent : draft.epsilon = none) {epsilon : String}
    (reads : Reads string value epsilon) (rest : List Char) :
    draft.read "epsilon" (':' :: (value.characters ++ rest)) =
      .ok ({ draft with epsilon := some epsilon }, rest) := by
  rw [Draft.read, if_neg (by decide), if_neg (by decide), if_pos rfl, absent, memberValue_characters reads]
  rfl

theorem reads_readRules (rules : List Rule) : Reads readRules (.array (rules.map Rule.toJson)) rules :=
  reads_list _ fun rule _ => rule.reads_toJson

/-- Where there is no start symbol, null is written, which stands for none. -/
theorem reads_toJson (d : Definition) : Reads (record recordName ofItems ofMembers) d.toJson d := by
  refine reads_record fun rest => ?_
  obtain ⟨rules, start, epsilon⟩ := d
  have takes {value : Json} (reads : Reads optionalString value start) :
      Takes Draft.read {} [("rules", .array (rules.map Rule.toJson)), ("start", value), ("epsilon", .text epsilon)]
        ⟨some rules, some start, some epsilon⟩ :=
    .more (Draft.read_rules rfl (reads_readRules rules)) (.more (Draft.read_start rfl reads)
      (.more (Draft.read_epsilon rfl (reads_string epsilon)) (.none _)))
  cases start with
  | none =>
    rw [ofMembers, members_memberCharacters (takes reads_optionalString_null)]
    rfl
  | some start =>
    rw [ofMembers, members_memberCharacters (takes (reads_optionalString_text start))]
    rfl

/-- What is written gives the definition again, and so the same grammar or the same rejection. -/
theorem read_write (d : Definition) : read d.write = .ok d ∧ readGrammar d.write = d.build := by
  have document : readDocument d.write.toList = .ok d := by
    have reads := d.reads_toJson []
    rw [List.append_nil] at reads
    rw [write, Json.render, String.toList_ofList, readDocument, reads]
    rfl
  have same : read d.write = .ok d := by
    rw [read, document]
  refine ⟨same, ?_⟩
  rw [readGrammar, same]
  rfl

end Definition

end Lookahead
