import Lookahead.Definition
import Lookahead.Json.Skip

/-!
Definitions read from documents. Members may come in any order and unknown ones are skipped; a
known member may come only once, and only `start` and `epsilon` may be left out.
-/

namespace Lookahead

open Json

namespace Rule

/-- What messages call a rule. -/
def recordName : String := "RuleDefinition"

/-- The members of a rule that were read so far. -/
structure Draft where
  left : Option String := none
  rights : Option (List (List String)) := none

def readRights : List Char → Except Fault (List (List String) × List Char) :=
  list (list string string_progresses) (list_progresses _ _)

theorem readRights_progresses : Progresses readRights := list_progresses _ _

def ofItems (cs : List Char) : Except Interruption (Rule × List Char) :=
  match optionalItem string true cs with
  | .error interruption => .error interruption
  | .ok (none, rest) => .error (.cause (.tooShort 0 recordName 2) rest)
  | .ok (some left, rest) =>
    match optionalItem readRights false rest with
    | .error interruption => .error interruption
    | .ok (none, rest) => .error (.cause (.tooShort 1 recordName 2) rest)
    | .ok (some rights, rest) => .ok (⟨left, rights⟩, rest)

def Draft.read (draft : Draft) (key : String) (cs : List Char) :
    Except Interruption (Draft × List Char) :=
  if key = "lhs" then
    if draft.left.isSome then .error (.cause (.duplicateMember key) cs)
    else (memberValue string cs).map fun (left, rest) => ({ draft with left := some left }, rest)
  else if key = "rhs" then
    if draft.rights.isSome then .error (.cause (.duplicateMember key) cs)
    else (memberValue readRights cs).map fun (rights, rest) =>
      ({ draft with rights := some rights }, rest)
  else (memberValue skipValue cs).map fun (_, rest) => (draft, rest)

theorem Draft.read_length {draft next : Draft} {key : String} {cs rest : List Char}
    (success : draft.read key cs = .ok (next, rest)) : rest.length ≤ cs.length := by
  have left {cs rest a} := @memberValue_length _ string string_progresses cs rest a
  have rights {cs rest a} := @memberValue_length _ readRights readRights_progresses cs rest a
  have other {cs rest a} := @memberValue_length _ skipValue skipValue_progresses cs rest a
  unfold Draft.read at success
  grind [map_eq_ok]

def ofMembers (cs : List Char) : Except Interruption (Rule × List Char) :=
  match members Draft.read Draft.read_length true {} cs with
  | .error interruption => .error interruption
  | .ok (draft, rest) =>
    match draft.left, draft.rights with
    | none, _ => .error (.cause (.missingMember "lhs") rest)
    | some _, none => .error (.cause (.missingMember "rhs") rest)
    | some left, some rights => .ok (⟨left, rights⟩, rest)

def read : List Char → Except Fault (Rule × List Char) :=
  record recordName ofItems ofMembers

theorem read_progresses : Progresses read := by
  have left {first cs rest a} := @optionalItem_length _ string string_progresses first cs rest a
  have rights {first cs rest a} :=
    @optionalItem_length _ readRights readRights_progresses first cs rest a
  have inside {first state next cs rest} :=
    @members_length _ Draft.read Draft.read_length first state next cs rest
  refine record_progresses (fun {cs rule rest} success => ?_) (fun {cs rule rest} success => ?_)
  · unfold ofItems at success
    grind
  · unfold ofMembers at success
    grind

end Rule

namespace Definition

def recordName : String := "GrammarDefinition"

structure Draft where
  rules : Option (List Rule) := none
  start : Option (Option String) := none
  epsilon : Option String := none

/-- What may be left out gets its default. -/
def withDefaults (rules : List Rule) (start : Option (Option String))
    (epsilon : Option String) : Definition :=
  ⟨rules, start.getD none, epsilon.getD defaultEpsilon⟩

def readRules : List Char → Except Fault (List Rule × List Char) :=
  list Rule.read Rule.read_progresses

theorem readRules_progresses : Progresses readRules := list_progresses _ _

def ofItems (cs : List Char) : Except Interruption (Definition × List Char) :=
  match optionalItem readRules true cs with
  | .error interruption => .error interruption
  | .ok (none, rest) =>
    .error (.cause (.tooShort 0 recordName 3) rest)
  | .ok (some rules, rest) =>
    match optionalItem optionalString false rest with
    | .error interruption => .error interruption
    | .ok (start, rest) =>
      match optionalItem string false rest with
      | .error interruption => .error interruption
      | .ok (epsilon, rest) => .ok (withDefaults rules start epsilon, rest)

def Draft.read (draft : Draft) (key : String) (cs : List Char) :
    Except Interruption (Draft × List Char) :=
  if key = "rules" then
    if draft.rules.isSome then .error (.cause (.duplicateMember key) cs)
    else (memberValue readRules cs).map fun (rules, rest) =>
      ({ draft with rules := some rules }, rest)
  else if key = "start" then
    if draft.start.isSome then .error (.cause (.duplicateMember key) cs)
    else (memberValue optionalString cs).map fun (start, rest) =>
      ({ draft with start := some start }, rest)
  else if key = "epsilon" then
    if draft.epsilon.isSome then .error (.cause (.duplicateMember key) cs)
    else (memberValue string cs).map fun (epsilon, rest) =>
      ({ draft with epsilon := some epsilon }, rest)
  else (memberValue skipValue cs).map fun (_, rest) => (draft, rest)

theorem Draft.read_length {draft next : Draft} {key : String} {cs rest : List Char}
    (success : draft.read key cs = .ok (next, rest)) : rest.length ≤ cs.length := by
  have rules {cs rest a} := @memberValue_length _ readRules readRules_progresses cs rest a
  have start {cs rest a} :=
    @memberValue_length _ optionalString optionalString_progresses cs rest a
  have epsilon {cs rest a} := @memberValue_length _ string string_progresses cs rest a
  have other {cs rest a} := @memberValue_length _ skipValue skipValue_progresses cs rest a
  unfold Draft.read at success
  grind [map_eq_ok]

def ofMembers (cs : List Char) : Except Interruption (Definition × List Char) :=
  match members Draft.read Draft.read_length true {} cs with
  | .error interruption => .error interruption
  | .ok (draft, rest) =>
    match draft.rules with
    | none => .error (.cause (.missingMember "rules") rest)
    | some rules => .ok (withDefaults rules draft.start draft.epsilon, rest)

/-- A whole document holds one definition and nothing after it but blanks. -/
def readDocument (cs : List Char) : Except Fault Definition :=
  match record recordName ofItems ofMembers cs with
  | .error fault => .error fault
  | .ok (definition, rest) =>
    match skipBlanks rest with
    | [] => .ok definition
    | rest => .error (.next .trailingCharacters rest)

def read (document : String) : Except Rejection Definition :=
  match readDocument document.toList with
  | .error fault => .error (.malformed fault.cause (fault.place document.toList))
  | .ok definition => .ok definition

end Definition

end Lookahead
