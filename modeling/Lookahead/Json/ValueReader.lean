import Lookahead.Json.Record
import Lookahead.Json.Value

/-!
Whole values of any type, as those read them who get a report. Reports hold no numbers, so there is no
reader for them. Containers are nested up to a limit.
-/

namespace Lookahead.Json

structure ValueReader where
  read : List Char → Except Fault (Json × List Char)
  progresses : Progresses read

def putMember (reader : ValueReader) (members : List (String × Json)) (key : String) (cs : List Char) :
    Except Interruption (List (String × Json) × List Char) :=
  (memberValue reader.read cs).map fun (value, rest) => (members ++ [(key, value)], rest)

theorem putMember_length {reader : ValueReader} {members next : List (String × Json)} {key : String}
    {cs rest : List Char} (success : putMember reader members key cs = .ok (next, rest)) :
    rest.length ≤ cs.length := by
  obtain ⟨⟨value, after⟩, read, same⟩ := map_eq_ok.1 success
  obtain ⟨-, rfl⟩ := Prod.mk.inj same
  exact memberValue_length reader.progresses read

/-- A scalar, or a container whose values are read by the inner reader, if there is one. -/
def readValue (inner : Option ValueReader) (cs : List Char) : Except Fault (Json × List Char) :=
  match skipBlanks cs with
  | 'n' :: rest => (word "ull".toList rest).map (null, ·)
  | 't' :: rest => (word "rue".toList rest).map (bool true, ·)
  | 'f' :: rest => (word "alse".toList rest).map (bool false, ·)
  | '\"' :: rest => (characterList rest).map fun (cs, rest) => (text (String.ofList cs), rest)
  | '[' :: rest =>
    match inner with
    | none => .error (.next .valueExpected ('[' :: rest))
    | some reader =>
      (list reader.read reader.progresses ('[' :: rest)).map fun (items, rest) => (array items, rest)
  | '\x7b' :: rest =>
    match inner with
    | none => .error (.next .valueExpected ('\x7b' :: rest))
    | some reader =>
      (finish closeObject (members (putMember reader) putMember_length true [] rest)).map
        fun (members, rest) => (object members, rest)
  | cs => .error (.next .valueExpected cs)

theorem readValue_progresses (inner : Option ValueReader) : Progresses (readValue inner) := by
  intro cs value rest success
  have blanks := skipBlanks_length cs
  have letters {expected cs rest} := @word_length expected cs rest
  have string := characterList_progresses
  unfold Progresses at string
  unfold readValue at success
  split at success
  · grind [map_eq_ok]
  · grind [map_eq_ok]
  · grind [map_eq_ok]
  · grind [map_eq_ok]
  · split at success
    · simp at success
    · rename_i reader
      have shorter := list_progresses reader.read reader.progresses
      unfold Progresses at shorter
      grind [map_eq_ok]
  · split at success
    · simp at success
    · rename_i reader
      obtain ⟨⟨members, after⟩, finished, same⟩ := map_eq_ok.1 success
      obtain ⟨inner, read, closed⟩ := finish_eq_ok.1 finished
      have := members_length read
      have := closeObject_length closed
      grind
  · simp at success

def ValueReader.around (inner : Option ValueReader) : ValueReader :=
  ⟨readValue inner, readValue_progresses inner⟩

def valueReader : Nat → ValueReader
  | 0 => .around none
  | limit + 1 => .around (some (valueReader limit))

/-- How deep readers of reports let containers be nested. -/
def nestingLimit : Nat := 127

/-- The value that a text spells, with nothing around it but blanks. -/
def read? (document : String) : Option Json :=
  match (valueReader nestingLimit).read document.toList with
  | .error _ => none
  | .ok (value, rest) => if skipBlanks rest = [] then some value else none

end Lookahead.Json
