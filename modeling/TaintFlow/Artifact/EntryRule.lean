/-
The rule at which an artifact is entered.

By convention it is the rule that stands first in the document.  A table of rules
does not tell which one that was, for a rule may come again later, so the
document is read a second time.  This reading looks at nothing but the first name
in the object of rules, and skips everything else.
-/
import TaintFlow.Json.Record

namespace TaintFlow
namespace Artifact

open Json (Input Outcome Field Reader Record nextKey colon skipValue)

/-- Skips the entries of an object that come after the first. -/
def skipEntries (text : Input) : Except Json.Fault Input :=
  match _h : nextKey false text with
  | .error fault => .error fault
  | .ok (.close rest) => .ok rest.tail
  | .ok (.more _ rest) =>
    match _hc : colon rest with
    | .error fault => .error fault
    | .ok rest =>
      match _hv : skipValue rest with
      | .error fault => .error fault
      | .ok rest => skipEntries rest
termination_by text.length
decreasing_by
  have := Json.length_lt_of_nextKey _h
  have := Json.length_lt_of_colon _hc
  have := Json.length_le_of_skipValue _hv
  omega

theorem length_lt_of_skipEntries {text rest : Input} (h : skipEntries text = .ok rest) :
    rest.length < text.length := by
  fun_induction skipEntries text with
  | case1 => cases h
  | case2 _ _ hn => cases h; exact Reader.tail_length_lt_of_nextKey_close hn
  | case3 => cases h
  | case4 => cases h
  | case5 _ _ _ hn _ hc _ hv ih =>
    have := Json.length_lt_of_nextKey hn
    have := Json.length_lt_of_colon hc
    have := Json.length_le_of_skipValue hv
    have := ih h
    omega

/-- The first name of an object, behind its opening bracket, if it has one. -/
def firstName (text : Input) : Outcome (Option String) :=
  match nextKey true text with
  | .error fault => .error fault
  | .ok (.close rest) => .ok (none, rest.tail)
  | .ok (.more name rest) =>
    match colon rest with
    | .error fault => .error fault
    | .ok rest =>
      match skipValue rest with
      | .error fault => .error fault
      | .ok rest =>
        match skipEntries rest with
        | .error fault => .error fault
        | .ok rest => .ok (some name, rest)

theorem length_lt_of_firstName {text rest : Input} {name : Option String}
    (h : firstName text = .ok (name, rest)) : rest.length < text.length := by
  unfold firstName at h
  split at h
  · cases h
  · next hn => cases h; exact Reader.tail_length_lt_of_nextKey_close hn
  · next hn =>
    split at h
    · cases h
    · next hc =>
      split at h
      · cases h
      · next hv =>
        split at h
        · cases h
        · next he =>
          cases h
          have := Json.length_lt_of_nextKey hn
          have := Json.length_lt_of_colon hc
          have := Json.length_le_of_skipValue hv
          have := length_lt_of_skipEntries he
          omega

def firstNameReader : Reader (Option String) where
  run text :=
    match Json.skipSpace text with
    | [] => .error (.next .endInValue [])
    | '{' :: rest => firstName rest
    | rest => .error (Json.typeFault "an object of rules" rest)
  length_lt {text _ _} h := by
    have hs := Json.length_skipSpace_le text
    split at h
    · cases h
    · next heq =>
      rw [heq] at hs
      have := length_lt_of_firstName h
      simp only [List.length_cons] at hs; omega
    · cases h

/-- An artifact as a record of which only the rules are read. -/
def entryRecord : Record (Option String) where
  title := "an artifact"
  default := none
  fields := [.of "rules" firstNameReader (fun name _ => name) true]

/-- The name of the first rule in the text of an artifact.  There is none when
the artifact has no rules or cannot be read. -/
def entryRule? (text : String) : Option String :=
  match (entryRecord.reader Json.greatestDepth).readAll text.toList with
  | .ok name => name
  | .error _ => none

end Artifact
end TaintFlow
