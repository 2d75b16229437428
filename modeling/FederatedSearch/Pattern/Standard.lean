import FederatedSearch.Pattern.Engines
import FederatedSearch.Pattern.Regex
import FederatedSearch.Pattern.Wildcard

/-!
# The standard engines

Wildcards describe whole texts and regular expressions are found anywhere in a text. There is no limit
on the length of a pattern or on how deep it is nested.

## Main definitions

* `standardEngines` — the engines that the program works with
-/

namespace FederatedSearch

/-- What a wildcard describes. -/
def Wildcard.engine (pattern : String) : Except String (String → Bool) :=
  match compile pattern with
  | .ok compiled => .ok (describes compiled)
  | .error fault => .error (report pattern fault)

/-- Where a regular expression is found. -/
def Regex.engine (expression : String) : Except String (String → Bool) :=
  match compile? expression with
  | some compiled => .ok (findsIn compiled)
  | none => .error (report expression)

instance standardEngines : PatternEngines := ⟨Wildcard.engine, Regex.engine⟩

end FederatedSearch
