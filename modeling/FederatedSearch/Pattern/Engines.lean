/-!
# Pattern engines

Queries hold wildcards and regular expressions as they were written. What such a pattern matches, and
whether it is a pattern at all, is left to engines, which may have limits of their own: a long or
deeply nested pattern can be beyond one engine and not beyond another one. Searches work with whatever
engines there are.

## Main definitions

* `PatternEngines` — how patterns are compiled
-/

namespace FederatedSearch

/-- The engines of patterns. A pattern is compiled to the texts that it matches, or else there is a
report of what is wrong with it. -/
class PatternEngines where
  wildcard : String → Except String (String → Bool)
  regex : String → Except String (String → Bool)

end FederatedSearch
