/-!
# Failures

Everything that can go wrong in a call, by cause. A failure ends the whole call: there is no
partial answer.

## Main definitions

* `Failure` — the causes
* `Failure.message` — the wording shown to the user
-/

namespace FederatedSearch

/-- What is wrong with a request that is well-formed. -/
inductive RequestFault where
  | reversedWindow (start stop : Nat)
  | collapseWithoutRelevance
  /-- The two sides of a unite arrive at the result core through different fields. -/
  | divergingUnite (coreA coreB result : String)
  | namelessSortField
  /-- Scores of a core other than the result core are not comparable with each other. -/
  | foreignScore (core : String)
  /-- A pattern of a query cannot be compiled; `core` is where it was going to be used. -/
  | badWildcard (pattern reason core : String)
  | badRegex (pattern reason core : String)
deriving DecidableEq, Repr

/-- What is wrong with an access to a segment. -/
inductive SegmentFault where
  /-- The segment cannot be read at all. -/
  | unreadable (reason : String)
  | outsideSnapshot (doc : Nat)
  | noStoredDocument (doc : Nat)
  /-- A group of a search ended with neither a result nor a failure. -/
  | noGroupResult
deriving DecidableEq, Repr

/-- A key that one of the key-indexed structures refuses to grow to. -/
inductive KeyFault where
  | bitset (key limit : Nat)
  | score (key limit : Nat)
  | sort (key limit : Nat)
deriving DecidableEq, Repr

/-- What is wrong with the settings of an engine. -/
inductive SettingsFault where
  | noConcurrency
  | noCachedQueries
deriving DecidableEq, Repr

/-- The cause of a failed call. -/
inductive Failure where
  | unknownCore (core : String)
  | missingRelation (source target : String)
  | invalidRequest (fault : RequestFault)
  | segment (core : String) (fault : SegmentFault)
  /-- An update of a shared record was refused as often as its budget allowed. -/
  | retryBudgetExceeded (budget : Nat)
  | keyTooLarge (fault : KeyFault)
  | settings (fault : SettingsFault)
  /-- A document has not the shape of what it should describe. -/
  | malformedDocument
  | unreadableFile
deriving DecidableEq, Repr

def RequestFault.message : RequestFault → String
  | reversedWindow start stop =>
    "page window " ++ toString start ++ ".." ++ toString stop ++ " is reversed"
  | collapseWithoutRelevance => "collapse requires relevance ordering"
  | divergingUnite a b result =>
    "unite of '" ++ a ++ "' and '" ++ b ++ "' reaches '" ++ result ++ "' through different fields"
  | namelessSortField => "sort field without a name"
  | foreignScore core => "cannot sort by the score of core '" ++ core ++ "'"
  | badWildcard pattern reason core =>
    "bad wildcard '" ++ pattern ++ "': " ++ reason ++ " (core '" ++ core ++ "')"
  | badRegex pattern reason core =>
    "bad regex '" ++ pattern ++ "': " ++ reason ++ " (core '" ++ core ++ "')"

def SegmentFault.message : SegmentFault → String
  | unreadable reason => reason
  | outsideSnapshot doc => "doc " ++ toString doc ++ " is outside the snapshot"
  | noStoredDocument doc => "no stored doc " ++ toString doc
  | noGroupResult => "search group produced no result"

def KeyFault.message : KeyFault → String
  | bitset key limit => "key " ++ toString key ++ " exceeds the maximum of " ++ toString limit
  | score key limit => "score key " ++ toString key ++ " exceeds " ++ toString limit
  | sort key limit => "sort key " ++ toString key ++ " exceeds " ++ toString limit

def SettingsFault.message : SettingsFault → String
  | noConcurrency => "concurrency must be at least 1"
  | noCachedQueries => "key_cache_queries must be at least 1"

def Failure.message : Failure → String
  | unknownCore core => "unknown core: " ++ core
  | missingRelation source target =>
    "no match relates core '" ++ source ++ "' to core '" ++ target ++ "'"
  | invalidRequest fault => "invalid query: " ++ fault.message
  | segment core fault => "segment error in core '" ++ core ++ "': " ++ fault.message
  | retryBudgetExceeded budget =>
    "compare-and-swap retry budget of " ++ toString budget ++ " exceeded"
  | keyTooLarge fault => "bitset capacity invariant violated: " ++ fault.message
  | settings fault => "configuration error: " ++ fault.message
  | malformedDocument => "malformed document"
  | unreadableFile => "unreadable file"

end FederatedSearch
