import FederatedSearch.Proofs.Session

/-!
# The caches do not show

Whatever a session has done before, collecting join keys from a snapshot that it holds comes to what
it would come to without any memory: the keys of the live documents that match, or a failure that
says something about the query and the documents and nothing about the caches.

## Main results

* `Session.collectKeys_eq_uncached`
-/

namespace FederatedSearch

namespace Snapshot

variable [PatternEngines]

/-- A live document of the snapshot matches the query and has this key in the field. -/
def FindsKey (snapshot : Snapshot) (query : Query) (field : String) (key : JoinKey) : Prop :=
  ∃ placed ∈ snapshot.segments, ∃ segment, placed.segment = .indexed segment ∧
    ∃ doc, segment.Finds query doc ∧ segment.joinKey field doc = key

/-- The keys cannot be collected: there is something to search and some pattern of the query is bad,
or a matching document has a key beyond what a bitset admits. -/
def Refuses (snapshot : Snapshot) (query : Query) (field : String) : Prop :=
  (snapshot.segments ≠ [] ∧ query.compiles = false) ∨
    ∃ key, snapshot.FindsKey query field key ∧ maxKey < key

variable {snapshot : Snapshot} {query : Query} {field : String}
  (hindexed : ∀ placed ∈ snapshot.segments, ∃ segment, placed.segment = .indexed segment)
include hindexed

theorem exists_hasKey_iff (key : JoinKey) :
    (∃ placed ∈ snapshot.segments, placed.segment.HasKey query field key) ↔
      key ≠ noKey ∧ snapshot.FindsKey query field key := by
  constructor
  · rintro ⟨placed, hp, hkey⟩
    obtain ⟨segment, hs⟩ := hindexed placed hp
    rw [hs, IndexedSegment.hasKey_iff] at hkey
    exact ⟨hkey.1, placed, hp, segment, hs, hkey.2⟩
  · rintro ⟨h0, placed, hp, segment, hs, hdoc⟩
    exact ⟨placed, hp, by rw [hs, IndexedSegment.hasKey_iff]; exact ⟨h0, hdoc⟩⟩

theorem exists_not_answers_iff :
    (∃ placed ∈ snapshot.segments, ¬ placed.segment.Answers query field) ↔
      snapshot.Refuses query field := by
  constructor
  · rintro ⟨placed, hp, hcannot⟩
    obtain ⟨segment, hs⟩ := hindexed placed hp
    rw [hs, IndexedSegment.answers_iff, not_and_or] at hcannot
    rcases hcannot with hbad | hbig
    · exact .inl ⟨List.ne_nil_of_mem hp, Bool.eq_false_iff.mpr hbad⟩
    · obtain ⟨doc, hdoc⟩ := not_forall.mp hbig
      obtain ⟨hfinds, hlt⟩ := Classical.not_imp.mp hdoc
      exact .inr ⟨_, ⟨placed, hp, segment, hs, doc, hfinds, rfl⟩, Nat.not_le.mp hlt⟩
  · rintro (⟨hne, hbad⟩ | ⟨key, ⟨placed, hp, segment, hs, doc, hfinds, rfl⟩, hlt⟩)
    · obtain ⟨placed, hp⟩ := List.exists_mem_of_ne_nil _ hne
      obtain ⟨segment, hs⟩ := hindexed placed hp
      refine ⟨placed, hp, fun hanswers => ?_⟩
      rw [hs, IndexedSegment.answers_iff, hbad] at hanswers
      exact absurd hanswers.1 Bool.false_ne_true
    · refine ⟨placed, hp, fun hanswers => ?_⟩
      rw [hs, IndexedSegment.answers_iff] at hanswers
      exact absurd (hanswers.2 doc hfinds) (Nat.not_le.mpr hlt)

end Snapshot

/-- The keys of all live documents that match, or a failure if the keys cannot be collected. -/
def Snapshot.CollectsTo [PatternEngines] (snapshot : Snapshot) (query : Query) (field : String) :
    Except Failure KeyBits → Prop
  | .ok bits => ¬ snapshot.Refuses query field ∧
    ∀ key : Nat, bits.contains key = true ↔ key ≠ noKey ∧ snapshot.FindsKey query field key
  | .error _ => snapshot.Refuses query field

theorem Snapshot.CollectsTo.agrees [PatternEngines] {snapshot : Snapshot} {query : Query} {field : String}
    {r r' : Except Failure KeyBits} (h : snapshot.CollectsTo query field r)
    (h' : snapshot.CollectsTo query field r') : Agrees KeyBits.Alike r r' := by
  cases r with
  | error failure =>
    cases r' with
    | error failure' => exact .error failure failure'
    | ok bits' => exact absurd h h'.1
  | ok bits =>
    cases r' with
    | error failure' => exact absurd h' h.1
    | ok bits' =>
      refine .ok fun key => ?_
      rw [Bool.eq_iff_iff, h.2, h'.2]

theorem Snapshot.collectsTo_of_meets [PatternEngines] {snapshot : Snapshot} {query : Query}
    {field : String}
    (hindexed : ∀ placed ∈ snapshot.segments, ∃ segment, placed.segment = .indexed segment)
    {r : Except Failure KeyBits}
    (h : Meets (fun bits => Answered query field snapshot.segments (bits.contains · = true))
      (fun _ => ∃ placed ∈ snapshot.segments, ¬ placed.segment.Answers query field) r) :
    snapshot.CollectsTo query field r := by
  rcases r with failure | bits
  · exact (Snapshot.exists_not_answers_iff hindexed).mp h
  · refine ⟨fun hrefuses => ?_, fun key => ?_⟩
    · obtain ⟨placed, hp, hcannot⟩ := (Snapshot.exists_not_answers_iff hindexed).mpr hrefuses
      exact hcannot (h.answers placed hp)
    · rw [h.found_iff, Snapshot.exists_hasKey_iff hindexed]

/-- **The caches do not show.** After any history, collecting join keys through the caches from a
snapshot that is held gives the same as collecting them without any memory: the keys of the live
documents that match, unless the keys cannot be collected. It does not matter how many groups the two
searches have, nor in what order these take their steps. -/
theorem Session.collectKeys_eq_uncached [PatternEngines] (settings : Settings) (history : List Event)
    (i : Nat)
    {snapshot : Snapshot} (hheld : (run settings history).held[i]? = some snapshot) (query : Query)
    (field : String) (concurrency concurrency' : Nat) (schedule schedule' : Schedule) :
    let session := run settings history
    let cached := (Caches.collectKeys ⟨concurrency, session.live⟩ schedule snapshot query field).result
      session.caches
    let uncached := ((joinKeys field).search ⟨concurrency', session.live⟩ schedule' snapshot query).result
      .empty
    Agrees KeyBits.Alike cached.1 uncached.1 ∧
      (∀ bits, cached.1 = .ok bits → ∀ key,
        bits.contains key = true ↔ key ≠ noKey ∧ snapshot.FindsKey query field key) ∧
      ((∃ failure, cached.1 = .error failure) ↔ snapshot.Refuses query field) := by
  intro session cached uncached
  obtain ⟨catalog, hrecorded⟩ := exists_recorded settings history
  have hmem : snapshot ∈ session.held := List.mem_of_getElem? hheld
  have hlists : ∀ placed ∈ snapshot.segments, catalog.Lists placed.segment :=
    fun placed hp => (hrecorded.held snapshot hmem placed hp).1
  have hindexed : ∀ placed ∈ snapshot.segments, ∃ segment, placed.segment = .indexed segment :=
    fun placed hp => (hrecorded.held snapshot hmem placed hp).2
  have hcached : snapshot.CollectsTo query field cached.1 :=
    Snapshot.collectsTo_of_meets hindexed
      (Caches.comes_collectKeys _ _ hlists query field _ hrecorded.caches).2
  have huncached : snapshot.CollectsTo query field uncached.1 :=
    Snapshot.collectsTo_of_meets hindexed
      (Caches.comes_search_joinKeys _ _ hlists query field _ KeyColumns.sound_empty).2
  refine ⟨hcached.agrees huncached, fun bits hbits => ?_, ?_⟩
  · rw [hbits] at hcached
    exact hcached.2
  · rcases hr : cached.1 with failure | bits
    · rw [hr] at hcached
      exact ⟨fun _ => hcached, fun _ => ⟨failure, rfl⟩⟩
    · rw [hr] at hcached
      refine ⟨?_, fun hrefuses => absurd hrefuses hcached.1⟩
      rintro ⟨failure, hfailure⟩
      exact absurd hfailure (by simp)

/-- Two segments are searched, a document of one is deleted, and the core is searched again. -/
def Session.deletionHistory : List Event :=
  let query : Query := .term "color" "red"
  let doc := fun (id : String) (key : Int64) =>
    { id, fields := .ofList [("K", .int key), ("color", .text "red")] : Document }
  [.createCore "cars", .addSegment 0 [doc "c1" 1, doc "c2" 2], .addSegment 0 [doc "c3" 3],
    .takeSnapshot 0, .collectKeys 0 query "K" 1 [], .delete 0 "c1", .takeSnapshot 0,
    .collectKeys 1 query "K" 2 [⟨1, false⟩, ⟨0, false⟩]]

theorem Session.collectKeys_eq_uncached_deletion :
    let session := run (.standard 2) deletionHistory
    ∃ snapshot, session.held[1]? = some snapshot ∧
      Agrees KeyBits.Alike
        ((Caches.collectKeys ⟨2, session.live⟩ [⟨1, false⟩] snapshot (.term "color" "red") "K").result
          session.caches).1
        (((joinKeys "K").search ⟨1, session.live⟩ [] snapshot (.term "color" "red")).result .empty).1 := by
  have hlength : 1 < (run (.standard 2) deletionHistory).held.length := by decide +kernel
  have hheld := List.getElem?_eq_getElem hlength
  have hagrees := (collectKeys_eq_uncached _ _ 1 hheld (.term "color" "red") "K" 2 1 [⟨1, false⟩] []).1
  exact ⟨_, hheld, hagrees⟩

end FederatedSearch
