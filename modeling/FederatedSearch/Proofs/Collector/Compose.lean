import FederatedSearch.Proofs.Search.Reading

/-!
# Several collectors over the same matches

Searching with two collectors at once is searching with each of them on its own: each step that a group
takes is a step of one of them, on its own board. So what can be said of the searches with the two holds of
the search with both, and it is the same with any number of collectors.

The steps of the two are not taken one after the other, and steps of other groups come in between. So what
the searches are compared with are searches on schedules of their own.

A collector that skips a segment on its own account sees nothing of it, although the segment is
searched if another collector wants to see it.

## Main results

* `splits_readGroup_both`, `splits_readGroup_many` — the groups of a search
* `Comes.both`, `comes_many` — what searches come to
-/

namespace FederatedSearch

theorem readColumns_append (s : Segment) (fields more : List String) :
    readColumns s (fields ++ more) = (do
      let columns ← readColumns s fields
      let rest ← readColumns s more
      return columns ++ rest) := by
  induction fields with
  | nil =>
    rw [List.nil_append]
    rcases readColumns s more with _ | _ <;> rfl
  | cons field fields ih =>
    rw [List.cons_append, readColumns_cons, readColumns_cons, ih]
    rcases s.joinKeys field with _ | column
    · rfl
    rcases readColumns s fields with _ | columns
    · rfl
    rcases readColumns s more with _ | _ <;> rfl

namespace Collector

variable {B C L M P Q F G : Type}

open Process

/-! ### A segment, once it is bound -/

/-- What is done with the hits of a segment. -/
def takeHits (c : Collector B L P F) (bound : Bound) (hits : List Hit) (l : L) : Process B L :=
  hits.foldlM (fun l hit => c.collect bound hit l) l >>= c.endSegment bound

/-- What is done with a bound segment. -/
def visit [PatternEngines] (c : Collector B L P F) (query : Query) (placed : Placed) (b : Binding L) :
    Process B L :=
  match b.visit with
  | .skip => pure b.state
  | .docs => .ofExcept (placed.segment.search query true) >>= fun hits =>
    c.takeHits (.of placed) hits b.state

theorem readSegment_eq [PatternEngines] (c : Collector B L P F) (query : Query) (l : L)
    (placed : Placed) :
    c.readSegment query l placed = c.bind placed l >>= fun b =>
      .ofExcept (readColumns placed.segment b.fields) >>= fun _ => c.visit query placed b := by
  rfl

/-- A collector that may be off. -/
theorem takeHits_switched (c : Collector B L P F) (on : Bool) (bound : Bound) (hits : List Hit) (l : L) :
    (hits.foldlM (fun l hit => if on then c.collect bound hit l else pure l) l >>= fun l =>
      if on then c.endSegment bound l else pure l) =
        if on then c.takeHits bound hits l else pure l := by
  cases on with
  | true => rfl
  | false =>
    simp only [Bool.false_eq_true, if_false]
    rw [foldlM_pure_self, pure_bind]

/-! ### Two collectors -/

section Both

variable (a : Collector B L P F) (b : Collector C M Q G)

/-- The board of a pair. -/
def PairBoard (s : B × C) (t : B) (u : C) : Prop := s = (t, u)

/-- Both parts of a pair, each on its own board. -/
theorem splits_both {x : Process B L} {y : Process C M} {L' M' N' : Type} {rel : N' → L' → M' → Prop}
    {f : L → M → Process (B × C) N'} {g : L → Process B L'} {h : M → Process C M'}
    (hf : ∀ l m, Splits PairBoard rel (f l m) (g l) (h m)) :
    Splits PairBoard rel (x.focus .first >>= fun l => y.focus .second >>= fun m => f l m) (x >>= g)
      (y >>= h) := by
  refine Splits.seq (splits_focus_first ?_ ?_ x) (splits_focus_second ?_ ?_ y) hf
  · rintro _ t u rfl
    rfl
  · rintro l _ t u rfl
    rfl
  · rintro _ t u rfl
    rfl
  · rintro m _ t u rfl
    rfl

/-- The local state of the pair, and which of the two are on. -/
def PairState.Of (on : Bool × Bool) (z : PairState L M) (x : L) (y : M) : Prop :=
  z = ⟨x, y, on.1, on.2⟩

theorem both_collect (bound : Bound) (hit : Hit) (l : PairState L M) :
    (a.both b).collect bound hit l =
      (if l.firstOn then (a.collect bound hit l.first).focus .first else pure l.first) >>= fun x =>
        (if l.secondOn then (b.collect bound hit l.second).focus .second else pure l.second) >>= fun y =>
          pure { l with first := x, second := y } := by
  simp only [both]
  cases l.firstOn <;> cases l.secondOn <;> rfl

theorem both_endSegment (bound : Bound) (l : PairState L M) :
    (a.both b).endSegment bound l =
      (if l.firstOn then (a.endSegment bound l.first).focus .first else pure l.first) >>= fun x =>
        (if l.secondOn then (b.endSegment bound l.second).focus .second else pure l.second) >>= fun y =>
          pure { l with first := x, second := y } := by
  simp only [both]
  cases l.firstOn <;> cases l.secondOn <;> rfl

/-- A step of each of the two that is on. -/
theorem splits_switched (on : Bool × Bool) (x : Process B L) (y : Process C M) {l : L} {m : M}
    {z : PairState L M} (h : PairState.Of on z l m) :
    Splits PairBoard (PairState.Of on)
      ((if z.firstOn then x.focus .first else pure z.first) >>= fun l =>
        (if z.secondOn then y.focus .second else pure z.second) >>= fun m =>
          pure { z with first := l, second := m })
      (if on.1 then x else pure l) (if on.2 then y else pure m) := by
  subst h
  have hfirst : (if on.1 then x.focus .first else pure l : Process (B × C) L) =
      (if on.1 then x else pure l).focus .first := by
    cases on.1 <;> rfl
  have hsecond : (if on.2 then y.focus .second else pure m : Process (B × C) M) =
      (if on.2 then y else pure m).focus .second := by
    cases on.2 <;> rfl
  rw [hfirst, hsecond]
  have hboth : Splits PairBoard (PairState.Of on) _ ((if on.1 then x else pure l) >>= pure)
      ((if on.2 then y else pure m) >>= pure) :=
    splits_both (f := fun l m => pure (⟨l, m, on.1, on.2⟩ : PairState L M)) fun l m => splits_pure rfl
  rwa [bind_pure, bind_pure] at hboth

theorem splits_collect (on : Bool × Bool) (bound : Bound) (hit : Hit) {x : L} {y : M}
    {z : PairState L M} (h : PairState.Of on z x y) :
    Splits PairBoard (PairState.Of on) ((a.both b).collect bound hit z)
      (if on.1 then a.collect bound hit x else pure x)
      (if on.2 then b.collect bound hit y else pure y) := by
  rw [both_collect]
  subst h
  exact splits_switched on _ _ rfl

theorem splits_endSegment (on : Bool × Bool) (bound : Bound) {x : L} {y : M} {z : PairState L M}
    (h : PairState.Of on z x y) :
    Splits PairBoard (PairState.Of on) ((a.both b).endSegment bound z)
      (if on.1 then a.endSegment bound x else pure x)
      (if on.2 then b.endSegment bound y else pure y) := by
  rw [both_endSegment]
  subst h
  exact splits_switched on _ _ rfl

/-- The local state of the pair, whichever of the two are on. -/
def PairState.Has (z : PairState L M) (x : L) (y : M) : Prop := z.first = x ∧ z.second = y

theorem PairState.Of.has {on : Bool × Bool} {x : L} {y : M} {z : PairState L M}
    (h : PairState.Of on z x y) : PairState.Has z x y := by
  subst h
  exact ⟨rfl, rfl⟩

/-- Each of the two that is on takes all hits. -/
theorem splits_takeHits (on : Bool × Bool) (bound : Bound) (hits : List Hit) (x : L) (y : M) :
    Splits PairBoard PairState.Has ((a.both b).takeHits bound hits ⟨x, y, on.1, on.2⟩)
      (if on.1 then a.takeHits bound hits x else pure x)
      (if on.2 then b.takeHits bound hits y else pure y) := by
  rw [← takeHits_switched, ← takeHits_switched]
  have hloop := Splits.foldlM (fun hit x y z h => splits_collect a b on bound hit h) hits
    (show PairState.Of on ⟨x, y, on.1, on.2⟩ x y from rfl)
  exact (hloop.bind fun x y z h => splits_endSegment a b on bound h).mono fun _ _ _ h => h.has

variable [PatternEngines]

theorem splits_visit (query : Query) (placed : Placed) (x : Binding L) (y : Binding M) :
    Splits PairBoard PairState.Has
      ((a.both b).visit query placed {
        visit := if x.visit = .docs ∨ y.visit = .docs then .docs else .skip
        fields := x.fields ++ y.fields
        state := ⟨x.state, y.state, x.visit = .docs, y.visit = .docs⟩ })
      (a.visit query placed x) (b.visit query placed y) := by
  rcases x with ⟨visitX, fieldsX, x⟩
  rcases y with ⟨visitY, fieldsY, y⟩
  cases visitX with
  | skip =>
    cases visitY with
    | skip => exact splits_pure ⟨rfl, rfl⟩
    | docs =>
      refine (splits_ofExcept_second _).bind (g := fun _ => pure x) ?_
      rintro _ _ hits rfl
      exact splits_takeHits a b (false, true) (.of placed) hits x y
  | docs =>
    cases visitY with
    | skip =>
      refine (splits_ofExcept_first _).bind (h := fun _ => pure y) ?_
      rintro _ _ hits rfl
      exact splits_takeHits a b (true, false) (.of placed) hits x y
    | docs =>
      refine (splits_ofExcept _).bind ?_
      rintro _ hits _ ⟨rfl, rfl⟩
      exact splits_takeHits a b (true, true) (.of placed) hits x y

theorem splits_readSegment_both (query : Query) (placed : Placed) {x : L} {y : M}
    {z : PairState L M} (h : PairState.Has z x y) :
    Splits PairBoard PairState.Has ((a.both b).readSegment query z placed)
      (a.readSegment query x placed) (b.readSegment query y placed) := by
  obtain ⟨rfl, rfl⟩ := h
  have hbind : ∀ k : Binding (PairState L M) → Process (B × C) (PairState L M),
      (a.both b).bind placed z >>= k = (a.bind placed z.first).focus .first >>= fun x =>
        (b.bind placed z.second).focus .second >>= fun y => k {
          visit := if x.visit = .docs ∨ y.visit = .docs then .docs else .skip
          fields := x.fields ++ y.fields
          state := ⟨x.state, y.state, x.visit = .docs, y.visit = .docs⟩ } := by
    intro k
    simp only [both, bind_assoc, pure_bind]
  rw [readSegment_eq, readSegment_eq, readSegment_eq, hbind]
  refine splits_both fun x y => ?_
  simp only [readColumns_append, Process.ofExcept_bind, bind_assoc]
  exact Splits.seq (splits_ofExcept_first _) (splits_ofExcept_second _) fun _ _ =>
    splits_visit a b query placed x y

/-- **A group with two collectors** is two groups side by side. -/
theorem splits_readGroup_both (query : Query) (group : List Placed) :
    Splits PairBoard (fun z p q => z = (p, q)) ((a.both b).readGroup query group)
      (a.readGroup query group) (b.readGroup query group) := by
  have hstart : Splits PairBoard PairState.Has (a.both b).start (a.start >>= pure) (b.start >>= pure) :=
    splits_both fun x y => splits_pure ⟨rfl, rfl⟩
  rw [bind_pure, bind_pure] at hstart
  refine hstart.bind fun x y z hz => ?_
  refine (Splits.foldlM (fun placed _ _ _ h => splits_readSegment_both a b query placed h) group hz).bind ?_
  rintro _ _ z ⟨rfl, rfl⟩
  have hfinish : Splits PairBoard (fun z p q => z = (p, q)) ((a.both b).finish z)
      (a.finish z.first >>= pure) (b.finish z.second >>= pure) :=
    splits_both fun p q => splits_pure rfl
  rwa [bind_pure, bind_pure] at hfinish

variable {a b}

/-- **Two collectors at once** come to what each of them comes to, and fail with what one of them fails
with. -/
theorem Comes.both {core : String} {groups : List (List Placed)} {query : Query} {good : F → Prop}
    {good' : G → Prop} {bad bad' : Failure → Prop} (ha : a.Comes core groups query good bad)
    (hb : b.Comes core groups query good' bad') :
    (a.both b).Comes core groups query (fun x => good x.1 ∧ good' x.2)
      fun failure => bad failure ∨ bad' failure := by
  intro schedule
  obtain ⟨hok, herror⟩ := Gathering.splits_gather
    (fun group (_ : group ∈ groups) => splits_readGroup_both a b query group)
    (show PairBoard (a.board, b.board) a.board b.board from rfl) core schedule
  rw [result_readScheduled]
  rcases hr : (Gathering.gather core schedule (groups.map ((a.both b).readGroup query))).result
      (a.both b).board with ⟨failure | partials, t⟩
  · rcases herror failure (congrArg Prod.fst hr) with ⟨first, hfails⟩ | ⟨second, hfails⟩
    · exact .inl (ha.of_gather_error hfails)
    · exact .inr (hb.of_gather_error hfails)
  · obtain ⟨first, second, xs, ys, t₁, t₂, hfirst, hsecond, rfl, hxs, hys⟩ := hok partials t hr
    obtain rfl : partials.map (·.1) = xs :=
      map_eq_of_forall₂ (hxs.imp fun z x ⟨y, hz⟩ => congrArg Prod.fst hz)
    obtain rfl : partials.map (·.2) = ys :=
      map_eq_of_forall₂ (hys.imp fun z y ⟨x, hz⟩ => congrArg Prod.snd hz)
    have hx : Meets good (fun failure => bad failure ∨ bad' failure)
        (a.merge t₁ (partials.map (·.1))) := (ha.of_gather_ok hfirst).mono (fun _ h => h) fun _ => .inl
    have hy : Meets good' (fun failure => bad failure ∨ bad' failure)
        (b.merge t₂ (partials.map (·.2))) := (hb.of_gather_ok hsecond).mono (fun _ h => h) fun _ => .inr
    exact hx.bind fun x hgood => hy.bind fun y hgood' => ⟨hgood, hgood'⟩

end Both

/-! ### Many collectors -/

section Many

variable (c : Collector B L P F) (cs : List (Collector B L P F))

/-- The board of a collector and those of the rest. -/
def ConsBoard (s : List B) (t : B) (u : List B) : Prop := s = t :: u

/-- The first of many and the rest, each on their own boards. Something is known of the rest. -/
theorem splits_cons (blank : B) {x : Process B L} {y : Process (List B) M} {good : M → Prop}
    (hy : y.EndsOnly good fun _ => True) {L' M' N' : Type} {rel : N' → L' → M' → Prop}
    {f : L → M → Process (List B) N'} {g : L → Process B L'} {h : M → Process (List B) M'}
    (hf : ∀ l m, good m → Splits ConsBoard rel (f l m) (g l) (h m)) :
    Splits ConsBoard rel (x.focus (.head blank) >>= fun l => y.focus .tail >>= fun m => f l m) (x >>= g)
      (y >>= h) := by
  refine Splits.seq_of_endsOnly (splits_focus_first ?_ ?_ x) (splits_focus_second ?_ ?_ y) hy hf
  · rintro _ t u rfl
    rfl
  · rintro l _ t u rfl
    rfl
  · rintro _ t u rfl
    rfl
  · rintro m _ t u rfl
    rfl

/-- The local states of a collector and of the rest, where the flag says whether the first is on. -/
def Member.Cons (on : Bool) (z : List (Member L)) (x : L) (rest : List (Member L)) : Prop :=
  z = ⟨x, on⟩ :: rest

/-- All members are off. -/
def AllOff (cs : List (Collector B L P F)) (ms : List (Member L)) : Prop :=
  ms.length = cs.length ∧ ∀ m ∈ ms, m.isOn = false

theorem eachOn_nil (step : Collector B L P F → L → Process B L) (ms : List (Member L)) :
    eachOn step [] ms = pure [] := by
  cases ms <;> rfl

theorem eachOn_cons (step : Collector B L P F → L → Process B L) (m : Member L) (ms : List (Member L)) :
    eachOn step (c :: cs) (m :: ms) =
      (if m.isOn then (step c m.state).focus (.head c.board) else pure m.state) >>= fun x =>
        (eachOn step cs ms).focus .tail >>= fun rest => pure ({ m with state := x } :: rest) := by
  rw [eachOn]
  cases m.isOn <;> rfl

theorem splits_eachOn (step : Collector B L P F → L → Process B L) (on : Bool) {x : L}
    {rest z : List (Member L)} (h : Member.Cons on z x rest) :
    Splits ConsBoard (Member.Cons on) (eachOn step (c :: cs) z) (if on then step c x else pure x)
      (eachOn step cs rest) := by
  subst h
  have hfirst : (if on then (step c x).focus (.head c.board) else pure x : Process (List B) L) =
      (if on then step c x else pure x).focus (.head c.board) := by
    cases on <;> rfl
  have hcons : Splits ConsBoard (Member.Cons on)
      ((if on then step c x else pure x).focus (.head c.board) >>= fun x =>
        (eachOn step cs rest).focus .tail >>= fun rest => pure (⟨x, on⟩ :: rest))
      ((if on then step c x else pure x) >>= pure) (eachOn step cs rest >>= pure) :=
    splits_cons c.board (endsOnly_true _) fun x rest _ => splits_pure rfl
  rw [bind_pure, bind_pure, ← hfirst] at hcons
  rw [eachOn_cons]
  exact hcons

/-- Members that are off do nothing. -/
theorem eachOn_of_allOff (step : Collector B L P F → L → Process B L) {ms : List (Member L)}
    (h : AllOff cs ms) : eachOn step cs ms = pure ms := by
  induction cs generalizing ms with
  | nil => rw [List.eq_nil_of_length_eq_zero h.1, eachOn_nil]
  | cons c cs ih =>
    obtain ⟨hlength, hoff⟩ := h
    cases ms with
    | nil => exact absurd hlength (by simp)
    | cons m ms =>
      obtain ⟨hm, hrest⟩ := List.forall_mem_cons.mp hoff
      obtain ⟨x, on⟩ := m
      obtain rfl : on = false := hm
      rw [eachOn_cons, ih ⟨Nat.succ.inj hlength, hrest⟩, if_neg Bool.false_ne_true, pure_bind]
      rfl

theorem endsOnly_eachOn (step : Collector B L P F → L → Process B L) {ms : List (Member L)}
    (h : ms.length = cs.length) :
    (eachOn step cs ms).EndsOnly (fun ms => ms.length = cs.length) fun _ => True := by
  induction cs generalizing ms with
  | nil =>
    rw [eachOn_nil]
    exact endsOnly_pure rfl
  | cons c cs ih =>
    cases ms with
    | nil => exact absurd h (by simp)
    | cons m ms =>
      rw [eachOn_cons]
      refine (endsOnly_true _).bind fun x _ => ((ih (Nat.succ.inj h)).focus _).bind fun rest hrest => ?_
      exact endsOnly_pure (by rw [List.length_cons, hrest, List.length_cons])

theorem endsOnly_startEach :
    (startEach cs).EndsOnly (fun ms => ms.length = cs.length) fun _ => True := by
  induction cs with
  | nil => exact endsOnly_pure rfl
  | cons c cs ih =>
    refine (endsOnly_true _).bind fun x _ => (ih.focus _).bind fun rest hrest => ?_
    exact endsOnly_pure (by rw [List.length_cons, hrest, List.length_cons])

/-- If all members skip a segment then they are all off. -/
theorem endsOnly_bindEach (placed : Placed) {ms : List (Member L)} (h : ms.length = cs.length) :
    (bindEach placed cs ms).EndsOnly
      (fun b => b.state.length = cs.length ∧ (b.visit = .skip → AllOff cs b.state))
      fun _ => True := by
  induction cs generalizing ms with
  | nil =>
    rw [List.eq_nil_of_length_eq_zero h]
    exact endsOnly_pure ⟨rfl, fun _ => ⟨rfl, nofun⟩⟩
  | cons c cs ih =>
    cases ms with
    | nil => exact absurd h (by simp)
    | cons m ms =>
      rw [bindEach]
      refine (endsOnly_true _).bind fun x _ => ((ih (Nat.succ.inj h)).focus _).bind fun rest hrest => ?_
      refine endsOnly_pure ⟨?_, fun hskip => ?_⟩
      · rw [List.length_cons, hrest.1, List.length_cons]
      · cases hvisit : x.visit with
        | docs => simp [hvisit] at hskip
        | skip =>
          simp only [hvisit, reduceCtorEq, if_false] at hskip
          obtain ⟨hlength, hoff⟩ := hrest.2 hskip
          refine ⟨by rw [List.length_cons, hlength, List.length_cons], ?_⟩
          exact List.forall_mem_cons.mpr ⟨by simp, hoff⟩

/-- The local states, whether or not the first collector is on. -/
def Member.Has (z : List (Member L)) (x : L) (rest : List (Member L)) : Prop :=
  ∃ on, Member.Cons on z x rest

/-- The first takes all hits if it is on. -/
theorem splits_takeHits_many (on : Bool) (bound : Bound) (hits : List Hit) (x : L)
    (rest : List (Member L)) :
    Splits ConsBoard Member.Has ((many (c :: cs)).takeHits bound hits (⟨x, on⟩ :: rest))
      (if on then c.takeHits bound hits x else pure x) ((many cs).takeHits bound hits rest) := by
  rw [← takeHits_switched]
  have hloop := Splits.foldlM
    (fun hit x rest z h => splits_eachOn c cs (fun c l => c.collect bound hit l) on h) hits
    (show Member.Cons on (⟨x, on⟩ :: rest) x rest from rfl)
  exact (hloop.bind fun x rest z h => splits_eachOn c cs (fun c l => c.endSegment bound l) on h).mono
    fun _ _ _ h => ⟨on, h⟩

/-- Members that are off take no hits. -/
theorem takeHits_of_allOff {ms : List (Member L)} (h : AllOff cs ms) (bound : Bound)
    (hits : List Hit) : (many cs).takeHits bound hits ms = pure ms := by
  have hcollect : ∀ hit, (many cs).collect bound hit ms = pure ms :=
    fun hit => eachOn_of_allOff cs (fun c l => c.collect bound hit l) h
  have hend : (many cs).endSegment bound ms = pure ms :=
    eachOn_of_allOff cs (fun c l => c.endSegment bound l) h
  rw [takeHits]
  induction hits with
  | nil => rw [List.foldlM_nil, pure_bind, hend]
  | cons hit hits ih => rw [List.foldlM_cons, hcollect, pure_bind, ih]

variable [PatternEngines]

theorem splits_visit_many (query : Query) (placed : Placed) (x : Binding L)
    {y : Binding (List (Member L))} (hskip : y.visit = .skip → AllOff cs y.state) :
    Splits ConsBoard Member.Has
      ((many (c :: cs)).visit query placed {
        visit := if x.visit = .docs then .docs else y.visit
        fields := x.fields ++ y.fields
        state := ⟨x.state, x.visit = .docs⟩ :: y.state })
      (c.visit query placed x) ((many cs).visit query placed y) := by
  rcases x with ⟨visitX, fieldsX, x⟩
  rcases y with ⟨visitY, fieldsY, y⟩
  cases visitX with
  | skip =>
    cases visitY with
    | skip => exact splits_pure ⟨_, rfl⟩
    | docs =>
      refine (splits_ofExcept_second _).bind (g := fun _ => pure x) ?_
      rintro _ _ hits rfl
      exact splits_takeHits_many c cs false (.of placed) hits x y
  | docs =>
    cases visitY with
    | skip =>
      -- The others see the hits as well, but they are off.
      refine (splits_ofExcept_first _).bind (h := fun _ => pure y) ?_
      rintro _ _ hits rfl
      have htaken := splits_takeHits_many c cs true (.of placed) hits x y
      rwa [takeHits_of_allOff cs (hskip rfl)] at htaken
    | docs =>
      refine (splits_ofExcept _).bind ?_
      rintro _ hits _ ⟨rfl, rfl⟩
      exact splits_takeHits_many c cs true (.of placed) hits x y

/-- Each collector keeps its place. -/
theorem endsOnly_readSegment_many (query : Query) (placed : Placed) {ms : List (Member L)}
    (h : ms.length = cs.length) :
    ((many cs).readSegment query ms placed).EndsOnly (fun ms => ms.length = cs.length)
      fun _ => True := by
  rw [readSegment_eq]
  refine (endsOnly_bindEach cs placed h).bind fun b hb => (endsOnly_true _).bind fun _ _ => ?_
  rw [visit]
  split
  · exact endsOnly_pure hb.1
  · exact (endsOnly_true _).bind fun hits _ => EndsOnly.bind
      (EndsOnly.foldlM (fun hit _ ms hms => endsOnly_eachOn cs _ hms) hb.1) fun ms hms =>
        endsOnly_eachOn cs _ hms

theorem splits_readSegment_many (query : Query) (placed : Placed) {x : L}
    {rest z : List (Member L)} (h : Member.Has z x rest ∧ rest.length = cs.length) :
    Splits ConsBoard (fun z x rest => Member.Has z x rest ∧ rest.length = cs.length)
      ((many (c :: cs)).readSegment query z placed) (c.readSegment query x placed)
      ((many cs).readSegment query rest placed) := by
  obtain ⟨⟨on, rfl⟩, hlength⟩ := h
  refine Splits.and_second ?_ (endsOnly_readSegment_many cs query placed hlength)
  have hbind : ∀ k : Binding (List (Member L)) → Process (List B) (List (Member L)),
      (many (c :: cs)).bind placed (⟨x, on⟩ :: rest) >>= k =
        (c.bind placed x).focus (.head c.board) >>= fun x =>
          ((many cs).bind placed rest).focus .tail >>= fun y => k {
            visit := if x.visit = .docs then .docs else y.visit
            fields := x.fields ++ y.fields
            state := ⟨x.state, x.visit = .docs⟩ :: y.state } := by
    intro k
    simp only [many, bindEach, bind_assoc, pure_bind]
  rw [readSegment_eq, readSegment_eq, readSegment_eq, hbind]
  refine splits_cons c.board (endsOnly_bindEach cs placed hlength) fun x y hy => ?_
  simp only [readColumns_append, Process.ofExcept_bind, bind_assoc]
  exact Splits.seq (splits_ofExcept_first _) (splits_ofExcept_second _) fun _ _ =>
    splits_visit_many c cs query placed x hy.2

/-- **A group with one collector and the rest** of many is two groups side by side. -/
theorem splits_readGroup_many (query : Query) (group : List Placed) :
    Splits ConsBoard (fun z p rest => z = p :: rest) ((many (c :: cs)).readGroup query group)
      (c.readGroup query group) ((many cs).readGroup query group) := by
  have hstart : Splits ConsBoard (fun z x rest => Member.Has z x rest ∧ rest.length = cs.length)
      (many (c :: cs)).start (c.start >>= pure) ((many cs).start >>= pure) :=
    splits_cons c.board (endsOnly_startEach cs) fun x rest hrest => splits_pure ⟨⟨false, rfl⟩, hrest⟩
  rw [bind_pure, bind_pure] at hstart
  refine hstart.bind fun x rest z hz => ?_
  refine (Splits.foldlM (fun placed _ _ _ h => splits_readSegment_many c cs query placed h) group hz).bind
    ?_
  rintro x rest _ ⟨⟨on, rfl⟩, -⟩
  have hfinish : Splits ConsBoard (fun z p rest => z = p :: rest)
      ((many (c :: cs)).finish (⟨x, on⟩ :: rest)) (c.finish x >>= pure) ((many cs).finish rest >>= pure) :=
    splits_cons c.board (endsOnly_true _) fun p rest _ => splits_pure rfl
  rwa [bind_pure, bind_pure] at hfinish

omit [PatternEngines] in
theorem filterMap_head?_of_forall₂ {zs : List (List P)} {xs : List P}
    (h : List.Forall₂ (fun z x => ∃ rest, z = x :: rest) zs xs) : zs.filterMap List.head? = xs := by
  induction h with
  | nil => rfl
  | cons hfirst _ ih =>
    obtain ⟨rest, rfl⟩ := hfirst
    rw [List.filterMap_cons, ih]
    rfl

/-- A group has nothing to do for no collector. -/
theorem readGroup_many_nil (query : Query) (group : List Placed) :
    (many ([] : List (Collector B L P F))).readGroup query group = pure [] := by
  have hloop : group.foldlM ((many ([] : List (Collector B L P F))).readSegment query) [] = pure [] := by
    induction group with
    | nil => rfl
    | cons placed group ih =>
      rw [List.foldlM_cons]
      exact ih
  show group.foldlM ((many ([] : List (Collector B L P F))).readSegment query) [] >>= _ = _
  rw [hloop, pure_bind]
  rfl

variable {c cs} {core : String} {groups : List (List Placed)} {query : Query}

/-- No collector at all. -/
theorem comes_many_nil : (many ([] : List (Collector B L P F))).Comes core groups query (· = [])
    fun _ => False := by
  intro schedule
  have hgroup : ∀ group ∈ groups, ((many ([] : List (Collector B L P F))).readGroup query group).EndsOnly
      (fun _ => True) fun _ => False := by
    intro group _
    rw [readGroup_many_nil]
    exact endsOnly_pure trivial
  have hends := Gathering.endsOnly_gather hgroup core schedule
    (many ([] : List (Collector B L P F))).board
  rw [result_readScheduled]
  rcases hr : (Gathering.gather core schedule (groups.map
      ((many ([] : List (Collector B L P F))).readGroup query))).result (many []).board with
    ⟨failure | partials, t⟩
  · rw [hr] at hends
    exact hends
  · rfl

/-- **One collector and the rest** of many. -/
theorem Comes.cons {good : F → Prop} {good' : List F → Prop} {bad bad' : Failure → Prop}
    (hc : c.Comes core groups query good bad) (hcs : (many cs).Comes core groups query good' bad') :
    (many (c :: cs)).Comes core groups query (fun xs => ∃ x rest, xs = x :: rest ∧ good x ∧ good' rest)
      fun failure => bad failure ∨ bad' failure := by
  intro schedule
  obtain ⟨hok, herror⟩ := Gathering.splits_gather
    (fun group (_ : group ∈ groups) => splits_readGroup_many c cs query group)
    (show ConsBoard (c.board :: cs.map (·.board)) c.board (many cs).board from rfl) core schedule
  rw [result_readScheduled]
  rcases hr : (Gathering.gather core schedule (groups.map ((many (c :: cs)).readGroup query))).result
      (many (c :: cs)).board with ⟨failure | partials, t⟩
  · rcases herror failure (congrArg Prod.fst hr) with ⟨first, hfails⟩ | ⟨second, hfails⟩
    · exact .inl (hc.of_gather_error hfails)
    · exact .inr (hcs.of_gather_error hfails)
  · obtain ⟨first, second, xs, ys, t₁, t₂, hfirst, hsecond, rfl, hxs, hys⟩ := hok partials t hr
    obtain rfl : partials.filterMap List.head? = xs := filterMap_head?_of_forall₂ hxs
    obtain rfl : partials.map List.tail = ys :=
      map_eq_of_forall₂ (hys.imp fun z y ⟨x, hz⟩ => congrArg List.tail hz)
    have hx : Meets good (fun failure => bad failure ∨ bad' failure)
        (c.merge t₁ (partials.filterMap List.head?)) :=
      (hc.of_gather_ok hfirst).mono (fun _ h => h) fun _ => .inl
    have hrest : Meets good' (fun failure => bad failure ∨ bad' failure)
        ((many cs).merge t₂ (partials.map List.tail)) :=
      (hcs.of_gather_ok hsecond).mono (fun _ h => h) fun _ => .inr
    exact hx.bind fun x hgood => hrest.bind fun rest hgood' => ⟨x, rest, rfl, hgood, hgood'⟩

/-- **Many collectors at once** come to what each of them comes to, and fail with what one of them fails
with. -/
theorem comes_many {ι : Type} {make : ι → Collector B L P F} {good : ι → F → Prop}
    {bad : ι → Failure → Prop} {is : List ι}
    (h : ∀ i ∈ is, (make i).Comes core groups query (good i) (bad i)) :
    (many (is.map make)).Comes core groups query (List.Forall₂ good is)
      fun failure => ∃ i ∈ is, bad i failure := by
  induction is with
  | nil => exact comes_many_nil.mono (by rintro _ rfl; exact .nil) fun _ => False.elim
  | cons i is ih =>
    obtain ⟨hi, his⟩ := List.forall_mem_cons.mp h
    refine (hi.cons (ih his)).mono ?_ ?_
    · rintro _ ⟨x, rest, rfl, hx, hrest⟩
      exact .cons hx hrest
    · rintro failure (hbad | ⟨j, hj, hbad⟩)
      · exact ⟨i, List.mem_cons_self, hbad⟩
      · exact ⟨j, List.mem_cons_of_mem _ hj, hbad⟩

end Many

end Collector

end FederatedSearch
