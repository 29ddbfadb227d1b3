import CertRuns.Proofs.Operator.Listings

/-!
# The events of a watcher

The events of a watcher are told by its listings and by the failures that it was told of. A run is an
event when it comes, when it goes, and when it is still there after a failure; what has come to its
end before the first listing is none.

* `listings`, `seeds` : what a watcher has listed; it starts the counter of pod names;
* `flags` : a watcher knows whether it has listed before, and lists after it has started the counter;
* `event_iff` : which runs are events of a listing;
* `Apart` : the watchers of a controller bear different numbers; then `lost_emitted` : a watcher is
  told of failures of its own events only;
* `silent`, `quiet` : a run that has come to its end before the first listing is never an event;
* `event_stream` : all of this.
-/

namespace CertRuns.Operator

open Rehearsal (Work)

variable {c c' : Operator} {m : Move} {owner id : Nat} {key : ObjectKey}
  {history : List (Operator × Move)}

/-! ## What a watcher has done -/

/-- What a watcher has listed, the last listing first. -/
def listings (owner id : Nat) (history : List (Operator × Move)) : List (List Run) :=
  history.filterMap fun moment => listed? owner id moment.2

def seeds (owner id : Nat) : Move → Bool
  | .resume i (.watcher o ⟨_, _, _, _, _, _, _, .seeding⟩) (.ok _) => i == id && o == owner
  | _ => false

/-- A watcher has started the counter of pod names. -/
def seeded (owner id : Nat) (history : List (Operator × Move)) : Bool :=
  history.any fun moment => seeds owner id moment.2

theorem listings_unlisted (hl : listed? owner id m = none) :
    listings owner id ((c, m) :: history) = listings owner id history :=
  List.filterMap_cons_none hl

theorem listings_listed {runs : List Run} (hl : listed? owner id m = some runs) :
    listings owner id ((c, m) :: history) = runs :: listings owner id history :=
  List.filterMap_cons_some hl

theorem listings_unmoved (h : ∀ moment ∈ history, moment.2.subject? ≠ some id) :
    listings owner id history = [] :=
  List.filterMap_eq_nil_iff.mpr fun moment hmem => listed?_eq_none (h moment hmem)

theorem listed?_listing {number : Nat} {ns : String} {token : Token} {ticker : Ticker}
    {known : KeySet} {initial seeded : Bool} {runs : List Run} :
    listed? owner id (.resume id (.watcher owner
      ⟨number, ns, token, ticker, known, initial, seeded, .listing⟩) (.ok runs)) = some runs :=
  if_pos ⟨rfl, rfl⟩

/-- A run stood if it is in the last listing. -/
theorem stood_eq : stood owner id key history =
    (listings owner id history).head?.any (·.any (·.key == key)) := by
  induction history with
  | nil => rfl
  | cons moment history ih =>
    obtain ⟨c, m⟩ := moment
    cases hl : listed? owner id m with
    | none => rw [stood_unlisted hl, listings_unlisted hl, ih]
    | some runs =>
      rw [stood, hl, listings_listed hl]
      rfl

/-- A watcher that has not listed yet knows that, and one that lists has started the counter of pod
names. -/
theorem flags (h : Execution Step {} history c) {w : Watcher} {answer : Option w.wait.Event}
    (hw : c.progress? id = some (.waiting (.watcher owner w) answer)) :
    (w.initial = true ↔ listings owner id history = []) ∧
      (w.seeded = true ∨ w.stage = .listing → seeded owner id history = true) := by
  induction h generalizing w with
  | start => cases hw
  | @next history s s' m before last ih =>
    have later {moment : Operator × Move} (h : seeded owner id history = true) :
        seeded owner id (moment :: history) = true := by
      rw [seeded, List.any_cons, Bool.or_eq_true]
      exact .inr h
    cases last.waits hw with
    | kept hm hbefore =>
      obtain ⟨hinitial, hseeded⟩ := ih hbefore
      rw [listings_unlisted (listed?_eq_none hm)]
      exact ⟨hinitial, fun h => later (hseeded h)⟩
    | received hbefore =>
      obtain ⟨hinitial, hseeded⟩ := ih hbefore
      rw [listings_unlisted rfl]
      exact ⟨hinitial, fun h => later (hseeded h)⟩
    | @resumed old event hbefore hg =>
      cases hg with
      | watcher hd hr =>
        obtain ⟨hinitial, hseeded⟩ := ih hbefore
        cases hr with
        | looks =>
          rw [listings_unlisted rfl]
          exact ⟨hinitial, fun h => later (hseeded (.inl (h.resolve_right nofun)))⟩
        | begins =>
          rw [listings_unlisted rfl]
          exact ⟨hinitial, fun _ => later (hseeded (.inl rfl))⟩
        | seeds =>
          rw [listings_unlisted rfl]
          refine ⟨hinitial, fun _ => ?_⟩
          rw [seeded, List.any_cons, Bool.or_eq_true]
          exact .inl (by simp [Operator.seeds])
        | unseeded =>
          rw [listings_unlisted rfl]
          exact ⟨hinitial, fun h => later (hseeded (.inl (h.resolve_right nofun)))⟩
        | lists =>
          rw [listings_listed listed?_listing]
          exact ⟨⟨nofun, nofun⟩, fun _ => later (hseeded (.inr rfl))⟩
        | unlisted =>
          rw [listings_unlisted rfl]
          exact ⟨hinitial, fun _ => later (hseeded (.inr rfl))⟩
    | started hi hm =>
      cases hm
      rw [listings_unlisted rfl, listings_unmoved (unmoved before hi)]
      exact ⟨⟨fun _ => rfl, fun _ => rfl⟩, fun h => h.elim nofun nofun⟩
    | spawned _ _ hs => cases hs

/-! ## Events -/

/-- A watcher that does not list has no events. -/
theorem events_unlisted {w : Watcher} {answer : Option w.wait.Event}
    (hw : c.progress? id = some (.waiting (.watcher owner w) answer)) (hs : c.Step m c')
    (hm : m.subject? = some id) (hl : listed? owner id m = none) : events (c, m) = [] := by
  cases m with
  | receive i work event => rfl
  | resume i work event =>
    cases hm
    have hnow := hs.1
    rw [Enabled, hw] at hnow
    cases hnow
    have hr := watches c.controllers c.clock owner w event
    rw [events]
    generalize (Work.watcher owner w).resume c.controllers c.clock event = step at hr
    cases hr with
    | orphan | ends => rfl
    | goes hd hr =>
      cases hr with
      | lists =>
        rw [listed?_listing] at hl
        cases hl
      | _ => rfl
  | _ => cases hm

theorem events_listing (h : Execution Step {} history c) {number : Nat} {ns : String} {token : Token}
    {ticker : Ticker} {known : KeySet} {initial seeded : Bool} {runs : List Run}
    (hw : c.progress? id = some (.waiting (.watcher owner
      ⟨number, ns, token, ticker, known, initial, seeded, .listing⟩) (some (.ok runs)))) :
    events (c, .resume id (.watcher owner
      ⟨number, ns, token, ticker, known, initial, seeded, .listing⟩) (.ok runs)) =
      (compareListing known runs initial).1 := by
  obtain ⟨d, hd⟩ := watched h hw
  have hstarted : ((Work.watcher owner
      ⟨number, ns, token, ticker, known, initial, seeded, .listing⟩).resume c.controllers c.clock
        (.ok runs)).started = (compareListing known runs initial).1.map fun key =>
          .reconcile owner (some number) (.start key) := by
    simp only [Work.resume, hd]
    rfl
  rw [events, hstarted, List.filterMap_map]
  exact List.filterMap_some

/-- Why a run is an event of a listing: it has come or is there after a failure, and had not come to
its end before the first listing; or it has gone, and there was no failure. -/
inductive Occurs (owner id : Nat) (key : ObjectKey) (history : List (Operator × Move))
    (runs : List Run) : Prop
  | comes {run : Run} (hrun : runs.find? (·.key == key) = some run)
      (hnew : stood owner id key history = false ∨ lost owner id key history = true)
      (hopen : ¬ (listings owner id history = [] ∧ run.status.phase.isTerminal = true))
  | goes (hgone : ∀ run ∈ runs, run.key ≠ key) (hstood : stood owner id key history = true)
      (hkept : lost owner id key history = false)

theorem event_iff (h : Execution Step {} history c) (hs : c.Step m c') {runs : List Run}
    (hl : listed? owner id m = some runs) :
    key ∈ events (c, m) ↔ Occurs owner id key history runs := by
  by_cases hlisted : ∃ run ∈ runs, run.key = key
  · obtain ⟨number, ns, token, ticker, known, initial, seeded, rfl⟩ := listed?_eq_some hl
    have hknown := @contains_known c owner id key history h _ _ hs.1
    have hnew : known.contains key = false ↔
        stood owner id key history = false ∨ lost owner id key history = true := by
      rw [← Bool.not_eq_true, hknown]
      cases stood owner id key history <;> cases lost owner id key history <;> simp
    rw [events_listing h hs.1, mem_events_listed hlisted, hnew]
    constructor
    · rintro ⟨hnew, run, hrun, hopen⟩
      exact .comes hrun hnew fun ⟨hfirst, hend⟩ => hopen ⟨(flags h hs.1).1.mpr hfirst, hend⟩
    · intro ho
      cases ho with
      | comes hrun hnew hopen =>
        exact ⟨hnew, _, hrun, fun ⟨hfirst, hend⟩ => hopen ⟨(flags h hs.1).1.mp hfirst, hend⟩⟩
      | goes hgone =>
        obtain ⟨run, hrun, hk⟩ := hlisted
        exact absurd hk (hgone run hrun)
  · have habsent : ∀ run ∈ runs, run.key ≠ key := fun run hrun hk => hlisted ⟨run, hrun, hk⟩
    rw [vanished_iff h hs hl habsent]
    constructor
    · exact fun ⟨hstood, hkept⟩ => .goes habsent hstood hkept
    · intro ho
      cases ho with
      | comes hrun =>
        have hk := List.find?_some hrun
        exact absurd (eq_of_beq hk) (habsent _ (List.mem_of_find?_eq_some hrun))
      | goes hgone hstood hkept => exact ⟨hstood, hkept⟩

/-! ## Failures of events -/

/-- The watcher of a controller that is taken further in a move, and its number. -/
def watcher? (owner : Nat) : Operator × Move → Option (Nat × Nat)
  | (_, .resume i (.watcher o w) _) => if o = owner then some (i, w.number) else none
  | _ => none

/-- The watchers of a controller bear different numbers. -/
def Apart (owner : Nat) (history : List (Operator × Move)) : Prop :=
  ∀ a ∈ history.filterMap (watcher? owner), ∀ b ∈ history.filterMap (watcher? owner),
    a.2 = b.2 → a.1 = b.1

instance : Decidable (Apart owner history) :=
  inferInstanceAs (Decidable (∀ a ∈ history.filterMap (watcher? owner),
    ∀ b ∈ history.filterMap (watcher? owner), a.2 = b.2 → a.1 = b.1))

/-- A run was an event of a watcher with a number. -/
def Emitted (owner number : Nat) (key : ObjectKey) (history : List (Operator × Move)) : Prop :=
  ∃ moment ∈ history, ∃ i, watcher? owner moment = some (i, number) ∧ key ∈ events moment

theorem Emitted.later {number : Nat} {moment : Operator × Move}
    (h : Emitted owner number key history) : Emitted owner number key (moment :: history) := by
  obtain ⟨before, hmem, h⟩ := h
  exact ⟨before, List.mem_cons_of_mem _ hmem, h⟩

/-- A reconciliation that has to tell a watcher was started for an event of it. -/
theorem told_emitted (h : Execution Step {} history c) {number : Nat} {stage : Reconcile.Stage}
    {answer : Option (Reconcile.mk key stage).wait.Event} {j : Nat}
    (hw : c.progress? j =
      some (.waiting (.reconcile owner (some number) ⟨key, stage⟩) answer)) :
    Emitted owner number key history := by
  induction h generalizing stage j with
  | start => cases hw
  | @next history s s' m before last ih =>
    cases last.waits hw with
    | kept _ hbefore | received hbefore => exact (ih hbefore).later
    | resumed hbefore hg =>
      cases hg with
      | reconcile hd hr =>
        obtain rfl := hr.key_going
        exact (ih hbefore).later
    | started _ hm => cases hm
    | @spawned i old event hi hbefore =>
      obtain ⟨t', ht', hp⟩ := progress?_eq_some.mp hw
      cases last.comes ht' with
      | kept _ ht =>
        rw [hi] at ht
        cases ht
      | resumed ht =>
        rw [hi] at ht
        cases ht
      | @spawned _ _ _ new _ _ _ _ hn he =>
        subst he
        cases hp
        refine ⟨_, List.mem_cons_self, i, ?_, List.mem_filterMap.mpr ⟨_, hn, rfl⟩⟩
        cases spawns hn with
        | event => exact if_pos rfl

theorem fails?_eq_some {number : Nat} (h : fails? owner (c, m) = some (number, key)) :
    ∃ j stage event, m = .resume j (.reconcile owner (some number) ⟨key, stage⟩) event := by
  unfold fails? at h
  split at h
  · rename_i heq
    split at h
    · split at h
      · rename_i ho
        obtain ⟨n, htold, hn⟩ := Option.map_eq_some_iff.mp h
        cases heq
        cases htold
        cases hn
        cases ho
        exact ⟨_, _, _, rfl⟩
      · cases h
    · cases h
  · cases h

/-- A failure that a watcher has to be told is one of a run that was its event. -/
theorem reported_emitted (h : Execution Step {} history c) {number : Nat}
    (hr : reported owner number key history = true) : Emitted owner number key history := by
  induction h with
  | start => cases hr
  | @next history s s' m before last ih =>
    rw [reported, Bool.and_eq_true, Bool.or_eq_true] at hr
    rcases hr.2 with hfails | hr
    · obtain ⟨j, stage, event, rfl⟩ := fails?_eq_some (beq_iff_eq.mp hfails)
      exact (told_emitted before last.1).later
    · exact (ih hr).later

theorem subject?_of_watcher? {moment : Operator × Move} {i number : Nat}
    (h : watcher? owner moment = some (i, number)) : moment.2.subject? = some i := by
  unfold watcher? at h
  split at h
  · split at h
    · cases h
      rfl
    · cases h
  · cases h

/-- A watcher that begins a listing keeps its number. -/
theorem watcher?_of_begins? {number : Nat} (h : begins? owner (c, m) = some number)
    (hm : m.subject? = some id) : watcher? owner (c, m) = some (id, number) := by
  unfold begins? at h
  split at h
  · rename_i c i o w event heq
    cases heq
    cases hm
    have hr := watches c.controllers c.clock o w event
    generalize (Work.watcher o w).resume c.controllers c.clock event = step at h hr
    cases hr with
    | orphan | ends => cases h
    | goes hd hr =>
      simp only at h
      split at h
      · rename_i ho
        rw [watcher?, if_pos ho]
        cases hr with
        | begins | seeds =>
          cases h
          rfl
        | _ => cases h
      · cases h
  · cases h

theorem Apart.earlier {moment : Operator × Move} (h : Apart owner (moment :: history)) :
    Apart owner history := by
  intro a ha b hb
  have hmem {a : Nat × Nat} (ha : a ∈ history.filterMap (watcher? owner)) :
      a ∈ (moment :: history).filterMap (watcher? owner) := by
    obtain ⟨before, hbefore, hw⟩ := List.mem_filterMap.mp ha
    exact List.mem_filterMap.mpr ⟨before, List.mem_cons_of_mem _ hbefore, hw⟩
  exact h a (hmem ha) b (hmem hb)

theorem lost_emitted (h : Execution Step {} history c) (hapart : Apart owner history)
    (hl : lost owner id key history = true) :
    ∃ moment ∈ history, moment.2.subject? = some id ∧ key ∈ events moment := by
  induction h with
  | start => cases hl
  | @next history s s' m before last ih =>
    rw [lost, Bool.and_eq_true, Bool.or_eq_true] at hl
    rcases hl.2 with hforgets | hl
    · rw [forgets, Bool.and_eq_true, beq_iff_eq, Option.any_eq_true] at hforgets
      obtain ⟨hm, number, hbegins, hreported⟩ := hforgets
      obtain ⟨moment, hmem, i, hwatcher, hevent⟩ := reported_emitted before hreported
      have hself := watcher?_of_begins? hbegins hm
      -- failures are filed under numbers, and no other watcher bears this one
      obtain rfl : i = id := hapart (i, number)
        (List.mem_filterMap.mpr ⟨moment, List.mem_cons_of_mem _ hmem, hwatcher⟩) (id, number)
        (List.mem_filterMap.mpr ⟨_, List.mem_cons_self, hself⟩) rfl
      exact ⟨moment, List.mem_cons_of_mem _ hmem, subject?_of_watcher? hwatcher, hevent⟩
    · obtain ⟨moment, hmem, hevent⟩ := ih hapart.earlier hl
      exact ⟨moment, List.mem_cons_of_mem _ hmem, hevent⟩

/-! ## Runs that have come to their end before -/

/-- A run had come to its end in the first listing, and every later listing has it still. -/
inductive Finished (key : ObjectKey) : List (List Run) → Prop
  | first {runs : List Run} {run : Run} (hrun : runs.find? (·.key == key) = some run)
      (hend : run.status.phase.isTerminal = true) : Finished key [runs]
  | later {runs : List Run} {earlier : List (List Run)} (h : Finished key earlier)
      (hstill : ∃ run ∈ runs, run.key = key) : Finished key (runs :: earlier)

theorem Finished.earlier {runs : List Run} {earlier : List (List Run)}
    (h : Finished key (runs :: earlier)) : earlier = [] ∨ Finished key earlier := by
  cases h with
  | first => exact .inl rfl
  | later hearlier => exact .inr hearlier

theorem Finished.stood (h : Finished key (listings owner id history)) :
    stood owner id key history = true := by
  rw [stood_eq]
  generalize listings owner id history = all at h
  cases h with
  | first hrun =>
    have hk := List.find?_some hrun
    exact List.any_eq_true.mpr ⟨_, List.mem_of_find?_eq_some hrun, hk⟩
  | later _ hstill =>
    obtain ⟨run, hrun, hk⟩ := hstill
    exact List.any_eq_true.mpr ⟨run, hrun, beq_iff_eq.mpr hk⟩

/-- A run that has come to its end before the first listing is no event of a listing, if it was none
before. -/
theorem silent (h : Execution Step {} history c) (hs : c.Step m c') {runs : List Run}
    (hl : listed? owner id m = some runs) (hapart : Apart owner history)
    (hfinished : Finished key (runs :: listings owner id history))
    (hquiet : ∀ moment ∈ history, moment.2.subject? = some id → key ∉ events moment) :
    key ∉ events (c, m) := by
  have hkept : lost owner id key history = false := by
    cases hlost : lost owner id key history with
    | false => rfl
    | true =>
      obtain ⟨moment, hmem, hm, hevent⟩ := lost_emitted h hapart hlost
      exact absurd hevent (hquiet moment hmem hm)
  rw [event_iff h hs hl]
  intro ho
  generalize hall : listings owner id history = all at hfinished
  cases hfinished with
  | first hrun hend =>
    cases ho with
    | comes hfound _ hopen =>
      rw [hrun] at hfound
      cases hfound
      exact hopen ⟨hall, hend⟩
    | goes hgone =>
      have hk := List.find?_some hrun
      exact hgone _ (List.mem_of_find?_eq_some hrun) (eq_of_beq hk)
  | later hearlier hstill =>
    subst hall
    cases ho with
    | comes _ hnew =>
      rw [hearlier.stood, hkept] at hnew
      exact hnew.elim nofun nofun
    | goes hgone =>
      obtain ⟨run, hrun, hk⟩ := hstill
      exact hgone run hrun hk

/-- A watcher has no events before its first listing, and a run that had come to its end by then was
never one of its events. -/
theorem quiet (h : Execution Step {} history c) {w : Watcher} {answer : Option w.wait.Event}
    (hw : c.progress? id = some (.waiting (.watcher owner w) answer)) (hapart : Apart owner history)
    (hfinished : listings owner id history = [] ∨ Finished key (listings owner id history)) :
    ∀ moment ∈ history, moment.2.subject? = some id → key ∉ events moment := by
  induction h generalizing w with
  | start => exact fun _ hmem => absurd hmem List.not_mem_nil
  | @next history s s' m before last ih =>
    intro moment hmem hm
    cases last.waits hw with
    | kept hother hbefore =>
      rw [listings_unlisted (listed?_eq_none hother)] at hfinished
      rcases List.mem_cons.mp hmem with rfl | hmem
      · exact absurd hm hother
      · exact ih hbefore hapart.earlier hfinished moment hmem hm
    | received hbefore =>
      rw [listings_unlisted rfl] at hfinished
      rcases List.mem_cons.mp hmem with rfl | hmem
      · exact List.not_mem_nil
      · exact ih hbefore hapart.earlier hfinished moment hmem hm
    | @resumed old event hbefore hg =>
      cases hg with
      | @watcher _ w₀ _ event =>
        cases hl : listed? owner id (.resume id (.watcher owner w₀) event) with
        | none =>
          rw [listings_unlisted hl] at hfinished
          rcases List.mem_cons.mp hmem with rfl | hmem
          · rw [events_unlisted hbefore last rfl hl]
            exact List.not_mem_nil
          · exact ih hbefore hapart.earlier hfinished moment hmem hm
        | some runs =>
          rw [listings_listed hl] at hfinished
          have hfinished := hfinished.resolve_left nofun
          have hquiet := ih hbefore hapart.earlier hfinished.earlier
          rcases List.mem_cons.mp hmem with rfl | hmem
          · exact silent before last hl hapart.earlier hfinished hquiet
          · exact hquiet moment hmem hm
    | started hi hstarted =>
      rcases List.mem_cons.mp hmem with rfl | hmem
      · cases hm
      · exact absurd hm (unmoved before hi moment hmem)
    | spawned _ _ hs => cases hs

/-! ## The stream -/

/-- A watcher has events when it has listed the runs, after it has started the counter of pod names,
and then those that `Occurs` says, each once. A run that had come to its end before its first listing
is no event as long as every listing has it. -/
theorem event_stream (h : Execution Step {} history c) {w : Watcher} {answer : Option w.wait.Event}
    (hw : c.progress? id = some (.waiting (.watcher owner w) answer)) (hs : c.Step m c')
    (hm : m.subject? = some id) :
    match listed? owner id m with
    | none => events (c, m) = []
    | some runs => (∀ key, key ∈ events (c, m) ↔ Occurs owner id key history runs) ∧
        (events (c, m)).Nodup ∧ seeded owner id history = true ∧
        (Apart owner history → ∀ key, Finished key (runs :: listings owner id history) →
          ∀ moment ∈ (c, m) :: history, moment.2.subject? = some id → key ∉ events moment) := by
  cases hl : listed? owner id m with
  | none => exact events_unlisted hw hs hm hl
  | some runs =>
    refine ⟨fun key => event_iff h hs hl, ?_, ?_, fun hapart key hfinished moment hmem hmoves => ?_⟩
    · obtain ⟨number, ns, token, ticker, known, initial, seeded, rfl⟩ := listed?_eq_some hl
      rw [events_listing h hs.1]
      exact nodup_events
    · obtain ⟨number, ns, token, ticker, known, initial, seeded, rfl⟩ := listed?_eq_some hl
      exact (flags h hs.1).2 (.inr rfl)
    · have hquiet := quiet h hw hapart hfinished.earlier
      rcases List.mem_cons.mp hmem with rfl | hmem
      · exact silent h hs hl hapart hfinished hquiet
      · exact hquiet moment hmem hmoves

/-- A watcher is about to list a second time. The run has come to its end before it was started. -/
def relisting : List (Site × Move) × Site :=
  Site.play ([.install Sample.settings {},
    .outside (.applyRun .epoch { Sample.run "first" with status := { phase := .finished } }),
    .watch 0 0 ⟨0⟩, .tick 0, .resume 0] ++ Sample.exchanges 0 2 ++
    [.pass ⟨5000000000⟩, .tick 0, .resume 0, .serve 0 .epoch])

/-- The run is no event of the second listing, and was none of the first one. -/
theorem event_stream_relisting :
    let history := Site.operatorHistory relisting.1
    let c := relisting.2.operator
    let m := (relisting.2.act (.resume 0)).1
    let runs := relisting.2.store.listRuns "ops"
    m.subject? = some 0 ∧ listed? 0 0 m = some runs ∧ listings 0 0 history = [runs] ∧
      Apart 0 history ∧ Finished Sample.key (runs :: listings 0 0 history) ∧
      ∀ moment ∈ (c, m) :: history, moment.2.subject? = some 0 → Sample.key ∉ events moment := by
  intro history c m runs
  have h : Execution Step {} history c := Site.operator_execution (Site.play_execution _)
  have hs := (Site.act_step relisting.2 (.resume 0)).1
  have hm : m.subject? = some 0 := by decide +kernel
  have hl : listed? 0 0 m = some runs := by decide +kernel
  have hbefore : listings 0 0 history = [runs] := by decide +kernel
  have hapart : Apart 0 history := by decide +kernel
  have hphase : (runs.find? (·.key == Sample.key)).map (·.status.phase) = some .finished := by
    decide +kernel
  obtain ⟨run, hrun, hend⟩ := Option.map_eq_some_iff.mp hphase
  have hfinished : Finished Sample.key (runs :: listings 0 0 history) := by
    have hk := List.find?_some hrun
    rw [hbefore]
    exact .later (.first hrun (by rw [hend]; rfl))
      ⟨run, List.mem_of_find?_eq_some hrun, eq_of_beq hk⟩
  obtain ⟨number, ns, token, ticker, known, initial, seeded, hmove⟩ := listed?_eq_some hl
  have hw : c.Enabled m := hs.1
  rw [hmove] at hw
  have hstream := event_stream h hw hs hm
  rw [hl] at hstream
  exact ⟨hm, hl, hbefore, hapart, hfinished, hstream.2.2.2 hapart Sample.key hfinished⟩

end CertRuns.Operator
