import CertRuns.Proofs.Site.Statuses

/-!
# A harvest is all or nothing

A harvest reads the file, then the run, and then it writes the report into the status of the run.

* `openings`, `fetches`, `stores` : the files that a task has read, the runs that it has read to see
  what to report, and the runs that it has stored;
* `WroteOnce` : of the writes of a task just one was accepted, and what it did;
* `Harvest.Gathered` : what a harvest has read so far; `SoundHarvest` : and what it has written;
  `soundHarvest` : this holds of every harvest under way;
* `AllOrNothing` : what a harvest with some result has done;
* `harvest_all_or_nothing` : it has stored the report that it returns, and nothing if it fails.
-/

namespace CertRuns

open Rehearsal (Work)

/-! ## Moves of a harvest -/

namespace Rehearsal.Work

/-- The content of the file, if a harvest is given it to read. -/
def opened? : (work : Work) → work.wait.Event → Option ByteArray
  | .harvest ⟨_, _, _, .opening⟩, .file content => some content
  | _, _ => none

/-- The run, if a harvest is given it to see what to report. -/
def fetched? : (work : Work) → work.wait.Event → Option Run
  | .harvest ⟨_, _, _, .fetching _⟩, .ok run => some run
  | _, _ => none

/-- The run that a task has stored, if it is given the answer to a write. -/
def stored? (work : Work) (event : work.wait.Event) : Option Run := work.wait.stored? event

end Rehearsal.Work

theorem Updating.stored?_of_written {u : StatusUpdate} {event : u.wait.Event} {r : Run}
    (h : written? ⟨u, some event⟩ = some r) : u.wait.stored? event = some r := by
  obtain ⟨key, change, policy, attempt, stage⟩ := u
  cases stage with
  | reading | drawing | resting | panicked => cases h
  | writing w =>
    cases event with
    | error e => cases h
    | ok stored => exact h

namespace Site

variable {t t' : Site} {m : Move} {history : List (Site × Move)} {id : Nat}

abbrev openings (id : Nat) (history : List (Site × Move)) : List (Site × ByteArray) :=
  told id Work.opened? history

/-- The runs that a harvest has read to see what to report, the last one first. -/
abbrev fetches (id : Nat) (history : List (Site × Move)) : List (Site × Run) :=
  told id Work.fetched? history

abbrev stores (id : Nat) (history : List (Site × Move)) : List (Site × Run) :=
  told id Work.stored? history

/-- Of the writes of a task just one was accepted. It applied a change to the status of the run that
was stored just then, and to nothing else of that run. -/
def WroteOnce (id : Nat) (key : ObjectKey) (change : RunStatus → RunStatus)
    (history : List (Site × Move)) (t : Site) : Prop :=
  ∃ later s m s' earlier before stored, history = later ++ (s, m) :: earlier ∧
    s.Step m s' ∧ Execution Step s' later t ∧
    m.told? id Work.stored? = some stored ∧ stores id later = [] ∧ stores id earlier = [] ∧
    s.store.runs.get? key = some before ∧
    stored = before.rewritten (change before.status) s'.store.version ∧
    s'.store.runs = s.store.runs.insert key stored

theorem WroteOnce.later {key : ObjectKey} {change : RunStatus → RunStatus}
    (h : WroteOnce id key change history t) (hs : t.Step m t')
    (hm : ∀ work event, m ≠ .receive id work event) :
    WroteOnce id key change ((t, m) :: history) t' := by
  obtain ⟨later, s, m₁, s', earlier, before, stored, rfl, hstep, hafter, hstored, hlater, hrest⟩ :=
    h
  refine ⟨(t, m) :: later, s, m₁, s', earlier, before, stored, rfl, hstep, .next hafter hs, hstored,
    ?_, hrest⟩
  rw [stores, told_other hm]
  exact hlater

/-- A task that has stored nothing so far has a write accepted. -/
theorem wroteOnce (h : Execution Step {} history t) (hs : t.Step m t') {u : StatusUpdate}
    {stored : Run} (hw : m.write? id = some (u, stored))
    (hm : m.told? id Work.stored? = some stored) (hnone : stores id history = []) :
    WroteOnce id u.key u.change ((t, m) :: history) t' := by
  obtain ⟨before, hb, hstored, hruns⟩ := write_stored h hs hw
  exact ⟨[], t, m, t', history, before, stored, rfl, hs, .start, hm, rfl, hnone, hb, hstored, hruns⟩

/-! ## What a harvest has gathered -/

/-- The report is made from the one file and the one run that were read. -/
def Synthesized (key : ObjectKey) (opened : List (Site × ByteArray)) (fetched : List (Site × Run))
    (report : Report) : Prop :=
  ∃ content file site read, opened.map (·.2) = [content] ∧
    ClaimFile.ofBytes? content = some file ∧
    fetched = [(site, read)] ∧ site.store.runs.get? key = some read ∧
    report = synthesize file read.spec.reportOptions

end Site

def Harvest.Gathered (opened : List (Site × ByteArray)) (fetched : List (Site × Run)) :
    (w : Harvest) → Option w.wait.Event → Prop
  | ⟨_, _, _, .opening⟩, some (.file content) => opened.map (·.2) = [content] ∧ fetched = []
  | ⟨settings, _, _, .fetching file⟩, some (.ok read) =>
    (∃ content, opened.map (·.2) = [content] ∧ ClaimFile.ofBytes? content = some file) ∧
      ∃ site, fetched = [(site, read)] ∧ site.store.runs.get? settings.run = some read
  | ⟨_, _, _, .fetching file⟩, _ =>
    (∃ content, opened.map (·.2) = [content] ∧ ClaimFile.ofBytes? content = some file) ∧
      fetched = []
  | ⟨settings, _, _, .storing report u⟩, _ =>
    Site.Synthesized settings.run opened fetched report ∧ u.key = settings.run ∧
      u.change = fun s => { s with report := some report }
  | _, _ => opened = [] ∧ fetched = []

namespace Harvest.Gathered

variable {opened : List (Site × ByteArray)} {fetched : List (Site × Run)} {w w' : Harvest}

/-- A harvest that is given what it waits for. -/
theorem receive {site : Site} {s : Store} {event : w.wait.Event}
    (h : w.Gathered opened fetched none) (ha : site.store.Answers s w.wait event) :
    w.Gathered ((((Work.harvest w).opened? event).map (site, ·)).toList ++ opened)
      ((((Work.harvest w).fetched? event).map (site, ·)).toList ++ fetched) (some event) := by
  obtain ⟨settings, retry, token, stage⟩ := w
  cases stage with
  | looking | resting | settling | storing => exact h
  | opening =>
    obtain ⟨rfl, rfl⟩ := h
    cases event <;> exact ⟨rfl, rfl⟩
  | fetching file =>
    obtain ⟨hfile, rfl⟩ := h
    cases event with
    | error e => exact ⟨hfile, rfl⟩
    | ok read =>
      exact ⟨hfile, site, rfl, (Store.Answers.getRun_ok ha).1⟩

theorem resume {now : Instant} {event : w.wait.Event} (h : w.Gathered opened fetched (some event))
    (hw : w.resume now event = .going w') : w'.Gathered opened fetched none := by
  cases Harvest.resumes hw with
  | absent | present | again | settled => exact h
  | decoded hfile =>
    obtain ⟨hopened, hfetched⟩ := h
    exact ⟨⟨_, hopened, hfile⟩, hfetched⟩
  | @fetched settings retry token file read =>
    obtain ⟨⟨content, hopened, hfile⟩, site, hfetched, hread⟩ := h
    exact ⟨⟨content, file, site, read, hopened, hfile, hfetched, hread, rfl⟩, rfl, rfl⟩
  | storing hu =>
    obtain ⟨hreport, hkey, hchange⟩ := h
    exact ⟨hreport, (StatusUpdate.key_going hu).trans hkey,
      (StatusUpdate.change_going hu).trans hchange⟩

end Harvest.Gathered

/-- A harvest that writes has a write accepted just when its change has. -/
theorem Harvest.written?_storing (settings : HarvestSettings) (retry : RetryPolicy) (token : Token)
    (report : Report) (u : StatusUpdate) (event : u.wait.Event) :
    (Work.harvest ⟨settings, retry, token, .storing report u⟩).written? (some event) =
      (Updating.written? ⟨u, some event⟩).map (u, ·) := rfl

/-- A harvest stores a run by its change of the status only. -/
theorem Harvest.stored?_eq (w : Harvest) (event : w.wait.Event) :
    (Work.harvest w).stored? event = ((Work.harvest w).written? (some event)).map (·.2) := by
  obtain ⟨settings, retry, token, stage⟩ := w
  cases stage with
  | storing report u =>
    have hstored : u.wait.stored? event = Updating.written? ⟨u, some event⟩ :=
      Option.ext fun r => ⟨Updating.written?_of_stored, Updating.stored?_of_written⟩
    rw [written?_storing, Option.map_map]
    exact hstored.trans Option.map_id'.symm
  | _ => rfl

/-- A harvest that goes on has not just had a write accepted. -/
theorem Harvest.written?_of_going {w w' : Harvest} {now : Instant} {event : w.wait.Event}
    (hw : w.resume now event = .going w') : (Work.harvest w).written? (some event) = none := by
  cases Harvest.resumes hw with
  | storing hu => rw [written?_storing, Updating.written?_of_going hu, Option.map_none]
  | _ => rfl

/-- A harvest that fails has had no write accepted at its end. -/
theorem Harvest.written?_of_failed {w : Harvest} {now : Instant} {event : w.wait.Event}
    {e : HarvestError} (hw : w.resume now event = .ended (.error e)) :
    (Work.harvest w).written? (some event) = none := by
  cases Harvest.resumes hw with
  | unstored hu => rw [written?_storing, Updating.written?_of_failed hu, Option.map_none]
  | _ => rfl

/-- A harvest that returns a report has made it from what it has read, and has just stored it. -/
theorem Harvest.Gathered.returned {opened : List (Site × ByteArray)} {fetched : List (Site × Run)}
    {w : Harvest} {now : Instant} {event : w.wait.Event} {report : Report}
    (h : w.Gathered opened fetched (some event)) (hw : w.resume now event = .ended (.ok report)) :
    Site.Synthesized w.settings.run opened fetched report ∧
      ∃ u stored, (Work.harvest w).written? (some event) = some (u, stored) ∧
        u.key = w.settings.run ∧ u.change = fun s => { s with report := some report } := by
  cases Harvest.resumes hw with
  | @stored settings retry token report u event run hu =>
    obtain ⟨hreport, hkey, hchange⟩ := h
    refine ⟨hreport, u, run, ?_, hkey, hchange⟩
    rw [Harvest.written?_storing, Updating.written?_of_ended hu, Option.map_some]

namespace Operator

/-- A harvest was started as one, with the same settings. -/
theorem harvest_origin {c : Operator} {history : List (Operator × Move)}
    (h : Execution Step {} history c) {id : Nat} {x : Thread} (hx : c.threads[id]? = some x)
    {w : Harvest} {answer : Option w.wait.Event} (hp : x.progress = .waiting (.harvest w) answer) :
    ∃ retry token, x.origin = .harvest (.start w.settings retry token) := by
  induction h generalizing x w with
  | start => cases hx
  | next before last ih =>
    cases last.comes hx with
    | kept _ hs => exact ih hs hp
    | received hs hw _ he =>
      subst he
      cases hp
      exact ih hs hw
    | @resumed y old event hs hw he =>
      subst he
      generalize hn : (old.resume _ _ event).next = next at hp
      cases next with
      | ended result => cases hp
      | going new =>
        cases hp
        cases goes hn with
        | harvest hh =>
          obtain ⟨retry, token, ho⟩ := ih hs hw
          exact ⟨retry, token, by rw [(Harvest.resumes hh).settings_going]; exact ho⟩
    | started _ hm he =>
      subst he
      cases hp
      cases hm
      exact ⟨_, _, rfl⟩
    | spawned _ _ _ hn he =>
      subst he
      cases hp
      cases spawns hn

end Operator

namespace Site

variable {t t' : Site} {m : Move} {history : List (Site × Move)} {id : Nat}

/-! ## Every harvest -/

/-- What a harvest that waits has read and written. -/
structure SoundHarvest (id : Nat) (history : List (Site × Move)) (t : Site) (w : Harvest)
    (answer : Option w.wait.Event) : Prop where
  gathered : w.Gathered (openings id history) (fetches id history) answer
  unwritten (h : (Work.harvest w).written? answer = none) : stores id history = []
  written {u : StatusUpdate} {stored : Run}
    (h : (Work.harvest w).written? answer = some (u, stored)) :
    WroteOnce id u.key u.change history t

/-- A task that is not there yet has done nothing. -/
theorem subject?_ne (h : Execution Step {} history t) (ht : t.operator.threads[id]? = none) :
    ∀ moment ∈ history, moment.2.subject? ≠ some id := by
  induction h with
  | start => exact List.forall_mem_nil _
  | next _ last ih =>
    obtain ⟨hbefore, hm⟩ := last.1.absent ht
    exact List.forall_mem_cons.mpr ⟨hm, ih hbefore⟩

variable {w : Harvest}

theorem SoundHarvest.later {answer : Option w.wait.Event} (h : SoundHarvest id history t w answer)
    (hs : t.Step m t') (hm : ∀ work event, m ≠ .receive id work event) :
    SoundHarvest id ((t, m) :: history) t' w answer := by
  refine ⟨?_, fun hw => ?_, fun hw => (h.written hw).later hs hm⟩
  · rw [openings, fetches, told_other hm, told_other hm]
    exact h.gathered
  · rw [stores, told_other hm]
    exact h.unwritten hw

/-- A harvest that is about to start. -/
theorem SoundHarvest.start (h : Execution Step {} history t)
    (ht : t.operator.threads[id]? = none) {settings : HarvestSettings} {retry : RetryPolicy}
    {token : Token} : SoundHarvest id history t (.start settings retry token) none := by
  have hne := subject?_ne h ht
  refine ⟨⟨told_eq_nil hne, told_eq_nil hne⟩, fun _ => told_eq_nil hne, fun hw => ?_⟩
  rw [Work.written?_none] at hw
  cases hw

/-- A harvest that is given what it waits for. -/
theorem SoundHarvest.receive (h : Execution Step {} history t) {event : w.wait.Event}
    (hs : t.Step (.receive id (.harvest w) event) t') (hw : SoundHarvest id history t w none) :
    SoundHarvest id ((t, .receive id (.harvest w) event) :: history) t' w (some event) := by
  have hnone : stores id history = [] := hw.unwritten (Work.written?_none _)
  have hstored : Move.told? id Work.stored? (.receive id (.harvest w) event) =
      ((Work.harvest w).written? (some event)).map (·.2) :=
    (Move.told?_receive _ _).trans (w.stored?_eq event)
  refine ⟨?_, fun hw => ?_, fun {u stored} hw => ?_⟩
  · rw [openings, fetches, told_cons, told_cons, Move.told?_receive, Move.told?_receive]
    exact hw.gathered.receive hs.2
  · rw [stores, told_cons, hstored, hw]
    exact hnone
  · refine wroteOnce h hs ?_ (by rw [hstored, hw]; rfl) hnone
    rw [Move.write?, if_pos rfl, hw]

theorem soundHarvest (h : Execution Step {} history t) {answer : Option w.wait.Event}
    (hw : t.operator.progress? id = some (.waiting (.harvest w) answer)) :
    SoundHarvest id history t w answer := by
  induction h generalizing w with
  | start => cases hw
  | @next history s s' m before last ih =>
    cases last.1.waits hw with
    | kept hm h =>
      exact (ih h).later last fun work event he => hm (by rw [he]; rfl)
    | received h _ he =>
      subst he
      exact (ih h).receive before last
    | resumed h hg he =>
      subst he
      cases hg with
      | harvest hh =>
        have hsound := (ih h).later last fun _ _ he => by cases he
        refine ⟨hsound.gathered.resume hh, fun _ => hsound.unwritten (Harvest.written?_of_going hh),
          fun hw => ?_⟩
        rw [Work.written?_none] at hw
        cases hw
    | started hi hm he =>
      subst he
      cases hm
      exact (SoundHarvest.start before hi).later last fun _ _ he => by cases he
    | spawned _ _ hs => cases hs

/-- What a harvest of a run has done when it ends with a result. -/
structure AllOrNothing (id : Nat) (key : ObjectKey) (history : List (Site × Move)) (t : Site)
    (result : Except HarvestError Report) : Prop where
  synthesized {report : Report} (h : result = .ok report) :
    Synthesized key (openings id history) (fetches id history) report
  stored {report : Report} (h : result = .ok report) :
    WroteOnce id key (fun s => { s with report := some report }) history t
  nothing {e : HarvestError} (h : result = .error e) : stores id history = []

theorem AllOrNothing.later {key : ObjectKey} {result : Except HarvestError Report}
    (h : AllOrNothing id key history t result) (hs : t.Step m t')
    (hm : ∀ work event, m ≠ .receive id work event) :
    AllOrNothing id key ((t, m) :: history) t' result := by
  constructor
  · rw [openings, fetches, told_other hm, told_other hm]
    exact h.synthesized
  · exact fun hr => (h.stored hr).later hs hm
  · rw [stores, told_other hm]
    exact h.nothing

/-- A harvest that comes to its end. -/
theorem SoundHarvest.ended {event : w.wait.Event} {now : Instant}
    {result : Except HarvestError Report} (h : SoundHarvest id history t w (some event))
    (hw : w.resume now event = .ended result) :
    AllOrNothing id w.settings.run history t result := by
  constructor
  · rintro report rfl
    exact (h.gathered.returned hw).1
  · rintro report rfl
    obtain ⟨_, u, stored, hwritten, hkey, hchange⟩ := h.gathered.returned hw
    rw [← hkey, ← hchange]
    exact h.written hwritten
  · rintro e rfl
    exact h.unwritten (Harvest.written?_of_failed hw)

/-- A harvest is all or nothing. If it returns a report, then it has read one file and one run, has
made the report from them, and has had one write accepted, which put the report into the status of
the run and left everything else as it was. If it fails, then none of its writes was accepted. -/
theorem harvest_all_or_nothing (h : Execution Step {} history t)
    {result : Except HarvestError Report}
    (hp : t.operator.progress? id = some (.ended (.harvested result))) :
    ∃ settings retry token,
      (t.operator.threads[id]?).map (·.origin) = some (.harvest (.start settings retry token)) ∧
        AllOrNothing id settings.run history t result := by
  induction h with
  | start => cases hp
  | @next history s s' m before last ih =>
    obtain ⟨x, hx, hp⟩ := Operator.progress?_eq_some.mp hp
    rw [hx, Option.map_some]
    cases last.1.comes hx with
    | kept hm hs =>
      obtain ⟨settings, retry, token, ho, hdone⟩ := ih (Operator.progress?_eq_some.mpr ⟨x, hs, hp⟩)
      rw [hs, Option.map_some] at ho
      exact ⟨settings, retry, token, ho,
        hdone.later last fun work event he => hm (by rw [he]; rfl)⟩
    | received _ _ _ he | started _ _ he | spawned _ _ _ _ he =>
      subst he
      cases hp
    | @resumed y work event hs hw he =>
      subst he
      generalize hn : (work.resume _ _ event).next = next at hp
      cases next with
      | going new => cases hp
      | ended r =>
        cases hp
        cases Operator.ends hn with
        | @harvest w event _ hended =>
          obtain ⟨retry, token, ho⟩ := Operator.harvest_origin (operator_execution before) hs hw
          have hsound := soundHarvest before (Operator.progress?_eq_some.mpr ⟨y, hs, hw⟩)
          exact ⟨w.settings, retry, token, congrArg some ho,
            (hsound.ended hended).later last fun _ _ he => by cases he⟩

def report? (t : Site) (id : Nat) : Option Report :=
  match t.operator.progress? id with
  | some (.ended (.harvested (.ok report))) => some report
  | _ => none

theorem report?_eq_some {report : Report} :
    t.report? id = some report ↔
      t.operator.progress? id = some (.ended (.harvested (.ok report))) := by
  constructor
  · intro h
    unfold report? at h
    split at h
    · rename_i hp
      cases h
      exact hp
    · cases h
  · intro h
    rw [report?, h]

/-- A harvester finds a file with one failed case. Between its read of the run and its write of the
report somebody else writes a phase. -/
def reported : List (Site × Move) × Site :=
  let file : FileState :=
    .file "\x7b\"claim\":\x7b\"results\":\x7b\"a\":\x7b\"state\":\"failed\"\x7d\x7d\x7d\x7d".toUTF8
  play (Sample.opening "first" ++
    [.harvest { resultsFolder := "/results", run := Sample.key } {} ⟨0⟩, .look 0 file, .resume 0,
      .pass ⟨5000000000⟩, .wake 0, .resume 0, .look 0 file, .resume 0] ++ Sample.exchanges 0 1 ++
    .update Sample.key {} (fun s => { s with phase := .running }) :: Sample.exchanges 1 2 ++
    Sample.exchanges 0 2)

/-- Its report stands in the status of the run, beside that phase. -/
theorem harvest_all_or_nothing_reported :
    (reported.2.store.runs.get? Sample.key).map (fun run =>
        (run.status.phase, run.status.report.map (·.verdict))) = some (.running, some .fail) ∧
      Execution Step {} reported.1 reported.2 ∧
      ∃ report, reported.2.operator.progress? 0 = some (.ended (.harvested (.ok report))) ∧
        ∃ settings retry token,
          (reported.2.operator.threads[0]?).map (·.origin) =
              some (.harvest (.start settings retry token)) ∧
            AllOrNothing 0 settings.run reported.1 reported.2 (.ok report) := by
  have h : Execution Step {} reported.1 reported.2 := play_execution _
  have hreport : (reported.2.report? 0).isSome = true := by decide +kernel
  obtain ⟨report, hreport⟩ := Option.isSome_iff_exists.mp hreport
  have hp := report?_eq_some.mp hreport
  exact ⟨by decide +kernel, h, report, hp, harvest_all_or_nothing h hp⟩

end Site

end CertRuns
