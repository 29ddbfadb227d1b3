import CertRuns.Harvest.Basic

/-!
# What a step of a harvest can do

* `Harvest.Resumes now w event turn` : all that can come of a harvest that is given `event`;
* `Harvest.resumes` : what `Harvest.resume` does is one of these.
-/

namespace CertRuns.Harvest

/-- All that can come of a step of a harvest. -/
inductive Resumes (now : Instant) : (w : Harvest) → w.wait.Event → Turn → Prop
  /-- The file is not there yet. -/
  | absent {settings : HarvestSettings} {retry : RetryPolicy} {token : Token} :
      Resumes now ⟨settings, retry, token, .looking⟩ .missing
        (.going ⟨settings, retry, token, .resting (now.after settings.pollInterval)⟩)
  /-- The file is there. -/
  | present {settings : HarvestSettings} {retry : RetryPolicy} {token : Token} {file : FileState}
      (hf : file ≠ .missing) :
      Resumes now ⟨settings, retry, token, .looking⟩ file
        (.going ⟨settings, retry, token, .settling (now.after settings.settleDelay)⟩)
  /-- It looks again. -/
  | again {settings : HarvestSettings} {retry : RetryPolicy} {token : Token} {wake : Instant} :
      Resumes now ⟨settings, retry, token, .resting wake⟩ .tick
        (.going ⟨settings, retry, token, .looking⟩)
  /-- It is cancelled. -/
  | cancelled {settings : HarvestSettings} {retry : RetryPolicy} {token : Token} {wake : Instant}
      {alarm : Alarm} (ha : alarm ≠ .tick) :
      Resumes now ⟨settings, retry, token, .resting wake⟩ alarm (.ended (.error .cancelled))
  /-- The suite has had time to finish the file. -/
  | settled {settings : HarvestSettings} {retry : RetryPolicy} {token : Token} {wake : Instant} :
      Resumes now ⟨settings, retry, token, .settling wake⟩ ()
        (.going ⟨settings, retry, token, .opening⟩)
  /-- The file cannot be read any more. -/
  | unreadable {settings : HarvestSettings} {retry : RetryPolicy} {token : Token} {file : FileState}
      (hf : ∀ content, file ≠ .file content) :
      Resumes now ⟨settings, retry, token, .opening⟩ file (.ended (.error .unreadable))
  /-- The file holds no results. -/
  | undecodable {settings : HarvestSettings} {retry : RetryPolicy} {token : Token}
      {content : ByteArray} (hf : ClaimFile.ofBytes? content = none) :
      Resumes now ⟨settings, retry, token, .opening⟩ (.file content) (.ended (.error .undecodable))
  /-- The file holds results. -/
  | decoded {settings : HarvestSettings} {retry : RetryPolicy} {token : Token} {content : ByteArray}
      {file : ClaimFile} (hf : ClaimFile.ofBytes? content = some file) :
      Resumes now ⟨settings, retry, token, .opening⟩ (.file content)
        (.going ⟨settings, retry, token, .fetching file⟩)
  /-- The run could not be read. -/
  | unfetched {settings : HarvestSettings} {retry : RetryPolicy} {token : Token} {file : ClaimFile}
      {e : ClusterError} :
      Resumes now ⟨settings, retry, token, .fetching file⟩ (.error e) (.ended (.error (.cluster e)))
  /-- The report is made, and will be written. -/
  | fetched {settings : HarvestSettings} {retry : RetryPolicy} {token : Token} {file : ClaimFile}
      {run : Run} :
      Resumes now ⟨settings, retry, token, .fetching file⟩ (.ok run)
        (.going ⟨settings, retry, token, .storing (synthesize file run.spec.reportOptions)
          (.start settings.run retry fun s =>
            { s with report := some (synthesize file run.spec.reportOptions) })⟩)
  /-- The report is still being written. -/
  | storing {settings : HarvestSettings} {retry : RetryPolicy} {token : Token} {report : Report}
      {u u' : StatusUpdate} {event : u.wait.Event} (hu : u.resume now event = .going u') :
      Resumes now ⟨settings, retry, token, .storing report u⟩ event
        (.going ⟨settings, retry, token, .storing report u'⟩)
  /-- The report is written. -/
  | stored {settings : HarvestSettings} {retry : RetryPolicy} {token : Token} {report : Report}
      {u : StatusUpdate} {event : u.wait.Event} {run : Run}
      (hu : u.resume now event = .ended (.ok run)) :
      Resumes now ⟨settings, retry, token, .storing report u⟩ event (.ended (.ok report))
  /-- The report could not be written. -/
  | unstored {settings : HarvestSettings} {retry : RetryPolicy} {token : Token} {report : Report}
      {u : StatusUpdate} {event : u.wait.Event} {e : ClusterError}
      (hu : u.resume now event = .ended (.error e)) :
      Resumes now ⟨settings, retry, token, .storing report u⟩ event (.ended (.error (.cluster e)))

theorem resumes {now : Instant} {w : Harvest} {event : w.wait.Event} {turn : Turn}
    (h : w.resume now event = turn) : Resumes now w event turn := by
  obtain ⟨settings, retry, token, stage⟩ := w
  subst h
  cases stage with
  | looking =>
    cases event with
    | missing => exact .absent
    | directory | file => exact .present nofun
  | resting wake =>
    cases event with
    | tick => exact .again
    | cancelled | deadline => exact .cancelled nofun
  | settling wake => exact .settled
  | opening =>
    cases event with
    | missing | directory => exact .unreadable nofun
    | file content =>
      simp only [resume, afterOpen]
      cases hf : ClaimFile.ofBytes? content with
      | none => exact .undecodable hf
      | some file => exact .decoded hf
  | fetching file =>
    cases event with
    | error e => exact .unfetched
    | ok run => exact .fetched
  | storing report u =>
    simp only [resume]
    cases hu : u.resume now event with
    | going u' => exact .storing hu
    | ended result =>
      cases result with
      | ok run => exact .stored hu
      | error e => exact .unstored hu

theorem Resumes.settings_going {now : Instant} {w w' : Harvest} {event : w.wait.Event}
    (h : Resumes now w event (.going w')) : w'.settings = w.settings := by
  cases h <;> rfl

end CertRuns.Harvest
