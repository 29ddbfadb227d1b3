import CertRuns.Run.Basic

/-!
# Comparing listings of runs

A watcher knows the runs that it has seen. A new listing is compared with them: runs that appeared
and runs that vanished are events, runs that stay are not.

* `KeySet` : the keys of the runs that were seen;
* `appeared`, `vanished` : the two kinds of events;
* `compareListing` : all events of a listing, and the runs that were seen after it.
-/

namespace CertRuns

abbrev KeySet := Table ObjectKey Unit

def KeySet.ofKeys (keys : List ObjectKey) : KeySet := Table.ofList (keys.map (·, ()))

/-- The keys of runs that were not known, in the order of the listing, and the keys known after it.
In the first listing, a run that has come to its end before is only noted. -/
def appeared (initial : Bool) (known : KeySet) : List Run → List ObjectKey × KeySet
  | [] => ([], known)
  | run :: runs =>
    if known.contains run.key then appeared initial known runs
    else
      let (events, seen) := appeared initial (known.insert run.key ()) runs
      (if initial && run.status.phase.isTerminal then events else run.key :: events, seen)

def vanished (known : KeySet) (listed : List Run) : List ObjectKey :=
  let current := KeySet.ofKeys (listed.map Run.key)
  known.keys.filter fun key => !current.contains key

def compareListing (known : KeySet) (listed : List Run) (initial : Bool) :
    List ObjectKey × KeySet :=
  let (new, seen) := appeared initial known listed
  let gone := vanished seen listed
  (new ++ gone, gone.foldl Table.erase seen)

end CertRuns
