import HttpRoutes.Router.Handle
import HttpRoutes.Rule.Table

/-!
# Reloading rules

A rule file is watched.  When it changes, a route table is built from what it
holds then and takes the place of the published one.  The published table stays
if the file yields none, and also if the new one is empty where the published
one is not, for then the file is taken to be half written.

The watcher reports whatever happens to the file, and errors of its own.  Only a
file that has been created or modified is read again.  Who asked for the reloads
is called with every table that they publish.
-/

namespace HttpRoutes

/-- What comes of a change of the rule file. -/
inductive ReloadVerdict where
  | published (table : Matcher String)
  | keptForEmpty
  | keptForError (cause : TableError)

namespace ReloadVerdict

/-- The verdict on a new table, given the published one. -/
def ofLoad (current : Matcher String) :
    Except TableError (Matcher String) → ReloadVerdict
  | .error cause => .keptForError cause
  | .ok table =>
    if table.routes.isEmpty && !current.routes.isEmpty then .keptForEmpty
    else .published table

/-- The table that is published from now on. -/
def table (current : Matcher String) : ReloadVerdict → Matcher String
  | .published table => table
  | .keptForEmpty => current
  | .keptForError _ => current

/-- The table that is announced as newly published. -/
def announced? : ReloadVerdict → Option (Matcher String)
  | .published table => some table
  | _ => none

def event (path : String) : ReloadVerdict → LogEvent
  | .published table => .reloadApplied path table.size
  | .keptForEmpty => .reloadEmpty path
  | .keptForError cause => .reloadFailed path (": ".intercalate cause.chain)

end ReloadVerdict

/-- What comes of a change after which the rule file has this content. -/
def reload (settings : TableSettings) (path : String) (current : Matcher String)
    (content : Except FileError String) : ReloadVerdict :=
  .ofLoad current (loadMatcher settings path content)

/-- The verdicts on a sequence of changes, and the table published in the end. -/
def reloadAll (settings : TableSettings) (path : String) (current : Matcher String) :
    List (Except FileError String) → List ReloadVerdict × Matcher String
  | [] => ([], current)
  | content :: contents =>
    let verdict := reload settings path current content
    let (verdicts, final) :=
      reloadAll settings path (verdict.table current) contents
    (verdict :: verdicts, final)

@[simp] theorem reloadAll_nil (settings : TableSettings) (path : String)
    (current : Matcher String) :
    reloadAll settings path current [] = ([], current) := rfl

theorem published_reloadAll_cons (settings : TableSettings) (path : String)
    (current : Matcher String) (content : Except FileError String)
    (contents : List (Except FileError String)) :
    (reloadAll settings path current (content :: contents)).2 =
      (reloadAll settings path
        ((reload settings path current content).table current) contents).2 := rfl

/-! ## Watching a file -/

/-- What can happen to a file. -/
inductive ChangeKind where
  | any
  | access
  | create
  | modify
  | remove
  | other
deriving DecidableEq

def ChangeKind.asksForReload : ChangeKind → Bool
  | .create => true
  | .modify => true
  | _ => false

/-- What a watcher reports: a change, given with what the file holds at the time,
or why it cannot watch. -/
inductive WatchReport where
  | change (kind : ChangeKind) (content : Except FileError String)
  | failure (error : String)

/-- The content that is read again after a report. -/
def WatchReport.reloaded? : WatchReport → Option (Except FileError String)
  | .change kind content => if kind.asksForReload then some content else none
  | .failure _ => none

/-- What a report leads to: a handle, the events on the way, and the tables that
are announced. -/
structure Reaction where
  handle : Handle String
  events : List LogEvent
  announced : List (Matcher String)

/-- Follow a verdict.  A table is announced as it is loaded after it has been
published. -/
def ReloadVerdict.apply (path : String) (handle : Handle String)
    (verdict : ReloadVerdict) : Reaction :=
  match verdict with
  | .published table =>
    let (handle, swapped) := handle.swap table
    ⟨handle, verdict.event path :: swapped.events, [handle.load]⟩
  | .keptForEmpty => ⟨handle, [verdict.event path], []⟩
  | .keptForError _ => ⟨handle, [verdict.event path], []⟩

namespace WatchReport

def react (settings : TableSettings) (path : String) (handle : Handle String) :
    WatchReport → Reaction
  | .failure error => ⟨handle, [.watchFailed error], []⟩
  | .change kind content =>
    if kind.asksForReload then
      let read := readMatcher settings path content
      let reaction :=
        (ReloadVerdict.ofLoad handle.load read.result).apply path handle
      { reaction with events := read.events ++ reaction.events }
    else
      ⟨handle, [], []⟩

/-- React to one report after the other. -/
def reactAll (settings : TableSettings) (path : String) (handle : Handle String) :
    List WatchReport → Reaction
  | [] => ⟨handle, [], []⟩
  | report :: reports =>
    let first := report.react settings path handle
    let later := reactAll settings path first.handle reports
    ⟨later.handle, first.events ++ later.events,
      first.announced ++ later.announced⟩

end WatchReport
end HttpRoutes
