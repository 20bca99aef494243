import HttpRoutes.Proofs.Rule.Reload

/-!
# What a watcher publishes

A watcher reacts to every report, but only those that ask for a reload matter to
the published table.  Over a whole run the handle and the announced tables are
those of the reloads, so the descriptions of what is published hold for a watcher
as well.

The log tells of every publication how many routes the new table has and how
many the one it replaces.  Nothing else in the log looks like a publication, and
the tables that it tells of form a chain: the announced ones in order, each put
in place of the one before, and the first in place of the initial one.
-/

namespace HttpRoutes

/-- The contents that are read again after some reports. -/
def reloadedContents (reports : List WatchReport) :
    List (Except FileError String) :=
  reports.filterMap WatchReport.reloaded?

theorem reloadedContents_cons_of_none {report : WatchReport}
    (hnone : report.reloaded? = none) (reports : List WatchReport) :
    reloadedContents (report :: reports) = reloadedContents reports :=
  List.filterMap_cons_none hnone

theorem reloadedContents_cons_of_some {report : WatchReport}
    {content : Except FileError String}
    (hcontent : report.reloaded? = some content) (reports : List WatchReport) :
    reloadedContents (report :: reports) = content :: reloadedContents reports :=
  List.filterMap_cons_some hcontent

def LogEvent.isPublication : LogEvent → Bool
  | .matcherPublished .. => true
  | _ => false

def publications (events : List LogEvent) : List LogEvent :=
  events.filter LogEvent.isPublication

@[simp] theorem publications_nil : publications [] = [] := rfl

@[simp] theorem publications_append (front tail : List LogEvent) :
    publications (front ++ tail) = publications front ++ publications tail :=
  List.filter_append _ _

/-! ## Reading the file -/

theorem publications_registration (registration : Registration) :
    publications registration.events = [] := by
  cases registration <;> rfl

theorem publications_registerSpecs (settings : TableSettings)
    (specs : List RouteSpec) (progress : TableProgress) :
    publications (registerSpecs settings progress specs).events = [] := by
  induction specs generalizing progress with
  | nil => rfl
  | cons spec specs ih =>
      rw [registerSpecs]
      dsimp only
      split
      · rw [Logged.events_after, publications_append, publications_registration,
          ih, List.append_nil]
      · rfl
      · rw [Logged.events_after, publications_append, ih, List.append_nil]
        rfl

theorem publications_buildMatcher (settings : TableSettings)
    (specs : List RouteSpec) :
    publications (buildMatcher settings specs).events = [] := by
  have hregistered := publications_registerSpecs settings specs ⟨.empty, 0⟩
  rw [buildMatcher]
  split
  · exact hregistered
  · rw [publications_append, hregistered]
    rfl

/-- Building a table publishes nothing. -/
theorem publications_readMatcher (settings : TableSettings) (path : String)
    (content : Except FileError String) :
    publications (readMatcher settings path content).events = [] := by
  unfold readMatcher
  split
  · rfl
  · split
    · rfl
    · exact publications_buildMatcher settings _

/-! ## Following a verdict -/

namespace ReloadVerdict

variable (path : String) (handle : Handle String) (verdict : ReloadVerdict)

theorem table_eq (current : Matcher String) :
    verdict.table current = verdict.announced?.getD current := by
  cases verdict <;> rfl

theorem load_apply :
    (verdict.apply path handle).handle.load = verdict.table handle.load := by
  cases verdict <;> rfl

theorem announced_apply :
    (verdict.apply path handle).announced = verdict.announced?.toList := by
  cases verdict <;> rfl

/-- A publication is logged with the number of routes before and after it. -/
theorem publications_apply :
    publications (verdict.apply path handle).events =
      verdict.announced?.toList.map fun table =>
        .matcherPublished table.size handle.load.size := by
  cases verdict <;> rfl

end ReloadVerdict

namespace WatchReport

variable (settings : TableSettings) (path : String)

/-! ## One report -/

theorem react_of_not_reloaded {report : WatchReport}
    (hnone : report.reloaded? = none) (handle : Handle String) :
    (report.react settings path handle).handle = handle ∧
      (report.react settings path handle).announced = [] ∧
      publications (report.react settings path handle).events = [] := by
  cases report with
  | failure error => exact ⟨rfl, rfl, rfl⟩
  | change kind content =>
      have hkind : kind.asksForReload = false := by
        simpa [reloaded?] using hnone
      simp [react, hkind]

theorem react_of_reloaded {report : WatchReport}
    {content : Except FileError String}
    (hcontent : report.reloaded? = some content) (handle : Handle String) :
    let verdict := reload settings path handle.load content
    (report.react settings path handle).handle.load =
        verdict.table handle.load ∧
      (report.react settings path handle).announced =
        verdict.announced?.toList ∧
      publications (report.react settings path handle).events =
        verdict.announced?.toList.map fun table =>
          .matcherPublished table.size handle.load.size := by
  intro verdict
  cases report with
  | failure error => simp [reloaded?] at hcontent
  | change kind other =>
      obtain ⟨hkind, rfl⟩ : kind.asksForReload = true ∧ other = content := by
        simpa [reloaded?] using hcontent
      rw [react, if_pos hkind]
      refine ⟨verdict.load_apply path handle, verdict.announced_apply path handle, ?_⟩
      rw [publications_append, publications_readMatcher, List.nil_append]
      exact verdict.publications_apply path handle

/-! ## Whole runs -/

/-- The handle and the announced tables of a watched run are those of reloading
what is read again. -/
theorem reactAll_eq_reloadAll (handle : Handle String)
    (reports : List WatchReport) :
    (reactAll settings path handle reports).handle.load =
        (reloadAll settings path handle.load (reloadedContents reports)).2 ∧
      (reactAll settings path handle reports).announced =
        announcedTables
          (reloadAll settings path handle.load (reloadedContents reports)).1 := by
  induction reports generalizing handle with
  | nil => exact ⟨rfl, rfl⟩
  | cons report reports ih =>
      obtain ⟨hload, hannounced⟩ :=
        ih (report.react settings path handle).handle
      simp only [reactAll]
      rw [hload, hannounced]
      cases hcontent : report.reloaded? with
      | none =>
          obtain ⟨hhandle, hsilent, _⟩ :=
            react_of_not_reloaded settings path hcontent handle
          rw [hhandle, hsilent, reloadedContents_cons_of_none hcontent]
          exact ⟨rfl, rfl⟩
      | some content =>
          obtain ⟨hhandle, hverdict, _⟩ :=
            react_of_reloaded settings path hcontent handle
          rw [hhandle, hverdict, reloadedContents_cons_of_some hcontent,
            published_reloadAll_cons, announcedTables_reloadAll_cons]
          exact ⟨rfl, rfl⟩

/-- What a watcher has published in the end, and what it has announced on the
way, told by the tables that the file has yielded. -/
theorem reactAll_eq_latestTable (handle : Handle String)
    (reports : List WatchReport) :
    let loaded := loadedTables settings path (reloadedContents reports)
    (reactAll settings path handle reports).handle.load =
        latestTable handle.load loaded ∧
      (reactAll settings path handle reports).announced =
        publishedTables handle.load loaded := by
  obtain ⟨hload, hannounced⟩ :=
    reactAll_eq_reloadAll settings path handle reports
  obtain ⟨hlatest, hpublished⟩ :=
    reloadAll_eq_latestTable settings path handle.load (reloadedContents reports)
  exact ⟨hload.trans hlatest, hannounced.trans hpublished⟩

/-- The publications in the log are those of the announced tables, each in place
of the one before. -/
theorem publications_reactAll (handle : Handle String)
    (reports : List WatchReport) :
    let announced := (reactAll settings path handle reports).announced
    publications (reactAll settings path handle reports).events =
      List.zipWith
        (fun table previous => .matcherPublished table.size previous.size)
        announced (handle.load :: announced) := by
  induction reports generalizing handle with
  | nil => rfl
  | cons report reports ih =>
      have hlater := ih (report.react settings path handle).handle
      simp only [reactAll, publications_append] at hlater ⊢
      rw [hlater]
      cases hcontent : report.reloaded? with
      | none =>
          obtain ⟨hhandle, hsilent, hnothing⟩ :=
            react_of_not_reloaded settings path hcontent handle
          rw [hhandle, hsilent, hnothing]
          rfl
      | some content =>
          obtain ⟨hload, hverdict, hlogged⟩ :=
            react_of_reloaded settings path hcontent handle
          rw [hload, hverdict, hlogged, ReloadVerdict.table_eq]
          -- The later publications start from the table that is in place now.
          cases (reload settings path handle.load content).announced? with
          | none => rfl
          | some table => rfl

/-- Only the second report publishes: a file that somebody reads is not read
again, and an empty one is taken to be half written. -/
example :
    let rules := "http:\n  rules:\n  - selector: list\n    get: /v1/books\n"
    let reaction := reactAll ⟨.reject, .abort, 0⟩ "rules.yaml"
      ⟨Builder.empty.build⟩
      [.change .access (.ok rules), .change .modify (.ok rules),
        .change .create (.ok ""), .failure "gone"]
    publications reaction.events = [.matcherPublished 1 0] ∧
      reaction.announced.map Matcher.size = [1] ∧
      reaction.events.getLast? = some (.watchFailed "gone") := by
  decide +kernel

end WatchReport
end HttpRoutes
