import HttpRoutes.Rule.Reload

/-!
# What is published over a whole run

Whether a new table is published depends on the one that is published then, and
so on all changes before.  What is published in the end can be said without
following the run: it is the last table loaded that has routes.  Where there is
none, the first table stays if it has routes, and otherwise every table that
loads takes its place.

The tables announced on the way are described in the same manner.  Both
descriptions are shown to move like a single change does, and the statements
about runs follow by induction on the contents of the file.
-/

namespace HttpRoutes

def Matcher.hasRoutes {α : Type} (table : Matcher α) : Bool :=
  !table.routes.isEmpty

/-- The tables that the contents of the file yield, in order.  A content that
yields none is passed over. -/
def loadedTables (settings : TableSettings) (path : String)
    (contents : List (Except FileError String)) : List (Matcher String) :=
  contents.filterMap fun content => (loadMatcher settings path content).toOption

/-- What is published after some tables have been loaded. -/
def latestTable (initial : Matcher String) (loaded : List (Matcher String)) :
    Matcher String :=
  match (loaded.filter Matcher.hasRoutes).getLast? with
  | some table => table
  | none => if initial.hasRoutes then initial else loaded.getLast?.getD initial

/-- Those of the loaded tables that are published: as long as the published table
has no routes every one, and from then on those that have routes. -/
def publishedTables (initial : Matcher String) (loaded : List (Matcher String)) :
    List (Matcher String) :=
  if initial.hasRoutes then loaded.filter Matcher.hasRoutes
  else loaded.takeWhile (!·.hasRoutes) ++
    (loaded.dropWhile (!·.hasRoutes)).filter Matcher.hasRoutes

def announcedTables (verdicts : List ReloadVerdict) : List (Matcher String) :=
  verdicts.filterMap ReloadVerdict.announced?

/-- Whether a loaded table takes the place of the published one. -/
def Matcher.replaces (table current : Matcher String) : Bool :=
  table.hasRoutes || !current.hasRoutes

/-! ## One change -/

/-- A change publishes and announces the table that the file yields, or it does
neither. -/
theorem reload_cases (settings : TableSettings) (path : String)
    (current : Matcher String) (content : Except FileError String) :
    (∃ table, loadMatcher settings path content = .ok table ∧
      table.replaces current = true ∧
      reload settings path current content = .published table) ∨
    ((∀ table, loadMatcher settings path content = .ok table →
        table.replaces current = false) ∧
      (reload settings path current content).announced? = none ∧
      (reload settings path current content).table current = current) := by
  unfold reload
  cases loadMatcher settings path content with
  | error cause => exact .inr ⟨nofun, rfl, rfl⟩
  | ok table =>
      have hreplaces : table.replaces current =
          !(table.routes.isEmpty && !current.routes.isEmpty) := by
        simp [Matcher.replaces, Matcher.hasRoutes]
      cases hempty : table.routes.isEmpty && !current.routes.isEmpty with
      | true =>
          have hverdict : ReloadVerdict.ofLoad current (.ok table) =
              .keptForEmpty := by
            simp [ReloadVerdict.ofLoad, hempty]
          rw [hempty] at hreplaces
          rw [hverdict]
          refine .inr ⟨?_, rfl, rfl⟩
          intro other hother
          exact Except.ok.inj hother ▸ hreplaces
      | false =>
          rw [hempty] at hreplaces
          exact .inl ⟨table, rfl, hreplaces, by simp [ReloadVerdict.ofLoad, hempty]⟩

/-- A table with routes is followed by tables with routes only. -/
theorem hasRoutes_table_reload {current : Matcher String}
    (hroutes : current.hasRoutes = true) (settings : TableSettings)
    (path : String) (content : Except FileError String) :
    ((reload settings path current content).table current).hasRoutes = true := by
  rcases reload_cases settings path current content with
    ⟨table, _, hreplaces, hverdict⟩ | ⟨_, _, hsame⟩
  · have htable : table.hasRoutes = true := by
      simpa [Matcher.replaces, hroutes] using hreplaces
    rw [hverdict]
    exact htable
  · rw [hsame]
    exact hroutes

/-! ## One more table -/

theorem latestTable_cons (initial table : Matcher String)
    (loaded : List (Matcher String)) :
    latestTable initial (table :: loaded) =
      latestTable (if table.replaces initial then table else initial) loaded := by
  unfold latestTable Matcher.replaces
  cases hlast : (loaded.filter Matcher.hasRoutes).getLast? with
  | some last =>
      cases htable : table.hasRoutes <;>
        simp [htable, hlast, List.getLast?_cons]
  | none =>
      cases htable : table.hasRoutes <;> cases hinitial : initial.hasRoutes <;>
        simp [htable, hinitial, hlast, List.getLast?_cons]

theorem publishedTables_cons_of_replaces {initial table : Matcher String}
    (hreplaces : table.replaces initial = true) (loaded : List (Matcher String)) :
    publishedTables initial (table :: loaded) =
      table :: publishedTables table loaded := by
  unfold Matcher.replaces at hreplaces
  unfold publishedTables
  cases htable : table.hasRoutes <;> cases hinitial : initial.hasRoutes <;>
    simp_all

theorem publishedTables_cons_of_not_replaces {initial table : Matcher String}
    (hreplaces : table.replaces initial = false) (loaded : List (Matcher String)) :
    publishedTables initial (table :: loaded) = publishedTables initial loaded := by
  unfold Matcher.replaces at hreplaces
  unfold publishedTables
  cases htable : table.hasRoutes <;> cases hinitial : initial.hasRoutes <;>
    simp_all

/-! ## Whole runs -/

section Run

variable (settings : TableSettings) (path : String) (initial : Matcher String)

theorem reloadAll_append (before after : List (Except FileError String)) :
    reloadAll settings path initial (before ++ after) =
      ((reloadAll settings path initial before).1 ++
          (reloadAll settings path (reloadAll settings path initial before).2
            after).1,
        (reloadAll settings path (reloadAll settings path initial before).2
          after).2) := by
  induction before generalizing initial with
  | nil => rfl
  | cons content before ih =>
      simp only [List.cons_append, reloadAll, ih]

theorem announcedTables_reloadAll_cons (content : Except FileError String)
    (contents : List (Except FileError String)) :
    announcedTables (reloadAll settings path initial (content :: contents)).1 =
      (reload settings path initial content).announced?.toList ++
        announcedTables
          (reloadAll settings path
            ((reload settings path initial content).table initial) contents).1 := by
  rw [reloadAll, announcedTables, List.filterMap_cons]
  cases (reload settings path initial content).announced? <;> rfl

/-- The table published in the end and the tables announced on the way. -/
theorem reloadAll_eq_latestTable (contents : List (Except FileError String)) :
    (reloadAll settings path initial contents).2 =
        latestTable initial (loadedTables settings path contents) ∧
      announcedTables (reloadAll settings path initial contents).1 =
        publishedTables initial (loadedTables settings path contents) := by
  induction contents generalizing initial with
  | nil =>
      constructor
      · simp [loadedTables, latestTable]
      · simp [loadedTables, publishedTables, announcedTables]
  | cons content contents ih =>
      rw [published_reloadAll_cons, announcedTables_reloadAll_cons]
      rcases reload_cases settings path initial content with
        ⟨table, hload, hreplaces, hverdict⟩ | ⟨hpassed, hsilent, hsame⟩
      · have hloaded : loadedTables settings path (content :: contents) =
            table :: loadedTables settings path contents :=
          List.filterMap_cons_some (by rw [hload]; rfl)
        obtain ⟨hlatest, hannounced⟩ := ih table
        rw [hverdict, hloaded, latestTable_cons, hreplaces,
          publishedTables_cons_of_replaces hreplaces]
        exact ⟨hlatest, congrArg (table :: ·) hannounced⟩
      · rw [hsame, hsilent, Option.toList_none, List.nil_append]
        cases hload : loadMatcher settings path content with
        | error cause =>
            have hloaded : loadedTables settings path (content :: contents) =
                loadedTables settings path contents :=
              List.filterMap_cons_none (by rw [hload]; rfl)
            rw [hloaded]
            exact ih initial
        | ok table =>
            have hloaded : loadedTables settings path (content :: contents) =
                table :: loadedTables settings path contents :=
              List.filterMap_cons_some (by rw [hload]; rfl)
            have hreplaces := hpassed table hload
            rw [hloaded, latestTable_cons, hreplaces,
              publishedTables_cons_of_not_replaces hreplaces]
            exact ih initial

theorem hasRoutes_reloadAll (hroutes : initial.hasRoutes = true)
    (contents : List (Except FileError String)) :
    (reloadAll settings path initial contents).2.hasRoutes = true := by
  induction contents generalizing initial with
  | nil => exact hroutes
  | cons content contents ih =>
      rw [published_reloadAll_cons]
      exact ih _ (hasRoutes_table_reload hroutes settings path content)

/-- What one more change does at the end of a run. -/
theorem reloadAll_append_singleton (contents : List (Except FileError String))
    (content : Except FileError String) :
    let current := (reloadAll settings path initial contents).2
    let verdict := reload settings path current content
    (reloadAll settings path initial (contents ++ [content])).2 =
        verdict.table current ∧
      announcedTables (reloadAll settings path initial (contents ++ [content])).1 =
        announcedTables (reloadAll settings path initial contents).1 ++
          verdict.announced?.toList := by
  intro current verdict
  rw [reloadAll_append]
  refine ⟨rfl, ?_⟩
  rw [announcedTables, List.filterMap_append]
  rfl

/-- The published table is the last one announced. -/
theorem published_eq_getLast?_announced (contents : List (Except FileError String)) :
    (reloadAll settings path initial contents).2 =
      (announcedTables (reloadAll settings path initial contents).1).getLast?.getD
        initial := by
  induction contents generalizing initial with
  | nil => rfl
  | cons content contents ih =>
      rw [published_reloadAll_cons, ih, reloadAll]
      cases reload settings path initial content with
      | published table =>
          have hlast := List.getLast?_cons (a := table)
            (l := announcedTables (reloadAll settings path table contents).1)
          exact (congrArg (·.getD initial) hlast).symm
      | keptForEmpty => rfl
      | keptForError cause => rfl

/-- At every point of a run, the published table is the last one loaded with
routes, as long as there is one, and it never loses all routes again.  A change
publishes and announces the table it yields, or it does neither. -/
theorem reloadAll_publishes_latest (before after : List (Except FileError String)) :
    let published := fun contents => (reloadAll settings path initial contents).2
    let verdicts := fun contents => (reloadAll settings path initial contents).1
    let announced := fun contents => announcedTables (verdicts contents)
    let loaded := loadedTables settings path before
    verdicts (before ++ after) = verdicts before ++
        (reloadAll settings path (published before) after).1 ∧
      published before = latestTable initial loaded ∧
      ((published before).hasRoutes = true →
        (published (before ++ after)).hasRoutes = true) ∧
      announced before = publishedTables initial loaded ∧
      published before = (announced before).getLast?.getD initial ∧
      ∀ content,
        (∃ table, loadMatcher settings path content = .ok table ∧
          table.replaces (published before) = true ∧
          published (before ++ [content]) = table ∧
          announced (before ++ [content]) = announced before ++ [table]) ∨
        ((∀ table, loadMatcher settings path content = .ok table →
            table.replaces (published before) = false) ∧
          published (before ++ [content]) = published before ∧
          announced (before ++ [content]) = announced before) := by
  intro published verdicts announced loaded
  obtain ⟨hlatest, hannounced⟩ :=
    reloadAll_eq_latestTable settings path initial before
  have happend := reloadAll_append settings path initial before after
  refine ⟨congrArg Prod.fst happend, hlatest, ?_, hannounced,
    published_eq_getLast?_announced settings path initial before, ?_⟩
  · intro hroutes
    have hlater := hasRoutes_reloadAll settings path (published before) hroutes after
    rwa [← congrArg Prod.snd happend] at hlater
  · intro content
    obtain ⟨hnext, hmore⟩ :=
      reloadAll_append_singleton settings path initial before content
    rcases reload_cases settings path (published before) content with
      ⟨table, hload, hreplaces, hverdict⟩ | ⟨hpassed, hsilent, hsame⟩
    · rw [hverdict] at hnext hmore
      exact .inl ⟨table, hload, hreplaces, hnext, hmore⟩
    · rw [hsilent, Option.toList_none, List.append_nil] at hmore
      exact .inr ⟨hpassed, hnext.trans hsame, hmore⟩

end Run

/-- Neither a document that is cut off nor a file that is gone or empty takes the
routes away. -/
theorem reloadAll_publishes_latest_with_half_written_file :
    let settings : TableSettings := ⟨.reject, .abort, 0⟩
    let whole : List (Except FileError String) :=
      [.ok "", .ok "http:\n  rules:\n  - selector: list\n    get: /v1/books\n"]
    let broken : List (Except FileError String) :=
      [.ok "http: [", .error .notFound, .ok ""]
    (reloadAll settings "rules.yaml" Builder.empty.build whole).2.hasRoutes =
        true ∧
      (reloadAll settings "rules.yaml" Builder.empty.build
        (whole ++ broken)).2.hasRoutes = true := by
  intro settings whole broken
  have hroutes : (reloadAll settings "rules.yaml" Builder.empty.build
      whole).2.hasRoutes = true := by
    decide +kernel
  exact ⟨hroutes, (reloadAll_publishes_latest settings "rules.yaml"
    Builder.empty.build whole broken).2.2.1 hroutes⟩

end HttpRoutes
